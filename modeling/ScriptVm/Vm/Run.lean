import ScriptVm.Vm

/-!
# Running executions

An execution is run one turn at a time: an instruction of a script call, or the routine of a host
call. A callback of the embedding program may use the whole virtual machine, and it carries a state
of its own along.
-/
namespace ScriptVm

/-- What the embedding program does in a callback, by its number and by the number of the calling
execution. -/
abbrev Host (σ : Type) := Nat → Nat → Vm × σ → Vm × σ

namespace Execution

/-- Ends the call of a host function, unless its frame is no longer the innermost one. -/
def returnFrom (execution : Execution) (id : Nat) : Execution :=
  match execution.frames with
  | frame :: frames => if frame.id = id then { execution with frames } else execution
  | [] => execution

/-- Marks an execution as run and no longer waiting. -/
def resume (execution : Execution) : Execution :=
  { execution with flags := { execution.flags with started := true, yielded := false } }

/-- An execution that has ended, by whatever cause. -/
def ended (execution : Execution) : Bool :=
  execution.flags.finished || execution.flags.exception || execution.flags.aborted

end Execution

namespace Vm

variable {σ : Type}

/-- Ends the call of a host function after its routine. -/
def afterRoutine (vm : Vm) (id frame : Nat) : Vm :=
  match vm.execution? id with
  | some execution => vm.setExecution id (execution.returnFrom frame).settle
  | none => vm

/-- The call of a host function by an execution. -/
def callHost (host : Host σ) (id : Nat) (execution : Execution) (frame : Nat)
    (function : HostFunction) (world : Vm × σ) : Vm × σ :=
  let (vm, state) := world
  match vm.machine.registry.routine? function with
  | none =>
    (vm.act id fun machine =>
      let (machine, execution) :=
        execution.raiseFault machine (.unboundFunction function.signature)
      (machine, execution.settle), state)
  | some (.callback number) =>
    let (vm, state) := host number id (vm, state)
    (vm.afterRoutine id frame, state)
  | some routine =>
    let result := execution.routineResult vm.machine routine
    ((vm.act id fun machine => execution.finishRoutine machine result).afterRoutine id frame,
      state)

/-- One turn of an execution: one instruction, or one routine. -/
def turn (host : Host σ) (id : Nat) (execution : Execution) (world : Vm × σ) : Vm × σ :=
  let (vm, state) := world
  match execution.frames with
  | [] => (vm.setExecution id execution.settle, state)
  | .host frame function :: _ => callHost host id execution frame function (vm, state)
  | .script _ _ :: _ =>
    (vm.act id fun machine =>
      let (machine, execution) := execution.dispatch machine
      (machine, execution.settle), state)

/-- Turns until the execution stops. False when the fuel runs out first. -/
def turns (host : Host σ) (id : Nat) : Nat → Vm × σ → Bool × (Vm × σ)
  | 0, world => (false, world)
  | fuel + 1, world =>
    match world.1.execution? id with
    | none => (true, world)
    | some execution =>
      if execution.flags.stopped then (true, world)
      else if execution.frames.isEmpty then
        (true, (world.1.setExecution id execution.settle, world.2))
      else turns host id fuel (turn host id execution world)

/-- The execution about to take turns, marked as run; none when it has already ended, an error when
it has no call to run. -/
def ready (vm : Vm) (id : Nat) : Except Error (Option Execution) :=
  match vm.execution? id with
  | none => .error .invalidArgument
  | some execution =>
    if execution.ended then .ok none
    else if execution.frames.isEmpty then .error .stackEmpty
    else .ok (some execution.resume)

/-- Runs one turn of an execution. The world is returned with an error, too, so that it is never
shared and is changed in place. -/
def runStep (host : Host σ) (id : Nat) (world : Vm × σ) : Except Error Unit × (Vm × σ) :=
  match world.1.ready id with
  | .error error => (.error error, world)
  | .ok none => (.ok (), world)
  | .ok (some execution) =>
    (.ok (), turn host id execution (world.1.setExecution id execution, world.2))

/-- Runs an execution until it stops. False when the fuel runs out first. -/
def run (host : Host σ) (fuel : Nat) (id : Nat) (world : Vm × σ) :
    Except Error Bool × (Vm × σ) :=
  match world.1.ready id with
  | .error error => (.error error, world)
  | .ok none => (.ok true, world)
  | .ok (some execution) =>
    let (stopped, world) := turns host id fuel (world.1.setExecution id execution, world.2)
    (.ok stopped, world)

/-- Turns of an execution with collector steps after each, until the execution stops or a number of
turns is reached: how many turns, and how many completed collections, after those counted. -/
def runCollecting (host : Host σ) (id collectorSteps : Nat) :
    Nat → Nat × Nat → Vm × σ → Except Error (Nat × Nat) × (Vm × σ)
  | 0, counts, world => (.ok counts, world)
  | limit + 1, (turns, completed), world =>
    match (world.1.execution? id).map Execution.status with
    | some .created | some .running =>
      match runStep host id world with
      | (.error error, world) => (.error error, world)
      | (.ok (), (vm, state)) =>
        let (completed, vm) := vm.collectSteps collectorSteps completed
        runCollecting host id collectorSteps limit (turns + 1, completed) (vm, state)
    | _ => (.ok (turns, completed), world)

end Vm

end ScriptVm
