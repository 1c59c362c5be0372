import ScriptVm.Proofs.Revision.Execution
import ScriptVm.Proofs.Vm.Isolation

/-!
# What functions execute

For as long as an execution is inside a function, new code for modules does not matter to it, as
long as the function's own bytes stay: both worlds do the same, turn after turn, up to and including
the turn that leaves the function. Only an instruction that begins before the end of its function
and reaches beyond it is also told by the bytes there. It raises a runtime error when it passes the
end of the code as well, and otherwise it is performed.
-/
namespace ScriptVm

/-- An execution under its number whose functions have new code. -/
def HeldExecution.revise (revision : Revision) (held : HeldExecution) : HeldExecution :=
  { held with execution := held.execution.revise revision }

namespace Vm

/-- A virtual machine whose modules and functions have new code. -/
def revise (revision : Revision) (vm : Vm) : Vm :=
  { vm with
    machine := vm.machine.revise revision
    executions := vm.executions.map (HeldExecution.revise revision) }

/-- A world whose modules and functions have new code. -/
def reviseWorld {σ : Type} (revision : Revision) (world : Vm × σ) : Vm × σ :=
  (world.1.revise revision, world.2)

/-- The world after a number of turns of an execution. -/
def stepped {σ : Type} (host : Host σ) (id : Nat) : Nat → Vm × σ → Vm × σ
  | 0, world => world
  | count + 1, world => (runStep host id (stepped host id count world)).2

/-- The innermost call of an execution is a script call. -/
def Inside (vm : Vm) (id : Nat) (activation : Activation) : Prop :=
  ∃ execution number below, vm.execution? id = some execution ∧
    execution.frames = .script number activation :: below

section Parts

variable (revision : Revision) (vm : Vm) (id : Nat)

/-- A number leads to the revised execution. -/
theorem execution?_revise :
    (vm.revise revision).execution? id = (vm.execution? id).map (Execution.revise revision) := by
  unfold execution? revise
  dsimp only
  rw [List.find?_map, Option.map_map, Option.map_map]
  rfl

/-- Replacing the machine and an execution commutes with a revision. -/
theorem put_revise (state : Machine × Execution) :
    (vm.revise revision).put id (Execution.reviseState revision state) =
      (vm.put id state).revise revision := by
  simp only [put, setExecution, updateExecution, revise, List.map_map, Execution.reviseState]
  congr 1
  refine List.map_congr_left fun held _ => ?_
  simp only [Function.comp_apply]
  by_cases here : held.id = id
  · have here' : (held.revise revision).id = id := here
    rw [if_pos here, if_pos here']
    rfl
  · have other : ¬(held.revise revision).id = id := here
    rw [if_neg here, if_neg other]

end Parts

section Turns

variable {σ : Type} {vm : Vm} {id : Nat} {execution : Execution} {number : Nat}
  {activation : Activation} {below : List Frame}

/-- Running one turn of an execution inside a script function is dispatching an instruction, unless
the execution has ended. The embedding program is not called. -/
theorem runStep_inside (host : Host σ) (state : σ) (present : vm.execution? id = some execution)
    (stack : execution.frames = .script number activation :: below) :
    runStep host id (vm, state) =
      (.ok (), if execution.ended then vm else
        vm.put id ((execution.resume.dispatch vm.machine).1,
          (execution.resume.dispatch vm.machine).2.settle), state) := by
  have occupied : execution.frames.isEmpty = false := by rw [stack]; rfl
  have resumed : execution.resume.frames = .script number activation :: below := stack
  by_cases ended : execution.ended = true
  · simp [runStep, ready, present, ended]
  · have prepared : vm.ready id = .ok (some execution.resume) := by
      simp [ready, present, ended, occupied]
    have once : turn host id execution.resume (vm.setExecution id execution.resume, state) =
        ((vm.setExecution id execution.resume).put id
          ((execution.resume.dispatch vm.machine).1,
            (execution.resume.dispatch vm.machine).2.settle), state) := by
      unfold turn
      rw [resumed]
      rfl
    have twice := put_put vm id (vm.machine, execution.resume)
      ((execution.resume.dispatch vm.machine).1, (execution.resume.dispatch vm.machine).2.settle)
    simp only [runStep, prepared]
    rw [once, if_neg ended]
    exact congrArg (fun vm => (Except.ok (), vm, state)) twice

/-- Running one turn inside a script function is making proper calls, whatever the host. -/
theorem proper_runStep (host : Host σ) (state : σ) (inside : vm.Inside id activation) :
    RunsBy Call.Proper vm (runStep host id (vm, state)).2.1 := by
  obtain ⟨execution, number, below, present, stack⟩ := inside
  have aside := apart_runStep vm id
  rw [runStep_inside idle () present stack] at aside
  rw [runStep_inside host state present stack]
  exact runsBy_mono (fun _ _ allows => allows.1) aside

/-- Inside a function, running one turn commutes with a revision that leaves the function's own
bytes and spares what its next instruction reaches beyond them. -/
theorem Intact.runStep_revise {revision : Revision} (intact : vm.Intact) (host : Host σ) (state : σ)
    (inside : vm.Inside id activation) (leaves : revision.Leaves activation.function)
    (spares : revision.Spares activation) :
    runStep host id (reviseWorld revision (vm, state)) =
      ((runStep host id (vm, state)).1, reviseWorld revision (runStep host id (vm, state)).2) := by
  obtain ⟨execution, number, below, present, stack⟩ := inside
  have fine : activation.Intact :=
    (intact.execution present).frames (.script number activation) (stack ▸ List.mem_cons_self)
  have present' : (vm.revise revision).execution? id = some (execution.revise revision) := by
    rw [execution?_revise, present]
    rfl
  have stack' : (execution.revise revision).frames =
      .script number (activation.revise revision) :: below.map (Frame.revise revision) :=
    congrArg (List.map (Frame.revise revision)) stack
  have dispatched : (execution.revise revision).resume.dispatch (vm.machine.revise revision) =
      Execution.reviseState revision (execution.resume.dispatch vm.machine) :=
    Execution.dispatch_revise revision vm.machine execution.resume stack fun proper =>
      Activation.agrees_of_leaves fine.next.1 proper leaves spares
  have settled := Execution.settle_revise revision (execution.resume.dispatch vm.machine).2
  have ended : (execution.revise revision).ended = execution.ended := rfl
  have machine : (vm.revise revision).machine = vm.machine.revise revision := rfl
  simp only [reviseWorld]
  rw [runStep_inside host state present stack, runStep_inside host state present' stack', ended,
    machine, dispatched]
  split
  · rfl
  · simp only [Execution.reviseState, settled]
    exact congrArg (fun vm => (Except.ok (), vm, state)) (put_revise revision vm id
      ((execution.resume.dispatch vm.machine).1,
        (execution.resume.dispatch vm.machine).2.settle))

/-- For as long as an execution stays inside a function, a revision that leaves the function's own
bytes makes no difference, if it spares what instructions reach beyond them. -/
theorem Intact.stepped_revise {revision : Revision} {function : ScriptFunction} (intact : vm.Intact)
    (host : Host σ) (state : σ) (leaves : revision.Leaves function) (count : Nat)
    (inside : ∀ turn < count, ∃ activation,
      (stepped host id turn (vm, state)).1.Inside id activation ∧
      activation.function = function ∧ revision.Spares activation) :
    (stepped host id count (vm, state)).1.Intact ∧
      stepped host id count (vm.revise revision, state) =
        reviseWorld revision (stepped host id count (vm, state)) := by
  induction count with
  | zero => exact ⟨intact, rfl⟩
  | succ count hypothesis =>
    obtain ⟨kept, same⟩ := hypothesis fun turn early => inside turn (Nat.lt_succ_of_lt early)
    obtain ⟨activation, within, rfl, spares⟩ := inside count (Nat.lt_succ_self count)
    have proper := proper_runStep host (stepped host id count (vm, state)).2 within
    have once := kept.runStep_revise host (stepped host id count (vm, state)).2 within leaves spares
    refine ⟨(kept.upholds_runs proper).intact, ?_⟩
    show (runStep host id (stepped host id count (vm.revise revision, state))).2 = _
    rw [same, once]
    rfl

end Turns

/-- Script functions execute their own bytes, and those of an instruction that begins before the end
of its function and reaches beyond it. -/
structure Confined (vm : Vm) : Prop where
  /-- For as long as an execution is inside a function, turns have the same results and lead to the
  same worlds in versions of the modules that have the function's own bytes in common, with those
  that its instructions reach beyond them. -/
  turns : ∀ (σ : Type) (host : Host σ) (state : σ) (id : Nat) (function : ScriptFunction)
    (revision : Revision), revision.Leaves function → ∀ count,
    (∀ turn < count, ∃ activation, (stepped host id turn (vm, state)).1.Inside id activation ∧
      activation.function = function ∧ revision.Spares activation) →
    (∀ turn < count, (runStep host id (stepped host id turn (vm.revise revision, state))).1 =
      (runStep host id (stepped host id turn (vm, state))).1) ∧
    stepped host id count (vm.revise revision, state) =
      reviseWorld revision (stepped host id count (vm, state))
  /-- A call's next instruction is told by the function's own bytes exactly when it ends inside the
  function. -/
  fetches : ∀ id activation, vm.Inside id activation →
    activation.next < activation.function.body.stop → ∀ instruction,
    activation.site.Holds instruction →
    ((∀ revision : Revision, revision.Leaves activation.function →
        (activation.revise revision).fetch? = activation.fetch?) ↔
      activation.next + activation.site.extent ≤ activation.function.body.stop)
  /-- An instruction that is spelled inside the code is performed, wherever its function ends. -/
  performs : ∀ id execution, vm.execution? id = some execution → ∀ number activation below,
    execution.frames = .script number activation :: below →
    activation.next < activation.function.body.stop → ∀ instruction,
    activation.site.Holds instruction →
    execution.dispatch vm.machine =
      execution.perform (vm.machine.note (.dispatched activation.next instruction.opcode)) number
        (activation.past instruction) below instruction.execute
  /-- An instruction that passes the end of the code raises a runtime error. -/
  raises : ∀ id execution, vm.execution? id = some execution → ∀ number activation below,
    execution.frames = .script number activation :: below →
    activation.next < activation.function.body.stop →
    activation.function.module.code.size < activation.next + activation.site.extent →
    ∃ opcode fault, fault.exception = .runtime ∧
      execution.dispatch vm.machine =
        Execution.fail (vm.machine.note (.dispatched activation.next opcode))
          { execution with frames := .script number activation.begun :: below } fault
  /-- The positions of all script calls are inside the code, so that they fit in 32 bits where the
  code has fewer than `2 ^ 32` bytes. -/
  positions : ∀ id execution, vm.execution? id = some execution → ∀ number activation,
    .script number activation ∈ execution.frames →
    activation.next ≤ activation.function.module.code.size

/-- Whatever proper calls are made on a fresh virtual machine, its script functions execute their
own bytes and no others, but for instructions that reach beyond the end of their function. -/
theorem confined_of_runs {config : Config} {fresh vm : Vm} (made : create config = .ok fresh)
    (runs : RunsBy Call.Proper fresh vm) : vm.Confined := by
  have intact := ((intact_create made).upholds_runs runs).intact
  have fine : ∀ {id execution number activation below}, vm.execution? id = some execution →
      execution.frames = .script number activation :: below → activation.Intact := by
    intro id execution number activation below present stack
    exact (intact.execution present).frames (.script number activation)
      (stack ▸ List.mem_cons_self)
  constructor
  · intro σ host state id function revision leaves count inside
    refine ⟨fun turn early => ?_, (intact.stepped_revise host state leaves count inside).2⟩
    have before := intact.stepped_revise host state leaves turn
      fun earlier less => inside earlier (Nat.lt_trans less early)
    obtain ⟨activation, within, rfl, spares⟩ := inside turn early
    rw [before.2, before.1.runStep_revise host _ within leaves spares]
  · rintro id activation ⟨execution, number, below, present, stack⟩ proper instruction holds
    exact Activation.fetch?_own_iff (fine present stack).next.1 proper holds
  · intro id execution present number activation below stack proper instruction holds
    exact Execution.dispatch_of_holds stack proper holds
  · intro id execution present number activation below stack proper truncated
    exact Execution.dispatch_of_truncated stack proper (fine present stack).enclosed.code truncated
  · intro id execution present number activation member
    have frame : activation.Intact := (intact.execution present).frames _ member
    exact frame.next.2

/-- A function of three bytes that begins with an instruction of five. With another byte beyond the
end of the function, the first turn raises an exception. -/
theorem confined_of_runs_reaching : ∃ fresh vm activation revision, create {} = .ok fresh ∧
    RunsBy Call.Proper fresh vm ∧ vm.Confined ∧ vm.Inside 0 activation ∧
    revision.Leaves activation.function ∧
    (stepped idle 0 1 (vm, ())).1.innermost? 0 = some 1 ∧
    (stepped idle 0 1 (vm.revise revision, ())).1.innermost? 0 = none := by
  let module : Module := ⟨"main", [], #[], #[], #[0x17, 0, 0, 0, 0], 0⟩
  let body : Body := ⟨0, 3, [], []⟩
  let script : ScriptFunction := ⟨"main", 0, 0, module, body⟩
  let revision : Revision := fun module => module.code.setIfInBounds 4 1
  let fresh : Vm := { machine := { config := {}, registry := .initial, collector := .create 32 } }
  let vm := (fresh.perform .createExecution).perform (.restart 0 (.script script))
  have made : create {} = .ok fresh := rfl
  have runs : RunsBy Call.Proper fresh vm := by
    refine .tail (.single ⟨.createExecution, proper_of_quiet _ _ rfl, rfl⟩)
      ⟨.restart 0 (.script script), ?_, rfl⟩
    rintro function ⟨rfl⟩
    exact .inl ⟨0, 3, [], [], "main", 0, 0, module, body, by decide, rfl, rfl⟩
  have inside : vm.Inside 0 (Activation.enter script) := ⟨_, 1, [], rfl, rfl⟩
  have leaves : revision.Leaves script := by
    refine ⟨rfl, fun offset _ high => Array.getElem?_setIfInBounds_ne ?_⟩
    have early : offset < 3 := high
    omega
  exact ⟨fresh, vm, Activation.enter script, revision, made, runs, confined_of_runs made runs,
    inside, leaves, by decide +kernel, by decide +kernel⟩

end Vm

end ScriptVm
