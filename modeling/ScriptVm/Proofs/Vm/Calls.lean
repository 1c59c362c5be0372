import Mathlib.Logic.Relation
import ScriptVm.Proofs.Execution.Checks
import ScriptVm.Proofs.Value
import ScriptVm.Vm.Run

/-!
# Calls of the embedding program

Everything that the embedding program can do to a virtual machine is a call, and a run is a sequence
of calls. A turn of an execution is a call, too. A callback is cut open: the execution is resumed,
the embedding program makes further calls, and the call of the host function ends. So what holds
after any calls holds inside callbacks as well.
-/
namespace ScriptVm

/-- A function that the embedding program gets from the virtual machine: one known by its signature,
or the initializer of a module. Neither is ever taken away. Functions that the embedding program
makes itself are not among them; the calls that take a function admit both. -/
def Registry.Offers (registry : Registry) (function : Function) : Prop :=
  function ∈ registry.functions.values ∨
    ∃ script ∈ registry.initializers.values, function = .script script

/-- A call of the embedding program: to the collector, about modules and functions, about values,
about globals, about executions, and a turn or the two ends of a callback. -/
inductive Call where
  | collectStep
  | collect
  | resetCollector
  | load (name : String) (image : Image)
  | loadContainer (name : String) (bytes : List UInt8)
  | addNative (signature : String) (parameters returns : UInt16) (callback : Nat)
  | addBuiltIn (signature : String) (parameters returns : UInt16) (callback : Nat)
  | bindNative (signature : String) (callback : Nat)
  | close
  | createValue (value : Value) (plain : value.Plain)
  | createArray (length : Nat)
  | createArrayOf (items : Array Ref)
  | createObject (typeName : String)
  | createFunctionValue (signature : String)
  | createException (exception : ExceptionClass) (message : String)
  | createNative (content : UInt64)
  | copy (reference : Ref)
  | setPinned (value : Ref) (pinned : Bool)
  | setElement (reference : Ref) (index : Nat) (value : Ref)
  | setMember (reference : Ref) (name : String) (value : Ref)
  | global (name : String)
  | assignGlobal (name : String) (value : Ref)
  | addGlobal (name : String) (value : Ref)
  | createExecution
  | holdExecution (id : Nat)
  | dropExecution (id : Nat)
  | restart (id : Nat) (entry : Function)
  | pushFrame (id : Nat) (function : Function)
  | popFrame (id : Nat)
  | suspend (id : Nat)
  | setParameter (id index : Nat) (value : Ref)
  | setRegister (id depth index : Nat) (value : Ref)
  | setLocalValue (id depth : Nat) (name : String) (value : Ref)
  | push (id depth : Nat) (value : Ref)
  | pop (id depth : Nat)
  | raiseValue (id : Nat) (value : Ref) (severity : Severity)
  | raiseException (id : Nat) (exception : ExceptionClass) (message : String)
  | resume (id : Nat)
  | turn (id : Nat)
  | leave (id frame : Nat)

namespace Vm

/-- An embedding program whose callbacks do nothing. -/
def idle : Host Unit := fun _ _ world => world

/-- Takes over the machine that work leaves, failed or not. -/
def adopt {α : Type} (vm : Vm) (work : Work Machine α) : Vm :=
  { vm with machine := work.left vm.machine }

/-- Takes over the machine and the execution that work leaves, failed or not. -/
def onExecution {α : Type} (vm : Vm) (id : Nat) (work : Work (Machine × Execution) α) : Vm :=
  match vm.execution? id with
  | none => vm
  | some execution => vm.put id (work.left (vm.machine, execution))

/-- Makes a call. Whatever a call changes before it fails stays changed. -/
def perform (vm : Vm) : Call → Vm
  | .collectStep => vm.collectStep.2
  | .collect => vm.collect
  | .resetCollector => vm.resetCollector
  | .load name image => { vm with machine := (vm.machine.load name image).2 }
  | .loadContainer name bytes => { vm with machine := (vm.machine.loadContainer name bytes).2 }
  | .addNative signature parameters returns callback =>
    vm.adopt (.addNative signature parameters returns callback)
  | .addBuiltIn signature parameters returns callback =>
    vm.adopt (.addBuiltIn signature parameters returns callback)
  | .bindNative signature callback => vm.adopt (.bindNative signature callback)
  | .close => { vm with machine := vm.machine.close }
  | .createValue value _ => { vm with machine := (vm.machine.createValue value).2 }
  | .createArray length => { vm with machine := (vm.machine.createArray length).2 }
  | .createArrayOf items => vm.adopt (.createArrayOf items)
  | .createObject typeName => vm.adopt (.createObject typeName)
  | .createFunctionValue signature => vm.adopt (.createFunctionValue signature)
  | .createException exception message => vm.adopt (.createException exception message)
  | .createNative content => { vm with machine := (vm.machine.createNative content).2 }
  | .copy reference => vm.adopt (.copy reference)
  | .setPinned value pinned => vm.adopt (.setPinned value pinned)
  | .setElement reference index value => vm.adopt (.setElement reference index value)
  | .setMember reference name value => vm.adopt (.setMember reference name value)
  | .global name => vm.adopt (.global name)
  | .assignGlobal name value => vm.adopt (.assignGlobal name value)
  | .addGlobal name value => vm.adopt (.addGlobal name value)
  | .createExecution => Work.createExecution.left vm
  | .holdExecution id => vm.holdExecution id
  | .dropExecution id => vm.dropExecution id
  | .restart id entry => vm.onExecution id (.onSecond (.restart entry))
  | .pushFrame id function => vm.onExecution id (.onSecond (.pushFrame function))
  | .popFrame id => vm.onExecution id (.onSecond .popFrame)
  | .suspend id => vm.onExecution id (.onSecond (modify Execution.suspend))
  | .setParameter id index value => vm.onExecution id (.setParameter index value)
  | .setRegister id depth index value =>
    vm.onExecution id (.storeInFrame depth value (·.setRegister index value))
  | .setLocalValue id depth name value =>
    vm.onExecution id (.storeInFrame depth value (·.setLocalValue name value))
  | .push id depth value => vm.onExecution id (.storeInFrame depth value (·.push value))
  | .pop id depth => vm.onExecution id (.onSecond (.pop depth))
  | .raiseValue id value severity => vm.onExecution id (.raiseValue value severity)
  | .raiseException id exception message => vm.onExecution id (.raiseException exception message)
  | .resume id =>
    match vm.ready id with
    | .ok (some execution) => vm.setExecution id execution
    | _ => vm
  | .turn id =>
    match vm.execution? id with
    | none => vm
    | some execution => (Vm.turn idle id execution (vm, ())).1
  | .leave id frame => vm.afterRoutine id frame

end Vm

namespace Call

/-- The references that a call stores or copies. -/
def stored : Call → List Ref
  | .createArrayOf items => items.toList
  | .copy reference => [reference]
  | .setElement _ _ value | .setMember _ _ value | .assignGlobal _ value | .addGlobal _ value
  | .setParameter _ _ value | .setRegister _ _ _ value | .setLocalValue _ _ _ value
  | .push _ _ value | .raiseValue _ value _ => [value]
  | _ => []

/-- The call lets the collector work. -/
def collects : Call → Bool
  | .collectStep | .collect | .resetCollector => true
  | _ => false

/-- The call pins or unpins a value. -/
def pins : Call → Bool
  | .setPinned _ _ | .global _ => true
  | _ => false

/-- The call makes a callback known. -/
def hooks : Call → Bool
  | .addNative .. | .addBuiltIn .. | .bindNative .. => true
  | _ => false

/-- The function that a call makes an execution call. -/
def entered : Call → Option Function
  | .restart _ function | .pushFrame _ function => some function
  | _ => none

/-- The call passes no function but an offered one. -/
def Legal (call : Call) (vm : Vm) : Prop :=
  ∀ function, call.entered = some function → vm.machine.registry.Offers function

end Call

namespace Vm

/-- A virtual machine comes from another by allowed calls. -/
abbrev RunsBy (allowed : Vm → Call → Prop) : Vm → Vm → Prop :=
  Relation.ReflTransGen fun vm after => ∃ call : Call, allowed vm call ∧ after = vm.perform call

/-- A virtual machine comes from another by calls. -/
abbrev Runs : Vm → Vm → Prop :=
  Relation.ReflTransGen fun vm after => ∃ call : Call, call.Legal vm ∧ after = vm.perform call

/-- A virtual machine that calls can bring about. -/
def Reachable (vm : Vm) : Prop := ∃ config fresh, create config = .ok fresh ∧ Runs fresh vm

end Vm

/-- The callbacks of an embedding program make allowed calls. -/
def Host.Obeys {σ : Type} (host : Host σ) (allowed : Vm → Call → Prop) : Prop :=
  ∀ number id world, Vm.RunsBy allowed world.1 (host number id world).1

/-- The callbacks of an embedding program make calls. -/
def Host.Lawful {σ : Type} (host : Host σ) : Prop :=
  ∀ number id world, Vm.Runs world.1 (host number id world).1

namespace Vm

variable {σ : Type} {host : Host σ}

/-- Atomic work leaves the virtual machine as it is, or its machine is taken over. -/
theorem adopt_cases {α : Type} {vm : Vm} {work : Work Machine α}
    (atomic : work.Atomic vm.machine) :
    vm.adopt work = vm ∨
      ∃ machine, work.changed vm.machine = .ok machine ∧ vm.adopt work = { vm with machine } := by
  rcases atomic.left_cases with same | done
  · left
    rw [adopt, same]
  · exact .inr ⟨_, done, rfl⟩

/-- A new execution comes after all others, unless the machine has been closed. -/
theorem left_createExecution (vm : Vm) :
    Work.createExecution.left vm =
      if vm.machine.closed then vm
      else { vm with
        executions := vm.executions ++ [⟨vm.created, 1, {}⟩], created := vm.created + 1 } := by
  show (Work.orFail vm.machine.checkOpen >>= fun _ => modifyGet fun vm => (vm.created, { vm with
    executions := vm.executions ++ [⟨vm.created, 1, {}⟩], created := vm.created + 1 }) :
    Work Vm Nat).left vm = _
  rw [Work.left, Work.outcome_orFail_bind, Machine.checkOpen]
  by_cases closed : vm.machine.closed = true
  · rw [if_pos closed, if_pos closed]
  · rw [if_neg closed, if_neg closed]
    rfl

/-- What is found after an execution has been replaced. -/
theorem execution?_setExecution (vm : Vm) (id other : Nat) (execution : Execution) :
    (vm.setExecution id execution).execution? other =
      if other = id then (vm.execution? id).map fun _ => execution else vm.execution? other := by
  have sameIds : ((fun held : HeldExecution => decide (held.id = other)) ∘
      fun held => if held.id = id then { held with execution } else held) =
      fun held => decide (held.id = other) := by
    funext held
    simp only [Function.comp_apply]
    split <;> rfl
  unfold execution? setExecution updateExecution
  simp only [List.find?_map, sameIds, Option.map_map]
  split
  · rename_i here
    subst here
    cases found : vm.executions.find? (fun held => decide (held.id = other)) with
    | none => rfl
    | some held =>
      have named := List.find?_some found
      simp only [decide_eq_true_eq] at named
      simp [named]
  · rename_i elsewhere
    cases found : vm.executions.find? (fun held => decide (held.id = other)) with
    | none => rfl
    | some held =>
      have named := List.find?_some found
      simp only [decide_eq_true_eq] at named
      simp [named, elsewhere]

/-- A call that passes no function is a run. -/
theorem runs_call {vm : Vm} {call : Call} (passes : call.entered = none) :
    Runs vm (vm.perform call) :=
  .single ⟨call, by simp [Call.Legal, passes], rfl⟩

/-- Calls that pass no function are a run. -/
theorem runs_calls (vm : Vm) {calls : List Call} (pass : ∀ call ∈ calls, call.entered = none) :
    Runs vm (calls.foldl perform vm) := by
  induction calls generalizing vm with
  | nil => exact .refl
  | cons call rest hypothesis =>
    have first : Runs vm (vm.perform call) := runs_call (pass call List.mem_cons_self)
    exact first.trans (hypothesis _ fun other member => pass other (List.mem_cons_of_mem _ member))

/-- A turn is one call, or it is what a callback does and then the end of the host call. -/
theorem turn_cases (host : Host σ) {vm : Vm} {id : Nat} {execution : Execution}
    (present : vm.execution? id = some execution) (state : σ) :
    (turn host id execution (vm, state)).1 = vm.perform (.turn id) ∨
      ∃ frame function below callback, execution.frames = .host frame function :: below ∧
        vm.machine.registry.routine? function = some (.callback callback) ∧
        (turn host id execution (vm, state)).1 =
          (host callback id (vm, state)).1.perform (.leave id frame) := by
  have call : vm.perform (.turn id) = (turn idle id execution (vm, ())).1 := by
    simp [perform, present]
  rw [call]
  cases frames : execution.frames with
  | nil => exact .inl (by simp [turn, frames])
  | cons frame rest =>
    cases frame with
    | script number activation => exact .inl (by simp [turn, frames])
    | host number function =>
      cases routine : vm.machine.registry.routine? function with
      | none => exact .inl (by simp [turn, frames, callHost, routine])
      | some found =>
        cases found with
        | operator operator => exact .inl (by simp [turn, frames, callHost, routine])
        | cast target => exact .inl (by simp [turn, frames, callHost, routine])
        | callback callback =>
          refine .inr ⟨number, function, rest, callback, rfl, routine, ?_⟩
          simp [turn, frames, callHost, routine, perform]

/-- An execution that is ready is one that goes on. -/
theorem ready_eq_ok {vm : Vm} {id : Nat} {resumed : Execution}
    (prepared : vm.ready id = .ok (some resumed)) :
    ∃ execution, vm.execution? id = some execution ∧ resumed = execution.resume := by
  unfold ready at prepared
  split at prepared
  · simp at prepared
  · rename_i execution present
    split at prepared
    · simp at prepared
    · split at prepared
      · simp at prepared
      · exact ⟨execution, present, (Option.some.inj (Except.ok.inj prepared)).symm⟩

/-- An execution that is ready is resumed by a call, and it is there afterwards. -/
theorem resumed {vm : Vm} {id : Nat} {execution : Execution}
    (prepared : vm.ready id = .ok (some execution)) :
    vm.perform (.resume id) = vm.setExecution id execution ∧
      (vm.setExecution id execution).execution? id = some execution := by
  constructor
  · simp [perform, prepared]
  · obtain ⟨old, found, _⟩ := ready_eq_ok prepared
    rw [execution?_setExecution, if_pos rfl, found]
    rfl

section

variable {allowed : Vm → Call → Prop} {id : Nat} (resumes : ∀ vm, allowed vm (.resume id))
variable (takes : ∀ {vm execution}, vm.execution? id = some execution →
  ∀ state, RunsBy allowed vm (turn host id execution (vm, state)).1)

include resumes

/-- Resuming an execution is a run of calls. -/
theorem driven_resumed {vm : Vm} {execution : Execution}
    (prepared : vm.ready id = .ok (some execution)) :
    RunsBy allowed vm (vm.setExecution id execution) := by
  rw [← (resumed prepared).1]
  exact .single ⟨.resume id, resumes vm, rfl⟩

include takes

/-- Running one turn is a run of calls, if a turn is. -/
theorem driven_runStep (world : Vm × σ) :
    RunsBy allowed world.1 (runStep host id world).2.1 := by
  unfold runStep
  split
  · exact .refl
  · exact .refl
  · rename_i prepared
    exact (driven_resumed resumes prepared).trans (takes (resumed prepared).2 world.2)

omit resumes in
/-- Turns until an execution stops are a run of calls, if a turn is. -/
theorem driven_turns (fuel : Nat) (world : Vm × σ) :
    RunsBy allowed world.1 (turns host id fuel world).2.1 := by
  induction fuel generalizing world with
  | zero => exact .refl
  | succ fuel hypothesis =>
    unfold turns
    split
    · exact .refl
    · rename_i execution present
      split
      · exact .refl
      · split
        · rename_i empty
          have nothing : execution.frames = [] := List.isEmpty_iff.mp empty
          have settled := takes present world.2
          simpa [turn, nothing] using settled
        · exact (takes present world.2).trans (hypothesis _)

/-- Running an execution until it stops is a run of calls, if a turn is. -/
theorem driven_run (fuel : Nat) (world : Vm × σ) :
    RunsBy allowed world.1 (run host fuel id world).2.1 := by
  unfold run
  split
  · exact .refl
  · exact .refl
  · rename_i execution prepared
    have rest := driven_turns takes fuel (world.1.setExecution id execution, world.2)
    exact (driven_resumed resumes prepared).trans rest

end

section

variable {allowed : Vm → Call → Prop} (quiet : ∀ vm call, call.entered = none → allowed vm call)

include quiet

/-- A turn is a run of calls: one call, or those of a callback and its end. -/
theorem runsBy_turn {id : Nat}
    (obeys : ∀ number world, RunsBy allowed world.1 (host number id world).1) {vm : Vm}
    {execution : Execution} (present : vm.execution? id = some execution) (state : σ) :
    RunsBy allowed vm (turn host id execution (vm, state)).1 := by
  rcases turn_cases host present state with once | ⟨frame, _, _, callback, _, _, result⟩
  · rw [once]
    exact .single ⟨.turn id, quiet vm _ rfl, rfl⟩
  · rw [result]
    exact (obeys callback (vm, state)).tail ⟨.leave id frame, quiet _ _ rfl, rfl⟩

variable (obeys : host.Obeys allowed)

include obeys

/-- Running one turn is a run of calls. -/
theorem runsBy_runStep (id : Nat) (world : Vm × σ) :
    RunsBy allowed world.1 (runStep host id world).2.1 :=
  driven_runStep (fun vm => quiet vm _ rfl) (runsBy_turn quiet fun number => obeys number id) world

/-- Running an execution until it stops is a run of calls. -/
theorem runsBy_run (fuel id : Nat) (world : Vm × σ) :
    RunsBy allowed world.1 (run host fuel id world).2.1 :=
  driven_run (fun vm => quiet vm _ rfl) (runsBy_turn quiet fun number => obeys number id) fuel world

end

/-- A call that passes no function is legal. -/
theorem legal_of_quiet (vm : Vm) (call : Call) (passes : call.entered = none) : call.Legal vm := by
  simp [Call.Legal, passes]

/-- Running one turn is a run of legal calls. -/
theorem runs_runStep (lawful : Host.Lawful host) (id : Nat) (world : Vm × σ) :
    Runs world.1 (runStep host id world).2.1 :=
  runsBy_runStep legal_of_quiet lawful id world

/-- Running an execution until it stops is a run of legal calls. -/
theorem runs_run (lawful : Host.Lawful host) (fuel id : Nat) (world : Vm × σ) :
    Runs world.1 (run host fuel id world).2.1 :=
  runsBy_run legal_of_quiet lawful fuel id world

end Vm

end ScriptVm
