import ScriptVm.Proofs.Execution.Faults
import ScriptVm.Proofs.Vm.Account
import ScriptVm.Proofs.Vm.Executions

/-!
# Faults

When a fault is raised, the executions and the machine are as they were before the instruction: the
registers, the local variables and the operand stack of every call, the parameter registers, what is
known by name, and what every old proxy holds. Only the position of the innermost call has moved,
and garbage may be new, which nothing leads to. The one instruction for which this fails pops an
operand into a register that the call does not have. It loses the operand, and nothing else.
-/
namespace ScriptVm.Vm

variable {vm : Vm} {id number : Nat} {machine : Machine} {execution after : Execution}
  {fault : Fault} {activation : Activation} {below : List Frame}

/-- An execution is replaced by one with fewer roots, and what is known by name stays. -/
theorem Threaded.scope_put (threaded : vm.Threaded) (present : vm.execution? id = some execution)
    (registry : machine.registry = vm.machine.registry)
    (fewer : ∀ handle ∈ after.roots, handle ∈ execution.roots) :
    ∀ category handle, (vm.put id (machine, after)).roots.scope category handle →
      vm.roots.scope category handle := by
  intro category handle root
  have named : (vm.put id (machine, after)).roots =
      rootsOf vm.machine.registry (vm.setExecution id after).executions :=
    congrArg (rootsOf · _) registry
  rw [named] at root
  cases category with
  | constants | globals | functions => exact root
  | executions =>
    obtain ⟨entry, member, listed⟩ := List.mem_flatMap.mp root
    obtain ⟨old, inside, rfl⟩ := List.mem_map.mp member
    refine List.mem_flatMap.mpr ⟨old, inside, ?_⟩
    split at listed
    · rename_i here
      have known := threaded.execution?_of_mem inside
      rw [here, present] at known
      rw [← Option.some.inj known]
      exact fewer handle listed
    · exact listed

/-- Where whatever was reached had been handed out, the garbage of a fault is not reached. -/
theorem Threaded.unreached_put (threaded : vm.Threaded) (accounted : vm.Accounted)
    (present : vm.execution? id = some execution) (scatters : vm.machine.Scatters machine)
    (fewer : ∀ handle ∈ after.roots, handle ∈ execution.roots) {handle : Handle}
    (absent : vm.machine.heap.proxy? handle = none)
    (contained : machine.heap.contains handle = true) :
    ¬(vm.put id (machine, after)).Reaches handle := by
  intro reached
  have roots := threaded.scope_put present scatters.registry fewer
  have before : vm.Reaches handle :=
    scatters.reaches roots (fun _ known => accounted.issued known) reached
  obtain ⟨proxy, resolved⟩ := Heap.contains_iff.mp contained
  exact (scatters.fresh handle proxy absent resolved).2.2 (accounted.issued before)

/-- Whatever proper calls are made on a fresh virtual machine, a fault of a script call is raised in
a machine and an execution that have lost nothing, unless the call pops an operand into no register.
Then it has lost the operand alone. If the calls are honest as well, then the proxies that the
instruction has allocated are not reached. -/
theorem loses_nothing_iff {config : Config} {fresh : Vm} (made : create config = .ok fresh)
    (runs : RunsBy Call.Proper fresh vm) (present : vm.execution? id = some execution)
    (stack : execution.frames = .script number activation :: below)
    (faulted : execution.attempt vm.machine = .error (fault, machine, after)) :
    execution.dispatch vm.machine = after.fail machine fault ∧ vm.machine.Scatters machine ∧
      (execution.LosesOnly [] after ↔ ¬activation.Forfeits) ∧
      (activation.Forfeits → ∃ operand, execution.LosesOnly [operand] after) ∧
      (RunsBy Call.Honest fresh vm → ∀ handle, vm.machine.heap.proxy? handle = none →
        machine.heap.contains handle = true → ¬(vm.put id (machine, after)).Reaches handle) := by
  have intact := ((intact_create made).upholds_runs runs).intact
  have raised : execution.dispatch vm.machine = after.fail machine fault := by
    rw [Execution.dispatch_eq, faulted]
    rfl
  obtain ⟨scatters, lost, loses, cause⟩ :=
    Execution.of_attempt_error intact.stocked.orderly stack faulted
  refine ⟨raised, scatters, ⟨?_, ?_⟩, ?_, ?_⟩
  · intro nothing forfeits
    rcases cause with ⟨_, operand, rfl⟩ | ⟨kept, _⟩
    · cases loses.unique nothing
    · exact kept forfeits
  · intro kept
    rcases cause with ⟨forfeits, _⟩ | ⟨_, rfl⟩
    · exact absurd forfeits kept
    · exact loses
  · intro forfeits
    rcases cause with ⟨_, operand, rfl⟩ | ⟨kept, _⟩
    · exact ⟨operand, loses⟩
    · exact absurd forfeits kept
  · intro honest handle absent contained
    have accounted := accounted_of_runs honest (accounted_create made) (grounded_create made)
    exact intact.threaded.unreached_put accounted present scatters loses.roots absent contained

/-- A call that passes no function, stores nothing and does not collect is proper and honest. -/
theorem fair_of_quiet (vm : Vm) {call : Call} (passes : call.entered = none)
    (stores : call.stored = []) (rests : call.collects = false) :
    call.Proper vm ∧ call.Honest vm :=
  ⟨proper_of_quiet vm call passes, by simp [passes], by simp [stores], by simp [rests]⟩

/-- Starting over with a function of a loaded module is proper and honest. -/
theorem fair_restart (id : Nat) {function : ScriptFunction} (made : (Function.script function).Made)
    (loaded : function.module ∈ vm.machine.registry.modules.values) :
    (Call.restart id (.script function)).Proper vm ∧
      (Call.restart id (.script function)).Honest vm := by
  refine ⟨?_, ?_, by simp [Call.stored], by simp [Call.collects]⟩
  · rintro _ ⟨rfl⟩
    exact .inl made
  · rintro _ ⟨rfl⟩ _ ⟨rfl⟩
    exact loaded

/-- The fault of the next instruction of an execution, with the number of the innermost call,
whether the call is about to lose an operand, and whether a handle names something when the fault
is raised. -/
def outlook (vm : Vm) (id : Nat) (handle : Handle) : Option (Nat × Bool × Fault × Bool) :=
  (vm.execution? id).bind fun execution =>
    match execution.frames, execution.attempt vm.machine with
    | .script number activation :: _, .error (fault, machine, _) =>
      some (number, decide activation.Forfeits, fault, machine.heap.contains handle)
    | _, _ => none

/-- A script call that is about to fault. -/
theorem exists_of_outlook {handle : Handle} {forfeits contained : Bool}
    (shown : vm.outlook id handle = some (number, forfeits, fault, contained)) :
    ∃ execution activation below machine after, vm.execution? id = some execution ∧
      execution.frames = .script number activation :: below ∧
      execution.attempt vm.machine = .error (fault, machine, after) ∧
      decide activation.Forfeits = forfeits ∧ machine.heap.contains handle = contained := by
  obtain ⟨execution, present, rest⟩ := Option.bind_eq_some_iff.mp shown
  split at rest
  · rename_i stack faulted
    cases rest
    exact ⟨execution, _, _, _, _, present, stack, faulted, rfl, rfl⟩
  · cases rest

/-- One execution pops an operand into a register that it does not have, and another one loads a
constant into such a register. -/
theorem loses_nothing_iff_popping : ∃ fresh vm, create {} = .ok fresh ∧
    RunsBy Call.Proper fresh vm ∧ RunsBy Call.Honest fresh vm ∧
    (∃ popping machine after, vm.execution? 0 = some popping ∧
      popping.attempt vm.machine = .error (.host .indexOutOfRange, machine, after) ∧
      ¬popping.LosesOnly [] after ∧ ∃ operand, popping.LosesOnly [operand] after) ∧
    ∃ loading machine after, vm.execution? 1 = some loading ∧
      loading.attempt vm.machine = .error (.host .indexOutOfRange, machine, after) ∧
      vm.machine.Scatters machine ∧ loading.LosesOnly [] after ∧
      machine.heap.contains ⟨2, 0⟩ = true ∧ ¬(vm.put 1 (machine, after)).Reaches ⟨2, 0⟩ := by
  let code : List UInt8 :=
    [7, 0, 0, 0, 0, 4, 5, 0, 0, 0, 0x17, 0, 0, 0, 0, 0x18, 64, 0, 0, 0, 2,
      7, 64, 0, 0, 0, 4, 5, 0, 0, 0]
  let image : Image := { code, functions :=
    [⟨"pop", false, 0, 0, 0, 21, [], []⟩, ⟨"load", false, 0, 0, 21, 10, [], []⟩] }
  let module : Module := ⟨"main", [], #[], #[], code.toArray, 0⟩
  let pop : ScriptFunction := ⟨"pop", 0, 0, module, ⟨0, 21, [], []⟩⟩
  let load : ScriptFunction := ⟨"load", 0, 0, module, ⟨21, 31, [], []⟩⟩
  let fresh : Vm := { machine := { config := {}, registry := .initial, collector := .create 32 } }
  let ready := ((fresh.perform (.load "main" image)).perform .createExecution).perform
    .createExecution
  let entered := ready.perform (.restart 0 (.script pop))
  let begun := entered.perform (.restart 1 (.script load))
  let vm := (begun.perform (.turn 0)).perform (.turn 0)
  have made : create {} = .ok fresh := rfl
  have popping : vm.outlook 0 ⟨2, 0⟩ = some (1, true, .host .indexOutOfRange, false) := by
    decide +kernel
  have loading : vm.outlook 1 ⟨2, 0⟩ = some (1, false, .host .indexOutOfRange, true) := by
    decide +kernel
  have absent : vm.machine.heap.proxy? ⟨2, 0⟩ = none := by decide +kernel
  have runs : RunsBy (fun vm call => call.Proper vm ∧ call.Honest vm) fresh vm := by
    have first : (Function.script pop).Made :=
      ⟨0, 21, [], [], "pop", 0, 0, module, _, by decide, rfl, rfl⟩
    have second : (Function.script load).Made :=
      ⟨21, 10, [], [], "load", 0, 0, module, _, by decide, rfl, rfl⟩
    have readied : RunsBy (fun vm call => call.Proper vm ∧ call.Honest vm) fresh ready :=
      .tail (.tail (.single ⟨.load "main" image, fair_of_quiet _ rfl rfl rfl, rfl⟩)
        ⟨.createExecution, fair_of_quiet _ rfl rfl rfl, rfl⟩)
        ⟨.createExecution, fair_of_quiet _ rfl rfl rfl, rfl⟩
    have started : RunsBy (fun vm call => call.Proper vm ∧ call.Honest vm) fresh begun :=
      .tail (readied.tail ⟨_, fair_restart 0 first (by decide +kernel), rfl⟩)
        ⟨_, fair_restart 1 second (by decide +kernel), rfl⟩
    exact .tail (started.tail ⟨.turn 0, fair_of_quiet _ rfl rfl rfl, rfl⟩)
      ⟨.turn 0, fair_of_quiet _ rfl rfl rfl, rfl⟩
  have proper := runsBy_mono (fun _ _ fair => fair.1) runs
  have honest := runsBy_mono (fun _ _ fair => fair.2) runs
  obtain ⟨pops, popper, _, machine, after, present, stack, faulted, forfeits, _⟩ :=
    exists_of_outlook popping
  obtain ⟨loads, loader, _, machine', after', present', stack', faulted', keeps, contained⟩ :=
    exists_of_outlook loading
  obtain ⟨_, _, nothing, operand, _⟩ := loses_nothing_iff made proper present stack faulted
  obtain ⟨_, scatters, nothing', _, unreached⟩ :=
    loses_nothing_iff made proper present' stack' faulted'
  refine ⟨fresh, vm, made, proper, honest, ⟨pops, machine, after, present, faulted, ?_, ?_⟩,
    loads, machine', after', present', faulted', scatters, ?_, contained, ?_⟩
  · exact fun none => nothing.mp none (of_decide_eq_true forfeits)
  · exact operand (of_decide_eq_true forfeits)
  · exact nothing'.mpr (of_decide_eq_false keeps)
  · exact unreached honest _ absent contained

end ScriptVm.Vm
