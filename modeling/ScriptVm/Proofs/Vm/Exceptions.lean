import ScriptVm.Proofs.Execution.Exceptions
import ScriptVm.Proofs.Vm.Executions

/-!
# Faults in virtual machines

No module can take away or replace the object types of standard exceptions, whatever object types it
brings. So whatever calls are made, the fault of a turn is raised as an exception that scripts can
catch, as long as there is room for it.
-/
namespace ScriptVm.Vm

variable {fresh vm : Vm} {config : Config} {id : Nat} {execution : Execution}

/-- Along every run the object types of standard exceptions are in place. -/
theorem standard_of_runs (made : create config = .ok fresh) (runs : RunsBy Call.Proper fresh vm) :
    vm.machine.Standard := by
  obtain ⟨added, shape⟩ := ((intact_create made).upholds_runs runs).machine.changes.grows.schemas
  intro exception
  rw [Table.find?, ← shape, List.lookup_append, (create_eq made).1]
  cases exception <;> rfl

/-- The faults of an execution are raised as exceptions, and nothing but the instruction for it
aborts the execution. -/
structure Catchable (vm : Vm) (id : Nat) (execution : Execution) : Prop where
  /-- A turn that comes to a fault raises a new exception for it. -/
  throws : ∀ fault middle faulted, execution.Faults vm.machine fault middle faulted →
    middle.heap.hasRoom (1 + Machine.instanceSize) = true →
    ∃ value state, faulted.Throws middle fault value state ∧
      vm.perform (.turn id) = vm.put id (state.1, state.2.settle)
  /-- A turn aborts the execution if its next instruction is the one for it. -/
  aborts : execution.Affords vm.machine →
    ∀ after, (vm.perform (.turn id)).execution? id = some after →
      (after.flags.aborted = true ↔ execution.flags.aborted = true ∨ execution.MeetsAbort)

/-- Whatever proper calls are made on a fresh virtual machine, the faults of its executions are
raised as exceptions. -/
theorem catchable_of_runs (made : create config = .ok fresh) (runs : RunsBy Call.Proper fresh vm)
    (present : vm.execution? id = some execution) : vm.Catchable id execution := by
  have standard := standard_of_runs made runs
  have orderly := ((intact_create made).upholds_runs runs).intact.stocked.orderly
  constructor
  · intro fault middle faulted faults room
    obtain ⟨value, state, throws, turned⟩ := faults.throws standard orderly room
    exact ⟨value, state, throws, (perform_turn present).trans (by rw [turned])⟩
  · intro affords after found
    rw [execution?_turn present] at found
    rw [← Option.some.inj found]
    exact Execution.aborted_turned standard orderly affords

/-- A module brings an object type of its own under the name of a standard exception, and its
function begins with a byte that is no instruction. -/
theorem catchable_of_runs_invalid : ∃ fresh vm execution, create {} = .ok fresh ∧
    RunsBy Call.Proper fresh vm ∧ vm.execution? 0 = some execution ∧
    (∃ middle faulted, execution.Faults vm.machine (.invalidOpcode 255) middle faulted ∧
      middle.heap.hasRoom (1 + Machine.instanceSize) = true) ∧
    vm.Catchable 0 execution := by
  let image : Image := { code := [255], objects := [⟨"RuntimeError", [⟨"other", .bool⟩]⟩] }
  let module : Module := ⟨"main", [], #[], #[], #[255], 0⟩
  let function : ScriptFunction := ⟨"script", 0, 0, module, ⟨0, 1, [], []⟩⟩
  let fresh : Vm := { machine := { config := {}, registry := .initial, collector := .create 32 } }
  let ready := (fresh.perform (.load "main" image)).perform .createExecution
  let vm := ready.perform (.restart 0 (.script function))
  have made : create {} = .ok fresh := rfl
  have begun : (Function.script function).Made :=
    ⟨0, 1, [], [], "script", 0, 0, module, _, by decide, rfl, rfl⟩
  have runs : RunsBy Call.Proper fresh vm := by
    have readied : RunsBy Call.Proper fresh ready :=
      .tail (.single ⟨.load "main" image, proper_of_quiet _ _ rfl, rfl⟩)
        ⟨.createExecution, proper_of_quiet _ _ rfl, rfl⟩
    exact readied.tail ⟨.restart 0 (.script function),
      fun _ passed => .inl (Option.some.inj passed ▸ begun), rfl⟩
  have faults : ∃ execution middle faulted, vm.execution? 0 = some execution ∧
      execution.attempt vm.machine = .error (.invalidOpcode 255, middle, faulted) ∧
      middle.heap.hasRoom (1 + Machine.instanceSize) = true :=
    ⟨_, _, _, rfl, rfl, by decide +kernel⟩
  obtain ⟨execution, middle, faulted, present, stopped, room⟩ := faults
  exact ⟨fresh, vm, execution, made, runs, present, ⟨middle, faulted, .instruction stopped, room⟩,
    catchable_of_runs made runs present⟩

end ScriptVm.Vm
