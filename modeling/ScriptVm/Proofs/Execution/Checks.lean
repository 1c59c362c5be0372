import ScriptVm.Execution.Routine
import ScriptVm.Proofs.Machine.Checks

/-!
# Checks before changes of an execution

What the embedding program asks of an execution is checked before anything is changed, too. Raising
a fault comes down to raising a new exception, or to what is left when it cannot be made.
-/
namespace ScriptVm

namespace Execution

variable (machine : Machine) (execution : Execution)

/-- Raises a new exception from its template. -/
def raiseNew (template : Object × Nat) (message : String) : Machine × Execution :=
  let (value, machine) := machine.newException template message false
  execution.raise machine value .normal

theorem pushFrame_eq (function : Function) :
    execution.pushFrame function =
      if execution.frames.length < frameLimit then
        .ok (execution.issued + 1, { execution with
          frames := Frame.enter (execution.issued + 1) function :: execution.frames
          issued := execution.issued + 1 })
      else .error .stackFull := by
  simp only [pushFrame, Work.pushFrame, Work.result_get_bind, Work.result_ite,
    Work.result_modifyGet, Work.result_throw]

theorem popFrame_eq :
    execution.popFrame =
      match execution.frames with
      | [] => .error .stackEmpty
      | _ :: frames => .ok { execution with frames } := by
  simp only [popFrame, Work.popFrame, Work.changed_get_bind]
  cases execution.frames <;> rfl

theorem restart_eq (entry : Function) :
    execution.restart entry = do
      let (_, execution) ← execution.clear.pushFrame entry
      return execution := by
  rfl

theorem setParameter_eq (index : Nat) (value : Ref) :
    execution.setParameter machine index value =
      if index < parameterCount then
        .ok (machine.shade value,
          { execution with parameters := execution.parameters.setIfInBounds index value })
      else .error .indexOutOfRange := by
  simp only [setParameter, Work.setParameter, Work.changed_ite, Work.changed_modify,
    Work.changed_throw]

theorem storeInFrame_eq (depth : Nat) (value : Ref) (store : Frame → Except Error Frame) :
    execution.storeInFrame machine depth value store = do
      let frame ← store (← execution.frame depth)
      return (machine.shade value, execution.setFrame depth frame) := by
  simp only [storeInFrame, Work.storeInFrame, Work.changed_get_bind, Work.changed_orFail_bind,
    Work.changed_modify]
  rfl

theorem pop_eq (depth : Nat) :
    execution.pop depth = do
      let (value, frame) ← (← execution.frame depth).pop
      return (value, execution.setFrame depth frame) := by
  simp only [pop, Work.pop, Work.result_get_bind, Work.result_orFail_bind, Work.result_modify_bind,
    Work.result_pure]
  rfl

theorem raiseValue_eq (value : Ref) (severity : Severity) :
    execution.raiseValue machine value severity =
      if machine.heap.contains value.handle then .ok (execution.raise machine value severity)
      else .error .invalidArgument := by
  simp only [raiseValue, Work.raiseValue, Work.changed_get_bind, Work.changed_ite,
    Work.changed_modify, Work.changed_throw]

/-- A standard exception is raised, or what is left of it stays behind. -/
theorem outcome_raiseException (exception : ExceptionClass) (message : String) :
    (Work.raiseException exception message).outcome (machine, execution) =
      match machine.exceptionTemplate exception with
      | .ok template => (.ok (), execution.raiseNew machine template message)
      | .error error =>
        (.error error, (Work.newException exception message false).left machine, execution) := by
  rw [Work.raiseException, Work.outcome_bind, Work.outcome_onFirst,
    Work.outcome_newException_template]
  cases machine.exceptionTemplate exception <;> rfl

/-- The exception of a fault is raised, or the execution is aborted next to what is left of it. -/
theorem raiseFault_eq (fault : Fault) :
    execution.raiseFault machine fault =
      match machine.exceptionTemplate fault.exception with
      | .ok template => execution.raiseNew machine template fault.message
      | .error error =>
        execution.raise
          (((Work.newException fault.exception fault.message false).left machine).note
            (.exceptionUnbuilt fault error)) Ref.null .fatal := by
  rw [raiseFault, Work.outcome_newException_template]
  cases machine.exceptionTemplate fault.exception <;> rfl

/-- The result of a routine is stored, or its fault is raised, as far as an exception can be made
for it. -/
theorem finishRoutine_eq (result : Except Fault Value) :
    execution.finishRoutine machine result =
      match result with
      | .ok value =>
        let (reference, machine) := machine.newValue value false
        (machine.shade reference, execution.setResult reference)
      | .error fault =>
        match machine.exceptionTemplate fault.exception with
        | .ok template => execution.raiseNew machine template fault.message
        | .error error =>
          (((Work.newException fault.exception fault.message false).left machine).note
            (.routineFailed error), execution) := by
  unfold finishRoutine
  cases result with
  | ok value => rfl
  | error fault =>
    simp only [outcome_raiseException]
    cases machine.exceptionTemplate fault.exception <;> rfl

end Execution

namespace Work

variable {machine : Machine} {execution : Execution}

theorem atomic_pushFrame (function : Function) : (pushFrame function).Atomic execution := by
  refine atomic_get_bind ?_
  split
  · exact atomic_modifyGet
  · exact atomic_throw

theorem atomic_popFrame : popFrame.Atomic execution := by
  refine atomic_get_bind ?_
  split
  · exact atomic_throw
  · exact atomic_modify

/-- After everything has been forgotten, there is room on the call stack. -/
theorem atomic_restart (entry : Function) : (restart entry).Atomic execution := nofun

theorem atomic_setParameter (index : Nat) (value : Ref) :
    (setParameter index value).Atomic (machine, execution) := by
  unfold setParameter
  split
  · exact atomic_modify
  · exact atomic_throw

theorem atomic_storeInFrame (depth : Nat) (value : Ref) (store : Frame → Except Error Frame) :
    (storeInFrame depth value store).Atomic (machine, execution) :=
  atomic_get_bind <| atomic_orFail_bind fun _ _ => atomic_orFail_bind fun _ _ => atomic_modify

theorem atomic_pop (depth : Nat) : (pop depth).Atomic execution := by
  refine atomic_get_bind <| atomic_orFail_bind fun _ _ => atomic_orFail_bind fun _ _ => ?_
  exact nofun

theorem atomic_raiseValue (value : Ref) (severity : Severity) :
    (raiseValue value severity).Atomic (machine, execution) := by
  refine atomic_get_bind ?_
  split
  · exact atomic_modify
  · exact atomic_throw

end Work

end ScriptVm
