import ScriptVm.Machine.Basic

/-!
# Raising

A raised value goes to the first parameter register, and control goes to the innermost handler that
catches it. Without one the call stack is emptied and the execution ends with an exception. A fatal
raise ends the execution at once and leaves its call stack.
-/
namespace ScriptVm

/-- Whether handlers are asked. -/
inductive Severity where
  | normal
  | fatal
  deriving DecidableEq, Repr, Inhabited

namespace Execution

/-- Puts a raised value, or the result of a call, into the first parameter register. -/
def setResult (execution : Execution) (value : Ref) : Execution :=
  { execution with parameters := execution.parameters.setIfInBounds 0 value }

/-- Raises a value. -/
def raise (machine : Machine) (execution : Execution) (value : Ref) (severity : Severity) :
    Machine × Execution :=
  let execution := execution.setResult value
  let machine := machine.shade value
  match severity with
  | .fatal =>
    (machine.note .aborted,
      { execution with flags := { execution.flags with exception := true, aborted := true } })
  | .normal =>
    let (kind, className) := machine.thrown value
    match unwind kind className execution.frames with
    | some frames => (machine, { execution with frames })
    | none =>
      (machine.note (.unhandled (className.getD kind.name)),
        { execution with
          frames := [], flags := { execution.flags with exception := true } })

end Execution

/-- Raises a new standard exception. -/
def Work.raiseException (exception : ExceptionClass) (message : String) :
    Work (Machine × Execution) Unit := do
  let value ← onFirst (newException exception message false)
  modify fun (machine, execution) => execution.raise machine value .normal

namespace Execution

/-- The machine and the execution after a new standard exception has been raised. -/
def raiseException (machine : Machine) (execution : Execution) (exception : ExceptionClass)
    (message : String) : Except Error (Machine × Execution) :=
  (Work.raiseException exception message).changed (machine, execution)

/-- Raises the exception of a fault; if it cannot be made, the execution is aborted. -/
def raiseFault (machine : Machine) (execution : Execution) (fault : Fault) :
    Machine × Execution :=
  match (Work.newException fault.exception fault.message false).outcome machine with
  | (.ok value, machine) => execution.raise machine value .normal
  | (.error error, machine) =>
    execution.raise (machine.note (.exceptionUnbuilt fault error)) Ref.null .fatal

end Execution

end ScriptVm
