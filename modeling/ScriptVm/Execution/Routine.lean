import ScriptVm.Arithmetic
import ScriptVm.Conversion
import ScriptVm.Execution.Access

/-!
# Built-in routines

Operands are in the first parameter registers and the result goes to the first one. A fault is
raised as a standard exception, so that a guarded block around the call catches it.
-/
namespace ScriptVm.Execution

/-- The value in a parameter register. -/
def operand (machine : Machine) (execution : Execution) (index : Nat) : Except Fault Value :=
  match execution.parameter index with
  | .error error => .error (.host error)
  | .ok reference =>
    match machine.heap.value? reference with
    | some value => .ok value
    | none => .error (.host .invalidArgument)

/-- The result of a routine that the machine does by itself. -/
def routineResult (machine : Machine) (execution : Execution) : Routine → Except Fault Value
  | .operator operator => do
    let left ← execution.operand machine 0
    let right ← execution.operand machine 1
    operator.apply left right
  | .cast target => do (← execution.operand machine 0).convert target
  | .callback _ => .ok .null

/-- Stores the result of a routine, or raises its fault. -/
def finishRoutine (machine : Machine) (execution : Execution) (result : Except Fault Value) :
    Machine × Execution :=
  match result with
  | .ok value =>
    let (reference, machine) := machine.newValue value false
    (machine.shade reference, execution.setResult reference)
  | .error fault =>
    match (Work.raiseException fault.exception fault.message).outcome (machine, execution) with
    | (.ok (), state) => state
    | (.error error, (machine, execution)) => (machine.note (.routineFailed error), execution)

end ScriptVm.Execution
