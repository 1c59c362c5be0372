import ScriptVm.Execution.Raise

/-!
# Executions for the embedding program

Reading and changing the registers and frames of an execution from outside, and raising in it.
-/
namespace ScriptVm

namespace Work

/-- Puts a reference into a parameter register. -/
def setParameter (index : Nat) (value : Ref) : Work (Machine × Execution) Unit := do
  if index < parameterCount then
    modify fun (machine, execution) => (machine.shade value,
      { execution with parameters := execution.parameters.setIfInBounds index value })
  else throw .indexOutOfRange

/-- Stores a reference into the frame at a depth. -/
def storeInFrame (depth : Nat) (value : Ref) (store : Frame → Except Error Frame) :
    Work (Machine × Execution) Unit := do
  let (_, execution) ← get
  let frame ← orFail (execution.frame depth)
  let frame ← orFail (store frame)
  modify fun (machine, execution) => (machine.shade value, execution.setFrame depth frame)

/-- Pops a reference from the operand stack of the frame at a depth. -/
def pop (depth : Nat) : Work Execution Ref := do
  let frame ← orFail ((← get).frame depth)
  let (value, frame) ← orFail frame.pop
  modify (·.setFrame depth frame)
  return value

/-- Raises a value that resolves. -/
def raiseValue (value : Ref) (severity : Severity) : Work (Machine × Execution) Unit := do
  if (← get).1.heap.contains value.handle then
    modify fun (machine, execution) => execution.raise machine value severity
  else throw .invalidArgument

end Work

namespace Execution

/-- The machine and the execution with a reference put into a parameter register. -/
def setParameter (machine : Machine) (execution : Execution) (index : Nat) (value : Ref) :
    Except Error (Machine × Execution) :=
  (Work.setParameter index value).changed (machine, execution)

/-- The machine and the execution with a reference stored into the frame at a depth. -/
def storeInFrame (machine : Machine) (execution : Execution) (depth : Nat) (value : Ref)
    (store : Frame → Except Error Frame) : Except Error (Machine × Execution) :=
  (Work.storeInFrame depth value store).changed (machine, execution)

/-- Puts a reference into a register of the frame at a depth. -/
def setRegister (machine : Machine) (execution : Execution) (depth index : Nat) (value : Ref) :
    Except Error (Machine × Execution) :=
  execution.storeInFrame machine depth value (·.setRegister index value)

/-- Puts a reference into a local variable of the frame at a depth. -/
def setLocalValue (machine : Machine) (execution : Execution) (depth : Nat) (name : String)
    (value : Ref) : Except Error (Machine × Execution) :=
  execution.storeInFrame machine depth value (·.setLocalValue name value)

/-- Pushes a reference on the operand stack of the frame at a depth. -/
def push (machine : Machine) (execution : Execution) (depth : Nat) (value : Ref) :
    Except Error (Machine × Execution) :=
  execution.storeInFrame machine depth value (·.push value)

/-- The reference popped from the operand stack of the frame at a depth, and the execution without
it. -/
def pop (execution : Execution) (depth : Nat) : Except Error (Ref × Execution) :=
  (Work.pop depth).result execution

/-- The machine and the execution after a value that resolves has been raised. -/
def raiseValue (machine : Machine) (execution : Execution) (value : Ref) (severity : Severity) :
    Except Error (Machine × Execution) :=
  (Work.raiseValue value severity).changed (machine, execution)

end Execution

end ScriptVm
