import ScriptVm.Arithmetic
import ScriptVm.Step.Place

/-!
# What instructions do

What each operation does in the frame of its call with the operands it has read, and how the
execution is to go on after it.
-/
namespace ScriptVm

/-- How an execution goes on after an instruction. -/
inductive Outcome where
  | proceed
  /-- The call ends. -/
  | leave
  /-- Another call begins. -/
  | call (function : Function)
  | raise (value : Ref)
  | yield
  | abort

namespace Instruction

/-- Goes on at a distance from the start of the instruction, inside the function. -/
def jump (distance : Distance) : Step Unit := do
  let frame := (← get).frame
  let body := frame.function.body
  let target := (frame.start : Int) + distance.toInt
  if (body.start : Int) ≤ target ∧ target < body.stop then Step.setFrame (frame.moveTo target.toNat)
  else throw (.branchOutside target body.start body.stop)

/-- The reference to a constant: a string is in the constants of the module, anything but null is
a new value. -/
def constant : Constant UInt32 → Step Ref
  | .null => return Ref.null
  | .bool value => Step.newValue (.bool value)
  | .integer kind value => Step.newValue (.integer kind value)
  | .binary kind value => Step.newValue (.binary kind value)
  | .string index => do Step.orFault ((← get).frame.function.module.constant index.toNat)

/-- A new object of a type. -/
def newObject (typeName : String) : Step Ref :=
  Step.work (Work.newObject typeName false) fun
    | .keyDoesNotExist => .unknownType typeName
    | error => .host error

/-- A new array of nulls, no longer than the limit. -/
def newArray (length : Nat) : Step Ref := do
  let limit := (← get).machine.config.arrayLimit.toNat
  if limit < length then throw (.arrayTooLong length limit)
  Step.newValue (.array (Array.replicate length Ref.null))

/-- Pushes a reference on the operand stack. -/
def push (value : Ref) : Step Unit := do
  match (← get).frame.push value with
  | .ok frame => do
    Step.setFrame frame
    Step.shade value
  | .error .stackFull => throw .operandStackOverflow
  | .error error => throw (.host error)

/-- Pops a reference from the operand stack. -/
def pop : Step Ref := do
  match (← get).frame.pop with
  | .ok (value, frame) => do
    Step.setFrame frame
    return value
  | .error .stackEmpty => throw .operandStackUnderflow
  | .error error => throw (.host error)

/-- Copies the reference at a place into a register. -/
def load (place : Place) (target : UInt32) : Step Ref := do
  let value ← place.read
  Step.setRegister target value
  return value

end Instruction

/-- What an operation does once its operands have been read. -/
abbrev Effect := Step Outcome

namespace Effect

/-- Calls the function with a signature. -/
def call (signature : UInt32) : Effect := do
  return .call (← Step.function (← Step.name signature))

/-- Calls the function in a register. -/
def callValue (source : UInt32) : Effect := do
  match ← Step.value (← Step.register source) with
  | .function function => return .call function
  | other => throw (.unmet .function other.kind)

/-- Raises the reference in a register. -/
def raise (source : UInt32) : Effect := do return .raise (← Step.register source)

/-- Puts a constant into a register. -/
def loadConstant (target : UInt32) (value : Constant UInt32) : Effect := do
  Step.setRegister target (← Instruction.constant value)
  return .proceed

/-- Copies the reference at a place into a register. -/
def load (target : UInt32) (place : Step Place) : Effect := do
  discard <| Instruction.load (← place) target
  return .proceed

/-- Copies the reference in a register to a place. -/
def store (place : Step Place) (source : UInt32) : Effect := do
  let place ← place
  place.write (← Step.register source)
  return .proceed

/-- Copies the reference at a place into a register and clears the place. -/
def pull (target : UInt32) (place : Step Place) : Effect := do
  let place ← place
  discard <| Instruction.load place target
  place.write Ref.null
  return .proceed

/-- Pushes the reference in a register. -/
def push (source : UInt32) : Effect := do
  Instruction.push (← Step.register source)
  return .proceed

/-- Pops a reference into a register. -/
def pop (target : UInt32) : Effect := do
  Step.setRegister target (← Instruction.pop)
  return .proceed

/-- Puts a new object into a register. -/
def initObject (target typeName : UInt32) : Effect := do
  Step.setRegister target (← Instruction.newObject (← Step.name typeName))
  return .proceed

/-- Puts a new array into a register. -/
def initArray (target length : UInt32) : Effect := do
  Step.setRegister target (← Instruction.newArray length.toNat)
  return .proceed

/-- Puts a reference to a function into a register. -/
def initFunction (target signature : UInt32) : Effect := do
  let function ← Step.function (← Step.name signature)
  Step.setRegister target (← Step.newValue (.function function))
  return .proceed

/-- Branches. -/
def branch (distance : Distance) : Effect := do
  Instruction.jump distance
  return .proceed

/-- Branches when the condition in a register is the given one. -/
def branchIf (expected : Bool) (source : UInt32) (distance : Distance) : Effect := do
  let value ← Step.value (← Step.register source)
  let condition ← Step.found (.unmet .condition value.kind) value.condition?
  if condition = expected then Instruction.jump distance
  return .proceed

/-- Puts the result of an operator, applied to the values in two registers, into a register. -/
def arithmetic (operator : Operator) (target left right : UInt32) : Effect := do
  let left ← Step.register left
  let right ← Step.register right
  let left ← Step.value left
  let right ← Step.value right
  match operator.apply left right with
  | .ok result => do
    Step.setRegister target (← Step.newValue result)
    return .proceed
  | .error fault => throw fault

end Effect

end ScriptVm
