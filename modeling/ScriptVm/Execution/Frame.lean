import ScriptVm.Function.Basic
import ScriptVm.Instruction.Cursor
import ScriptVm.Table

/-!
# Call frames

A frame is one call of a function. A call of a script function has registers, local variables, an
operand stack and a position in the code; a call of a host function has none of these.
-/
namespace ScriptVm

/-- Registers of a script call. -/
def registerCount : Nat := 64

/-- The greatest length of an operand stack. -/
def stackLimit : Nat := 64

/-- The state of a script call. -/
structure Activation where
  /-- The called function. -/
  function : ScriptFunction
  /-- Its registers. -/
  registers : Vector Ref registerCount
  /-- Its local variables. -/
  locals : Table Ref
  /-- Its operand stack, top first. -/
  stack : List Ref
  /-- The next byte to decode. -/
  next : Nat
  /-- The first byte of the instruction being executed. -/
  start : Nat

namespace Activation

/-- A call at its first instruction, with everything null. -/
def enter (function : ScriptFunction) : Activation where
  function
  registers := Vector.replicate registerCount Ref.null
  locals := ⟨function.body.locals.map fun name => (name, Ref.null)⟩
  stack := []
  next := function.body.start
  start := function.body.start

/-- The decode cursor of a call. -/
def cursor (activation : Activation) : Cursor :=
  ⟨activation.function.module.code, activation.next, activation.start⟩

/-- Moves on to another byte. -/
def moveTo (activation : Activation) (offset : Nat) : Activation :=
  { activation with next := offset }

/-- The reference in a register. -/
def register (activation : Activation) (index : Nat) : Except Error Ref :=
  Error.indexOutOfRange.orElse activation.registers[index]?

/-- Puts a reference into a register. -/
def setRegister (activation : Activation) (index : Nat) (value : Ref) :
    Except Error Activation :=
  if index < registerCount then
    .ok { activation with registers := activation.registers.setIfInBounds index value }
  else .error .indexOutOfRange

/-- The reference in a local variable. -/
def localValue (activation : Activation) (name : String) : Except Error Ref :=
  Error.keyDoesNotExist.orElse (activation.locals.find? name)

/-- Puts a reference into a local variable. -/
def setLocalValue (activation : Activation) (name : String) (value : Ref) :
    Except Error Activation :=
  if activation.locals.contains name then
    .ok { activation with locals := activation.locals.replace name value }
  else .error .keyDoesNotExist

/-- Pushes a reference on the operand stack. -/
def push (activation : Activation) (value : Ref) : Except Error Activation :=
  if activation.stack.length < stackLimit then
    .ok { activation with stack := value :: activation.stack }
  else .error .stackFull

/-- Pops a reference from the operand stack. -/
def pop (activation : Activation) : Except Error (Ref × Activation) :=
  match activation.stack with
  | [] => .error .stackEmpty
  | value :: stack => .ok (value, { activation with stack })

/-- The reference at a depth of the operand stack. -/
def peek (activation : Activation) (depth : Nat) : Except Error Ref :=
  if activation.stack.isEmpty then .error .stackEmpty
  else Error.indexOutOfRange.orElse activation.stack[depth]?

/-- The call goes on at the handler for a raised value, if its function has one around the current
instruction. -/
def catch? (activation : Activation) (kind : Kind) (className : Option String) :
    Option Activation :=
  (activation.function.body.findHandler? activation.start kind className).map activation.moveTo

/-- The handles that a call keeps alive. -/
def roots (activation : Activation) : List Handle :=
  (activation.registers.toList ++ activation.locals.values ++ activation.stack.reverse).map
    Ref.handle

end Activation

/-- A frame of the call stack, with the number that identifies it in its execution. -/
inductive Frame where
  | script (id : Nat) (activation : Activation)
  | host (id : Nat) (function : HostFunction)

namespace Frame

/-- The frame of a call. -/
def enter (id : Nat) : Function → Frame
  | .script function => .script id (Activation.enter function)
  | .host function => .host id function

/-- The number of a frame. -/
def id : Frame → Nat
  | .script id _ => id
  | .host id _ => id

/-- The called function. -/
def function : Frame → Function
  | .script _ activation => .script activation.function
  | .host _ function => .host function

/-- The state of a script call. -/
def activation? : Frame → Option Activation
  | .script _ activation => some activation
  | .host _ _ => none

/-- Changes the state of a script call; a host call gives an error. -/
def update (frame : Frame) (otherwise : Error)
    (change : Activation → Except Error Activation) : Except Error Frame :=
  match frame with
  | .script id activation => do return .script id (← change activation)
  | .host _ _ => .error otherwise

/-- The reference in a register. -/
def register (frame : Frame) (index : Nat) : Except Error Ref :=
  match frame with
  | .script _ activation => activation.register index
  | .host _ _ => .error .indexOutOfRange

/-- The reference in a local variable. -/
def localValue (frame : Frame) (name : String) : Except Error Ref :=
  match frame with
  | .script _ activation => activation.localValue name
  | .host _ _ => .error .keyDoesNotExist

/-- Puts a reference into a register. -/
def setRegister (frame : Frame) (index : Nat) (value : Ref) : Except Error Frame :=
  frame.update .indexOutOfRange (·.setRegister index value)

/-- Puts a reference into a local variable. -/
def setLocalValue (frame : Frame) (name : String) (value : Ref) : Except Error Frame :=
  frame.update .keyDoesNotExist (·.setLocalValue name value)

/-- Pushes a reference on the operand stack. -/
def push (frame : Frame) (value : Ref) : Except Error Frame :=
  frame.update .stackFull (·.push value)

/-- Pops a reference from the operand stack. -/
def pop (frame : Frame) : Except Error (Ref × Frame) :=
  match frame with
  | .script id activation => do
    let (value, activation) ← activation.pop
    return (value, .script id activation)
  | .host _ _ => .error .stackEmpty

/-- The reference at a depth of the operand stack. -/
def peek (frame : Frame) (depth : Nat) : Except Error Ref :=
  match frame with
  | .script _ activation => activation.peek depth
  | .host _ _ => .error .stackEmpty

/-- The length of the operand stack. -/
def stackLength : Frame → Nat
  | .script _ activation => activation.stack.length
  | .host _ _ => 0

/-- The frame goes on at the handler for a raised value, if it has one. -/
def catch? (frame : Frame) (kind : Kind) (className : Option String) : Option Frame :=
  match frame with
  | .script id activation => (activation.catch? kind className).map (.script id)
  | .host _ _ => none

/-- The handles that a frame keeps alive. -/
def roots : Frame → List Handle
  | .script _ activation => activation.roots
  | .host _ _ => []

end Frame

end ScriptVm
