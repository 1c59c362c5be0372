import ScriptVm.Instruction.Opcode
import ScriptVm.Kind
import ScriptVm.Number.Binary

/-!
# Instructions

An instruction is an operation with operands of the shapes that the operation's table entry lists.
Names are of any type: a text when instructions are written down, an index into the string table
when they are encoded.
-/
namespace ScriptVm

/-- A constant in the code. -/
inductive Constant (ν : Type) where
  | null
  | bool (value : Bool)
  | integer (kind : IntegerKind) (value : Integer kind)
  | binary (kind : BinaryKind) (value : Binary kind)
  | string (name : ν)
  deriving DecidableEq, Repr, Inhabited

/-- The kind of a constant. -/
def Constant.kind {ν : Type} : Constant ν → Kind
  | .null => .null
  | .bool _ => .bool
  | .integer kind _ => .integer kind
  | .binary kind _ => .binary kind
  | .string _ => .string

/-- A distance from the start of an instruction. -/
abbrev Distance := Integer ⟨true, .w32⟩

/-- The operands of a shape. -/
@[reducible] def Shape.Carrier (ν : Type) : Shape → Type
  | .register => UInt32
  | .name => ν
  | .parameter => UInt32
  | .index => UInt32
  | .offset => Distance
  | .constant => Constant ν

/-- Operands of a list of shapes, in order. -/
@[reducible] def Operands (ν : Type) : List Shape → Type
  | [] => Unit
  | shape :: rest => shape.Carrier ν × Operands ν rest

/-- Splits the last operand from the others. -/
def Operands.splitLast {ν : Type} {last : Shape} :
    (shapes : List Shape) → Operands ν (shapes ++ [last]) → Operands ν shapes × last.Carrier ν
  | [], (operand, ()) => ((), operand)
  | _ :: rest, (operand, operands) =>
    let (front, back) := splitLast rest operands
    ((operand, front), back)

/-- An operation with its operands. -/
structure Instruction (ν : Type) where
  /-- What to do. -/
  opcode : Opcode
  /-- With what. -/
  operands : Operands ν opcode.shapes

end ScriptVm
