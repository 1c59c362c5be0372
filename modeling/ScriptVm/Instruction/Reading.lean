import ScriptVm.Instruction.Basic
import ScriptVm.Instruction.Cursor

/-!
# Reading operands

The operands of an instruction are read one after the other from the bytes after the byte of its
operation. Which ones these are is known to the operation that reads them.
-/
namespace ScriptVm

/-- Why operands cannot be read. -/
inductive Misread where
  | truncated
  | unknownKind (byte : UInt8)
  | notConstant (kind : Kind)
  deriving DecidableEq, Repr, Inhabited

/-- There are constants of a kind. -/
def Kind.hasConstants : Kind → Bool
  | .array | .object | .function | .native => false
  | _ => true

/-- The payload of a kind that has constants, when it is wholly inside the code. -/
def Constant.payload? (kind : Kind) (cursor : Cursor) : Option (Constant UInt32 × Cursor) :=
  match kind with
  | .null => some (.null, cursor)
  | .bool => cursor.bool?.map fun (value, cursor) => (.bool value, cursor)
  | .integer kind => (cursor.integer? kind).map fun (value, cursor) => (.integer kind value, cursor)
  | .binary kind => (cursor.binary? kind).map fun (value, cursor) => (.binary kind value, cursor)
  | .string => cursor.word?.map fun (name, cursor) => (.string name, cursor)
  | _ => none

/-- What is made of the bytes at a cursor, which moves over them. -/
abbrev Reading := StateT Cursor (Except Misread)

namespace Reading

/-- Goes on with what was taken, or tells why nothing was. -/
def ofOption {α : Type} (misread : Misread) (take : Cursor → Option (α × Cursor)) : Reading α :=
  fun cursor =>
    match take cursor with
    | some taken => .ok taken
    | none => .error misread

/-- A 32-bit word. -/
def word : Reading UInt32 := ofOption .truncated Cursor.word?

/-- A distance from the start of the instruction. -/
def distance : Reading Distance := ofOption .truncated (·.integer? ⟨true, .w32⟩)

/-- A constant: the byte of its kind, then its payload. -/
def constant : Reading (Constant UInt32) := do
  let byte ← ofOption .truncated Cursor.byte?
  match Kind.ofByte? byte with
  | none => throw (.unknownKind byte)
  | some .string => ofOption .truncated (Constant.payload? .string)
  | some kind => ofOption (.notConstant kind) (Constant.payload? kind)

end Reading

end ScriptVm
