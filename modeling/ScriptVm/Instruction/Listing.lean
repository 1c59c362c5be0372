import ScriptVm.Error
import ScriptVm.Instruction.Reading
import ScriptVm.Number.Decimal
import ScriptVm.Text.Blank

/-!
# Listings

A listing shows the instructions of a range of code, one line each. The table of operands tells
what follows the byte of an operation. A byte that is no operation has a line of its own.
-/
namespace ScriptVm

/-- A text of the bytes at a cursor, which moves over them. -/
abbrev Listing := StateT Cursor (Except Error)

namespace Listing

/-- Goes on with what was taken, or fails where the code ends. -/
def take {α : Type} (take : Cursor → Option (α × Cursor)) : Listing α :=
  fun cursor => Error.indexOutOfRange.orElse (take cursor)

/-- The value of a constant. A text has to be in the string table. -/
def value (strings : Array String) : Constant UInt32 → Except Error String
  | .null => .ok "null"
  | .bool value => .ok (if value then "true" else "false")
  | .integer _ value => .ok (Text.signed value.toInt)
  | .binary _ value => .ok value.text
  | .string index =>
    match strings[index.toNat]? with
    | some text => .ok ("\"" ++ text ++ "\"")
    | none => .error .indexOutOfRange

/-- A constant: its kind, and its value. -/
def constant (strings : Array String) : Listing String := do
  match Kind.ofByte? (← take Cursor.byte?) with
  | none => throw .invalidType
  | some kind =>
    if kind.hasConstants then
      return kind.name ++ " " ++ (← value strings (← take (Constant.payload? kind)))
    else throw .invalidType

/-- An operand of an instruction that starts at an offset. -/
def operand (strings : Array String) (start : Nat) : Shape → Listing String
  | .register => do return "r" ++ Text.decimal (← take Cursor.word?).toNat
  | .parameter => do return "p" ++ Text.decimal (← take Cursor.word?).toNat
  | .index => do return "#" ++ Text.decimal (← take Cursor.word?).toNat
  | .name => do
    let index ← take Cursor.word?
    return match strings[index.toNat]? with
      | some text => "\"" ++ text ++ "\""
      | none => "s" ++ Text.decimal index.toNat
  | .offset => do
    let distance ← take (·.integer? ⟨true, .w32⟩)
    let target := Text.signedOffset (start + distance.toInt)
    return Text.explicitlySigned distance.toInt ++ " -> " ++ target
  | .constant => constant strings

/-- A line: the offset, the operation in sixteen columns, the operands. -/
def line (strings : Array String) : Listing String := do
  let start := (← get).next
  let byte ← take Cursor.byte?
  let front := Text.offset start ++ " "
  match Opcode.ofByte? byte with
  | none => return front ++ ".byte 0x" ++ Text.hexByte byte
  | some opcode =>
    let mnemonic := String.ofList (Text.spacePadded 16 opcode.mnemonic.toList)
    let operands ← opcode.shapes.mapM (operand strings start)
    return Text.trimEnd (front ++ mnemonic ++ Text.trimEnd (", ".intercalate operands))

/-- The lines from a cursor up to an offset. Every line takes at least one byte, so the count of
bytes is fuel enough. -/
def lines (strings : Array String) (stop : Nat) : Nat → Listing (List String)
  | 0 => return []
  | fuel + 1 => do
    if stop ≤ (← get).next then return []
    let text ← line strings
    return text :: (← lines strings stop fuel)

end Listing

/-- The lines of a range of code. -/
def listing (strings : Array String) (code : Array UInt8) (start stop : Nat) :
    Except Error (List String) :=
  (Listing.lines strings stop (stop - start)).run' (Cursor.ofOffset code start)

end ScriptVm
