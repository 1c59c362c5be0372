import ScriptVm.Instruction.Assembler
import ScriptVm.Instruction.Reading
import ScriptVm.Proofs.Result

/-!
# The layout of instructions

The table lists the operands of every operation. Taken one by one as the table lists them, operands
have a layout in the code. The assembler writes every instruction in this layout.
-/
namespace ScriptVm

namespace Reading

variable {α : Type}

/-- What is read is what was taken. -/
theorem ofOption_eq_ok_iff {misread : Misread} {take : Cursor → Option (α × Cursor)}
    {cursor : Cursor} {taken : α × Cursor} :
    ofOption misread take cursor = .ok taken ↔ take cursor = some taken := by
  unfold ofOption
  cases take cursor <;> simp

/-- A constant is read as the byte of its kind and a payload of the kind. -/
theorem constant_eq_ok_iff {cursor : Cursor} {read : Constant UInt32 × Cursor} :
    constant cursor = .ok read ↔ ∃ byte middle kind, cursor.byte? = some (byte, middle) ∧
      Kind.ofByte? byte = some kind ∧ Constant.payload? kind middle = some read := by
  constructor
  · intro done
    obtain ⟨⟨byte, middle⟩, taken, rest⟩ := Except.bind_eq_ok done
    cases known : Kind.ofByte? byte with
    | none =>
      simp only [known] at rest
      cases rest
    | some kind =>
      refine ⟨byte, middle, kind, ofOption_eq_ok_iff.mp taken, known, ?_⟩
      cases kind <;> simp only [known] at rest <;> exact ofOption_eq_ok_iff.mp rest
  · rintro ⟨byte, middle, kind, taken, known, paid⟩
    show (ofOption .truncated Cursor.byte? cursor >>= _) = _
    rw [ofOption_eq_ok_iff.mpr taken]
    cases kind <;> simp only [Bind.bind, Except.bind, known] <;>
      exact ofOption_eq_ok_iff.mpr paid

end Reading

namespace Constant

/-- The payload bytes of a constant. -/
def payload : Constant UInt32 → List UInt8
  | .null => []
  | .bool value => [if value then 1 else 0]
  | .integer kind value => littleBytes kind.width.bytes value.bits.toNat
  | .binary kind value => littleBytes kind.bytes value.bits.toNat
  | .string name => littleBytes 4 name.toNat

/-- The bytes of a constant: its kind, then its payload. -/
def encode (constant : Constant UInt32) : List UInt8 :=
  constant.kind.toByte :: constant.payload

end Constant

namespace Shape

/-- An operand of a shape. -/
def decode (cursor : Cursor) :
    (shape : Shape) → Except Misread (shape.Carrier UInt32 × Cursor)
  | .register => Reading.word cursor
  | .name => Reading.word cursor
  | .parameter => Reading.word cursor
  | .index => Reading.word cursor
  | .offset => Reading.distance cursor
  | .constant => Reading.constant cursor

/-- The bytes of an operand. -/
def encode : (shape : Shape) → shape.Carrier UInt32 → List UInt8
  | .register, word => littleBytes 4 word.toNat
  | .name, word => littleBytes 4 word.toNat
  | .parameter, word => littleBytes 4 word.toNat
  | .index, word => littleBytes 4 word.toNat
  | .offset, distance => littleBytes 4 distance.bits.toNat
  | .constant, value => value.encode

/-- An operand with its text replaced by the index of the text. -/
def number (strings : Array String) :
    (shape : Shape) → shape.Carrier String → shape.Carrier UInt32 × Array String
  | .register, word => (word, strings)
  | .name, text => indexOfText strings text
  | .parameter, word => (word, strings)
  | .index, word => (word, strings)
  | .offset, distance => (distance, strings)
  | .constant, .null => (.null, strings)
  | .constant, .bool value => (.bool value, strings)
  | .constant, .integer kind value => (.integer kind value, strings)
  | .constant, .binary kind value => (.binary kind value, strings)
  | .constant, .string text =>
    let (word, strings) := indexOfText strings text
    (.string word, strings)

end Shape

namespace Operands

/-- Operands of a list of shapes, in order. -/
def decode : (shapes : List Shape) → Cursor → Except Misread (Operands UInt32 shapes × Cursor)
  | [], cursor => .ok ((), cursor)
  | shape :: rest, cursor => do
    let (operand, cursor) ← shape.decode cursor
    let (operands, cursor) ← decode rest cursor
    return ((operand, operands), cursor)

/-- The bytes of operands, in order. -/
def encode : (shapes : List Shape) → Operands UInt32 shapes → List UInt8
  | [], () => []
  | shape :: rest, (operand, operands) => shape.encode operand ++ encode rest operands

/-- Operands with their texts replaced by the indices of the texts. -/
def number (strings : Array String) :
    (shapes : List Shape) → Operands String shapes → Operands UInt32 shapes × Array String
  | [], () => ((), strings)
  | shape :: rest, (operand, operands) =>
    let (operand, strings) := shape.number strings operand
    let (operands, strings) := number strings rest operands
    ((operand, operands), strings)

end Operands

/-- The bytes of an instruction: its operation, then its operands. -/
def Instruction.encode (instruction : Instruction UInt32) : List UInt8 :=
  instruction.opcode.toByte :: Operands.encode _ instruction.operands

/-- An instruction with its texts replaced by their indices. -/
def Instruction.numbered (strings : Array String) (instruction : Instruction String) :
    Instruction UInt32 :=
  ⟨instruction.opcode, (Operands.number strings _ instruction.operands).1⟩

namespace Assembler

/-- Every instruction is written in its layout, with the indices of its texts. -/
theorem emit_eq (assembler : Assembler) (instruction : Instruction String) :
    assembler.emit instruction =
      ⟨assembler.code ++ (instruction.numbered assembler.strings).encode.toArray,
        (Operands.number assembler.strings _ instruction.operands).2⟩ := by
  obtain ⟨opcode, operands⟩ := instruction
  cases opcode
  case' load site => cases site
  case' store site =>
    cases site
    case' member | element => obtain ⟨first, second, source, ⟨⟩⟩ := operands
    case' global | «local» | parameter => obtain ⟨first, source, ⟨⟩⟩ := operands
  case' pull site => cases site
  case' loadConstant =>
    obtain ⟨target, value, ⟨⟩⟩ := operands
    cases value
  all_goals simp [emit, loadConstant, op, word, distance, kind, name, string, bytes, byte,
    Instruction.numbered, Instruction.encode, Operands.number, Operands.encode, Shape.number,
    Shape.encode, Constant.encode, Constant.payload, Constant.kind]

end Assembler

end ScriptVm
