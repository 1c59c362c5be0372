import ScriptVm.Proofs.Instruction.Decoding

/-!
# Which bytes decoding looks at

The extent of an instruction is told by the byte of its operation and by the kind bytes of its
constants, also where the code ends too early for it. In other code of the same size with the same
bytes in the extent, decoding comes to the same. An instruction that can be decoded has its size as
extent, so one whose extent passes the end of the code cannot.
-/
namespace ScriptVm

namespace Cursor

variable {cursor : Cursor} {code : Array UInt8} {count : Nat}

/-- The same position in other code. -/
def within (cursor : Cursor) (code : Array UInt8) : Cursor := { cursor with code }

/-- What has been taken, with the rest of other code. -/
def carry {α : Type} (code : Array UInt8) (taken : α × Cursor) : α × Cursor :=
  (taken.1, taken.2.within code)

/-- Other code has the same size, and the same bytes in a range that begins at a cursor. -/
structure Agrees (cursor : Cursor) (code : Array UInt8) (count : Nat) : Prop where
  /-- The sizes are the same. -/
  size : code.size = cursor.code.size
  /-- The bytes in the range are the same. -/
  bytes : ∀ offset, cursor.next ≤ offset → offset < cursor.next + count →
    code[offset]? = cursor.code[offset]?

/-- Code that agrees in a range agrees at the beginning of the range. -/
theorem Agrees.mono {fewer : Nat} (agrees : cursor.Agrees code count) (less : fewer ≤ count) :
    cursor.Agrees code fewer :=
  ⟨agrees.size, fun offset low high => agrees.bytes offset low (by omega)⟩

/-- Code that agrees in two ranges one after the other agrees in the second one. -/
theorem Agrees.later {first second : Nat} (agrees : cursor.Agrees code (first + second)) :
    (cursor.moveTo (cursor.next + first)).Agrees code second := by
  refine ⟨agrees.size, fun offset low high => agrees.bytes offset ?_ ?_⟩
  · exact Nat.le_trans (Nat.le_add_right _ _) low
  · exact Nat.add_assoc _ _ _ ▸ high

/-- The same bytes are taken. -/
theorem take?_within (agrees : cursor.Agrees code count) :
    (cursor.within code).take? count = (cursor.take? count).map (carry code) := by
  have same : code.extract cursor.next (cursor.next + count) =
      cursor.code.extract cursor.next (cursor.next + count) := by
    refine Array.ext_getElem? fun position => ?_
    rw [Array.getElem?_extract, Array.getElem?_extract, agrees.size]
    split
    · exact agrees.bytes _ (Nat.le_add_right _ _) (by omega)
    · rfl
  unfold take?
  simp only [within, agrees.size, same]
  split <;> rfl

/-- The same is made of a fixed count of bytes. -/
theorem field_within {α : Type} (agrees : cursor.Agrees code count) (make : List UInt8 → α) :
    ((cursor.within code).take? count).bind (fun taken => some (make taken.1, taken.2)) =
      ((cursor.take? count).bind fun taken => some (make taken.1, taken.2)).map (carry code) := by
  rw [take?_within agrees]
  cases cursor.take? count <;> rfl

/-- The same byte is taken. -/
theorem byte?_within (agrees : cursor.Agrees code 1) :
    (cursor.within code).byte? = cursor.byte?.map (carry code) :=
  field_within agrees fun bytes => UInt8.ofNat (littleValue bytes)

/-- The same word is taken. -/
theorem word?_within (agrees : cursor.Agrees code 4) :
    (cursor.within code).word? = cursor.word?.map (carry code) :=
  field_within agrees fun bytes => UInt32.ofNat (littleValue bytes)

/-- The same integer is taken. -/
theorem integer?_within {kind : IntegerKind} (agrees : cursor.Agrees code kind.width.bytes) :
    (cursor.within code).integer? kind = (cursor.integer? kind).map (carry code) :=
  field_within agrees fun bytes => Integer.mk (BitVec.ofNat kind.bits (littleValue bytes))

/-- The same floating-point number is taken. -/
theorem binary?_within {kind : BinaryKind} (agrees : cursor.Agrees code kind.bytes) :
    (cursor.within code).binary? kind = (cursor.binary? kind).map (carry code) :=
  field_within agrees fun bytes => Binary.mk (BitVec.ofNat kind.bits (littleValue bytes))

/-- The same truth value is taken. -/
theorem bool?_within (agrees : cursor.Agrees code 1) :
    (cursor.within code).bool? = cursor.bool?.map (carry code) := by
  unfold bool?
  rw [byte?_within agrees]
  cases cursor.byte? <;> rfl

/-- The bytes that stand at a cursor are those of the code. -/
theorem Sees.getElem? {bytes : List UInt8} (sees : cursor.Sees bytes) {position : Nat}
    (inside : position < bytes.length) :
    cursor.code[cursor.next + position]? = bytes[position]? := by
  obtain ⟨more, whole⟩ := sees
  have there := congrArg (fun bytes => bytes[position]?) whole
  simpa [List.getElem?_append_left inside] using there.symm

/-- The first of the bytes that stand at a cursor. -/
theorem Sees.head {byte : UInt8} {rest : List UInt8} (sees : cursor.Sees (byte :: rest)) :
    cursor.code[cursor.next]? = some byte :=
  sees.getElem? (Nat.succ_pos _)

end Cursor

/-- Which of some bytes are zero. -/
def zeros (bytes : List UInt8) : List Bool := bytes.map fun byte => decide (byte = 0)

namespace Constant

variable {cursor : Cursor} {code : Array UInt8}

/-- How many bytes a constant takes that begins at a cursor: the byte of its kind, and a payload
when there is such a kind. -/
def extent (cursor : Cursor) : Nat :=
  1 + (cursor.code[cursor.next]?.bind Kind.ofByte?).elim 0 Kind.payloadSize

/-- A constant that is spelled at a cursor takes as many bytes. -/
theorem extent_of_spelled {constant : Constant UInt32} {bytes : List UInt8}
    (spelled : constant.Spelled bytes) (sees : cursor.Sees bytes) :
    extent cursor = bytes.length := by
  rw [spelled.length]
  obtain ⟨payload, rfl, -⟩ := spelled
  have known : Kind.ofByte? constant.kind.toByte = some constant.kind :=
    Kind.ofByte?_eq_some_iff.mpr rfl
  simp [extent, sees.head, known]

/-- Two spellings of a constant have the same zeros. -/
theorem Spelled.zeros {constant : Constant UInt32} {bytes others : List UInt8}
    (spelled : constant.Spelled bytes) (other : constant.Spelled others) :
    zeros bytes = zeros others := by
  obtain ⟨payload, rfl, paid⟩ := spelled
  obtain ⟨payload', rfl, paid'⟩ := other
  cases constant with
  | bool value =>
    obtain ⟨byte, rfl, known⟩ := paid
    obtain ⟨byte', rfl, known'⟩ := paid'
    have same : decide (byte = 0) = decide (byte' = 0) := by
      simpa using known.symm.trans known'
    simp [ScriptVm.zeros, same]
  | _ =>
    rw [show payload = payload' from Eq.trans paid (Eq.symm paid')]

/-- The same payload is taken. -/
theorem payload?_within {kind : Kind} (agrees : cursor.Agrees code kind.payloadSize) :
    payload? kind (cursor.within code) = (payload? kind cursor).map (Cursor.carry code) := by
  cases kind with
  | null => rfl
  | bool =>
    simp only [payload?, Cursor.bool?_within agrees]
    cases cursor.bool? <;> rfl
  | integer kind =>
    simp only [payload?, Cursor.integer?_within agrees]
    cases cursor.integer? kind <;> rfl
  | binary kind =>
    simp only [payload?, Cursor.binary?_within agrees]
    cases cursor.binary? kind <;> rfl
  | string =>
    simp only [payload?, Cursor.word?_within agrees]
    cases cursor.word? <;> rfl
  | _ => rfl

end Constant

namespace Reading

variable {cursor : Cursor} {code : Array UInt8}

/-- The same is read where the same is taken. -/
theorem ofOption_within {α : Type} {misread : Misread} {take : Cursor → Option (α × Cursor)}
    (same : take (cursor.within code) = (take cursor).map (Cursor.carry code)) :
    ofOption misread take (cursor.within code) =
      (ofOption misread take cursor).map (Cursor.carry code) := by
  unfold ofOption
  rw [same]
  cases take cursor <;> rfl

/-- The same constant is read. -/
theorem constant_within (agrees : cursor.Agrees code (Constant.extent cursor)) :
    constant (cursor.within code) = (constant cursor).map (Cursor.carry code) := by
  have first := Cursor.byte?_within (agrees.mono (Nat.le_add_right _ _))
  show (ofOption .truncated Cursor.byte? (cursor.within code) >>= _) = _
  rw [ofOption_within first]
  show _ = (ofOption .truncated Cursor.byte? cursor >>= _).map _
  cases taken : cursor.byte? with
  | none => simp only [ofOption, taken]; rfl
  | some found =>
    obtain ⟨byte, middle⟩ := found
    obtain ⟨sees, rfl⟩ := Cursor.byte?_eq_some_iff.mp taken
    simp only [ofOption_eq_ok_iff.mpr taken, Bind.bind, Except.bind, Except.map, Cursor.carry]
    cases known : Kind.ofByte? byte with
    | none => rfl
    | some kind =>
      have rest : (cursor.moveTo (cursor.next + 1)).Agrees code kind.payloadSize := by
        refine Cursor.Agrees.later ?_
        simpa [Constant.extent, sees.head, known] using agrees
      have paid := Constant.payload?_within rest
      cases kind <;> exact ofOption_within paid

end Reading

namespace Shape

variable {cursor after : Cursor} {code : Array UInt8}

/-- How many bytes an operand takes that begins at a cursor. -/
def extent (cursor : Cursor) : Shape → Nat
  | .constant => Constant.extent cursor
  | _ => 4

/-- An operand that is spelled at a cursor takes as many bytes. -/
theorem extent_of_spelled (shape : Shape) {operand : shape.Carrier UInt32} {bytes : List UInt8}
    (spelled : shape.Spelled operand bytes) (sees : cursor.Sees bytes) :
    shape.extent cursor = bytes.length := by
  cases shape with
  | constant => exact Constant.extent_of_spelled spelled sees
  | _ => exact (length_of_spelled _ spelled).symm

/-- Two spellings of an operand have the same zeros. -/
theorem zeros_of_spelled (shape : Shape) {operand : shape.Carrier UInt32}
    {bytes others : List UInt8} (spelled : shape.Spelled operand bytes)
    (other : shape.Spelled operand others) : zeros bytes = zeros others := by
  cases shape with
  | constant => exact Constant.Spelled.zeros spelled other
  | _ => rw [show bytes = others from Eq.trans spelled (Eq.symm other)]

/-- The same operand is decoded. -/
theorem decode_within (shape : Shape) (agrees : cursor.Agrees code (shape.extent cursor)) :
    shape.decode (cursor.within code) = (shape.decode cursor).map (Cursor.carry code) := by
  cases shape with
  | constant => exact Reading.constant_within agrees
  | offset =>
    show Reading.distance (cursor.within code) = (Reading.distance cursor).map _
    exact Reading.ofOption_within (Cursor.integer?_within agrees)
  | _ => exact Reading.ofOption_within (Cursor.word?_within agrees)

/-- Decoding an operand moves over it. -/
theorem next_of_decode (shape : Shape) {operand : shape.Carrier UInt32}
    (decoded : shape.decode cursor = .ok (operand, after)) :
    after = cursor.moveTo (cursor.next + shape.extent cursor) := by
  obtain ⟨bytes, spelled, sees, moved⟩ := (shape.reads_decode _ _ _).mp decoded
  rw [moved, shape.extent_of_spelled spelled sees]

end Shape

namespace Operands

/-- How many bytes operands take that begin at a cursor. -/
def extent : List Shape → Cursor → Nat
  | [], _ => 0
  | shape :: rest, cursor =>
    shape.extent cursor + extent rest (cursor.moveTo (cursor.next + shape.extent cursor))

/-- Operands that are spelled at a cursor take as many bytes. -/
theorem extent_of_spelled : (shapes : List Shape) → {cursor : Cursor} →
    {operands : Operands UInt32 shapes} → {bytes : List UInt8} →
    Spelled shapes operands bytes → cursor.Sees bytes → extent shapes cursor = bytes.length
  | [], _, (), _, spelled, _ => by
    rw [show _ = [] from spelled]
    rfl
  | shape :: rest, _, (_, _), _, ⟨first, more, same, front, back⟩, sees => by
    rw [same] at sees
    obtain ⟨begins, ends⟩ := Cursor.sees_append.mp sees
    have head := shape.extent_of_spelled front begins
    rw [extent, head, extent_of_spelled rest back ends, same, List.length_append]

/-- Two spellings of operands have the same zeros. -/
theorem zeros_of_spelled : (shapes : List Shape) → {operands : Operands UInt32 shapes} →
    {bytes others : List UInt8} → Spelled shapes operands bytes → Spelled shapes operands others →
    zeros bytes = zeros others
  | [], (), _, _, spelled, other => by
    rw [show _ = [] from spelled, show _ = [] from other]
  | shape :: rest, (_, _), _, _, ⟨_, _, same, front, back⟩, ⟨_, _, same', front', back'⟩ => by
    have head := shape.zeros_of_spelled front front'
    have tail := zeros_of_spelled rest back back'
    rw [same, same', zeros, List.map_append, zeros, List.map_append]
    exact congrArg₂ _ head tail

/-- The same operands are decoded. -/
theorem decode_within (shapes : List Shape) {cursor : Cursor} {code : Array UInt8}
    (agrees : cursor.Agrees code (extent shapes cursor)) :
    decode shapes (cursor.within code) = (decode shapes cursor).map (Cursor.carry code) := by
  induction shapes generalizing cursor with
  | nil => rfl
  | cons shape rest hypothesis =>
    have first := shape.decode_within (agrees.mono (Nat.le_add_right _ _))
    simp only [decode, first]
    cases decoded : shape.decode cursor with
    | error misread => rfl
    | ok found =>
      obtain ⟨operand, middle⟩ := found
      obtain rfl := shape.next_of_decode decoded
      have second := hypothesis agrees.later
      simp only [Except.map, Bind.bind, Except.bind, Cursor.carry, second]
      cases decode rest (cursor.moveTo (cursor.next + shape.extent cursor)) <;> rfl

end Operands

/-- Two spellings of an instruction have the same zeros. -/
theorem Instruction.Spelled.zeros {instruction : Instruction UInt32} {bytes others : List UInt8}
    (spelled : instruction.Spelled bytes) (other : instruction.Spelled others) :
    zeros bytes = zeros others := by
  obtain ⟨operands, rfl, rest⟩ := spelled
  obtain ⟨operands', rfl, rest'⟩ := other
  exact congrArg (List.cons _) (Operands.zeros_of_spelled _ rest rest')

namespace Cursor

variable {cursor : Cursor} {code : Array UInt8} {instruction : Instruction UInt32}

/-- How many bytes an instruction takes that begins at a cursor: the byte of its operation, and its
operands when there is such an operation. -/
def extent (cursor : Cursor) : Nat :=
  1 + (cursor.code[cursor.next]?.bind Opcode.ofByte?).elim 0 fun opcode =>
    Operands.extent opcode.shapes (cursor.moveTo (cursor.next + 1))

/-- The extent of a known operation. -/
theorem extent_of_byte {byte : UInt8} {opcode : Opcode}
    (found : cursor.code[cursor.next]? = some byte) (known : Opcode.ofByte? byte = some opcode) :
    cursor.extent = 1 + Operands.extent opcode.shapes (cursor.moveTo (cursor.next + 1)) := by
  simp [extent, found, known]

/-- An instruction that is spelled at a cursor has its size as extent. -/
theorem Holds.extent (holds : cursor.Holds instruction) : cursor.extent = instruction.size := by
  obtain ⟨bytes, spelled, sees⟩ := holds
  rw [← spelled.length]
  obtain ⟨operands, rfl, rest⟩ := spelled
  rw [extent_of_byte sees.head (Opcode.ofByte?_eq_some_iff.mpr rfl),
    Operands.extent_of_spelled _ rest (sees_cons.mp sees).2, List.length_cons, Nat.add_comm]

/-- An instruction that is spelled at a cursor lies inside the code. -/
theorem Holds.inside (holds : cursor.Holds instruction) :
    cursor.next + cursor.extent ≤ cursor.code.size := by
  rw [holds.extent]
  exact holds.fits

/-- The same instruction is spelled in code that agrees in its extent. -/
theorem Holds.within (holds : cursor.Holds instruction)
    (agrees : cursor.Agrees code cursor.extent) : (cursor.within code).Holds instruction := by
  obtain ⟨byte, middle, taken, known, decoded⟩ := holds_iff.mp ⟨holds, rfl⟩
  obtain ⟨sees, rfl⟩ := byte?_eq_some_iff.mp taken
  have first := byte?_within (agrees.mono (Nat.le_add_right _ _))
  rw [extent_of_byte sees.head known] at agrees
  have second := Operands.decode_within instruction.opcode.shapes agrees.later
  rw [taken] at first
  rw [decoded] at second
  exact (holds_iff.mpr ⟨byte, _, first, known, second⟩).1

/-- Where the same instruction is spelled in other code, the zeros of its extent are the same. -/
theorem Holds.zero_iff (holds : cursor.Holds instruction)
    (other : (cursor.within code).Holds instruction) {position : Nat}
    (inside : position < cursor.extent) :
    code[cursor.next + position]? = some 0 ↔ cursor.code[cursor.next + position]? = some 0 := by
  rw [holds.extent] at inside
  obtain ⟨bytes, spelled, sees⟩ := holds
  obtain ⟨others, spelled', sees'⟩ := other
  have zero : ∀ bytes : List UInt8,
      bytes[position]? = some 0 ↔ (zeros bytes)[position]? = some true := by
    intro bytes
    simp [zeros]
  have there := sees.getElem? (spelled.length ▸ inside)
  have there' : code[cursor.next + position]? = _ := sees'.getElem? (spelled'.length ▸ inside)
  rw [there, there', zero, zero, spelled.zeros spelled']

end Cursor

end ScriptVm
