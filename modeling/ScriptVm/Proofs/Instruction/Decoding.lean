import ScriptVm.Proofs.Image.Spelling
import ScriptVm.Proofs.Instruction.Layout
import ScriptVm.Proofs.Result

/-!
# What instructions are decoded from

An instruction is decoded exactly where bytes that spell it stand in the code: the byte of the
operation, then the bytes of each operand that the table lists, in that order. A constant is spelled
by the byte of its kind and a payload of that kind's size. Every value has one spelling but true,
which any payload but zero spells.
-/
namespace ScriptVm

namespace Cursor

variable {cursor after : Cursor}

/-- Bytes stand in the code at a cursor. -/
def Sees (cursor : Cursor) (bytes : List UInt8) : Prop :=
  bytes <+: cursor.code.toList.drop cursor.next

/-- Two parts stand in the code one after the other. -/
theorem sees_append {first second : List UInt8} :
    cursor.Sees (first ++ second) ↔
      cursor.Sees first ∧ (cursor.moveTo (cursor.next + first.length)).Sees second := by
  simp only [Sees, moveTo, ← List.drop_drop]
  constructor
  · rintro ⟨rest, whole⟩
    rw [← whole, List.append_assoc, List.drop_left]
    exact ⟨List.prefix_append _ _, List.prefix_append _ _⟩
  · rintro ⟨⟨rest, whole⟩, later⟩
    rw [← whole, List.drop_left] at later
    rw [← whole, List.prefix_append_right_inj]
    exact later

/-- A byte stands in the code before others. -/
theorem sees_cons {byte : UInt8} {rest : List UInt8} :
    cursor.Sees (byte :: rest) ↔
      cursor.Sees [byte] ∧ (cursor.moveTo (cursor.next + 1)).Sees rest :=
  @sees_append cursor [byte] rest

/-- Bytes that stand in the code are inside it. -/
theorem Sees.inside {bytes : List UInt8} (sees : cursor.Sees bytes) (some : bytes ≠ []) :
    cursor.next + bytes.length ≤ cursor.code.size := by
  have length : bytes.length ≤ cursor.code.size - cursor.next := by
    simpa using sees.length_le
  have positive : 0 < bytes.length := List.length_pos_iff.mpr some
  omega

/-- Bytes are taken exactly when that many stand in the code. -/
theorem take?_eq_some_iff {count : Nat} (positive : 0 < count) {bytes : List UInt8} :
    cursor.take? count = some (bytes, after) ↔
      bytes.length = count ∧ cursor.Sees bytes ∧ after = cursor.moveTo (cursor.next + count) := by
  have taken : (cursor.code.extract cursor.next (cursor.next + count)).toList =
      (cursor.code.toList.drop cursor.next).take count := by
    rw [Array.toList_extract, List.extract_eq_take_drop, Nat.add_sub_cancel_left]
  unfold take?
  rw [taken]
  constructor
  · intro found
    split at found
    · rename_i inside
      obtain ⟨rfl, rfl⟩ := Prod.mk.inj (Option.some.inj found)
      refine ⟨?_, List.take_prefix _ _, rfl⟩
      rw [List.length_take, List.length_drop, Array.length_toList]
      omega
    · cases found
  · rintro ⟨rfl, sees, rfl⟩
    rw [if_pos (sees.inside (List.length_pos_iff.mp positive)), ← List.prefix_iff_eq_take.mp sees]

/-- What is made of a fixed count of bytes is found exactly where the bytes that make it stand. -/
theorem field_eq_some_iff {α : Type} {count : Nat} (positive : 0 < count)
    (make : List UInt8 → α) (write : α → List UInt8)
    (length : ∀ value, (write value).length = count) (made : ∀ value, make (write value) = value)
    (written : ∀ bytes, bytes.length = count → write (make bytes) = bytes) {value : α} :
    (cursor.take? count).bind (fun taken => some (make taken.1, taken.2)) = some (value, after) ↔
      cursor.Sees (write value) ∧ after = cursor.moveTo (cursor.next + count) := by
  constructor
  · intro found
    obtain ⟨⟨bytes, middle⟩, taken, same⟩ := Option.bind_eq_some_iff.mp found
    obtain ⟨rfl, rfl⟩ := Prod.mk.inj (Option.some.inj same)
    obtain ⟨size, sees, moved⟩ := (take?_eq_some_iff positive).mp taken
    rw [written bytes size]
    exact ⟨sees, moved⟩
  · rintro ⟨sees, moved⟩
    have taken := (take?_eq_some_iff positive).mpr ⟨length value, sees, moved⟩
    rw [taken, Option.bind_some, made value]

/-- A number of a fixed count of bytes is the number that its bytes write. -/
theorem littleValue_lt_of_length {bytes : List UInt8} {count : Nat} (size : bytes.length = count) :
    littleValue bytes < 2 ^ (8 * count) := by
  have bound := littleValue_lt bytes
  rwa [size, show 256 = 2 ^ 8 from rfl, ← Nat.pow_mul] at bound

/-- A byte is taken where it stands. -/
theorem byte?_eq_some_iff {byte : UInt8} :
    cursor.byte? = some (byte, after) ↔
      cursor.Sees [byte] ∧ after = cursor.moveTo (cursor.next + 1) := by
  refine field_eq_some_iff Nat.one_pos (fun bytes => UInt8.ofNat (littleValue bytes))
    (fun byte => [byte]) (fun _ => rfl) ?_ ?_
  · intro value
    simp [littleValue]
  · intro bytes size
    obtain ⟨value, rfl⟩ := List.length_eq_one_iff.mp size
    simp [littleValue]

/-- A word is taken where its bytes stand. -/
theorem word?_eq_some_iff {word : UInt32} :
    cursor.word? = some (word, after) ↔
      cursor.Sees (littleBytes 4 word.toNat) ∧ after = cursor.moveTo (cursor.next + 4) := by
  refine field_eq_some_iff (by decide) (fun bytes => UInt32.ofNat (littleValue bytes))
    (fun word => littleBytes 4 word.toNat) (fun _ => length_littleBytes _ _) ?_ ?_
  · intro value
    have bound : value.toNat < 256 ^ 4 := value.toNat_lt
    rw [littleValue_littleBytes, Nat.mod_eq_of_lt bound, UInt32.ofNat_toNat]
  · intro bytes size
    have bound := littleValue_lt_of_length size
    simp only [UInt32.toNat_ofNat', Nat.mod_eq_of_lt bound]
    rw [← size]
    exact littleBytes_littleValue bytes

/-- A pattern of a fixed count of bytes is read back from the bytes that write it. -/
theorem pattern_littleBytes {count : Nat} (pattern : BitVec (8 * count)) :
    BitVec.ofNat (8 * count) (littleValue (littleBytes count pattern.toNat)) = pattern := by
  have bound : pattern.toNat < 256 ^ count := by
    rw [show 256 = 2 ^ 8 from rfl, ← Nat.pow_mul]
    exact pattern.isLt
  rw [littleValue_littleBytes, Nat.mod_eq_of_lt bound]
  simp

/-- A pattern of a fixed count of bytes is written by the bytes from which it is read. -/
theorem littleBytes_pattern {count : Nat} {bytes : List UInt8} (size : bytes.length = count) :
    littleBytes count (BitVec.ofNat (8 * count) (littleValue bytes)).toNat = bytes := by
  rw [BitVec.toNat_ofNat, Nat.mod_eq_of_lt (littleValue_lt_of_length size), ← size]
  exact littleBytes_littleValue bytes

/-- An integer is taken where its bytes stand. -/
theorem integer?_eq_some_iff {kind : IntegerKind} {value : Integer kind} :
    cursor.integer? kind = some (value, after) ↔
      cursor.Sees (littleBytes kind.width.bytes value.bits.toNat) ∧
        after = cursor.moveTo (cursor.next + kind.width.bytes) := by
  refine field_eq_some_iff (by cases kind.width <;> decide)
    (fun bytes => Integer.mk (BitVec.ofNat kind.bits (littleValue bytes)))
    (fun value => littleBytes kind.width.bytes value.bits.toNat)
    (fun _ => length_littleBytes _ _) ?_ ?_
  · intro value
    exact congrArg Integer.mk (pattern_littleBytes value.bits)
  · intro bytes size
    exact littleBytes_pattern size

/-- A floating-point number is taken where its bytes stand. -/
theorem binary?_eq_some_iff {kind : BinaryKind} {value : Binary kind} :
    cursor.binary? kind = some (value, after) ↔
      cursor.Sees (littleBytes kind.bytes value.bits.toNat) ∧
        after = cursor.moveTo (cursor.next + kind.bytes) := by
  refine field_eq_some_iff (by cases kind <;> decide)
    (fun bytes => Binary.mk (BitVec.ofNat kind.bits (littleValue bytes)))
    (fun value => littleBytes kind.bytes value.bits.toNat)
    (fun _ => length_littleBytes _ _) ?_ ?_
  · intro value
    exact congrArg Binary.mk (pattern_littleBytes value.bits)
  · intro bytes size
    exact littleBytes_pattern size

/-- A truth value is taken where a byte stands. -/
theorem bool?_eq_some_iff {value : Bool} :
    cursor.bool? = some (value, after) ↔
      ∃ byte : UInt8, cursor.Sees [byte] ∧ value = decide (byte ≠ 0) ∧
        after = cursor.moveTo (cursor.next + 1) := by
  constructor
  · intro found
    obtain ⟨⟨byte, middle⟩, taken, same⟩ := Option.bind_eq_some_iff.mp found
    obtain ⟨rfl, rfl⟩ := Prod.mk.inj (Option.some.inj same)
    obtain ⟨sees, moved⟩ := byte?_eq_some_iff.mp taken
    exact ⟨byte, sees, rfl, moved⟩
  · rintro ⟨byte, sees, rfl, moved⟩
    have taken := byte?_eq_some_iff.mpr ⟨sees, moved⟩
    rw [bool?, Option.bind_eq_bind, taken]
    rfl

/-- A reader takes a value at a cursor exactly where a spelling of the value stands, and moves the
cursor over it. -/
def Reads {α : Type} (read : Cursor → Except Misread (α × Cursor))
    (spelled : α → List UInt8 → Prop) : Prop :=
  ∀ cursor after value, read cursor = .ok (value, after) ↔
    ∃ bytes, spelled value bytes ∧ cursor.Sees bytes ∧
      after = cursor.moveTo (cursor.next + bytes.length)

end Cursor

/-- A member of a list is at the position that its byte tells. -/
theorem getElem?_toNat_eq_some_iff {α : Type} [DecidableEq α] {members : List α}
    (distinct : members.Nodup) (few : members.length < 256) {member : α}
    (inside : member ∈ members) {byte : UInt8} :
    members[byte.toNat]? = some member ↔ byte = UInt8.ofNat (members.idxOf member) := by
  have below : members.idxOf member < members.length := List.idxOf_lt_length_iff.mpr inside
  constructor
  · intro found
    obtain ⟨bound, same⟩ := List.getElem?_eq_some_iff.mp found
    rw [← same, distinct.idxOf_getElem, UInt8.ofNat_toNat]
  · rintro rfl
    rw [UInt8.toNat_ofNat', Nat.mod_eq_of_lt (by omega), List.getElem?_eq_getElem below,
      List.getElem_idxOf]

/-- Every integer kind is listed. -/
theorem IntegerKind.mem_all (kind : IntegerKind) : kind ∈ IntegerKind.all := by
  obtain ⟨signed, width⟩ := kind
  cases signed <;> cases width <;> decide

/-- Every kind is listed. -/
theorem Kind.mem_all (kind : Kind) : kind ∈ Kind.all := by
  cases kind with
  | integer kind => simp [Kind.all, IntegerKind.mem_all]
  | binary kind => cases kind <;> simp [Kind.all]
  | _ => simp [Kind.all]

/-- Each kind has a byte of its own. -/
theorem Kind.ofByte?_eq_some_iff {byte : UInt8} {kind : Kind} :
    Kind.ofByte? byte = some kind ↔ byte = kind.toByte :=
  getElem?_toNat_eq_some_iff (by decide) (by decide) kind.mem_all

/-- Every operation is listed. -/
theorem Opcode.mem_all (opcode : Opcode) : opcode ∈ Opcode.all := by
  have sites : ∀ site : Site, site ∈ Site.all := by
    intro site
    cases site <;> decide
  have operators : ∀ operator : Operator, operator ∈ Operator.all := by
    intro operator
    cases operator <;> decide
  cases opcode with
  | load site => simp [Opcode.all, sites]
  | store site => simp [Opcode.all, sites]
  | pull site => simp [Opcode.all, sites]
  | branchIf expected => cases expected <;> simp [Opcode.all]
  | arithmetic operator => simp [Opcode.all, operators]
  | _ => simp [Opcode.all]

/-- Each operation has a byte of its own. -/
theorem Opcode.ofByte?_eq_some_iff {byte : UInt8} {opcode : Opcode} :
    Opcode.ofByte? byte = some opcode ↔ byte = opcode.toByte :=
  getElem?_toNat_eq_some_iff (by decide) (by decide) opcode.mem_all

/-- How many bytes the payload of a constant of a kind takes. -/
def Kind.payloadSize : Kind → Nat
  | .bool => 1
  | .integer kind => kind.width.bytes
  | .binary kind => kind.bytes
  | .string => 4
  | _ => 0

namespace Constant

variable {constant : Constant UInt32} {bytes : List UInt8}

/-- Bytes are a payload of a constant. Any byte but zero is a payload of true. -/
def Paid : Constant UInt32 → List UInt8 → Prop
  | .bool value, bytes => ∃ byte : UInt8, bytes = [byte] ∧ value = decide (byte ≠ 0)
  | constant, bytes => bytes = constant.payload

/-- Bytes spell a constant: the byte of its kind, then a payload. -/
def Spelled (constant : Constant UInt32) (bytes : List UInt8) : Prop :=
  ∃ payload, bytes = constant.kind.toByte :: payload ∧ constant.Paid payload

/-- What is written for a constant spells it. -/
theorem spelled_encode (constant : Constant UInt32) : constant.Spelled constant.encode := by
  refine ⟨constant.payload, rfl, ?_⟩
  cases constant with
  | bool value => exact ⟨if value then 1 else 0, rfl, by cases value <;> decide⟩
  | _ => rfl

/-- A payload has the size of its kind. -/
theorem Paid.length (paid : constant.Paid bytes) :
    bytes.length = constant.kind.payloadSize := by
  cases constant with
  | bool value =>
    obtain ⟨byte, rfl, -⟩ := paid
    rfl
  | null =>
    rw [show bytes = [] from paid]
    rfl
  | _ =>
    rw [show bytes = littleBytes _ _ from paid]
    exact length_littleBytes _ _

/-- A payload is taken where it stands. -/
theorem payload?_eq_some_iff {cursor after : Cursor} {kind : Kind} :
    payload? kind cursor = some (constant, after) ↔
      constant.kind = kind ∧ ∃ bytes, constant.Paid bytes ∧ cursor.Sees bytes ∧
        after = cursor.moveTo (cursor.next + kind.payloadSize) := by
  constructor
  · intro found
    cases kind with
    | null =>
      obtain ⟨rfl, rfl⟩ := Prod.mk.inj (Option.some.inj found)
      exact ⟨rfl, [], rfl, List.nil_prefix, rfl⟩
    | bool =>
      obtain ⟨⟨value, middle⟩, taken, same⟩ := Option.map_eq_some_iff.mp found
      obtain ⟨rfl, rfl⟩ := Prod.mk.inj same
      obtain ⟨byte, sees, known, moved⟩ := Cursor.bool?_eq_some_iff.mp taken
      exact ⟨rfl, [byte], ⟨byte, rfl, known⟩, sees, moved⟩
    | integer kind =>
      obtain ⟨⟨value, middle⟩, taken, same⟩ := Option.map_eq_some_iff.mp found
      obtain ⟨rfl, rfl⟩ := Prod.mk.inj same
      obtain ⟨sees, moved⟩ := Cursor.integer?_eq_some_iff.mp taken
      exact ⟨rfl, _, rfl, sees, moved⟩
    | binary kind =>
      obtain ⟨⟨value, middle⟩, taken, same⟩ := Option.map_eq_some_iff.mp found
      obtain ⟨rfl, rfl⟩ := Prod.mk.inj same
      obtain ⟨sees, moved⟩ := Cursor.binary?_eq_some_iff.mp taken
      exact ⟨rfl, _, rfl, sees, moved⟩
    | string =>
      obtain ⟨⟨value, middle⟩, taken, same⟩ := Option.map_eq_some_iff.mp found
      obtain ⟨rfl, rfl⟩ := Prod.mk.inj same
      obtain ⟨sees, moved⟩ := Cursor.word?_eq_some_iff.mp taken
      exact ⟨rfl, _, rfl, sees, moved⟩
    | _ => cases found
  · rintro ⟨rfl, bytes, paid, sees, moved⟩
    cases constant with
    | null =>
      rw [moved]
      rfl
    | bool value =>
      obtain ⟨byte, rfl, known⟩ := paid
      have taken := Cursor.bool?_eq_some_iff.mpr ⟨byte, sees, known, moved⟩
      exact Option.map_eq_some_iff.mpr ⟨_, taken, rfl⟩
    | integer kind value =>
      rw [show bytes = littleBytes _ _ from paid] at sees
      exact Option.map_eq_some_iff.mpr ⟨_, Cursor.integer?_eq_some_iff.mpr ⟨sees, moved⟩, rfl⟩
    | binary kind value =>
      rw [show bytes = littleBytes _ _ from paid] at sees
      exact Option.map_eq_some_iff.mpr ⟨_, Cursor.binary?_eq_some_iff.mpr ⟨sees, moved⟩, rfl⟩
    | string name =>
      rw [show bytes = littleBytes _ _ from paid] at sees
      exact Option.map_eq_some_iff.mpr ⟨_, Cursor.word?_eq_some_iff.mpr ⟨sees, moved⟩, rfl⟩

/-- A constant is read as the byte of its kind and a payload. -/
theorem read_eq_ok_iff {cursor after : Cursor} :
    Reading.constant cursor = .ok (constant, after) ↔
      ∃ middle, cursor.byte? = some (constant.kind.toByte, middle) ∧
        payload? constant.kind middle = some (constant, after) := by
  rw [Reading.constant_eq_ok_iff]
  constructor
  · rintro ⟨byte, middle, kind, taken, known, paid⟩
    obtain ⟨rfl, -⟩ := payload?_eq_some_iff.mp paid
    exact ⟨middle, by rw [taken, Kind.ofByte?_eq_some_iff.mp known], paid⟩
  · rintro ⟨middle, taken, paid⟩
    exact ⟨_, middle, _, taken, Kind.ofByte?_eq_some_iff.mpr rfl, paid⟩

/-- A constant takes the byte of its kind and a payload of the kind's size. -/
theorem Spelled.length (spelled : constant.Spelled bytes) :
    bytes.length = 1 + constant.kind.payloadSize := by
  obtain ⟨payload, rfl, paid⟩ := spelled
  rw [List.length_cons, paid.length, Nat.add_comm]

/-- Constants are read where they are spelled. -/
theorem reads_constant : Cursor.Reads Reading.constant Spelled := by
  intro cursor after constant
  rw [read_eq_ok_iff]
  constructor
  · rintro ⟨middle, taken, found⟩
    obtain ⟨first, rfl⟩ := Cursor.byte?_eq_some_iff.mp taken
    obtain ⟨-, payload, paid, second, moved⟩ := payload?_eq_some_iff.mp found
    have spelled : constant.Spelled (constant.kind.toByte :: payload) := ⟨payload, rfl, paid⟩
    refine ⟨_, spelled, Cursor.sees_cons.mpr ⟨first, second⟩, ?_⟩
    rw [moved, spelled.length, ← Nat.add_assoc]
    rfl
  · rintro ⟨bytes, spelled, sees, rfl⟩
    rw [spelled.length, ← Nat.add_assoc]
    obtain ⟨payload, rfl, paid⟩ := spelled
    obtain ⟨first, second⟩ := Cursor.sees_cons.mp sees
    refine ⟨_, Cursor.byte?_eq_some_iff.mpr ⟨first, rfl⟩, ?_⟩
    exact payload?_eq_some_iff.mpr ⟨rfl, payload, paid, second, rfl⟩

end Constant

namespace Shape

/-- How many bytes an operand takes: a constant the byte of its kind and a payload of the kind's
size, any other operand a word. -/
def size : (shape : Shape) → shape.Carrier UInt32 → Nat
  | .constant, value => 1 + value.kind.payloadSize
  | .register, _ => 4
  | .name, _ => 4
  | .parameter, _ => 4
  | .index, _ => 4
  | .offset, _ => 4

/-- Bytes spell an operand. -/
def Spelled : (shape : Shape) → shape.Carrier UInt32 → List UInt8 → Prop
  | .constant, value, bytes => value.Spelled bytes
  | shape, operand, bytes => bytes = shape.encode operand

/-- What is written for an operand spells it. -/
theorem spelled_encode (shape : Shape) (operand : shape.Carrier UInt32) :
    shape.Spelled operand (shape.encode operand) := by
  cases shape with
  | constant => exact Constant.spelled_encode operand
  | _ => rfl

/-- An operand takes as many bytes as its shape tells. -/
theorem length_of_spelled (shape : Shape) {operand : shape.Carrier UInt32} {bytes : List UInt8}
    (spelled : shape.Spelled operand bytes) : bytes.length = shape.size operand := by
  cases shape with
  | constant => exact Constant.Spelled.length spelled
  | _ =>
    rw [show bytes = littleBytes 4 _ from spelled]
    exact length_littleBytes _ _

/-- Words are read where their bytes stand. -/
theorem reads_word :
    Cursor.Reads Reading.word fun word bytes => bytes = littleBytes 4 word.toNat := by
  intro cursor after word
  rw [Reading.word, Reading.ofOption_eq_ok_iff, Cursor.word?_eq_some_iff]
  simp

/-- Distances are read where their bytes stand. -/
theorem reads_distance :
    Cursor.Reads Reading.distance fun distance bytes =>
      bytes = littleBytes 4 distance.bits.toNat := by
  intro cursor after distance
  rw [Reading.distance, Reading.ofOption_eq_ok_iff, Cursor.integer?_eq_some_iff]
  simp [Width.bytes]

/-- Operands are read where they are spelled. -/
theorem reads_decode (shape : Shape) :
    Cursor.Reads (fun cursor => shape.decode cursor) shape.Spelled := by
  cases shape with
  | constant => exact Constant.reads_constant
  | offset => exact reads_distance
  | _ => exact reads_word

end Shape

namespace Operands

/-- How many bytes operands take. -/
def size : (shapes : List Shape) → Operands UInt32 shapes → Nat
  | [], () => 0
  | shape :: rest, (operand, operands) => shape.size operand + size rest operands

/-- Bytes spell operands one after the other. -/
def Spelled : (shapes : List Shape) → Operands UInt32 shapes → List UInt8 → Prop
  | [], (), bytes => bytes = []
  | shape :: rest, (operand, operands), bytes =>
    ∃ first more, bytes = first ++ more ∧ shape.Spelled operand first ∧ Spelled rest operands more

/-- What is written for operands spells them. -/
theorem spelled_encode : (shapes : List Shape) → (operands : Operands UInt32 shapes) →
    Spelled shapes operands (encode shapes operands)
  | [], () => rfl
  | shape :: rest, (operand, operands) =>
    ⟨_, _, rfl, shape.spelled_encode operand, spelled_encode rest operands⟩

/-- Operands take as many bytes as they do one by one. -/
theorem length_of_spelled : (shapes : List Shape) → {operands : Operands UInt32 shapes} →
    {bytes : List UInt8} → Spelled shapes operands bytes → bytes.length = size shapes operands
  | [], (), _, spelled => by
    rw [show _ = [] from spelled]
    rfl
  | shape :: rest, (_, _), _, ⟨first, more, same, front, back⟩ => by
    rw [same, List.length_append, shape.length_of_spelled front, length_of_spelled rest back]
    rfl

/-- Operands are read where they are spelled. -/
theorem reads_decode (shapes : List Shape) :
    Cursor.Reads (decode shapes) (Spelled shapes) := by
  induction shapes with
  | nil =>
    intro cursor after operands
    constructor
    · intro decoded
      obtain ⟨rfl, rfl⟩ := Prod.mk.inj (Except.ok.inj decoded)
      exact ⟨[], rfl, List.nil_prefix, rfl⟩
    · rintro ⟨bytes, spelled, -, rfl⟩
      rw [show bytes = [] from spelled]
      rfl
  | cons shape rest hypothesis =>
    rintro cursor after ⟨operand, operands⟩
    constructor
    · intro decoded
      obtain ⟨⟨found, middle⟩, begins, more⟩ := Except.bind_eq_ok decoded
      obtain ⟨⟨others, last⟩, ends, done⟩ := Except.bind_eq_ok more
      obtain ⟨same, rfl⟩ := Prod.mk.inj (Except.ok.inj done)
      obtain ⟨rfl, rfl⟩ := Prod.mk.inj same
      obtain ⟨first, front, sees, rfl⟩ := (shape.reads_decode _ _ _).mp begins
      obtain ⟨second, back, sees', rfl⟩ := (hypothesis _ _ _).mp ends
      refine ⟨first ++ second, ⟨first, second, rfl, front, back⟩,
        Cursor.sees_append.mpr ⟨sees, sees'⟩, ?_⟩
      rw [List.length_append, ← Nat.add_assoc]
      rfl
    · rintro ⟨_, ⟨first, second, rfl, front, back⟩, sees, rfl⟩
      obtain ⟨begins, ends⟩ := Cursor.sees_append.mp sees
      have head := (shape.reads_decode cursor _ operand).mpr ⟨first, front, begins, rfl⟩
      have tail := (hypothesis _ _ operands).mpr ⟨second, back, ends, rfl⟩
      dsimp only at head
      rw [decode, head]
      simp only [Bind.bind, Except.bind, tail, List.length_append, ← Nat.add_assoc]
      rfl

end Operands

namespace Instruction

variable {instruction : Instruction UInt32} {bytes : List UInt8}

/-- How many bytes an instruction takes: one for the operation, and those of the operands. -/
def size (instruction : Instruction UInt32) : Nat := 1 + Operands.size _ instruction.operands

/-- Bytes spell an instruction: the byte of the operation, then the operands that the table lists
for it. -/
def Spelled (instruction : Instruction UInt32) (bytes : List UInt8) : Prop :=
  ∃ operands, bytes = instruction.opcode.toByte :: operands ∧
    Operands.Spelled _ instruction.operands operands

/-- What is written for an instruction spells it. -/
theorem spelled_encode (instruction : Instruction UInt32) :
    instruction.Spelled instruction.encode :=
  ⟨_, rfl, Operands.spelled_encode _ _⟩

/-- Every spelling of an instruction has its size. -/
theorem Spelled.length (spelled : instruction.Spelled bytes) :
    bytes.length = instruction.size := by
  obtain ⟨operands, rfl, rest⟩ := spelled
  rw [List.length_cons, Operands.length_of_spelled _ rest, Nat.add_comm]
  rfl

end Instruction

namespace Cursor

variable {cursor after : Cursor} {instruction : Instruction UInt32}

/-- The bytes at a cursor spell an instruction. -/
def Holds (cursor : Cursor) (instruction : Instruction UInt32) : Prop :=
  ∃ bytes, instruction.Spelled bytes ∧ cursor.Sees bytes

/-- An operation that is found with its operands is an instruction that is spelled there. -/
theorem holds_iff :
    cursor.Holds instruction ∧ after = cursor.moveTo (cursor.next + instruction.size) ↔
      ∃ byte middle, cursor.byte? = some (byte, middle) ∧
        Opcode.ofByte? byte = some instruction.opcode ∧
        Operands.decode instruction.opcode.shapes middle = .ok (instruction.operands, after) := by
  constructor
  · rintro ⟨⟨bytes, spelled, sees⟩, rfl⟩
    rw [← spelled.length]
    obtain ⟨operands, rfl, rest⟩ := spelled
    obtain ⟨first, second⟩ := sees_cons.mp sees
    have decoded := (Operands.reads_decode _ _ _ _).mpr ⟨operands, rest, second, rfl⟩
    refine ⟨_, _, byte?_eq_some_iff.mpr ⟨first, rfl⟩, Opcode.ofByte?_eq_some_iff.mpr rfl, ?_⟩
    rw [decoded, List.length_cons, Nat.add_comm operands.length, ← Nat.add_assoc]
    rfl
  · rintro ⟨byte, middle, taken, known, decoded⟩
    obtain ⟨first, rfl⟩ := byte?_eq_some_iff.mp taken
    obtain rfl := Opcode.ofByte?_eq_some_iff.mp known
    obtain ⟨operands, rest, second, rfl⟩ := (Operands.reads_decode _ _ _ _).mp decoded
    have spelled : instruction.Spelled (instruction.opcode.toByte :: operands) :=
      ⟨operands, rfl, rest⟩
    refine ⟨⟨_, spelled, sees_cons.mpr ⟨first, second⟩⟩, ?_⟩
    rw [← spelled.length, List.length_cons, Nat.add_comm operands.length, ← Nat.add_assoc]
    rfl

/-- An instruction that is spelled at a cursor ends inside the code. -/
theorem Holds.fits (holds : cursor.Holds instruction) :
    cursor.next + instruction.size ≤ cursor.code.size := by
  obtain ⟨bytes, spelled, sees⟩ := holds
  rw [← spelled.length]
  refine sees.inside ?_
  obtain ⟨operands, rfl, -⟩ := spelled
  exact List.cons_ne_nil _ _

end Cursor

end ScriptVm
