import Mathlib.Data.List.Forall2
import Mathlib.Data.List.TakeWhile
import ScriptVm.Proofs.Image.Container

/-!
# What readers accept

A reader accepts spellings of values. Most formats have one spelling for each value, which is what
the writer makes of it, and some values have none: a handler is read with a class exactly when it
catches objects. Functions have several spellings, since only the lowest of their flags is read.
-/
namespace ScriptVm

/-- A word stays below its modulus. -/
theorem littleValue_lt (bytes : List UInt8) : littleValue bytes < 256 ^ bytes.length := by
  induction bytes with
  | nil => simp [littleValue]
  | cons byte rest hypothesis =>
    have small : byte.toNat < 256 := byte.toNat_lt
    simp only [littleValue, List.length_cons, Nat.pow_succ]
    omega

/-- The bytes of a word are written again for its value. -/
theorem littleBytes_littleValue (bytes : List UInt8) :
    littleBytes bytes.length (littleValue bytes) = bytes := by
  induction bytes with
  | nil => rfl
  | cons byte rest hypothesis =>
    have small : byte.toNat < 256 := byte.toNat_lt
    have low : UInt8.ofNat (byte.toNat + 256 * littleValue rest) = byte := by
      apply UInt8.toNat_inj.mp
      simp only [UInt8.toNat_ofNat']
      omega
    have high : (byte.toNat + 256 * littleValue rest) / 256 = littleValue rest := by omega
    simp only [List.length_cons, littleValue, littleBytes, low, high, hypothesis]

namespace ByteOrder

variable (order : ByteOrder)

/-- A word stays below its modulus, in either order. -/
theorem value_lt (bytes : List UInt8) : order.value bytes < 256 ^ bytes.length := by
  cases order with
  | little => exact littleValue_lt bytes
  | big =>
    have bound := littleValue_lt bytes.reverse
    rwa [List.length_reverse] at bound

/-- The bytes of a word are written again for its value, in either order. -/
theorem bytes_value (bytes : List UInt8) :
    order.bytes bytes.length (order.value bytes) = bytes := by
  cases order with
  | little => exact littleBytes_littleValue bytes
  | big =>
    have same := littleBytes_littleValue bytes.reverse
    rw [List.length_reverse] at same
    simp [ByteOrder.bytes, ByteOrder.value, same]

end ByteOrder

namespace Format

variable {α β : Type}

/-- A reader takes a value from the front of its input exactly when a spelling of the value stands
there. -/
def Reads (format : Format α) (spells : α → List UInt8 → Prop) : Prop :=
  ∀ bytes value rest, format.decode bytes = .ok (value, rest) ↔
    ∃ front, spells value front ∧ front ++ rest = bytes

/-- A reader takes exactly the fine values, each from what is written for it. -/
def Exact (format : Format α) (fine : α → Prop) : Prop :=
  format.Reads fun value front => fine value ∧ format.encode value = .ok front

/-- Spellings can be described in other words. -/
theorem Reads.congr {format : Format α} {spells spells' : α → List UInt8 → Prop}
    (reads : format.Reads spells) (same : ∀ value front, spells' value front ↔ spells value front) :
    format.Reads spells' := by
  intro bytes value rest
  simp only [reads bytes value rest, same]

/-- Fine values can be described in other words. -/
theorem Exact.congr {format : Format α} {fine fine' : α → Prop} (exact : format.Exact fine)
    (same : ∀ value, fine' value ↔ fine value) : format.Exact fine' :=
  Reads.congr exact fun value _ => by rw [same value]

/-- A lawful format whose reader takes nothing but what is written is exact. -/
theorem Law.exact {format : Format α} {contents : α → Contents} {size : α → Nat}
    (law : format.Law contents size id)
    (written : ∀ bytes value rest, format.decode bytes = .ok (value, rest) →
      ∃ front, format.encode value = .ok front ∧ front ++ rest = bytes) :
    format.Exact fun _ => True := by
  intro bytes value rest
  constructor
  · intro decoded
    obtain ⟨front, encoded, whole⟩ := written bytes value rest decoded
    exact ⟨front, ⟨trivial, encoded⟩, whole⟩
  · rintro ⟨front, ⟨-, encoded⟩, rfl⟩
    exact law.reads value front encoded rest

/-- The spellings of two values in order are those of the one before those of the other. -/
theorem Reads.pair {left : Format α} {right : Format β} {spells : α → List UInt8 → Prop}
    {spells' : β → List UInt8 → Prop} (first : left.Reads spells) (second : right.Reads spells') :
    (left.pair right).Reads fun value front =>
      ∃ head tail, spells value.1 head ∧ spells' value.2 tail ∧ head ++ tail = front := by
  intro bytes value rest
  constructor
  · intro decoded
    obtain ⟨⟨found, middle⟩, begins, more⟩ := Except.bind_eq_ok decoded
    obtain ⟨⟨other, last⟩, ends, done⟩ := Except.bind_eq_ok more
    obtain ⟨rfl, rfl⟩ := Prod.mk.inj (Except.ok.inj done)
    obtain ⟨head, spelled, rfl⟩ := (first _ _ _).mp begins
    obtain ⟨tail, spelled', rfl⟩ := (second _ _ _).mp ends
    exact ⟨head ++ tail, ⟨head, tail, spelled, spelled', rfl⟩, List.append_assoc head tail last⟩
  · rintro ⟨_, ⟨head, tail, spelled, spelled', rfl⟩, rfl⟩
    have begins := (first _ _ (tail ++ rest)).mpr ⟨head, spelled, rfl⟩
    have ends := (second _ _ rest).mpr ⟨tail, spelled', rfl⟩
    simp only [Format.pair, List.append_assoc, begins, ends, Bind.bind, Except.bind]
    rfl

/-- Two values in order are exact when each is. -/
theorem Exact.pair {left : Format α} {right : Format β} {fine : α → Prop} {fine' : β → Prop}
    (first : left.Exact fine) (second : right.Exact fine') :
    (left.pair right).Exact fun value => fine value.1 ∧ fine' value.2 := by
  refine (Reads.pair first second).congr fun value front => ?_
  constructor
  · rintro ⟨⟨fineFirst, fineSecond⟩, written⟩
    obtain ⟨head, tail, begins, ends, whole⟩ := append_eq_ok.mp written
    exact ⟨head, tail, ⟨fineFirst, begins⟩, ⟨fineSecond, ends⟩, whole⟩
  · rintro ⟨head, tail, ⟨fineFirst, begins⟩, ⟨fineSecond, ends⟩, whole⟩
    exact ⟨⟨fineFirst, fineSecond⟩, append_eq_ok.mpr ⟨head, tail, begins, ends, whole⟩⟩

/-- Another form of the same values is spelled as they are. -/
theorem Reads.map {format : Format α} {spells : α → List UInt8 → Prop} (reads : format.Reads spells)
    {pack : α → β} {unpack : β → α} (packs : ∀ value, pack (unpack value) = value)
    (unpacks : ∀ raw, unpack (pack raw) = raw) :
    (format.map pack unpack).Reads fun value front => spells (unpack value) front := by
  intro bytes value rest
  constructor
  · intro decoded
    obtain ⟨⟨raw, last⟩, read, done⟩ := Except.bind_eq_ok decoded
    obtain ⟨rfl, rfl⟩ := Prod.mk.inj (Except.ok.inj done)
    obtain ⟨front, spelled, rfl⟩ := (reads _ _ _).mp read
    refine ⟨front, ?_, rfl⟩
    show spells (unpack (pack raw)) front
    rwa [unpacks]
  · intro spelled
    have read := (reads bytes (unpack value) rest).mpr spelled
    simp only [Format.map, read, Bind.bind, Except.bind, packs]
    rfl

/-- Another form of exact values is exact. -/
theorem Exact.map {format : Format α} {fine : α → Prop} (exact : format.Exact fine) {pack : α → β}
    {unpack : β → α} (packs : ∀ value, pack (unpack value) = value)
    (unpacks : ∀ raw, unpack (pack raw) = raw) :
    (format.map pack unpack).Exact fun value => fine (unpack value) :=
  Reads.map exact packs unpacks

/-- The spellings of values one after the other. -/
def SpellsAll (spells : α → List UInt8 → Prop) (values : List α) (front : List UInt8) : Prop :=
  ∃ parts, List.Forall₂ spells values parts ∧ parts.flatten = front

/-- No value has the empty spelling alone. -/
@[simp] theorem spellsAll_nil {spells : α → List UInt8 → Prop} {front : List UInt8} :
    SpellsAll spells [] front ↔ front = [] := by
  simp [SpellsAll, eq_comm]

/-- The first value is spelled before the others. -/
theorem spellsAll_cons {spells : α → List UInt8 → Prop} {value : α} {values : List α}
    {front : List UInt8} :
    SpellsAll spells (value :: values) front ↔
      ∃ head tail, spells value head ∧ SpellsAll spells values tail ∧ head ++ tail = front := by
  constructor
  · rintro ⟨parts, each, rfl⟩
    obtain ⟨head, tails, spelled, others, rfl⟩ := List.forall₂_cons_left_iff.mp each
    exact ⟨head, tails.flatten, spelled, ⟨tails, others, rfl⟩, rfl⟩
  · rintro ⟨head, tail, spelled, ⟨tails, others, rfl⟩, rfl⟩
    exact ⟨head :: tails, .cons spelled others, rfl⟩

/-- Reading a count of values takes as many spellings. The values read so far are accumulated. -/
theorem Reads.decodeInto {format : Format α} {spells : α → List UInt8 → Prop}
    (reads : format.Reads spells) (count : Nat) (bytes : List UInt8) (reversed result : List α)
    (rest : List UInt8) :
    format.decodeInto count bytes reversed = .ok (result, rest) ↔
      ∃ values front, values.length = count ∧ result = reversed.reverse ++ values ∧
        SpellsAll spells values front ∧ front ++ rest = bytes := by
  induction count generalizing bytes reversed with
  | zero =>
    simp only [Format.decodeInto, List.length_eq_zero_iff]
    constructor
    · intro decoded
      obtain ⟨rfl, rfl⟩ := Prod.mk.inj (Except.ok.inj decoded)
      exact ⟨[], [], rfl, by simp, spellsAll_nil.mpr rfl, rfl⟩
    · rintro ⟨_, front, rfl, rfl, spelled, rfl⟩
      rw [spellsAll_nil.mp spelled]
      simp
  | succ count hypothesis =>
    constructor
    · intro decoded
      obtain ⟨⟨value, middle⟩, read, more⟩ := Except.bind_eq_ok decoded
      obtain ⟨head, spelled, rfl⟩ := (reads _ _ _).mp read
      obtain ⟨values, tail, length, rfl, others, rfl⟩ := (hypothesis _ _).mp more
      refine ⟨value :: values, head ++ tail, by simp [length], by simp, ?_, by simp⟩
      exact spellsAll_cons.mpr ⟨head, tail, spelled, others, rfl⟩
    · rintro ⟨values, front, length, rfl, spelled, rfl⟩
      obtain ⟨value, values, rfl⟩ := List.exists_cons_of_length_eq_add_one length
      obtain ⟨head, tail, spelledFirst, others, rfl⟩ := spellsAll_cons.mp spelled
      have read := (reads _ _ (tail ++ rest)).mpr ⟨head, spelledFirst, rfl⟩
      have more := (hypothesis (tail ++ rest) (value :: reversed)).mpr
        ⟨values, tail, by simpa using length, by simp, others, rfl⟩
      simp only [Format.decodeInto, List.append_assoc, read, Bind.bind, Except.bind, more]

/-- Taking bytes from the front. -/
theorem take_eq_ok {count : Nat} {bytes front rest : List UInt8} :
    take count bytes = .ok (front, rest) ↔ front.length = count ∧ front ++ rest = bytes := by
  constructor
  · intro taken
    unfold take at taken
    split at taken
    · simp at taken
    · rename_i enough
      obtain ⟨rfl, rfl⟩ := Prod.mk.inj (Except.ok.inj taken)
      refine ⟨?_, List.take_append_drop count bytes⟩
      rw [List.length_take]
      omega
  · rintro ⟨length, rfl⟩
    exact take_append length rest

/-- A number that is taken from the front has been written there. -/
theorem eq_bytes_of_take (order : ByteOrder) {width : Nat} {bytes rest : List UInt8} {value : α}
    (make : Nat → α)
    (decoded : (do
      let (word, rest) ← take width bytes
      return (make (order.value word), rest)) = Except.ok (value, rest)) :
    ∃ number < 256 ^ width, make number = value ∧ order.bytes width number ++ rest = bytes := by
  obtain ⟨⟨word, last⟩, taken, done⟩ := Except.bind_eq_ok decoded
  obtain ⟨rfl, rfl⟩ := Prod.mk.inj (Except.ok.inj done)
  obtain ⟨rfl, rfl⟩ := take_eq_ok.mp taken
  exact ⟨order.value word, order.value_lt word, rfl, by rw [order.bytes_value]⟩

/-- The format of 16-bit words is exact. -/
theorem exact_word16 (order : ByteOrder) : (word16 order).Exact fun _ => True := by
  refine (law_word16 order).exact fun bytes value rest decoded => ?_
  obtain ⟨number, bound, rfl, whole⟩ := eq_bytes_of_take order UInt16.ofNat decoded
  refine ⟨order.bytes 2 number, ?_, whole⟩
  simp only [word16, UInt16.toNat_ofNat_of_lt' bound]

/-- The format of 32-bit words is exact. -/
theorem exact_word32 (order : ByteOrder) : (word32 order).Exact fun _ => True := by
  refine (law_word32 order).exact fun bytes value rest decoded => ?_
  obtain ⟨number, bound, rfl, whole⟩ := eq_bytes_of_take order UInt32.ofNat decoded
  refine ⟨order.bytes 4 number, ?_, whole⟩
  simp only [word32, UInt32.toNat_ofNat_of_lt' bound]

/-- The format of counts is exact. -/
theorem exact_count (order : ByteOrder) : (count order).Exact fun _ => True := by
  refine (law_count order).exact fun bytes value rest decoded => ?_
  obtain ⟨number, bound, rfl, whole⟩ := eq_bytes_of_take order id decoded
  exact ⟨order.bytes 4 number, if_pos bound, whole⟩

/-- The format of kinds is exact. -/
theorem exact_kind : kind.Exact fun _ => True := by
  refine law_kind.exact fun bytes value rest decoded => ?_
  cases bytes with
  | nil => simp [kind] at decoded
  | cons byte tail =>
    simp only [kind] at decoded
    split at decoded
    · rename_i found known
      obtain ⟨rfl, rfl⟩ := Prod.mk.inj (Except.ok.inj decoded)
      have distinct : Kind.all.Nodup := by decide
      obtain ⟨inside, same⟩ := List.getElem?_eq_some_iff.mp known
      have position : Kind.all.idxOf found = byte.toNat := by
        rw [← same, distinct.idxOf_getElem]
      exact ⟨[byte], by simp [kind, Kind.toByte, position], rfl⟩
    · simp at decoded

/-- The text made of bytes has these bytes. -/
theorem toUTF8_of_fromUTF8? {bytes : ByteArray} {text : String}
    (made : String.fromUTF8? bytes = some text) : text.toUTF8 = bytes := by
  unfold String.fromUTF8? at made
  split at made
  · rw [← Option.some.inj made]
    rfl
  · simp at made

/-- The format of texts is exact. -/
theorem exact_text : text.Exact fun _ => True := by
  refine law_text.exact fun bytes value rest decoded => ?_
  simp only [text] at decoded
  split at decoded
  · simp at decoded
  · rename_i stop tail ends
    split at decoded
    · rename_i found made
      obtain ⟨rfl, rfl⟩ := Prod.mk.inj (Except.ok.inj decoded)
      have content : found.toUTF8.data.toList = bytes.takeWhile (· ≠ 0) := by
        rw [toUTF8_of_fromUTF8? made]
      have zero : stop = 0 := by
        have refused := List.head?_dropWhile_not (· ≠ (0 : UInt8)) bytes
        rw [ends] at refused
        simpa using refused
      have clean : 0 ∉ bytes.takeWhile (· ≠ 0) := by
        intro member
        simpa using List.mem_takeWhile_imp member
      refine ⟨bytes.takeWhile (· ≠ 0) ++ [0], ?_, ?_⟩
      · simp only [text, content]
        rw [if_neg (by simpa using clean)]
      · have whole : bytes.takeWhile (· ≠ 0) ++ bytes.dropWhile (· ≠ 0) = bytes :=
          List.takeWhile_append_dropWhile
        rw [ends, zero] at whole
        simpa using whole
    · simp at decoded

/-- The spellings of a list are its count before the spellings of its values. -/
theorem Reads.list {format : Format α} {spells : α → List UInt8 → Prop}
    (reads : format.Reads spells) (order : ByteOrder) :
    (list order format).Reads fun values front =>
      ∃ head tail, (count order).encode values.length = .ok head ∧ SpellsAll spells values tail ∧
        head ++ tail = front := by
  intro bytes value rest
  constructor
  · intro decoded
    obtain ⟨⟨length, middle⟩, counted, more⟩ := Except.bind_eq_ok decoded
    obtain ⟨head, ⟨-, written⟩, rfl⟩ := (exact_count order _ _ _).mp counted
    obtain ⟨values, tail, rfl, same, spelled, rfl⟩ := (reads.decodeInto _ _ _ _ _).mp more
    obtain rfl : value = values := by simpa using same
    exact ⟨head ++ tail, ⟨head, tail, written, spelled, rfl⟩, by simp⟩
  · rintro ⟨_, ⟨head, tail, written, spelled, rfl⟩, rfl⟩
    have counted := (exact_count order _ _ (tail ++ rest)).mpr ⟨head, ⟨trivial, written⟩, rfl⟩
    have more := (reads.decodeInto value.length (tail ++ rest) [] value rest).mpr
      ⟨value, tail, rfl, by simp, spelled, rfl⟩
    simp only [Format.list, List.append_assoc, counted, Bind.bind, Except.bind, more]

/-- Values that have to be fine are so one by one. -/
theorem spellsAll_and {spells : α → List UInt8 → Prop} {fine : α → Prop} {values : List α}
    {front : List UInt8} :
    SpellsAll (fun value front => fine value ∧ spells value front) values front ↔
      (∀ value ∈ values, fine value) ∧ SpellsAll spells values front := by
  induction values generalizing front with
  | nil => simp
  | cons value values hypothesis =>
    simp only [spellsAll_cons, hypothesis, List.forall_mem_cons]
    constructor
    · rintro ⟨head, tail, ⟨fineFirst, begins⟩, ⟨fineOthers, ends⟩, whole⟩
      exact ⟨⟨fineFirst, fineOthers⟩, head, tail, begins, ends, whole⟩
    · rintro ⟨⟨fineFirst, fineOthers⟩, head, tail, begins, ends, whole⟩
      exact ⟨head, tail, ⟨fineFirst, begins⟩, ⟨fineOthers, ends⟩, whole⟩

/-- Values are written one after the other. -/
theorem spellsAll_encode {format : Format α} {values : List α} {front : List UInt8} :
    SpellsAll (fun value front => format.encode value = .ok front) values front ↔
      format.encodeAll values = .ok front := by
  induction values generalizing front with
  | nil => simp [Format.encodeAll, eq_comm]
  | cons value values hypothesis =>
    simp only [spellsAll_cons, hypothesis, Format.encodeAll, append_eq_ok]

/-- A list of exact values is exact. -/
theorem Exact.list {format : Format α} {fine : α → Prop} (exact : format.Exact fine)
    (order : ByteOrder) : (list order format).Exact fun values => ∀ value ∈ values, fine value := by
  refine (Reads.list exact order).congr fun values front => ?_
  simp only [spellsAll_and, spellsAll_encode]
  constructor
  · rintro ⟨fineAll, written⟩
    obtain ⟨head, tail, begins, ends, whole⟩ := append_eq_ok.mp written
    exact ⟨head, tail, begins, ⟨fineAll, ends⟩, whole⟩
  · rintro ⟨head, tail, begins, ⟨fineAll, ends⟩, whole⟩
    exact ⟨fineAll, append_eq_ok.mpr ⟨head, tail, begins, ends, whole⟩⟩

end Format

/-- A handler has a class exactly when it catches objects. -/
def HandlerImage.Classed (handler : HandlerImage) : Prop :=
  handler.className.isSome = true ↔ handler.kind = .object

/-- All handlers of a guarded range have a class exactly when they catch objects. -/
def BlockImage.Classed (block : BlockImage) : Prop := ∀ handler ∈ block.handlers, handler.Classed

/-- All handlers of a function have a class exactly when they catch objects. -/
def FunctionImage.Classed (function : FunctionImage) : Prop :=
  ∀ block ∈ function.blocks, block.Classed

namespace Format

variable (order : ByteOrder)

/-- The format of members is exact. -/
theorem exact_member : member.Exact fun _ => True :=
  ((exact_text.pair exact_kind).map (fun _ => rfl) fun _ => rfl).congr fun _ => by simp

/-- The format of object types is exact. -/
theorem exact_object : (object order).Exact fun _ => True :=
  ((exact_text.pair (exact_member.list order)).map (fun _ => rfl) fun _ => rfl).congr
    fun _ => by simp

/-- The format of handlers is exact for those that have a class exactly when they catch objects. -/
theorem exact_handler : (handler order).Exact HandlerImage.Classed := by
  have head := exact_kind.pair (exact_word32 order)
  intro bytes value rest
  constructor
  · intro decoded
    obtain ⟨⟨⟨found, offset⟩, middle⟩, begins, more⟩ := Except.bind_eq_ok decoded
    obtain ⟨front, ⟨-, written⟩, rfl⟩ := (head _ _ _).mp begins
    simp only at more
    split at more
    · rename_i catches
      obtain ⟨⟨className, last⟩, named, done⟩ := Except.bind_eq_ok more
      obtain ⟨rfl, rfl⟩ := Prod.mk.inj (Except.ok.inj done)
      obtain ⟨tail, ⟨-, ends⟩, rfl⟩ := (exact_text _ _ _).mp named
      refine ⟨front ++ tail, ⟨by simp [HandlerImage.Classed, catches], ?_⟩, by simp⟩
      refine (encode_handler order).mpr (.inl ⟨catches, className, rfl, ?_⟩)
      exact append_eq_ok.mpr ⟨front, tail, written, ends, rfl⟩
    · rename_i other
      obtain ⟨rfl, rfl⟩ := Prod.mk.inj (Except.ok.inj more)
      exact ⟨front, ⟨by simp [HandlerImage.Classed, other],
        (encode_handler order).mpr (.inr ⟨other, written⟩)⟩, rfl⟩
  · rintro ⟨front, ⟨classed, written⟩, rfl⟩
    have read := (law_handler order).reads value front written rest
    have same : value.erased = value := by
      obtain ⟨found, className, offset⟩ := value
      simp only [HandlerImage.Classed] at classed
      by_cases catches : found = .object
      · simp [HandlerImage.erased, HandlerImage.storedClass, catches]
      · have unnamed : className = none := by simpa [catches] using classed
        simp [HandlerImage.erased, HandlerImage.storedClass, catches, unnamed]
    rwa [same] at read

/-- The format of guarded ranges is exact for those whose handlers are. -/
theorem exact_block : (block order).Exact BlockImage.Classed :=
  (((exact_word32 order).pair ((exact_word32 order).pair ((exact_handler order).list order))).map
    (fun _ => rfl) fun _ => rfl).congr fun _ => by simp [BlockImage.Classed]

/-- Flags are read from any byte whose lowest bit is right. -/
theorem reads_flags : flags.Reads fun native front =>
    ∃ byte : UInt8, (byte.toNat % 2 = 1 ↔ native = true) ∧ front = [byte] := by
  intro bytes native rest
  cases bytes with
  | nil => simp [flags, Format.map, byte, Bind.bind, Except.bind]
  | cons first tail =>
    have decoded : flags.decode (first :: tail) = .ok (decide (first.toNat % 2 = 1), tail) := rfl
    rw [decoded]
    constructor
    · intro same
      obtain ⟨rfl, rfl⟩ := Prod.mk.inj (Except.ok.inj same)
      exact ⟨[first], ⟨first, by simp, rfl⟩, rfl⟩
    · rintro ⟨_, ⟨byte, bit, rfl⟩, whole⟩
      obtain ⟨rfl, rfl⟩ := List.cons.inj whole
      have same : decide (byte.toNat % 2 = 1) = native := by
        rw [Bool.eq_iff_iff, decide_eq_true_iff]
        exact bit
      simp [same]

/-- Bytes that stand for a function: what is written for it, with any flags in their place of which
the lowest tells whether the function is native. -/
def SpellsFunction (function : FunctionImage) (front : List UInt8) : Prop :=
  ∃ written, (Format.function order).encode function = .ok written ∧
    ∃ flags : UInt8, (flags.toNat % 2 = 1 ↔ function.native = true) ∧
      front = written.set (textSize function.signature) flags

/-- What stands after the flags of a function. -/
def functionRest : Format (UInt16 × UInt16 × UInt32 × UInt32 × List String × List BlockImage) :=
  (word16 order).pair ((word16 order).pair ((word32 order).pair ((word32 order).pair
    ((list order text).pair (list order (block order))))))

/-- What stands after the flags of a function is exact. -/
theorem exact_functionRest :
    (functionRest order).Exact fun rest => ∀ block ∈ rest.2.2.2.2.2, block.Classed :=
  ((exact_word16 order).pair ((exact_word16 order).pair ((exact_word32 order).pair
    ((exact_word32 order).pair ((exact_text.list order).pair
      ((exact_block order).list order)))))).congr fun _ => by simp

/-- Functions are read from their spellings. -/
theorem reads_function : (Format.function order).Reads fun function front =>
    function.Classed ∧ SpellsFunction order function front := by
  have parts := Reads.pair exact_text (reads_flags.pair (exact_functionRest order))
  refine (parts.map (fun _ => rfl) fun _ => rfl).congr fun function front => ?_
  obtain ⟨signature, native, parameters, returns, start, length, locals, blocks⟩ := function
  constructor
  · rintro ⟨classed, written, encoded, flag, bit, rfl⟩
    obtain ⟨head, tail, begins, more, rfl⟩ := append_eq_ok.mp encoded
    obtain ⟨middle, last, flagged, ends, rfl⟩ := append_eq_ok.mp more
    obtain rfl := Except.ok.inj flagged
    refine ⟨head, flag :: last, ⟨trivial, begins⟩,
      ⟨[flag], last, ⟨flag, bit, rfl⟩, ⟨classed, ends⟩, rfl⟩, ?_⟩
    rw [← law_text.length _ _ begins]
    simp
  · rintro ⟨head, tail, ⟨-, begins⟩, ⟨_, last, ⟨flag, bit, rfl⟩, ⟨classed, ends⟩, rfl⟩, rfl⟩
    refine ⟨classed, head ++ ([if native then 1 else 0] ++ last), ?_, flag, bit, ?_⟩
    · refine append_eq_ok.mpr ⟨head, _, begins, ?_, rfl⟩
      exact append_eq_ok.mpr ⟨_, last, rfl, ends, rfl⟩
    · rw [← law_text.length _ _ begins]
      simp

end Format

end ScriptVm
