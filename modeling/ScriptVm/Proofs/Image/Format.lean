import Mathlib.Algebra.Ring.Nat
import ScriptVm.Image.Container
import ScriptVm.Proofs.Result

/-!
# What formats promise

A format is lawful when it writes exactly the values whose contents fit, in as many bytes as it
says, and when it reads them back from the front of any bytes, as they are stored: a class that a
handler does not use is not written, so it is not read back either. Each format is built from lawful
ones by ways that keep the law.
-/
namespace ScriptVm

/-- A word has as many bytes as asked for. -/
@[simp] theorem length_littleBytes (count value : Nat) :
    (littleBytes count value).length = count := by
  induction count generalizing value with
  | zero => rfl
  | succ count hypothesis => simp [littleBytes, hypothesis]

/-- The bytes of a word are those of its value below its modulus. -/
theorem littleValue_littleBytes (count value : Nat) :
    littleValue (littleBytes count value) = value % 256 ^ count := by
  induction count generalizing value with
  | zero => simp [littleBytes, littleValue, Nat.mod_one]
  | succ count hypothesis =>
    rw [littleBytes, littleValue, hypothesis, Nat.pow_succ', Nat.mod_mul]
    simp

namespace ByteOrder

variable (order : ByteOrder) (count value : Nat)

/-- A word has as many bytes as asked for, in either order. -/
@[simp] theorem length_bytes : (order.bytes count value).length = count := by
  cases order <;> simp [bytes]

/-- A word is read back in the order in which it was written. -/
theorem value_bytes : order.value (order.bytes count value) = value % 256 ^ count := by
  cases order <;> simp [bytes, ByteOrder.value, littleValue_littleBytes]

end ByteOrder

/-- What a written value is made of. -/
structure Contents where
  /-- The texts that are written. -/
  texts : List String := []
  /-- The handlers that are written. -/
  handlers : List HandlerImage := []
  /-- The counts that are written. -/
  counts : List Nat := []

namespace Contents

variable {α : Type}

/-- The contents of one part and of another. -/
instance : Append Contents where
  append first second := ⟨first.texts ++ second.texts, first.handlers ++ second.handlers,
    first.counts ++ second.counts⟩

/-- A text. -/
def ofText (text : String) : Contents := { texts := [text] }

/-- The contents of all values of a list. -/
def gather (contents : α → Contents) (values : List α) : Contents :=
  ⟨values.flatMap fun value => (contents value).texts,
    values.flatMap fun value => (contents value).handlers,
    values.flatMap fun value => (contents value).counts⟩

/-- A list: the count of its values, and their contents. -/
def ofList (contents : α → Contents) (values : List α) : Contents :=
  { counts := [values.length] } ++ gather contents values

/-- The contents can be written: no text has a zero byte, every handler of objects has a class, and
every count fits in a 32-bit word. -/
structure Fits (contents : Contents) : Prop where
  /-- No text has a zero byte. -/
  texts : ∀ text ∈ contents.texts, 0 ∉ text.toUTF8.data.toList
  /-- Every handler of objects has a class. -/
  handlers : ∀ handler ∈ contents.handlers, handler.kind = .object → handler.className ≠ none
  /-- Every count fits in a 32-bit word. -/
  counts : ∀ count ∈ contents.counts, count < UInt32.size

/-- Nothing can always be written. -/
@[simp] theorem fits_empty : Fits {} := ⟨by simp, by simp, by simp⟩

/-- A text can be written when it has no zero byte. -/
theorem fits_ofText {text : String} : (ofText text).Fits ↔ 0 ∉ text.toUTF8.data.toList := by
  constructor
  · exact fun fits => fits.texts text List.mem_cons_self
  · exact fun clean => ⟨by simpa [ofText] using clean, by simp [ofText], by simp [ofText]⟩

/-- Two parts can be written when each can. -/
@[simp] theorem fits_append {first second : Contents} :
    (first ++ second).Fits ↔ first.Fits ∧ second.Fits := by
  constructor
  · rintro ⟨texts, handlers, counts⟩
    exact ⟨⟨fun _ member => texts _ (List.mem_append_left _ member),
        fun _ member => handlers _ (List.mem_append_left _ member),
        fun _ member => counts _ (List.mem_append_left _ member)⟩,
      ⟨fun _ member => texts _ (List.mem_append_right _ member),
        fun _ member => handlers _ (List.mem_append_right _ member),
        fun _ member => counts _ (List.mem_append_right _ member)⟩⟩
  · rintro ⟨left, right⟩
    exact ⟨fun _ member => (List.mem_append.mp member).elim (left.texts _) (right.texts _),
      fun _ member => (List.mem_append.mp member).elim (left.handlers _) (right.handlers _),
      fun _ member => (List.mem_append.mp member).elim (left.counts _) (right.counts _)⟩

/-- Values can be written when each can. -/
@[simp] theorem fits_gather {contents : α → Contents} {values : List α} :
    (gather contents values).Fits ↔ ∀ value ∈ values, (contents value).Fits := by
  constructor
  · rintro ⟨texts, handlers, counts⟩ value member
    exact ⟨fun _ inside => texts _ (List.mem_flatMap.mpr ⟨value, member, inside⟩),
      fun _ inside => handlers _ (List.mem_flatMap.mpr ⟨value, member, inside⟩),
      fun _ inside => counts _ (List.mem_flatMap.mpr ⟨value, member, inside⟩)⟩
  · intro each
    constructor
    · intro text listed
      obtain ⟨value, member, inside⟩ := List.mem_flatMap.mp listed
      exact (each value member).texts text inside
    · intro handler listed
      obtain ⟨value, member, inside⟩ := List.mem_flatMap.mp listed
      exact (each value member).handlers handler inside
    · intro count listed
      obtain ⟨value, member, inside⟩ := List.mem_flatMap.mp listed
      exact (each value member).counts count inside

end Contents

namespace Format

variable {α β : Type}

/-- Bytes of a text and of the zero byte after it. -/
def textSize (text : String) : Nat := text.utf8ByteSize + 1

/-- Bytes of a list: of its count and of its values. -/
def listSize (size : α → Nat) (values : List α) : Nat := 4 + (values.map size).sum

/-- A format writes exactly the values whose contents fit, in a known number of bytes, and reads
them back as they are stored. -/
structure Law (format : Format α) (contents : α → Contents) (size : α → Nat) (stored : α → α) :
    Prop where
  /-- What fits is written. -/
  writes : ∀ value, (contents value).Fits → ∃ bytes, format.encode value = .ok bytes
  /-- What is written fits. -/
  fits : ∀ value bytes, format.encode value = .ok bytes → (contents value).Fits
  /-- It has as many bytes as the format says. -/
  length : ∀ value bytes, format.encode value = .ok bytes → bytes.length = size value
  /-- It is read back from the front of any bytes. -/
  reads : ∀ value bytes, format.encode value = .ok bytes →
    ∀ rest, format.decode (bytes ++ rest) = .ok (stored value, rest)

/-- A format that writes every value. -/
theorem Law.of_total {format : Format α} {size : α → Nat} (encode : α → List UInt8)
    (encodes : ∀ value, format.encode value = .ok (encode value))
    (length : ∀ value, (encode value).length = size value)
    (decodes : ∀ value rest, format.decode (encode value ++ rest) = .ok (value, rest)) :
    format.Law (fun _ => {}) size id := by
  constructor
  · exact fun value _ => ⟨encode value, encodes value⟩
  · exact fun _ _ _ => Contents.fits_empty
  · intro value bytes written
    rw [← Except.ok.inj ((encodes value).symm.trans written), length]
  · intro value bytes written rest
    rw [← Except.ok.inj ((encodes value).symm.trans written)]
    exact decodes value rest

/-- Two parts are written one after the other when both are. -/
theorem append_eq_ok {first second : Except Flaw (List UInt8)} {bytes : List UInt8} :
    (do return (← first) ++ (← second)) = Except.ok bytes ↔
      ∃ head tail, first = .ok head ∧ second = .ok tail ∧ head ++ tail = bytes := by
  constructor
  · intro written
    obtain ⟨head, begins, more⟩ := Except.bind_eq_ok written
    obtain ⟨tail, ends, whole⟩ := Except.bind_eq_ok more
    exact ⟨head, tail, begins, ends, Except.ok.inj whole⟩
  · rintro ⟨head, tail, rfl, rfl, rfl⟩
    rfl

/-- Two values in order. -/
theorem Law.pair {left : Format α} {right : Format β} {contents : α → Contents}
    {contents' : β → Contents} {size : α → Nat} {size' : β → Nat} {stored : α → α}
    {stored' : β → β} (first : left.Law contents size stored)
    (second : right.Law contents' size' stored') :
    (left.pair right).Law (fun value => contents value.1 ++ contents' value.2)
      (fun value => size value.1 + size' value.2)
      (fun value => (stored value.1, stored' value.2)) := by
  constructor
  · intro value fits
    obtain ⟨fitsFirst, fitsSecond⟩ := Contents.fits_append.mp fits
    obtain ⟨head, begins⟩ := first.writes _ fitsFirst
    obtain ⟨tail, ends⟩ := second.writes _ fitsSecond
    exact ⟨head ++ tail, append_eq_ok.mpr ⟨head, tail, begins, ends, rfl⟩⟩
  · intro value bytes written
    obtain ⟨head, tail, begins, ends, -⟩ := append_eq_ok.mp written
    exact Contents.fits_append.mpr ⟨first.fits _ _ begins, second.fits _ _ ends⟩
  · intro value bytes written
    obtain ⟨head, tail, begins, ends, rfl⟩ := append_eq_ok.mp written
    rw [List.length_append, first.length _ _ begins, second.length _ _ ends]
  · intro value bytes written rest
    obtain ⟨head, tail, begins, ends, rfl⟩ := append_eq_ok.mp written
    simp only [Format.pair, List.append_assoc, first.reads _ _ begins, second.reads _ _ ends,
      Bind.bind, Except.bind]
    rfl

/-- Another form of the same values. -/
theorem Law.map {format : Format α} {contents : α → Contents} {size : α → Nat} {stored : α → α}
    (law : format.Law contents size stored) (pack : α → β) (unpack : β → α) :
    (format.map pack unpack).Law (fun value => contents (unpack value))
      (fun value => size (unpack value)) (fun value => pack (stored (unpack value))) := by
  constructor
  · exact fun value => law.writes (unpack value)
  · exact fun value => law.fits (unpack value)
  · exact fun value => law.length (unpack value)
  · intro value bytes written rest
    simp only [Format.map, law.reads (unpack value) bytes written, Bind.bind, Except.bind]
    rfl

/-- A law can be stated in other words. -/
theorem Law.congr {format : Format α} {contents contents' : α → Contents} {size size' : α → Nat}
    {stored stored' : α → α} (law : format.Law contents size stored)
    (fits : ∀ value, (contents' value).Fits ↔ (contents value).Fits)
    (sizes : ∀ value, size' value = size value)
    (same : ∀ value, stored' value = stored value) : format.Law contents' size' stored' := by
  constructor
  · exact fun value holds => law.writes value ((fits value).mp holds)
  · exact fun value bytes written => (fits value).mpr (law.fits value bytes written)
  · intro value bytes written
    rw [sizes, law.length value bytes written]
  · intro value bytes written rest
    rw [same, law.reads value bytes written rest]

/-- As many bytes as there are at the front. -/
theorem take_append {count : Nat} {bytes : List UInt8} (length : bytes.length = count)
    (rest : List UInt8) : take count (bytes ++ rest) = .ok (bytes, rest) := by
  rw [take, if_neg (by simp [← length]), List.take_left' length, List.drop_left' length]

/-- The byte format is lawful. -/
theorem law_byte : byte.Law (fun _ => {}) (fun _ => 1) id :=
  .of_total (fun value => [value]) (fun _ => rfl) (fun _ => rfl) fun _ _ => rfl

/-- A number that is written in enough bytes is taken from the front as it is. -/
theorem take_bytes (order : ByteOrder) {width number : Nat} (small : number < 256 ^ width)
    (make : Nat → α) (rest : List UInt8) :
    (do
      let (word, rest) ← take width (order.bytes width number ++ rest)
      return (make (order.value word), rest)) = Except.ok (make number, rest) := by
  simp only [take_append (order.length_bytes width number), Bind.bind, Except.bind,
    order.value_bytes, Nat.mod_eq_of_lt small]
  rfl

/-- The format of 16-bit words is lawful. -/
theorem law_word16 (order : ByteOrder) : (word16 order).Law (fun _ => {}) (fun _ => 2) id := by
  refine .of_total _ (fun _ => rfl) (fun value => order.length_bytes 2 value.toNat) ?_
  intro value rest
  exact (take_bytes order value.toNat_lt UInt16.ofNat rest).trans (by rw [UInt16.ofNat_toNat])

/-- The format of 32-bit words is lawful. -/
theorem law_word32 (order : ByteOrder) : (word32 order).Law (fun _ => {}) (fun _ => 4) id := by
  refine .of_total _ (fun _ => rfl) (fun value => order.length_bytes 4 value.toNat) ?_
  intro value rest
  exact (take_bytes order value.toNat_lt UInt32.ofNat rest).trans (by rw [UInt32.ofNat_toNat])

/-- The format of counts is lawful. -/
theorem law_count (order : ByteOrder) :
    (count order).Law (fun value => { counts := [value] }) (fun _ => 4) id := by
  have cases : ∀ value bytes, (count order).encode value = .ok bytes →
      value < UInt32.size ∧ bytes = order.bytes 4 value := by
    intro value bytes written
    simp only [count] at written
    split at written
    · rename_i small
      exact ⟨small, (Except.ok.inj written).symm⟩
    · simp at written
  constructor
  · intro value fits
    exact ⟨order.bytes 4 value, if_pos (fits.counts value List.mem_cons_self)⟩
  · intro value bytes written
    exact ⟨by simp, by simp, by simpa using (cases value bytes written).1⟩
  · intro value bytes written
    rw [(cases value bytes written).2, order.length_bytes]
  · intro value bytes written rest
    obtain ⟨small, rfl⟩ := cases value bytes written
    exact take_bytes order small id rest

/-- The format of kinds is lawful. -/
theorem law_kind : kind.Law (fun _ => {}) (fun _ => 1) id := by
  refine .of_total (fun value => [value.toByte]) (fun _ => rfl) (fun _ => rfl) ?_
  intro value rest
  have known : Kind.ofByte? value.toByte = some value := by
    cases value with
    | integer kind =>
      obtain ⟨signed, width⟩ := kind
      cases signed <;> cases width <;> rfl
    | binary kind => cases kind <;> rfl
    | _ => rfl
  simp only [kind, List.singleton_append, known]

/-- The bytes of a text make the text. -/
theorem fromUTF8?_toUTF8 (text : String) : String.fromUTF8? text.toUTF8 = some text := by
  unfold String.fromUTF8?
  rw [String.toUTF8_eq_toByteArray, dif_pos text.isValidUTF8]
  rfl

/-- The format of texts is lawful. -/
theorem law_text : text.Law Contents.ofText textSize id := by
  have cases : ∀ value bytes, text.encode value = .ok bytes →
      0 ∉ value.toUTF8.data.toList ∧ bytes = value.toUTF8.data.toList ++ [0] := by
    intro value bytes written
    simp only [text] at written
    split at written
    · simp at written
    · rename_i clean
      exact ⟨by simpa using clean, (Except.ok.inj written).symm⟩
  constructor
  · intro value fits
    exact ⟨_, if_neg (by simpa using Contents.fits_ofText.mp fits)⟩
  · exact fun value bytes written => Contents.fits_ofText.mpr (cases value bytes written).1
  · intro value bytes written
    rw [(cases value bytes written).2, List.length_append]
    rfl
  · intro value bytes written rest
    obtain ⟨clean, rfl⟩ := cases value bytes written
    have apart : ∀ byte ∈ value.toUTF8.data.toList, decide (byte ≠ 0) = true := by
      intro byte member
      simp only [decide_eq_true_eq]
      rintro rfl
      exact clean member
    have made : String.fromUTF8? ⟨value.toByteArray.data⟩ = some value := fromUTF8?_toUTF8 value
    simp only [text, List.append_assoc, List.takeWhile_append_of_pos apart,
      List.dropWhile_append_of_pos apart]
    simp [made]

section Lists

variable {format : Format α} {contents : α → Contents} {size : α → Nat} {stored : α → α}

/-- Values in order are written when each can be, and only then. -/
theorem Law.encodeAll (law : format.Law contents size stored) (values : List α) :
    (∃ bytes, format.encodeAll values = .ok bytes) ↔ ∀ value ∈ values, (contents value).Fits := by
  induction values with
  | nil => simp [Format.encodeAll]
  | cons value rest hypothesis =>
    rw [List.forall_mem_cons, ← hypothesis]
    constructor
    · rintro ⟨bytes, written⟩
      obtain ⟨head, tail, begins, ends, -⟩ := append_eq_ok.mp written
      exact ⟨law.fits value head begins, tail, ends⟩
    · rintro ⟨fits, tail, ends⟩
      obtain ⟨head, begins⟩ := law.writes value fits
      exact ⟨head ++ tail, append_eq_ok.mpr ⟨head, tail, begins, ends, rfl⟩⟩

/-- Values in order have the bytes of each, and are read back after those already read. -/
theorem Law.decodeInto (law : format.Law contents size stored) {values : List α}
    {bytes : List UInt8} (written : format.encodeAll values = .ok bytes) (rest : List UInt8)
    (reversed : List α) :
    bytes.length = (values.map size).sum ∧
      format.decodeInto values.length (bytes ++ rest) reversed =
        .ok (reversed.reverse ++ values.map stored, rest) := by
  induction values generalizing bytes reversed with
  | nil =>
    obtain rfl : [] = bytes := Except.ok.inj written
    simp [Format.decodeInto]
  | cons value values hypothesis =>
    obtain ⟨head, tail, begins, ends, rfl⟩ := append_eq_ok.mp written
    obtain ⟨length, reads⟩ := hypothesis ends (stored value :: reversed)
    refine ⟨by simp [law.length value head begins, length], ?_⟩
    simp only [List.length_cons, Format.decodeInto, List.append_assoc, Bind.bind, Except.bind,
      law.reads value head begins, reads]
    simp

/-- A list of values of a lawful format has a lawful format. -/
theorem Law.list (law : format.Law contents size stored) (order : ByteOrder) :
    (list order format).Law (Contents.ofList contents) (listSize size) (List.map stored) := by
  constructor
  · intro values fits
    obtain ⟨few, each⟩ := Contents.fits_append.mp fits
    obtain ⟨head, begins⟩ := (law_count order).writes values.length few
    obtain ⟨tail, ends⟩ := (law.encodeAll values).mpr (Contents.fits_gather.mp each)
    exact ⟨head ++ tail, append_eq_ok.mpr ⟨head, tail, begins, ends, rfl⟩⟩
  · intro values bytes written
    obtain ⟨head, tail, begins, ends, -⟩ := append_eq_ok.mp written
    exact Contents.fits_append.mpr ⟨(law_count order).fits _ _ begins,
      Contents.fits_gather.mpr ((law.encodeAll values).mp ⟨tail, ends⟩)⟩
  · intro values bytes written
    obtain ⟨head, tail, begins, ends, rfl⟩ := append_eq_ok.mp written
    rw [List.length_append, (law_count order).length _ _ begins, (law.decodeInto ends [] []).1,
      listSize]
  · intro values bytes written rest
    obtain ⟨head, tail, begins, ends, rfl⟩ := append_eq_ok.mp written
    simp only [Format.list, List.append_assoc, (law_count order).reads _ _ begins, Bind.bind,
      Except.bind, id_eq, (law.decodeInto ends rest []).2, List.reverse_nil, List.nil_append]

end Lists

end Format

end ScriptVm
