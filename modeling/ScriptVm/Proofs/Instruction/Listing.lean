import ScriptVm.Proofs.Instruction.Decoding
import ScriptVm.Proofs.Instruction.Texts

/-!
# What listings show

A listing of a range of code covers the range: each line stands where the one before it ends, and
shows the instruction that is spelled there, or a byte that is no operation.
-/
namespace ScriptVm

/-- What a line shows. -/
inductive Shown where
  | byte (value : UInt8)
  | instruction (value : Instruction UInt32)

/-- A line of a listing. -/
structure Line where
  /-- Where the shown bytes start. -/
  offset : Nat
  /-- What they are. -/
  shown : Shown

/-- How many bytes a line shows. -/
def Shown.size : Shown → Nat
  | .byte _ => 1
  | .instruction value => value.size

section Found

variable (strings : Array String)

/-- The text of a constant is in the string table. -/
def Constant.Found : Constant UInt32 → Prop
  | .string index => index.toNat < strings.size
  | _ => True

/-- The text of a constant among the operands is in the string table. -/
def Shape.Found : (shape : Shape) → shape.Carrier UInt32 → Prop
  | .constant, value => value.Found strings
  | _, _ => True

/-- The texts of the constants among operands are in the string table. -/
def Operands.Found : (shapes : List Shape) → Operands UInt32 shapes → Prop
  | [], () => True
  | shape :: rest, (operand, operands) => shape.Found strings operand ∧ Operands.Found rest operands

/-- The texts of the constants in a line are in the string table. -/
def Line.Found (line : Line) : Prop :=
  match line.shown with
  | .byte _ => True
  | .instruction value => Operands.Found strings _ value.operands

/-- How a line looks. A byte that is no operation has two hexadecimal digits. -/
def Line.text (line : Line) : String :=
  match line.shown with
  | .byte value => (toString line.offset).leftpad 6 '0' ++ " " ++ ".byte 0x" ++ Text.hexByte value
  | .instruction value => value.shown (nameIn strings) line.offset

/-- The constants among operands are found when all names are. -/
theorem Operands.found_of_resolve : (shapes : List Shape) → {operands : Operands UInt32 shapes} →
    {source : Operands String shapes} → resolve strings shapes operands = some source →
    Found strings shapes operands
  | [], (), _, _ => trivial
  | shape :: rest, (operand, operands), _, resolved => by
    obtain ⟨first, front, others⟩ := Option.bind_eq_some_iff.mp resolved
    obtain ⟨second, back, -⟩ := Option.bind_eq_some_iff.mp others
    refine ⟨?_, found_of_resolve rest back⟩
    cases shape with
    | constant =>
      cases operand with
      | string index =>
        obtain ⟨text, known, -⟩ := Option.map_eq_some_iff.mp front
        exact (Array.getElem?_eq_some_iff.mp known).1
      | _ => trivial
    | _ => trivial

end Found

/-- What is shown stands at a cursor: an instruction that is spelled there, or a byte that is no
operation. -/
def Cursor.Shows (cursor : Cursor) : Shown → Prop
  | .byte value => cursor.Sees [value] ∧ Opcode.ofByte? value = none
  | .instruction value => cursor.Holds value

namespace Listing

variable {strings : Array String} {cursor after : Cursor} {text : String}

/-- A listing goes on with what was taken. -/
theorem take_eq_ok_iff {α : Type} {take : Cursor → Option (α × Cursor)} {taken : α × Cursor} :
    Listing.take take cursor = .ok taken ↔ take cursor = some taken :=
  Error.orElse_eq_ok

/-- What is taken is listed in some way, where it can be read. -/
theorem made_eq_ok_iff {α : Type} {misread : Misread} {take : Cursor → Option (α × Cursor)}
    (make : α → String) :
    (Listing.take take >>= fun value => pure (make value) : Listing String) cursor =
        .ok (text, after) ↔
      ∃ value, Reading.ofOption misread take cursor = .ok (value, after) ∧ text = make value := by
  simp only [StateT.bind_eq_ok_iff, StateT.pure_eq_ok_iff, take_eq_ok_iff,
    Reading.ofOption_eq_ok_iff, Prod.mk.injEq]
  constructor
  · rintro ⟨value, middle, taken, rfl, rfl⟩
    exact ⟨value, taken, rfl⟩
  · rintro ⟨value, taken, rfl⟩
    exact ⟨value, after, taken, rfl, rfl⟩

/-- The value of a constant is listed as it looks, where its text is found. -/
theorem value_eq_ok_iff {constant : Constant UInt32} :
    value strings constant = .ok text ↔
      constant.Found strings ∧ text = constant.shownValue (nameIn strings) := by
  cases constant with
  | bool truth => cases truth <;> simp [value, Constant.Found, Constant.shownValue, eq_comm] <;> rfl
  | string index =>
    simp only [value, Constant.Found, Constant.shownValue, nameIn, quote]
    cases found : strings[index.toNat]? with
    | none => simp [Nat.not_lt.mpr (Array.getElem?_eq_none_iff.mp found)]
    | some name =>
      obtain ⟨inside, -⟩ := Array.getElem?_eq_some_iff.mp found
      simp [inside, eq_comm]
  | _ => simp [value, Constant.Found, Constant.shownValue, Text.signed_eq, eq_comm]

/-- A constant is listed as it looks, where it can be read and its text is found. -/
theorem constant_eq_ok_iff :
    constant strings cursor = .ok (text, after) ↔
      ∃ constant, Reading.constant cursor = .ok (constant, after) ∧ constant.Found strings ∧
        text = constant.shown (nameIn strings) := by
  simp only [Reading.constant_eq_ok_iff]
  unfold constant
  rw [StateT.bind_eq_ok_iff]
  constructor
  · rintro ⟨byte, middle, taken, rest⟩
    cases known : Kind.ofByte? byte with
    | none =>
      simp only [known] at rest
      cases rest
    | some kind =>
      simp only [known] at rest
      split at rest
      · obtain ⟨constant, last, paid, rest⟩ := StateT.bind_eq_ok_iff.mp rest
        obtain ⟨back, _, written, done⟩ := StateT.bind_eq_ok_iff.mp rest
        obtain ⟨_, valued, same⟩ := StateT.lift_eq_ok_iff.mp written
        obtain ⟨rfl, rfl⟩ := Prod.mk.inj same
        obtain ⟨rfl, rfl⟩ := Prod.mk.inj (StateT.pure_eq_ok_iff.mp done)
        rw [take_eq_ok_iff] at paid
        obtain ⟨rfl, -⟩ := Constant.payload?_eq_some_iff.mp paid
        obtain ⟨found, rfl⟩ := value_eq_ok_iff.mp valued
        exact ⟨constant, ⟨byte, middle, _, take_eq_ok_iff.mp taken, known, paid⟩, found, rfl⟩
      · cases rest
  · rintro ⟨constant, ⟨byte, middle, kind, taken, known, paid⟩, found, rfl⟩
    obtain ⟨rfl, -⟩ := Constant.payload?_eq_some_iff.mp paid
    have offered : constant.kind.hasConstants = true := by cases constant <;> rfl
    refine ⟨byte, middle, take_eq_ok_iff.mpr taken, ?_⟩
    simp only [known, offered, if_true]
    refine StateT.bind_eq_ok_iff.mpr ⟨constant, after, take_eq_ok_iff.mpr paid, ?_⟩
    refine StateT.bind_eq_ok_iff.mpr ⟨_, after, StateT.lift_eq_ok_iff.mpr ⟨_, ?_, rfl⟩, rfl⟩
    exact value_eq_ok_iff.mpr ⟨found, rfl⟩

/-- An operand is listed as it looks, where it can be decoded and its text is found. -/
theorem operand_eq_ok_iff (start : Nat) (shape : Shape) :
    operand strings start shape cursor = .ok (text, after) ↔
      ∃ operand, shape.decode cursor = .ok (operand, after) ∧ shape.Found strings operand ∧
        text = shape.shown (nameIn strings) start operand := by
  cases shape with
  | constant => exact constant_eq_ok_iff
  | register | parameter | index =>
    refine (made_eq_ok_iff _).trans (exists_congr fun word => and_congr_right fun _ => ?_)
    simp [Shape.Found, Shape.shown, Text.decimal_eq]
  | name =>
    refine (made_eq_ok_iff _).trans (exists_congr fun word => and_congr_right fun _ => ?_)
    cases found : strings[word.toNat]? <;>
      simp [Shape.Found, Shape.shown, Text.decimal_eq, nameIn, quote, found]
  | offset =>
    show _ ↔ ∃ distance, Reading.distance cursor = .ok (distance, after) ∧ _
    refine (made_eq_ok_iff _).trans (exists_congr fun distance => and_congr_right fun _ => ?_)
    rw [Text.explicitlySigned_eq, Text.signedOffset_eq]
    exact (true_and _ ▸ Iff.rfl)

/-- Operands are listed one after the other as they look. -/
theorem operands_eq_ok_iff (start : Nat) (shapes : List Shape) {texts : List String} :
    shapes.mapM (operand strings start) cursor = .ok (texts, after) ↔
      ∃ operands, Operands.decode shapes cursor = .ok (operands, after) ∧
        Operands.Found strings shapes operands ∧
        texts = Operands.shown (nameIn strings) start shapes operands := by
  induction shapes generalizing cursor texts with
  | nil =>
    rw [List.mapM_nil, StateT.pure_eq_ok_iff]
    simp [Operands.decode, Operands.Found, Operands.shown, eq_comm, and_comm]
  | cons shape rest hypothesis =>
    rw [List.mapM_cons]
    constructor
    · intro done
      obtain ⟨text, middle, first, done⟩ := StateT.bind_eq_ok_iff.mp done
      obtain ⟨others, last, second, done⟩ := StateT.bind_eq_ok_iff.mp done
      obtain ⟨rfl, rfl⟩ := Prod.mk.inj (StateT.pure_eq_ok_iff.mp done)
      obtain ⟨operand, read, found, rfl⟩ := (operand_eq_ok_iff start shape).mp first
      obtain ⟨operands, more, all, rfl⟩ := hypothesis.mp second
      refine ⟨(operand, operands), ?_, ⟨found, all⟩, rfl⟩
      rw [Operands.decode, read]
      simp only [Bind.bind, Except.bind, more]
      rfl
    · rintro ⟨⟨operand, operands⟩, decoded, ⟨found, all⟩, rfl⟩
      obtain ⟨⟨operand, middle⟩, read, rest⟩ := Except.bind_eq_ok decoded
      obtain ⟨⟨operands, last⟩, more, done⟩ := Except.bind_eq_ok rest
      obtain ⟨same, rfl⟩ := Prod.mk.inj (Except.ok.inj done)
      obtain ⟨rfl, rfl⟩ := Prod.mk.inj same
      have first := (operand_eq_ok_iff start shape).mpr ⟨operand, read, found, rfl⟩
      have second := hypothesis.mpr ⟨operands, more, all, rfl⟩
      refine StateT.bind_eq_ok_iff.mpr ⟨_, middle, first, ?_⟩
      exact StateT.bind_eq_ok_iff.mpr ⟨_, last, second, rfl⟩

/-- What follows the byte of a line, which starts at an offset. -/
theorem line_eq {byte : UInt8} {middle : Cursor} (taken : cursor.byte? = some (byte, middle)) :
    line strings cursor =
      match Opcode.ofByte? byte with
      | none => .ok (Text.offset cursor.next ++ " " ++ ".byte 0x" ++ Text.hexByte byte, middle)
      | some opcode => do
        let (operands, last) ← opcode.shapes.mapM (operand strings cursor.next) middle
        return (Text.trimEnd (Text.offset cursor.next ++ " " ++
          String.ofList (Text.spacePadded 16 opcode.mnemonic.toList) ++
          Text.trimEnd (", ".intercalate operands)), last) := by
  show (take Cursor.byte? cursor >>= _) = _
  rw [take_eq_ok_iff.mpr taken]
  simp only [Bind.bind, Except.bind]
  cases Opcode.ofByte? byte <;> rfl

/-- A line is listed as it looks, exactly where it stands, and the next one starts after it. -/
theorem line_eq_ok_iff :
    line strings cursor = .ok (text, after) ↔
      ∃ shown, cursor.Shows shown ∧ (Line.mk cursor.next shown).Found strings ∧
        text = (Line.mk cursor.next shown).text strings ∧
        after = cursor.moveTo (cursor.next + shown.size) := by
  constructor
  · intro done
    obtain ⟨start, _, begun, rest⟩ := StateT.bind_eq_ok_iff.mp done
    obtain ⟨rfl, rfl⟩ := Prod.mk.inj (Except.ok.inj begun)
    obtain ⟨byte, middle, taken, -⟩ := StateT.bind_eq_ok_iff.mp rest
    rw [take_eq_ok_iff] at taken
    rw [line_eq taken] at done
    cases known : Opcode.ofByte? byte with
    | none =>
      simp only [known] at done
      obtain ⟨rfl, rfl⟩ := Prod.mk.inj (Except.ok.inj done)
      obtain ⟨sees, moved⟩ := Cursor.byte?_eq_some_iff.mp taken
      exact ⟨.byte byte, ⟨sees, known⟩, trivial, by rw [Text.offset_eq]; rfl, moved⟩
    | some opcode =>
      simp only [known] at done
      obtain ⟨⟨texts, last⟩, listed, done⟩ := Except.bind_eq_ok done
      obtain ⟨rfl, rfl⟩ := Prod.mk.inj (Except.ok.inj done)
      obtain ⟨operands, decoded, found, rfl⟩ := (operands_eq_ok_iff _ _).mp listed
      let value : Instruction UInt32 := ⟨opcode, operands⟩
      obtain ⟨holds, moved⟩ := (@Cursor.holds_iff _ _ value).mpr
        ⟨byte, middle, taken, known, decoded⟩
      exact ⟨.instruction value, holds, found, value.trimEnd_eq (tight_nameIn strings) _, moved⟩
  · rintro ⟨shown, shows, found, rfl, rfl⟩
    cases shown with
    | byte value =>
      obtain ⟨sees, unknown⟩ := shows
      rw [line_eq (Cursor.byte?_eq_some_iff.mpr ⟨sees, rfl⟩)]
      simp only [unknown, Text.offset_eq]
      rfl
    | instruction value =>
      obtain ⟨byte, middle, taken, known, decoded⟩ := Cursor.holds_iff.mp ⟨shows, rfl⟩
      have listed := (operands_eq_ok_iff cursor.next value.opcode.shapes).mpr
        ⟨value.operands, decoded, found, rfl⟩
      rw [line_eq taken]
      simp only [known, listed, Bind.bind, Except.bind,
        value.trimEnd_eq (tight_nameIn strings) cursor.next]
      rfl

end Listing

namespace Line

variable {code : Array UInt8} {stop : Nat}

/-- Only one thing can be shown at a cursor. -/
theorem shows_unique {cursor : Cursor} {one other : Shown} (first : cursor.Shows one)
    (second : cursor.Shows other) : one = other := by
  have taken : ∀ {byte byte' middle middle'}, cursor.byte? = some (byte, middle) →
      cursor.byte? = some (byte', middle') → byte = byte' ∧ middle = middle' :=
    fun taken taken' => Prod.mk.inj (Option.some.inj (taken.symm.trans taken'))
  have seen : ∀ {byte}, cursor.Sees [byte] → cursor.byte? = some (byte, _) :=
    fun sees => Cursor.byte?_eq_some_iff.mpr ⟨sees, rfl⟩
  cases one with
  | byte value =>
    obtain ⟨sees, unknown⟩ := first
    cases other with
    | byte value' => rw [(taken (seen sees) (seen second.1)).1]
    | instruction value' =>
      obtain ⟨_, _, there, known, -⟩ := Cursor.holds_iff.mp ⟨second, rfl⟩
      rw [← (taken (seen sees) there).1, unknown] at known
      cases known
  | instruction value =>
    obtain ⟨byte, middle, here, known, decoded⟩ := Cursor.holds_iff.mp ⟨first, rfl⟩
    cases other with
    | byte value' =>
      obtain ⟨sees, unknown⟩ := second
      rw [(taken here (seen sees)).1, unknown] at known
      cases known
    | instruction value' =>
      obtain ⟨_, _, there, known', decoded'⟩ := Cursor.holds_iff.mp ⟨second, rfl⟩
      obtain ⟨rfl, rfl⟩ := taken here there
      obtain ⟨opcode, operands⟩ := value
      obtain ⟨opcode', operands'⟩ := value'
      obtain rfl : opcode = opcode' := Option.some.inj (known.symm.trans known')
      obtain ⟨rfl, -⟩ := Prod.mk.inj (Except.ok.inj (decoded.symm.trans decoded'))
      rfl

/-- Lines cover the code from one offset up to another: each starts where the one before it ends,
and the last one ends at the limit or past it. -/
def Covers (code : Array UInt8) (stop : Nat) : Nat → List Line → Prop
  | offset, [] => stop ≤ offset
  | offset, line :: rest =>
    offset < stop ∧ line.offset = offset ∧ (Cursor.ofOffset code offset).Shows line.shown ∧
      Covers code stop (offset + line.shown.size) rest

/-- A line takes at least one byte. -/
theorem size_pos (shown : Shown) : 0 < shown.size := by
  cases shown with
  | byte value => exact Nat.one_pos
  | instruction value => exact Nat.lt_of_lt_of_le Nat.one_pos (Nat.le_add_right 1 _)

/-- What a cursor shows does not depend on the instruction being executed. -/
theorem shows_ofOffset {cursor : Cursor} {shown : Shown} :
    (Cursor.ofOffset cursor.code cursor.next).Shows shown ↔ cursor.Shows shown := by
  cases shown <;> rfl

/-- A line is listed as a text: its constants are found, and the text is how it looks. -/
def Listed (strings : Array String) (line : Line) (text : String) : Prop :=
  line.Found strings ∧ text = line.text strings

/-- With fuel for every byte, the texts that are listed are those of lines that cover the code up to
the limit. -/
theorem lines_eq_ok_iff {strings : Array String} {texts : List String} {fuel : Nat}
    {cursor : Cursor} (enough : stop ≤ cursor.next + fuel) :
    (∃ last, Listing.lines strings stop fuel cursor = .ok (texts, last)) ↔
      ∃ lines, Covers cursor.code stop cursor.next lines ∧
        List.Forall₂ (Listed strings) lines texts := by
  have ended : ∀ {cursor : Cursor} {texts : List String}, stop ≤ cursor.next →
      ((∃ last, (Except.ok ([], cursor) : Except Error (List String × Cursor)) =
        .ok (texts, last)) ↔ ∃ lines, Covers cursor.code stop cursor.next lines ∧
          List.Forall₂ (Listed strings) lines texts) := by
    intro cursor texts past
    constructor
    · rintro ⟨last, done⟩
      obtain ⟨rfl, rfl⟩ := Prod.mk.inj (Except.ok.inj done)
      exact ⟨[], past, .nil⟩
    · rintro ⟨lines, covers, listed⟩
      cases lines with
      | nil =>
        obtain rfl := List.forall₂_nil_left_iff.mp listed
        exact ⟨cursor, rfl⟩
      | cons line rest => exact absurd past (Nat.not_le.mpr covers.1)
  induction fuel generalizing cursor texts with
  | zero => exact ended enough
  | succ fuel hypothesis =>
    by_cases past : stop ≤ cursor.next
    · have done : Listing.lines strings stop (fuel + 1) cursor = .ok ([], cursor) := by
        show (if stop ≤ cursor.next then _ else _ : Listing (List String)) cursor = _
        rw [if_pos past]
        rfl
      rw [done]
      exact ended past
    · have more : Listing.lines strings stop (fuel + 1) cursor =
          (Listing.line strings >>= fun text =>
            Listing.lines strings stop fuel >>= fun rest => pure (text :: rest)) cursor := by
        show (if stop ≤ cursor.next then _ else _ : Listing (List String)) cursor = _
        rw [if_neg past]
      rw [more]
      constructor
      · rintro ⟨last, done⟩
        obtain ⟨text, middle, first, done⟩ := StateT.bind_eq_ok_iff.mp done
        obtain ⟨others, final, second, done⟩ := StateT.bind_eq_ok_iff.mp done
        obtain ⟨rfl, rfl⟩ := Prod.mk.inj (StateT.pure_eq_ok_iff.mp done)
        obtain ⟨shown, shows, found, rfl, rfl⟩ := Listing.line_eq_ok_iff.mp first
        have positive := size_pos shown
        obtain ⟨lines, covers, listed⟩ :=
          (hypothesis (by simp only [Cursor.moveTo]; omega)).mp ⟨_, second⟩
        exact ⟨⟨cursor.next, shown⟩ :: lines,
          ⟨Nat.lt_of_not_le past, rfl, shows_ofOffset.mpr shows, covers⟩, .cons ⟨found, rfl⟩ listed⟩
      · rintro ⟨lines, covers, listed⟩
        cases listed with
        | nil => exact absurd covers past
        | @cons line text lines others looks listed =>
          obtain ⟨-, start, shows, covers⟩ := covers
          obtain ⟨offset, shown⟩ := line
          obtain rfl : offset = cursor.next := start
          have positive := size_pos shown
          obtain ⟨last, second⟩ := (hypothesis
            (show stop ≤ (cursor.moveTo (cursor.next + shown.size)).next + fuel by
              simp only [Cursor.moveTo]; omega)).mpr ⟨lines, covers, listed⟩
          have first := Listing.line_eq_ok_iff.mpr
            ⟨shown, shows_ofOffset.mp shows, looks.1, looks.2, rfl⟩
          refine ⟨last, StateT.bind_eq_ok_iff.mpr ⟨_, _, first, ?_⟩⟩
          exact StateT.bind_eq_ok_iff.mpr ⟨_, _, second, rfl⟩

/-- A listing is the texts of lines that cover a range of code. -/
theorem listing_eq_ok_iff {strings : Array String} {start : Nat} {texts : List String} :
    listing strings code start stop = .ok texts ↔
      ∃ lines, Covers code stop start lines ∧ List.Forall₂ (Listed strings) lines texts := by
  have enough : stop ≤ (Cursor.ofOffset code start).next + (stop - start) := by
    simp only [Cursor.ofOffset]
    omega
  refine Iff.trans ?_ (lines_eq_ok_iff enough)
  unfold listing StateT.run'
  cases Listing.lines strings stop (stop - start) (Cursor.ofOffset code start) with
  | error error => simp [Functor.map, Except.map]
  | ok listed => simp [Functor.map, Except.map, Prod.ext_iff]

/-- A line of a listing stands at its offset, and the next line starts where it ends. After the last
line comes the limit. -/
theorem Covers.line {offset index : Nat} {lines : List Line} {line : Line}
    (covers : Covers code stop offset lines) (found : lines[index]? = some line) :
    (Cursor.ofOffset code line.offset).Shows line.shown ∧
      (∀ following, lines[index + 1]? = some following →
        following.offset = line.offset + line.shown.size) ∧
      (lines[index + 1]? = none → stop ≤ line.offset + line.shown.size) := by
  induction lines generalizing offset index with
  | nil => simp at found
  | cons first rest hypothesis =>
    obtain ⟨-, rfl, shows, more⟩ := covers
    cases index with
    | succ index => exact hypothesis more found
    | zero =>
      obtain rfl : first = line := Option.some.inj found
      refine ⟨shows, ?_, ?_⟩
      · intro following next
        cases rest with
        | nil => simp at next
        | cons second others =>
          obtain rfl : second = following := Option.some.inj next
          exact more.2.1
      · intro last
        cases rest with
        | nil => exact more
        | cons second others => simp at last

/-- A line begins with its offset. -/
theorem opens_text (strings : Array String) (line : Line) :
    Text.Opens line.offset (line.text strings) := by
  obtain ⟨offset, shown⟩ := line
  cases shown with
  | byte value => exact ⟨".byte 0x" ++ Text.hexByte value, String.append_assoc⟩
  | instruction value => exact ⟨_, rfl⟩

/-- A text of a listing that begins with an offset shows what stands there, and the next text begins
with the offset after it. After the last text comes the limit. -/
theorem Covers.text {offset index here : Nat} {lines : List Line} {strings : Array String}
    {texts : List String} {text : String} (covers : Covers code stop offset lines)
    (listed : List.Forall₂ (Listed strings) lines texts) (found : texts[index]? = some text)
    (opens : Text.Opens here text) :
    ∃ shown, (Cursor.ofOffset code here).Shows shown ∧ text = Line.text strings ⟨here, shown⟩ ∧
      (∀ following, texts[index + 1]? = some following →
        Text.Opens (here + shown.size) following) ∧
      (texts[index + 1]? = none → stop ≤ here + shown.size) := by
  have length := listed.length_eq
  have looks : ∀ {index : Nat} {text : String}, texts[index]? = some text →
      ∃ line, lines[index]? = some line ∧ Listed strings line text := by
    intro index text found
    obtain ⟨inside, rfl⟩ := List.getElem?_eq_some_iff.mp found
    have inside' : index < lines.length := length ▸ inside
    exact ⟨lines[index], List.getElem?_eq_getElem inside', listed.get inside' inside⟩
  obtain ⟨line, there, -, rfl⟩ := looks found
  obtain rfl : line.offset = here := (opens_text strings line).unique opens
  obtain ⟨shows, next, last⟩ := covers.line there
  refine ⟨line.shown, shows, rfl, ?_, ?_⟩
  · intro following ahead
    obtain ⟨other, there, -, rfl⟩ := looks ahead
    exact next other there ▸ opens_text strings other
  · intro ended
    refine last (List.getElem?_eq_none ?_)
    rw [length]
    exact List.getElem?_eq_none_iff.mp ended

end Line

end ScriptVm
