import ScriptVm.Proofs.Arithmetic
import ScriptVm.Proofs.Text.Numeral

/-!
# Casts through texts

The text of an integer is read as the same number by every integer kind that has it, and refused by
the others. Unlike a cast from kind to kind, a cast through a text thus never changes a number.
-/
namespace ScriptVm

/-- The text of a number is read by the kinds that have the number, as that number. -/
theorem Integer.read?_signedChars (target : IntegerKind) (number : Int) :
    read? target (Text.signedChars number) =
      if target.Holds number then some (ofInt target number) else none := by
  unfold Text.signedChars
  split
  case isTrue negative =>
    have magnitude : -(number.natAbs : Int) = number := by omega
    rw [read?, Text.readNat?_decimalChars]
    cases signed : target.signed with
    | true =>
      simp only [if_true, Option.pure_def, Option.map_some, Option.bind_eq_bind, Option.bind_some,
        magnitude]
    | false =>
      have missed : ¬target.Holds number := fun held => by
        have low := held.1
        simp only [IntegerKind.least, signed] at low
        exact absurd negative (Int.not_lt.mpr low)
      simp [missed]
  case isFalse positive =>
    have magnitude : (number.natAbs : Int) = number := by omega
    obtain ⟨digit, small, rest, spelled⟩ := Text.decimalChars_eq_cons number.natAbs
    obtain ⟨noPlus, noMinus⟩ := Text.digitChar_ne_sign small
    have reads := Text.readNat?_decimalChars number.natAbs
    rw [spelled] at reads ⊢
    simp [read?, noPlus, noMinus, reads, magnitude]

namespace Value

variable {source target : IntegerKind} {front back : String}

/-- A text between blanks is trimmed to its characters when none of them is blank. -/
theorem trimChars_between {characters : List Char}
    (before : ∀ character ∈ front.toList, Text.isBlank character)
    (after : ∀ character ∈ back.toList, Text.isBlank character)
    (visible : ∀ character ∈ characters, Text.isBlank character = false) :
    Text.trimChars (front ++ String.ofList characters ++ back).toList = characters := by
  rw [String.toList_append, String.toList_append, String.toList_ofList]
  exact Text.trimChars_padded before after visible

/-- The text of a number between blanks is cast to the kinds that have the number, as that
number, and not to the others. -/
theorem convert_signed (target : IntegerKind) (number : Int)
    (before : ∀ character ∈ front.toList, Text.isBlank character)
    (after : ∀ character ∈ back.toList, Text.isBlank character) :
    (Value.string (front ++ Text.signed number ++ back)).convert (.integer target) =
      if target.Holds number then .ok (.integer target (Integer.ofInt target number))
      else .error (.unreadable (front ++ Text.signed number ++ back) (.integer target)) := by
  have visible : ∀ character ∈ Text.signedChars number, Text.isBlank character = false :=
    fun _ => Text.isBlank_of_mem_signedChars
  have trimmed := trimChars_between before after visible
  show Value.integer target <$> (Scalar.string _).toInteger target = _
  rw [Scalar.toInteger, Text.signed, trimmed, Integer.read?_signedChars]
  by_cases held : target.Holds number
  · simp only [if_pos held]
    rfl
  · simp only [if_neg held]
    rfl

/-- The text of an integer is that of its number, which sixty-four bits have. -/
theorem convert_string (value : Integer source) :
    (Value.integer source value).convert .string = .ok (.string (Text.signed value.toInt)) := by
  have wide : IntegerKind.Holds ⟨source.signed, .w64⟩ value.toInt :=
    IntegerKind.Holds.widened value.holds_toInt
  have kept := Integer.toInt_ofInt_eq_iff.mpr wide
  exact congrArg (fun number => Except.ok (Value.string (Text.signed number))) kept

/-- The text of a truth value between blanks is cast to the truth value. -/
theorem convert_boolText (truth : Bool)
    (before : ∀ character ∈ front.toList, Text.isBlank character)
    (after : ∀ character ∈ back.toList, Text.isBlank character) :
    (Value.string (front ++ boolText truth ++ back)).convert .bool = .ok (.bool truth) := by
  have nowhere : (boolText truth).toList.any Text.isBlank = false := by cases truth <;> decide
  have visible : ∀ character ∈ (boolText truth).toList, Text.isBlank character = false :=
    fun character among => Bool.eq_false_iff.mpr (List.any_eq_false.mp nowhere character among)
  have trimmed := trimChars_between before after visible
  rw [String.ofList_toList] at trimmed
  show Value.bool <$> (Scalar.string _).toBool = _
  rw [Scalar.toBool, trimmed]
  cases truth <;> rfl

/-- Casts through texts are exact. The text of an integer is the canonical decimal one; whatever
blanks are put around it, a kind that has the number casts it to that number, any other kind refuses
it as a type error, and the kind it came from gives the integer again. A cast without a text gives
some integer in either case, and the same number only to a kind that has it. The text of a truth
value is cast to the truth value. -/
theorem exact_through_text (source target : IntegerKind) (value : Integer source) (truth : Bool)
    (front back : String) (before : ∀ character ∈ front.toList, Text.isBlank character)
    (after : ∀ character ∈ back.toList, Text.isBlank character) :
    (∃ text, (Value.integer source value).convert .string = .ok (.string text) ∧
      text = toString value.toInt ∧
      (if target.Holds value.toInt then
          ∃ result, (Value.string (front ++ text ++ back)).convert (.integer target) =
              .ok (.integer target result) ∧ result.toInt = value.toInt
        else ∃ fault, (Value.string (front ++ text ++ back)).convert (.integer target) =
            .error fault ∧ fault.exception = .type) ∧
      (Value.string (front ++ text ++ back)).convert (.integer source) =
        .ok (.integer source value)) ∧
    (∃ result, (Value.integer source value).convert (.integer target) =
        .ok (.integer target result) ∧
      (result.toInt = value.toInt ↔ target.Holds value.toInt)) ∧
    ∃ text, (Value.bool truth).convert .string = .ok (.string text) ∧
      (Value.string (front ++ text ++ back)).convert .bool = .ok (.bool truth) := by
  refine ⟨⟨_, convert_string value, Text.signed_eq _, ?_, ?_⟩,
    ⟨_, convert_integer target value, Integer.toInt_ofInt_eq_iff⟩,
    _, rfl, convert_boolText truth before after⟩
  · rw [convert_signed target value.toInt before after]
    split
    case isTrue held => exact ⟨_, rfl, Integer.toInt_ofInt_eq_iff.mpr held⟩
    case isFalse => exact ⟨_, rfl, rfl⟩
  · rw [convert_signed source value.toInt before after, if_pos value.holds_toInt,
      Integer.ofInt_toInt]

/-- The least integer of sixty-four bits, and truth, with a tabulator before and a line feed and
an em space after their texts; eight unsigned bits refuse the number. -/
theorem exact_through_text_at_limits :
    (∃ text, (Value.integer ⟨true, .w64⟩ (.ofInt _ (-9223372036854775808))).convert .string =
        .ok (.string text) ∧
      (∃ fault, (Value.string ("\t" ++ text ++ "\n\u2003")).convert (.integer ⟨false, .w8⟩) =
        .error fault ∧ fault.exception = .type) ∧
      (Value.string ("\t" ++ text ++ "\n\u2003")).convert (.integer ⟨true, .w64⟩) =
        .ok (.integer ⟨true, .w64⟩ (.ofInt _ (-9223372036854775808)))) ∧
    ∃ text, (Value.bool true).convert .string = .ok (.string text) ∧
      (Value.string ("\t" ++ text ++ "\n\u2003")).convert .bool = .ok (.bool true) := by
  obtain ⟨⟨text, written, _, reads, again⟩, _, truth⟩ := exact_through_text ⟨true, .w64⟩
    ⟨false, .w8⟩ (.ofInt _ (-9223372036854775808)) true "\t" "\n\u2003"
    (List.all_eq_true.mp (by decide)) (List.all_eq_true.mp (by decide))
  rw [if_neg (by decide)] at reads
  exact ⟨⟨text, written, reads, again⟩, truth⟩

end Value

end ScriptVm
