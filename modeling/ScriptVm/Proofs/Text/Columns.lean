import Mathlib.Data.String.Defs
import ScriptVm.Number.Decimal
import ScriptVm.Proofs.Text.Numeral

/-!
# Columns of texts

Offsets are decimal numerals of at least six digits, so a text that begins with one tells it. A text
whose last character is visible has nothing to trim at its end.
-/
namespace ScriptVm.Text

variable {text : String}

/-- The decimal text of a number is its numeral. -/
theorem decimal_eq (value : Nat) : decimal value = toString value :=
  congrArg String.ofList (decimalChars_eq value)

/-- A number padded with zeros. -/
theorem ofList_zeroPadded (width value : Nat) :
    String.ofList (zeroPadded width (decimalChars value)) = (toString value).leftpad width '0' := by
  rw [← decimal_eq]
  show _ = String.ofList (List.leftpad width '0' (decimal value).toList)
  simp [List.leftpad, zeroPadded, decimal]

/-- An offset has at least six digits. -/
theorem offset_eq (value : Nat) : offset value = (toString value).leftpad 6 '0' :=
  ofList_zeroPadded 6 value

/-- The number before an offset has a sign if it is negative, and one digit less then. -/
theorem signedOffset_eq (value : Int) :
    signedOffset value =
      if value < 0 then "-" ++ (toString value.natAbs).leftpad 5 '0'
      else (toString value.natAbs).leftpad 6 '0' := by
  unfold signedOffset
  rw [← ofList_zeroPadded 5, offset_eq]
  split
  · rw [← String.toList_inj]
    simp
  · rfl

/-- A distance has a sign in any case. -/
theorem explicitlySigned_eq (value : Int) :
    explicitlySigned value = (if value < 0 then "" else "+") ++ toString value := by
  unfold explicitlySigned
  rw [signed_eq]
  split <;> simp

/-- A text begins with an offset, which has at least six digits, and a space. -/
def Opens (offset : Nat) (text : String) : Prop :=
  ∃ rest, text = (toString offset).leftpad 6 '0' ++ " " ++ rest

/-- Zeros before a number do not change it. -/
theorem readDigits_zeroPadded (width value : Nat) :
    readDigits 0 (zeroPadded width (decimalChars value)) = some value := by
  have zeros : ∀ count, readDigits 0 (List.replicate count '0') = some 0 := by
    intro count
    induction count with
    | zero => rfl
    | succ count hypothesis => exact hypothesis
  rw [zeroPadded, readDigits_append, zeros, Option.bind_eq_bind, Option.bind_some,
    readDigits_decimalChars]

/-- A text begins with one offset only. -/
theorem Opens.unique {offset other : Nat} (first : Opens offset text)
    (second : Opens other text) : offset = other := by
  have front : ∀ {value}, Opens value text →
      text.toList.takeWhile (· ≠ ' ') = zeroPadded 6 (decimalChars value) := by
    rintro value ⟨rest, rfl⟩
    have digits : ∀ character ∈ zeroPadded 6 (decimalChars value), character ≠ ' ' := by
      intro character among
      rcases List.mem_append.mp among with zero | digit
      · rw [List.eq_of_mem_replicate zero]
        decide
      · obtain ⟨digit, small, rfl⟩ := digit_of_mem_decimalChars digit
        rintro same
        have visible := isBlank_digitChar small
        rw [same] at visible
        cases visible
    rw [← ofList_zeroPadded, String.toList_append, String.toList_append, String.toList_ofList,
      List.append_assoc, List.takeWhile_append_of_pos (by simpa using digits)]
    simp
  have same := congrArg (readDigits 0) ((front first).symm.trans (front second))
  rw [readDigits_zeroPadded, readDigits_zeroPadded] at same
  exact Option.some.inj same

/-- The last character of a text is visible. -/
def Tight (text : String) : Prop :=
  ∃ front last, text.toList = front ++ [last] ∧ isBlank last = false

/-- A text with a visible last character is tight. -/
theorem tight_of_getLast? (visible : text.toList.getLast?.any (!isBlank ·) = true) :
    Tight text := by
  obtain ⟨last, found, shown⟩ := (Option.any_eq_true _ _).mp visible
  obtain ⟨front, shape⟩ := List.getLast?_eq_some_iff.mp found
  exact ⟨front, last, shape, by simpa using shown⟩

/-- A text is tight when its end is. -/
theorem Tight.append (front : String) (tight : Tight text) : Tight (front ++ text) := by
  obtain ⟨before, last, shape, visible⟩ := tight
  exact ⟨front.toList ++ before, last, by rw [String.toList_append, shape, List.append_assoc],
    visible⟩

/-- A text of visible characters is tight. -/
theorem tight_of_visible {characters : List Char} (some : characters ≠ [])
    (visible : ∀ character ∈ characters, isBlank character = false) :
    Tight (String.ofList characters) := by
  refine ⟨characters.dropLast, characters.getLast some, ?_, visible _ (List.getLast_mem some)⟩
  rw [String.toList_ofList, List.dropLast_concat_getLast]

/-- Blanks behind a tight text are trimmed, and nothing else. -/
theorem Tight.trimEnd_append (tight : Tight text) {blanks : List Char}
    (blank : ∀ character ∈ blanks, isBlank character) :
    trimEnd (text ++ String.ofList blanks) = text := by
  obtain ⟨front, last, shape, visible⟩ := tight
  rw [← String.toList_inj, trimEnd, trimEndChars, String.toList_ofList, String.toList_append,
    String.toList_ofList, List.reverse_append, List.dropWhile_append_of_pos (by simpa using blank),
    shape]
  simp [visible]

/-- Nothing is trimmed from a tight text. -/
theorem Tight.trimEnd (tight : Tight text) : trimEnd text = text := by
  simpa using tight.trimEnd_append (List.forall_mem_nil (isBlank · = true))

/-- The text of a number is tight. -/
theorem tight_signed (value : Int) : Tight (signed value) := by
  refine tight_of_visible ?_ fun _ => isBlank_of_mem_signedChars
  unfold signedChars
  obtain ⟨_, _, _, spelled⟩ := decimalChars_eq_cons value.natAbs
  split <;> simp [spelled]

/-- The numeral of a number is tight. -/
theorem tight_decimal (value : Nat) : Tight (decimal value) := tight_signed value

/-- The text of an offset is tight. -/
theorem tight_zeroPadded (width value : Nat) :
    Tight (String.ofList (zeroPadded width (decimalChars value))) := by
  rw [zeroPadded, String.ofList_append]
  exact (tight_decimal value).append _

/-- The text of a target is tight. -/
theorem tight_signedOffset (value : Int) : Tight (signedOffset value) := by
  unfold signedOffset
  split
  · rw [← List.singleton_append, String.ofList_append]
    exact (tight_zeroPadded 5 _).append _
  · exact tight_zeroPadded 6 _

end Text

open Text

/-- The text of a decimal has visible characters only, and some. -/
theorem Decimal.positional_visible (number : Decimal) :
    number.positional ≠ [] ∧ ∀ character ∈ number.positional, isBlank character = false := by
  have digits : ∀ character ∈ decimalChars number.digits, isBlank character = false := by
    intro character among
    obtain ⟨digit, small, rfl⟩ := digit_of_mem_decimalChars among
    exact isBlank_digitChar small
  have zeros : ∀ {count character}, character ∈ List.replicate count '0' →
      isBlank character = false := by
    intro count character among
    rw [List.eq_of_mem_replicate among]
    decide
  unfold positional
  dsimp only
  split
  · obtain ⟨_, _, _, spelled⟩ := decimalChars_eq_cons number.digits
    refine ⟨by simp [spelled], fun character among => ?_⟩
    exact (List.mem_append.mp among).elim (digits character) zeros
  · refine ⟨by simp, fun character among => ?_⟩
    have padded : ∀ {width}, character ∈ zeroPadded width (decimalChars number.digits) →
        isBlank character = false :=
      fun among => (List.mem_append.mp among).elim zeros (digits character)
    rcases List.mem_append.mp among with before | after
    · exact padded (List.mem_of_mem_take before)
    · rcases List.mem_cons.mp after with rfl | after
      · decide
      · exact padded (List.mem_of_mem_drop after)

/-- The text of a floating-point number is tight. -/
theorem Binary.tight_text {kind : BinaryKind} (number : Binary kind) : Tight number.text := by
  have signed : ∀ {characters : List Char}, characters ≠ [] →
      (∀ character ∈ characters, isBlank character = false) →
      Tight (number.withSign characters) := by
    intro characters some visible
    unfold withSign
    refine tight_of_visible ?_ fun character among => ?_
    · split <;> simp [some]
    · split at among
      · rcases List.mem_cons.mp among with rfl | among
        · decide
        · exact visible character among
      · exact visible character among
  have plain : ∀ {characters : List Char}, characters.all (!isBlank ·) = true →
      ∀ character ∈ characters, isBlank character = false := by
    intro characters all character among
    simpa using List.all_eq_true.mp all character among
  unfold text
  split
  · exact tight_of_getLast? (by decide)
  · exact signed (by decide) (plain rfl)
  · split
    · exact signed (by decide) (plain rfl)
    · exact signed (Decimal.positional_visible _).1 (Decimal.positional_visible _).2

end ScriptVm
