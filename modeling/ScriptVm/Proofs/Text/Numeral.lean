import Mathlib.Data.List.TakeWhile
import ScriptVm.Text.Blank
import ScriptVm.Text.Numeral

/-!
# Numerals that are read back

The decimal text of a number is the canonical one, and reading it gives the number again. Blanks
around a text without blanks are what trimming takes away.
-/
namespace ScriptVm.Text

variable {digit value : Nat} {character : Char}

/-- A digit is read as its value. -/
theorem digitValue?_digitChar (small : digit < 10) :
    digitValue? (digitChar digit) = some digit := by
  decide +revert

/-- A digit is no blank. -/
theorem isBlank_digitChar (small : digit < 10) : isBlank (digitChar digit) = false := by
  decide +revert

/-- A digit is no sign. -/
theorem digitChar_ne_sign (small : digit < 10) :
    digitChar digit ≠ '+' ∧ digitChar digit ≠ '-' := by
  decide +revert

/-- Digits are written as the library writes them. -/
theorem digitChar_eq (small : digit < 10) : digitChar digit = Nat.digitChar digit := by
  decide +revert

/-- A decimal text has digits only. -/
theorem digit_of_mem_decimalChars (among : character ∈ decimalChars value) :
    ∃ digit < 10, character = digitChar digit := by
  induction value using decimalChars.induct with
  | case1 value small =>
    rw [decimalChars, if_pos small, List.mem_singleton] at among
    exact ⟨value, small, among⟩
  | case2 value large ih =>
    rw [decimalChars, if_neg large, List.mem_append, List.mem_singleton] at among
    rcases among with before | last
    · exact ih before
    · exact ⟨value % 10, Nat.mod_lt _ (by decide), last⟩

/-- A decimal text starts with a digit. -/
theorem decimalChars_eq_cons (value : Nat) :
    ∃ digit < 10, ∃ rest, decimalChars value = digitChar digit :: rest := by
  cases spelled : decimalChars value with
  | nil =>
    rw [decimalChars] at spelled
    split at spelled <;> simp at spelled
  | cons first rest =>
    have among : first ∈ decimalChars value := by rw [spelled]; exact List.mem_cons_self
    obtain ⟨digit, small, rfl⟩ := digit_of_mem_decimalChars among
    exact ⟨digit, small, rest, rfl⟩

/-- The digits of a number are those that the library finds. -/
theorem decimalChars_eq (value : Nat) : decimalChars value = Nat.toDigits 10 value := by
  induction value using decimalChars.induct with
  | case1 value small =>
    rw [decimalChars, if_pos small, Nat.toDigits_of_lt_base small, digitChar_eq small]
  | case2 value large ih =>
    rw [decimalChars, if_neg large, ih, digitChar_eq (Nat.mod_lt _ (by decide)),
      ← Nat.toDigits_of_base_le (by decide) (Nat.not_lt.mp large)]

/-- The text of an integer is the library's text of it. -/
theorem signed_eq (value : Int) : signed value = toString value := by
  change _ = value.repr
  unfold signed signedChars
  cases value with
  | ofNat number =>
    rw [if_neg (by simp), decimalChars_eq]
    rfl
  | negSucc number =>
    rw [if_pos (Int.negSucc_lt_zero number), decimalChars_eq]
    exact String.ofList_cons

/-- Digits are read one after the other. -/
theorem readDigits_append (front back : List Char) (value : Nat) :
    readDigits value (front ++ back) = readDigits value front >>= (readDigits · back) := by
  induction front generalizing value with
  | nil => rfl
  | cons first rest ih =>
    simp only [List.cons_append, readDigits, ih, bind_assoc]

/-- Reading the digits of a number gives the number. -/
theorem readDigits_decimalChars (value : Nat) :
    readDigits 0 (decimalChars value) = some value := by
  induction value using decimalChars.induct with
  | case1 value small =>
    rw [decimalChars, if_pos small]
    simp [readDigits, digitValue?_digitChar small]
  | case2 value large ih =>
    have small : value % 10 < 10 := Nat.mod_lt _ (by decide)
    rw [decimalChars, if_neg large, readDigits_append, ih]
    simp [readDigits, digitValue?_digitChar small, Nat.div_add_mod']

/-- The decimal text of a number is read as the number. -/
theorem readNat?_decimalChars (value : Nat) : readNat? (decimalChars value) = some value := by
  obtain ⟨digit, _, rest, spelled⟩ := decimalChars_eq_cons value
  have reads := readDigits_decimalChars value
  rw [spelled] at reads ⊢
  exact reads

/-- No character of an integer's text is blank. -/
theorem isBlank_of_mem_signedChars {value : Int} (among : character ∈ signedChars value) :
    isBlank character = false := by
  have ofDigits (among : character ∈ decimalChars value.natAbs) : isBlank character = false := by
    obtain ⟨digit, small, rfl⟩ := digit_of_mem_decimalChars among
    exact isBlank_digitChar small
  unfold signedChars at among
  split at among
  · rcases List.mem_cons.mp among with rfl | among
    · decide
    · exact ofDigits among
  · exact ofDigits among

/-- Nothing is dropped from characters that are not blank. -/
theorem dropWhile_isBlank {characters : List Char}
    (visible : ∀ character ∈ characters, isBlank character = false) :
    characters.dropWhile isBlank = characters := by
  cases characters with
  | nil => rfl
  | cons first rest => exact List.dropWhile_cons_of_neg (by simp [visible first])

/-- Trimming takes away the blanks around characters that are not blank. -/
theorem trimChars_padded {front characters back : List Char}
    (before : ∀ character ∈ front, isBlank character)
    (after : ∀ character ∈ back, isBlank character)
    (visible : ∀ character ∈ characters, isBlank character = false) :
    trimChars (front ++ characters ++ back) = characters := by
  have started : (front ++ characters ++ back).dropWhile isBlank =
      if characters = [] then [] else characters ++ back := by
    rw [List.append_assoc, List.dropWhile_append_of_pos before, List.dropWhile_append,
      dropWhile_isBlank visible, List.dropWhile_eq_nil_iff.mpr after]
    simp
  rw [trimChars, trimEndChars, started]
  split
  case isTrue empty => simp [empty]
  case isFalse =>
    rw [List.reverse_append, List.dropWhile_append_of_pos (by simpa using after),
      dropWhile_isBlank (by simpa using visible), List.reverse_reverse]

end ScriptVm.Text
