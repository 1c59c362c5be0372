import Mathlib.Data.Int.ModEq
import ScriptVm.Number.Integer

/-!
# Integers as residues

A kind of integer has exactly one number in each residue class of the power of two of its width.
The integer made from a number is therefore the only one of its kind that is congruent to it, and
no kind tells apart two numbers that a wider one takes to be congruent.
-/
namespace ScriptVm

namespace IntegerKind

variable {kind source target : IntegerKind} {left right : Int}

/-- The power of two of a kind's width, modulo which its arithmetic is exact. -/
def modulus (kind : IntegerKind) : Int := 2 ^ kind.bits

/-- A kind has at least one bit. -/
theorem bits_pos (kind : IntegerKind) : 0 < kind.bits := by
  have positive (width : Width) : 0 < width.bits := by cases width <;> decide
  exact positive kind.width

/-- A modulus is positive. -/
theorem modulus_pos (kind : IntegerKind) : 0 < kind.modulus :=
  Int.pow_pos (by decide)

/-- Half of a modulus is the power of two of the width without one bit. -/
theorem modulus_eq_two_mul (kind : IntegerKind) : kind.modulus = 2 * 2 ^ (kind.bits - 1) := by
  obtain ⟨rest, same⟩ := Nat.exists_eq_succ_of_ne_zero kind.bits_pos.ne'
  rw [modulus, same, Nat.succ_sub_one, pow_succ, mul_comm]

/-- A kind has as many numbers as its modulus counts, all next to each other. -/
theorem greatest_eq (kind : IntegerKind) : kind.greatest = kind.least + kind.modulus - 1 := by
  have halves := kind.modulus_eq_two_mul
  unfold greatest least
  split
  · simp only [Nat.pow_eq, Nat.cast_pow, Nat.cast_ofNat]
    omega
  · simp [modulus]

/-- The modulus of a kind divides those of the kinds that are at least as wide. -/
theorem modulus_dvd (narrow : target.bits ≤ source.bits) : target.modulus ∣ source.modulus :=
  pow_dvd_pow 2 narrow

/-- Numbers that are congruent for a kind are congruent for the kinds that are no wider. -/
theorem modEq_of_bits_le (narrow : target.bits ≤ source.bits)
    (congruent : left ≡ right [ZMOD source.modulus]) : left ≡ right [ZMOD target.modulus] :=
  congruent.of_dvd (modulus_dvd narrow)

/-- Two numbers of a kind that are congruent are equal. -/
theorem eq_of_modEq (leftHeld : kind.Holds left) (rightHeld : kind.Holds right)
    (congruent : left ≡ right [ZMOD kind.modulus]) : left = right := by
  have range := kind.greatest_eq
  obtain ⟨leftLow, leftHigh⟩ := leftHeld
  obtain ⟨rightLow, rightHigh⟩ := rightHeld
  have apart : |right - left| < kind.modulus := abs_lt.mpr ⟨by omega, by omega⟩
  have none : right - left = 0 := Int.eq_zero_of_abs_lt_dvd congruent.dvd apart
  omega

/-- Sixty-four bits have the numbers of all kinds of the same sign. -/
theorem Holds.widened (held : kind.Holds left) : Holds ⟨kind.signed, .w64⟩ left := by
  obtain ⟨signed, width⟩ := kind
  cases signed <;> cases width <;>
    simp [Holds, least, greatest, bits, Width.bits, Width.bytes] at held ⊢ <;> omega

end IntegerKind

namespace Integer

variable {kind source target : IntegerKind} {left right value : Integer kind} {number : Int}

/-- Integers of a kind that stand for one number are the same. -/
theorem eq_of_toInt_eq (same : left.toInt = right.toInt) : left = right := by
  obtain ⟨left⟩ := left
  obtain ⟨right⟩ := right
  congr 1
  unfold toInt at same
  split at same
  · exact BitVec.eq_of_toInt_eq same
  · exact BitVec.toNat_inj.mp (Int.ofNat.inj same)

/-- The number that an integer stands for is in the range of its kind. -/
theorem holds_toInt (value : Integer kind) : kind.Holds value.toInt := by
  unfold toInt IntegerKind.Holds IntegerKind.least IntegerKind.greatest
  split
  · have low := value.bits.le_toInt
    have high := value.bits.toInt_lt
    simp only [Nat.pow_eq, Nat.cast_pow, Nat.cast_ofNat]
    omega
  · have high := value.bits.isLt
    have cast : ((2 ^ kind.bits : Nat) : Int) = 2 ^ kind.bits := by push_cast; rfl
    simp only [Nat.pow_eq]
    omega

/-- The integer made from a number is congruent to it. -/
theorem toInt_ofInt_modEq (kind : IntegerKind) (number : Int) :
    (ofInt kind number).toInt ≡ number [ZMOD kind.modulus] := by
  have cast : ((2 ^ kind.bits : Nat) : Int) = kind.modulus := by simp [IntegerKind.modulus]
  unfold toInt ofInt Int.ModEq
  split
  · rw [BitVec.toInt_ofInt, ← cast, Int.bmod_emod]
  · rw [BitVec.toNat_ofInt, cast,
      Int.toNat_of_nonneg (Int.emod_nonneg _ kind.modulus_pos.ne'), Int.emod_emod]

/-- An integer stands for a number modulo the power of two of its kind's width: it is the integer of
that kind whose number is congruent to it. -/
structure Represents (value : Integer kind) (number : Int) : Prop where
  /-- Its number is congruent to the number. -/
  congruent : value.toInt ≡ number [ZMOD kind.modulus]
  /-- No other integer of the kind has a congruent number. -/
  only : ∀ other : Integer kind, other.toInt ≡ number [ZMOD kind.modulus] → other = value

/-- Only one integer of a kind is congruent to a number. -/
theorem represents_of_modEq (congruent : value.toInt ≡ number [ZMOD kind.modulus]) :
    value.Represents number where
  congruent := congruent
  only other also := eq_of_toInt_eq
    (IntegerKind.eq_of_modEq other.holds_toInt value.holds_toInt (also.trans congruent.symm))

/-- The integer made from a number stands for it. -/
theorem represents_ofInt (kind : IntegerKind) (number : Int) :
    (ofInt kind number).Represents number :=
  represents_of_modEq (toInt_ofInt_modEq kind number)

/-- An integer stands for a number exactly when it is the one made from it. -/
theorem represents_iff : value.Represents number ↔ value = ofInt kind number := by
  refine ⟨fun represents => ?_, fun made => made ▸ represents_ofInt kind number⟩
  exact (represents_ofInt kind number).only value represents.congruent

/-- Numbers that are congruent make one integer. -/
theorem ofInt_eq_ofInt {first second : Int} (congruent : first ≡ second [ZMOD kind.modulus]) :
    ofInt kind first = ofInt kind second :=
  represents_iff.mp (represents_of_modEq ((toInt_ofInt_modEq kind first).trans congruent))

/-- An integer is made from its number. -/
@[simp]
theorem ofInt_toInt (value : Integer kind) : ofInt kind value.toInt = value :=
  (represents_iff.mp (represents_of_modEq (Int.ModEq.refl _))).symm

/-- The integer made from a number stands for the number itself exactly when the kind has it. -/
theorem toInt_ofInt_eq_iff : (ofInt kind number).toInt = number ↔ kind.Holds number := by
  refine ⟨fun kept => kept ▸ (ofInt kind number).holds_toInt, fun held => ?_⟩
  exact IntegerKind.eq_of_modEq (holds_toInt _) held (toInt_ofInt_modEq kind number)

/-- Making an integer of a kind first does not matter to a kind that is no wider. -/
theorem ofInt_toInt_ofInt (narrow : target.bits ≤ source.bits) (number : Int) :
    ofInt target (ofInt source number).toInt = ofInt target number :=
  ofInt_eq_ofInt (IntegerKind.modEq_of_bits_le narrow (toInt_ofInt_modEq source number))

end Integer

end ScriptVm
