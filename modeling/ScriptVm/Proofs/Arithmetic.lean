import ScriptVm.Arithmetic
import ScriptVm.Conversion
import ScriptVm.Proofs.Number.Integer

/-!
# Arithmetic and casts of integers

Operators compute the exact result and casts keep the number, both modulo the power of two of the
width of the resulting kind. A cast to a kind that is no narrower can therefore be undone, and a
cast to a kind that is no wider commutes with every operator but division.
-/
namespace ScriptVm

namespace Operator

/-- The exact result of an operator on integers; a quotient is cut toward zero. -/
def exactly (operator : Operator) (left right : Int) : Int :=
  match operator with
  | .add => left + right
  | .sub => left - right
  | .mul => left * right
  | .div => left.tdiv right

variable {operator : Operator} {kind : IntegerKind}

/-- An operator on integers computes the exact result, unless it divides by zero. -/
theorem onInts_eq (operator : Operator) (left right : Int) :
    operator.onInts left right =
      if operator = .div ∧ right = 0 then .error .divisionByZero
      else .ok (operator.exactly left right) := by
  cases operator with
  | div => simp [onInts, exactly]
  | _ => simp [onInts, exactly]

/-- An operator on integers of one kind reduces the exact result to the width of the kind. -/
theorem apply_integer (operator : Operator) (left right : Integer kind) :
    operator.apply (.integer kind left) (.integer kind right) =
      if operator = .div ∧ right.toInt = 0 then .error .divisionByZero
      else .ok (.integer kind (Integer.ofInt kind (operator.exactly left.toInt right.toInt))) := by
  simp only [apply, if_true, onInts_eq]
  split <;> rfl

/-- The exact result of an operator that is no division respects congruence. -/
theorem exactly_modEq {modulus first second other another : Int} (whole : operator ≠ .div)
    (lefts : first ≡ second [ZMOD modulus]) (rights : other ≡ another [ZMOD modulus]) :
    operator.exactly first other ≡ operator.exactly second another [ZMOD modulus] := by
  cases operator with
  | add => exact lefts.add rights
  | sub => exact lefts.sub rights
  | mul => exact lefts.mul rights
  | div => exact absurd rfl whole

end Operator

namespace Value

variable {source target : IntegerKind}

/-- A cast between integer kinds makes the integer of the new kind from the number, which is widened
to sixty-four bits first. -/
theorem convert_integer (target : IntegerKind) (value : Integer source) :
    (Value.integer source value).convert (.integer target) =
      .ok (.integer target (Integer.ofInt target value.toInt)) := by
  have widest : target.bits ≤ IntegerKind.bits ⟨source.signed, .w64⟩ := by
    have bounded (width : Width) : width.bits ≤ Width.bits .w64 := by cases width <;> decide
    exact bounded target.width
  rw [← Integer.ofInt_toInt_ofInt widest value.toInt]
  rfl

/-- A cast to a kind that is no narrower, and back, gives the integer again. -/
theorem convert_convert (wide : source.bits ≤ target.bits) (value : Integer source) :
    ((Value.integer source value).convert (.integer target) >>= (·.convert (.integer source))) =
      .ok (.integer source value) := by
  rw [convert_integer]
  change (Value.integer target (Integer.ofInt target value.toInt)).convert (.integer source) = _
  rw [convert_integer, Integer.ofInt_toInt_ofInt wide, Integer.ofInt_toInt]

end Value

namespace Operator

variable {source target : IntegerKind}

/-- A cast to a kind that is no wider commutes with every operator but division. -/
theorem convert_apply {operator : Operator} (narrow : target.bits ≤ source.bits)
    (whole : operator ≠ .div) (left right : Integer source) :
    (operator.apply (.integer source left) (.integer source right) >>=
        (·.convert (.integer target))) =
      (do
        let first ← (Value.integer source left).convert (.integer target)
        let second ← (Value.integer source right).convert (.integer target)
        operator.apply first second) := by
  have lefts := Integer.toInt_ofInt_modEq target left.toInt
  have rights := Integer.toInt_ofInt_modEq target right.toInt
  calc
    _ = (Value.integer source (Integer.ofInt source
          (operator.exactly left.toInt right.toInt))).convert (.integer target) := by
      rw [apply_integer, if_neg fun divided => whole divided.1]
      rfl
    _ = .ok (.integer target (Integer.ofInt target (operator.exactly left.toInt right.toInt))) := by
      rw [Value.convert_integer, Integer.ofInt_toInt_ofInt narrow]
    _ = .ok (.integer target (Integer.ofInt target (operator.exactly
          (Integer.ofInt target left.toInt).toInt (Integer.ofInt target right.toInt).toInt))) := by
      rw [Integer.ofInt_eq_ofInt (exactly_modEq whole lefts rights)]
    _ = operator.apply (.integer target (Integer.ofInt target left.toInt))
          (.integer target (Integer.ofInt target right.toInt)) := by
      rw [apply_integer, if_neg fun divided => whole divided.1]
    _ = _ := by
      rw [Value.convert_integer, Value.convert_integer]
      rfl

/-- The least integer of a kind divided by minus one is itself, as the quotient is one above the
greatest integer and so congruent to the least one. -/
theorem div_least {left right : Integer source} (least : left.toInt = source.least)
    (negative : right.toInt = -1) :
    Operator.div.apply (.integer source left) (.integer source right) =
      .ok (.integer source left) := by
  have signed : source.signed := by
    by_contra unsigned
    have low := right.holds_toInt.1
    simp [IntegerKind.least, unsigned, negative] at low
  have congruent : -left.toInt ≡ left.toInt [ZMOD source.modulus] := by
    have halves := source.modulus_eq_two_mul
    have low : left.toInt = -2 ^ (source.bits - 1) := by
      simpa [IntegerKind.least, signed] using least
    exact Int.modEq_iff_dvd.mpr ⟨-1, by omega⟩
  rw [apply_integer, if_neg (by simp [negative]), exactly, negative, Int.tdiv_neg, Int.tdiv_one,
    Integer.ofInt_eq_ofInt congruent, Integer.ofInt_toInt]

/-- Integer arithmetic and casts are exact modulo the power of two of the width of their result.
Only a division by zero faults, the least integer divided by minus one stays what it is, a cast to a
kind that is no narrower can be undone, and a cast to one that is no wider commutes with addition,
subtraction and multiplication. -/
theorem exact_modulo_width (source target : IntegerKind) (operator : Operator)
    (left right : Integer source) :
    (if operator = .div ∧ right.toInt = 0 then
        ∃ fault, operator.apply (.integer source left) (.integer source right) = .error fault ∧
          fault.exception = .divideByZero
      else ∃ result,
        operator.apply (.integer source left) (.integer source right) =
          .ok (.integer source result) ∧
        result.Represents (operator.exactly left.toInt right.toInt)) ∧
    (left.toInt = source.least → right.toInt = -1 →
      Operator.div.apply (.integer source left) (.integer source right) =
        .ok (.integer source left)) ∧
    (∃ result,
      (Value.integer source left).convert (.integer target) = .ok (.integer target result) ∧
      result.Represents left.toInt) ∧
    (source.bits ≤ target.bits →
      ((Value.integer source left).convert (.integer target) >>= (·.convert (.integer source))) =
        .ok (.integer source left)) ∧
    (target.bits ≤ source.bits → operator ≠ .div →
      (operator.apply (.integer source left) (.integer source right) >>=
          (·.convert (.integer target))) =
        (do
          let first ← (Value.integer source left).convert (.integer target)
          let second ← (Value.integer source right).convert (.integer target)
          operator.apply first second)) := by
  refine ⟨?outcome, div_least, ⟨_, Value.convert_integer target left, Integer.represents_ofInt _ _⟩,
    fun wide => Value.convert_convert wide left,
    fun narrow whole => convert_apply narrow whole left right⟩
  case outcome =>
    rw [apply_integer]
    split
    · exact ⟨_, rfl, rfl⟩
    · exact ⟨_, rfl, Integer.represents_ofInt _ _⟩

/-- The eight-bit signed integers -128 and -1 under division and a cast to sixty-four unsigned
bits and back, and 200 added to 100 in sixteen bits and in eight. -/
theorem exact_modulo_width_at_limits :
    Operator.div.apply (.integer ⟨true, .w8⟩ (.ofInt _ (-128)))
        (.integer ⟨true, .w8⟩ (.ofInt _ (-1))) =
      .ok (.integer ⟨true, .w8⟩ (.ofInt _ (-128))) ∧
    ((Value.integer ⟨true, .w8⟩ (.ofInt _ (-128))).convert (.integer ⟨false, .w64⟩) >>=
        (·.convert (.integer ⟨true, .w8⟩))) =
      .ok (.integer ⟨true, .w8⟩ (.ofInt _ (-128))) ∧
    (Operator.add.apply (.integer ⟨false, .w16⟩ (.ofInt _ 200))
        (.integer ⟨false, .w16⟩ (.ofInt _ 100)) >>= (·.convert (.integer ⟨true, .w8⟩))) =
      (do
        let first ← (Value.integer ⟨false, .w16⟩ (.ofInt _ 200)).convert (.integer ⟨true, .w8⟩)
        let second ← (Value.integer ⟨false, .w16⟩ (.ofInt _ 100)).convert (.integer ⟨true, .w8⟩)
        Operator.add.apply first second) :=
  ⟨(exact_modulo_width _ ⟨false, .w64⟩ .div _ _).2.1 (by decide) (by decide),
    (exact_modulo_width _ ⟨false, .w64⟩ .div _ (.ofInt _ (-1))).2.2.2.1 (by decide),
    (exact_modulo_width _ ⟨true, .w8⟩ .add _ _).2.2.2.2 (by decide) (by decide)⟩

end Operator

end ScriptVm
