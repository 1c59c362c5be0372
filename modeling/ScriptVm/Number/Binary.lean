import ScriptVm.Number.Integer

/-!
# Binary floating-point numbers

Numbers of the two binary interchange formats as bit patterns. A finite number is a sign and a
count of units, the unit being the least positive number of its format, so every sum, product and
quotient has an exact rational count of units, and each operation rounds that count once, to the
nearest number, a tie going to the even pattern.
-/
namespace ScriptVm

/-- The two floating-point formats. -/
inductive BinaryKind where
  | single
  | double
  deriving DecidableEq, Repr, Inhabited

namespace BinaryKind

/-- Stored bits of the fraction. -/
def fractionBits : BinaryKind → Nat
  | single => 23
  | double => 52

/-- Bits of the exponent field. -/
def exponentBits : BinaryKind → Nat
  | single => 8
  | double => 11

/-- Bytes of a pattern. -/
def bytes : BinaryKind → Nat
  | single => 4
  | double => 8

/-- Bits of a pattern. -/
def bits (kind : BinaryKind) : Nat := 8 * kind.bytes

/-- The number one is this power of two of units. -/
def scale : BinaryKind → Nat
  | single => 149
  | double => 1074

/-- The pattern of positive infinity; a greater magnitude is not a number. -/
def infinity (kind : BinaryKind) : Nat :=
  (Nat.pow 2 kind.exponentBits - 1) * Nat.pow 2 kind.fractionBits

/-- The units counted by a magnitude pattern, the leading bit being implicit above the lowest
exponent. -/
def units (kind : BinaryKind) (magnitude : Nat) : Nat :=
  let exponent := magnitude / Nat.pow 2 kind.fractionBits
  let fraction := magnitude % Nat.pow 2 kind.fractionBits
  if exponent = 0 then fraction
  else (Nat.pow 2 kind.fractionBits + fraction) * Nat.pow 2 (exponent - 1)

end BinaryKind

/-- The integer nearest to a quotient, a tie going to the even one. -/
def roundedQuotient (numerator denominator : Nat) : Nat :=
  let quotient := numerator / denominator
  let rest := 2 * (numerator % denominator)
  if denominator < rest ∨ (denominator = rest ∧ quotient % 2 = 1) then quotient + 1 else quotient

/-- The magnitude pattern nearest to a rational count of units, infinity beyond the greatest. -/
def BinaryKind.rounded (kind : BinaryKind) (numerator denominator : Nat) : Nat :=
  let shift := (numerator / denominator).log2 - kind.fractionBits
  min (shift * Nat.pow 2 kind.fractionBits +
      roundedQuotient numerator (denominator * Nat.pow 2 shift))
    kind.infinity

/-- A floating-point number, as its bit pattern. -/
structure Binary (kind : BinaryKind) where
  /-- Sign, exponent and fraction. -/
  bits : BitVec kind.bits
  deriving DecidableEq, Repr, Inhabited

namespace Binary

variable {kind : BinaryKind}

/-- What the magnitude of a pattern stands for. -/
inductive Magnitude where
  | nan
  | infinite
  | finite (units : Nat)
  deriving DecidableEq, Repr

/-- The sign bit is set. -/
def negative (number : Binary kind) : Bool :=
  Nat.pow 2 (kind.bits - 1) ≤ number.bits.toNat

/-- The pattern without its sign. -/
def pattern (number : Binary kind) : Nat :=
  number.bits.toNat % Nat.pow 2 (kind.bits - 1)

/-- The meaning of the pattern without its sign. -/
def magnitude (number : Binary kind) : Magnitude :=
  if number.pattern < kind.infinity then .finite (kind.units number.pattern)
  else if number.pattern = kind.infinity then .infinite
  else .nan

/-- The number with a sign and a magnitude pattern. -/
def ofPattern (kind : BinaryKind) (negative : Bool) (pattern : Nat) : Binary kind :=
  ⟨BitVec.ofNat kind.bits (if negative then Nat.pow 2 (kind.bits - 1) + pattern else pattern)⟩

/-- The quiet pattern that is not a number. -/
def nan (kind : BinaryKind) : Binary kind :=
  ofPattern kind false (kind.infinity + Nat.pow 2 (kind.fractionBits - 1))

/-- The infinity of a sign. -/
def infinite (kind : BinaryKind) (negative : Bool) : Binary kind :=
  ofPattern kind negative kind.infinity

/-- The zero of a sign. -/
def zero (kind : BinaryKind) (negative : Bool) : Binary kind :=
  ofPattern kind negative 0

/-- The number nearest to a rational count of units. -/
def ofUnits (kind : BinaryKind) (negative : Bool) (numerator denominator : Nat) : Binary kind :=
  ofPattern kind negative (kind.rounded numerator denominator)

/-- Not a number. -/
def isNan (number : Binary kind) : Bool := kind.infinity < number.pattern

/-- A zero of either sign. -/
def isZero (number : Binary kind) : Bool := number.pattern = 0

/-- Numeric equality: the two zeros are equal, and nothing equals what is not a number. -/
def equal (left right : Binary kind) : Bool :=
  !left.isNan && !right.isNan && (left.bits = right.bits || (left.isZero && right.isZero))

/-- The opposite number. -/
def negate (number : Binary kind) : Binary kind :=
  ofPattern kind (!number.negative) number.pattern

/-- A count of units with its sign. -/
def signedUnits (negative : Bool) (units : Nat) : Int :=
  if negative then -(units : Int) else units

/-- The rounded sum; an exact zero is negative only when both terms are. -/
def add (left right : Binary kind) : Binary kind :=
  match left.magnitude, right.magnitude with
  | .nan, _ | _, .nan => nan kind
  | .infinite, .infinite => if left.negative = right.negative then left else nan kind
  | .infinite, .finite _ => left
  | .finite _, .infinite => right
  | .finite first, .finite second =>
    let total := signedUnits left.negative first + signedUnits right.negative second
    if total = 0 then zero kind (left.negative && right.negative)
    else ofUnits kind (total < 0) total.natAbs 1

/-- The rounded difference. -/
def sub (left right : Binary kind) : Binary kind := left.add right.negate

/-- The rounded product. -/
def mul (left right : Binary kind) : Binary kind :=
  let sign := left.negative != right.negative
  match left.magnitude, right.magnitude with
  | .nan, _ | _, .nan => nan kind
  | .infinite, .infinite => infinite kind sign
  | .infinite, .finite units | .finite units, .infinite =>
    if units = 0 then nan kind else infinite kind sign
  | .finite first, .finite second => ofUnits kind sign (first * second) (Nat.pow 2 kind.scale)

/-- The rounded quotient. -/
def div (left right : Binary kind) : Binary kind :=
  let sign := left.negative != right.negative
  match left.magnitude, right.magnitude with
  | .nan, _ | _, .nan | .infinite, .infinite => nan kind
  | .infinite, .finite _ => infinite kind sign
  | .finite _, .infinite => zero kind sign
  | .finite first, .finite second =>
    if second = 0 then (if first = 0 then nan kind else infinite kind sign)
    else ofUnits kind sign (first * Nat.pow 2 kind.scale) second

/-- The number nearest to an integer. -/
def ofInt (kind : BinaryKind) (value : Int) : Binary kind :=
  ofUnits kind (value < 0) (value.natAbs * Nat.pow 2 kind.scale) 1

/-- The number of another format nearest to a number. -/
def convert (target : BinaryKind) (number : Binary kind) : Binary target :=
  match number.magnitude with
  | .nan => nan target
  | .infinite => infinite target number.negative
  | .finite units =>
    ofUnits target number.negative (units * Nat.pow 2 target.scale) (Nat.pow 2 kind.scale)

/-- The integer of a kind nearest to a number cut toward zero; what is not a number gives zero. -/
def toInteger (target : IntegerKind) (number : Binary kind) : Integer target :=
  match number.magnitude with
  | .nan => Integer.ofInt target 0
  | .infinite => Integer.ofInt target (if number.negative then target.least else target.greatest)
  | .finite units =>
    Integer.ofInt target (target.clamp (signedUnits number.negative (units / Nat.pow 2 kind.scale)))

end Binary

end ScriptVm
