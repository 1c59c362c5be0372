import ScriptVm.Number.Binary
import ScriptVm.Text.Numeral

/-!
# Decimal texts of floating-point numbers

Writing a number with the fewest digits that read back, or with a fixed number of places, and
reading a decimal text as the nearest number. All three compare exact integers.
-/
namespace ScriptVm

/-- A decimal number: digits times a power of ten. -/
structure Decimal where
  /-- The digits as one natural number. -/
  digits : Nat
  /-- The power of ten of the last digit. -/
  exponent : Int
  deriving DecidableEq, Repr

namespace Decimal

/-- The count of decimal digits of a natural number. -/
def length (value : Nat) : Nat := (Text.decimalChars value).length

/-- Writes a decimal without an exponent: zeros fill the places up to the point. -/
def positional (number : Decimal) : List Char :=
  let digits := Text.decimalChars number.digits
  if 0 ≤ number.exponent then digits ++ List.replicate number.exponent.toNat '0'
  else
    let places := number.exponent.natAbs
    let padded := Text.zeroPadded (places + 1) digits
    padded.take (padded.length - places) ++ '.' :: padded.drop (padded.length - places)

/-- The magnitude pattern nearest to a decimal. Digits of `n + 1` bits are at least `10 ^ (n / 4)`
and less than `10 ^ (n / 3 + 1)`. By these bounds a decimal far beyond every format, on either side,
is settled without forming its power of ten. -/
def rounded (kind : BinaryKind) (number : Decimal) : Nat :=
  let least : Int := (number.digits.log2 / 4 : Nat) + number.exponent
  let greatest : Int := (number.digits.log2 / 3 + 1 : Nat) + number.exponent
  if number.digits = 0 ∨ greatest < -400 then 0
  else if 400 < least then kind.infinity
  else if 0 ≤ number.exponent then
    kind.rounded (number.digits * Nat.pow 10 number.exponent.toNat * Nat.pow 2 kind.scale) 1
  else kind.rounded (number.digits * Nat.pow 2 kind.scale) (Nat.pow 10 number.exponent.natAbs)

end Decimal

namespace Binary

variable {kind : BinaryKind}

/-- The half units at which rounding turns from a pattern to its neighbours, the pattern's own
count of half units between them; the ends belong to an even pattern. -/
structure Rounding where
  /-- Least point that may round to the pattern. -/
  low : Nat
  /-- The pattern's own point. -/
  middle : Nat
  /-- Greatest point that may round to the pattern. -/
  high : Nat
  /-- Whether the two ends round to the pattern. -/
  closed : Bool

/-- The points that round to a positive pattern. -/
def rounding (kind : BinaryKind) (pattern : Nat) : Rounding where
  low := kind.units (pattern - 1) + kind.units pattern
  middle := 2 * kind.units pattern
  high := kind.units pattern + kind.units (pattern + 1)
  closed := pattern % 2 = 0

/-- A point, both scaled alike, rounds to the pattern. -/
def Rounding.admits (range : Rounding) (down point : Nat) : Bool :=
  if range.closed then range.low * down ≤ point && point ≤ range.high * down
  else range.low * down < point && point < range.high * down

/-- The multiple of a power of ten that reads back as the pattern, if there is one: the nearer of
the two neighbours, the upper one on a tie. -/
def onGrid? (kind : BinaryKind) (range : Rounding) (exponent : Int) : Option Nat :=
  let up := Nat.pow 10 exponent.toNat * Nat.pow 2 (kind.scale + 1)
  let down := Nat.pow 10 (-exponent).toNat
  let middle := range.middle * down
  let lower := middle / up
  let below := range.admits down (lower * up)
  let above := range.admits down ((lower + 1) * up)
  if below && above then
    some (if 2 * (middle % up) < up then lower else lower + 1)
  else if below then some lower
  else if above then some (lower + 1)
  else none

/-- The coarsest grid of powers of ten, from an exponent down, on which a decimal reads back. -/
def onCoarsestGrid (kind : BinaryKind) (range : Rounding) : Nat → Int → Decimal
  | 0, exponent => ⟨0, exponent⟩
  | fuel + 1, exponent =>
    match onGrid? kind range exponent with
    | some digits => ⟨digits, exponent⟩
    | none => onCoarsestGrid kind range fuel (exponent - 1)

/-- The decimal of fewest digits that reads back as a positive pattern. No multiple of a power of
ten above the range's upper end lies in the range, so the search starts at that power, and twenty
powers further down the grid is finer than every format. -/
def shortest (kind : BinaryKind) (pattern : Nat) : Decimal :=
  let range := rounding kind pattern
  let start : Int := Decimal.length (range.high * Nat.pow 10 400 / Nat.pow 2 (kind.scale + 1)) - 401
  onCoarsestGrid kind range 20 start

/-- Puts a minus sign before the text of a magnitude. -/
def withSign (number : Binary kind) (characters : List Char) : String :=
  String.ofList (if number.negative then '-' :: characters else characters)

/-- The shortest positional text that reads back. -/
def text (number : Binary kind) : String :=
  match number.magnitude with
  | .nan => "NaN"
  | .infinite => number.withSign "inf".toList
  | .finite units =>
    if units = 0 then number.withSign ['0']
    else number.withSign (shortest kind number.pattern).positional

/-- The text with a fixed number of places, rounded to the nearest, a tie going to the even
digit. -/
def fixedText (places : Nat) (number : Binary kind) : String :=
  match number.magnitude with
  | .nan => "NaN"
  | .infinite => number.withSign "inf".toList
  | .finite units =>
    number.withSign
      (Decimal.positional
        ⟨roundedQuotient (units * Nat.pow 10 places) (Nat.pow 2 kind.scale), -(places : Int)⟩)

/-- Splits the leading sign from a text: whether it is a minus, and what follows. -/
def splitSign : List Char → Bool × List Char
  | '-' :: rest => (true, rest)
  | '+' :: rest => (false, rest)
  | characters => (false, characters)

/-- Lower case of an ASCII letter. -/
def lowered (character : Char) : Char := character.toLower

/-- The exponent after the digits of a decimal: nothing, or a mark, a sign and digits. -/
def readExponent? : List Char → Option Int
  | [] => some 0
  | mark :: rest =>
    if lowered mark = 'e' then
      let (negative, digits) := splitSign rest
      (Text.readNat? digits).map fun value => if negative then -(value : Int) else value
    else none

/-- An unsigned decimal: digits with at most one point among or around them, and an exponent. -/
def readDecimal? (characters : List Char) : Option Decimal := do
  let whole := characters.takeWhile Char.isDigit
  let rest := characters.dropWhile Char.isDigit
  let (fraction, rest) := match rest with
    | '.' :: rest => (rest.takeWhile Char.isDigit, rest.dropWhile Char.isDigit)
    | _ => ([], rest)
  let digits ← Text.readNat? (whole ++ fraction)
  let exponent ← readExponent? rest
  return ⟨digits, exponent - fraction.length⟩

/-- The number that a text writes: a sign, then a decimal or the name of an infinity or of what
is not a number, in letters of either case. -/
def read? (kind : BinaryKind) (characters : List Char) : Option (Binary kind) :=
  let (negative, rest) := splitSign characters
  match String.ofList (rest.map lowered) with
  | "inf" | "infinity" => some (infinite kind negative)
  | "nan" => some (nan kind)
  | _ => (readDecimal? rest).map fun number => ofPattern kind negative (number.rounded kind)

end Binary

end ScriptVm
