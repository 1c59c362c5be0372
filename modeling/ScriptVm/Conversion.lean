import ScriptVm.Fault
import ScriptVm.Heap.Value
import ScriptVm.Text.Blank

/-!
# Conversion of values

Casts between truth values, numbers and texts. Integers are reduced to the width of their new kind,
floating-point numbers are cut to the nearest integer of the kind, and a text has to write a value
of the new kind, apart from blanks around it.
-/
namespace ScriptVm

/-- Places after the point when a floating-point number becomes a text. -/
def castPlaces : Nat := 6

/-- The integer of a kind that a text writes: digits after at most a sign, a minus only for signed
kinds, and in the range of the kind. -/
def Integer.read? (kind : IntegerKind) (characters : List Char) : Option (Integer kind) := do
  let value ← match characters with
    | '+' :: digits => (Text.readNat? digits).map Int.ofNat
    | '-' :: digits =>
      if kind.signed then (Text.readNat? digits).map fun value => -(value : Int) else none
    | digits => (Text.readNat? digits).map Int.ofNat
  if kind.Holds value then some (Integer.ofInt kind value) else none

/-- The truth value that a text writes. -/
def readBool? (characters : List Char) : Option Bool :=
  if characters = "true".toList then some true
  else if characters = "false".toList then some false
  else none

/-- What a value that can be cast holds, a number being widened to sixty-four bits. -/
inductive Scalar where
  | bool (value : Bool)
  | integer (signed : Bool) (value : Integer ⟨signed, .w64⟩)
  | binary (value : Binary .double)
  | string (text : String)

/-- The number in sixty-four bits. -/
def Binary.widened {kind : BinaryKind} (number : Binary kind) : Binary .double :=
  match kind, number with
  | .single, number => number.convert .double
  | .double, number => number

/-- The number of a format nearest to one of sixty-four bits. -/
def Binary.ofWidened (target : BinaryKind) (number : Binary .double) : Binary target :=
  match target with
  | .single => number.convert .single
  | .double => number

/-- What a value holds, if it can be cast. -/
def Value.scalar? : Value → Option Scalar
  | .bool value => some (.bool value)
  | .integer kind value => some (.integer kind.signed (Integer.ofInt _ value.toInt))
  | .binary _ value => some (.binary value.widened)
  | .string text => some (.string text)
  | _ => none

namespace Scalar

/-- The truth value, unless a text does not write one. -/
def toBool : Scalar → Except Fault Bool
  | .bool value => .ok value
  | .integer _ value => .ok (value.toInt ≠ 0)
  | .binary value => .ok (!value.isZero)
  | .string text =>
    match readBool? (Text.trimChars text.toList) with
    | some value => .ok value
    | none => .error (.unreadable text .bool)

/-- The integer of a kind, unless a text does not write one. -/
def toInteger (target : IntegerKind) : Scalar → Except Fault (Integer target)
  | .bool value => .ok (Integer.ofInt target (if value then 1 else 0))
  | .integer _ value => .ok (Integer.ofInt target value.toInt)
  | .binary value => .ok (value.toInteger target)
  | .string text =>
    match Integer.read? target (Text.trimChars text.toList) with
    | some value => .ok value
    | none => .error (.unreadable text (.integer target))

/-- The floating-point number, unless a text does not write one. -/
def toBinary (target : BinaryKind) : Scalar → Except Fault (Binary target)
  | .bool value => .ok (Binary.ofInt target (if value then 1 else 0))
  | .integer _ value => .ok (Binary.ofInt target value.toInt)
  | .binary value => .ok (.ofWidened target value)
  | .string text =>
    match Binary.read? target (Text.trimChars text.toList) with
    | some value => .ok value
    | none => .error (.unreadable text (.binary target))

/-- The text. -/
def toText : Scalar → String
  | .bool value => Value.boolText value
  | .integer _ value => Text.signed value.toInt
  | .binary value => value.fixedText castPlaces
  | .string text => text

end Scalar

/-- Casts a value to a kind. -/
def Value.convert (value : Value) (target : Kind) : Except Fault Value :=
  match value.scalar?, target with
  | some scalar, .bool => .bool <$> scalar.toBool
  | some scalar, .integer kind => .integer kind <$> scalar.toInteger kind
  | some scalar, .binary kind => .binary kind <$> scalar.toBinary kind
  | some scalar, .string => .ok (.string scalar.toText)
  | _, target => .error (.uncastable value.kind target)

end ScriptVm
