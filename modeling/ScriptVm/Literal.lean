import ScriptVm.Conversion
import ScriptVm.Instruction.Basic

/-!
# Literals

A value is written as its kind and a text: integers in decimal, floating-point numbers as the
hexadecimal digits of their pattern, so that every number is written exactly. An array is written as
its length and is read as that many nulls.
-/
namespace ScriptVm

namespace Binary

/-- The digits of a pattern; every pattern that is not a number is written alike. -/
def patternText {kind : BinaryKind} (number : Binary kind) : String :=
  if number.isNan then "nan"
  else
    let digits := Text.zeroPadded (2 * kind.bytes) (Text.hexChars number.bits.toNat)
    String.ofList ('0' :: 'x' :: digits)

/-- The number with the pattern that a text writes. -/
def ofPatternText? (kind : BinaryKind) (text : String) : Option (Binary kind) := do
  match text.toList with
  | '0' :: 'x' :: digits => return ⟨BitVec.ofNat kind.bits (← Text.readHexDigits 0 digits)⟩
  | _ => none

end Binary

namespace Value

/-- The text of a value in a literal; null has none, and what refers to other values has none. -/
def literalText? : Value → Option String
  | .bool value => some (boolText value)
  | .integer _ value => some (Text.signed value.toInt)
  | .binary _ value => some value.patternText
  | .string value => some value
  | .function value => some value.signature
  | .native data => some (Text.decimal data.content.toNat)
  | .null | .array _ | .object _ => none

/-- The value that a literal writes. -/
def ofLiteral? (kind : Kind) (text : String) : Option Value :=
  match kind with
  | .null => some .null
  | .bool => (readBool? text.toList).map .bool
  | .integer kind => (Integer.read? kind text.toList).map (.integer kind)
  | .binary kind => (Binary.ofPatternText? kind text).map (.binary kind)
  | .string => some (.string text)
  | .array => (Text.readNat? text.toList).map fun length =>
      .array (Array.replicate length Ref.null)
  | .object | .function | .native => none

/-- The constant in code that loads a value, for the kinds that have constants. -/
def constant? : Value → Option (Constant String)
  | .null => some .null
  | .bool value => some (.bool value)
  | .integer kind value => some (.integer kind value)
  | .binary kind value => some (.binary kind value)
  | .string value => some (.string value)
  | .array _ | .object _ | .function _ | .native _ => none

end Value

end ScriptVm
