/-!
# Numerals

Decimal and hexadecimal texts of natural numbers, and the reading of digits.
-/
namespace ScriptVm.Text

/-- The character of a digit below sixteen. -/
def digitChar (digit : Nat) : Char :=
  if digit < 10 then Char.ofNat (48 + digit) else Char.ofNat (87 + digit)

/-- The digits of a number in base ten, most significant first, without leading zeros. -/
def decimalChars (value : Nat) : List Char :=
  if value < 10 then [digitChar value]
  else decimalChars (value / 10) ++ [digitChar (value % 10)]
termination_by value
decreasing_by omega

/-- The decimal text of a natural number. -/
def decimal (value : Nat) : String :=
  String.ofList (decimalChars value)

/-- The decimal digits of an integer after a minus sign when it is negative. -/
def signedChars (value : Int) : List Char :=
  if value < 0 then '-' :: decimalChars value.natAbs else decimalChars value.natAbs

/-- The decimal text of an integer. -/
def signed (value : Int) : String :=
  String.ofList (signedChars value)

/-- Pads on the left with zeros up to a width. -/
def zeroPadded (width : Nat) (characters : List Char) : List Char :=
  List.replicate (width - characters.length) '0' ++ characters

/-- Pads on the right with spaces up to a width. -/
def spacePadded (width : Nat) (characters : List Char) : List Char :=
  characters ++ List.replicate (width - characters.length) ' '

/-- A bytecode offset in a listing or in the journal: at least six digits. -/
def offset (value : Nat) : String :=
  String.ofList (zeroPadded 6 (decimalChars value))

/-- A signed bytecode target: at least six characters, a minus sign counting as one. -/
def signedOffset (value : Int) : String :=
  if value < 0 then String.ofList ('-' :: zeroPadded 5 (decimalChars value.natAbs))
  else offset value.natAbs

/-- The decimal text of an integer after its sign, plus included. -/
def explicitlySigned (value : Int) : String :=
  if value < 0 then signed value else "+" ++ signed value

/-- The hexadecimal digits of a number, most significant first, without leading zeros. -/
def hexChars (value : Nat) : List Char :=
  if value < 16 then [digitChar value]
  else hexChars (value / 16) ++ [digitChar (value % 16)]
termination_by value
decreasing_by omega

/-- The two hexadecimal digits of a byte. -/
def hexByte (byte : UInt8) : String :=
  String.ofList [digitChar (byte.toNat / 16), digitChar (byte.toNat % 16)]

/-- The value of a hexadecimal digit. -/
def hexValue? (character : Char) : Option Nat :=
  if '0' ≤ character ∧ character ≤ '9' then some (character.toNat - 48)
  else if 'a' ≤ character ∧ character ≤ 'f' then some (character.toNat - 87)
  else if 'A' ≤ character ∧ character ≤ 'F' then some (character.toNat - 55)
  else none

/-- The number written by hexadecimal digits after those already read. -/
def readHexDigits (value : Nat) : List Char → Option Nat
  | [] => some value
  | character :: rest => do
    let digit ← hexValue? character
    readHexDigits (value * 16 + digit) rest

/-- The bytes written by pairs of hexadecimal digits. -/
def readHexBytes? : List Char → Option (List UInt8)
  | [] => some []
  | [_] => none
  | high :: low :: rest => do
    let byte ← readHexDigits 0 [high, low]
    return UInt8.ofNat byte :: (← readHexBytes? rest)

/-- The hexadecimal digits of bytes. -/
def hexBytes (bytes : List UInt8) : String := String.join (bytes.map hexByte)

/-- The value of a decimal digit. -/
def digitValue? (character : Char) : Option Nat :=
  if '0' ≤ character ∧ character ≤ '9' then some (character.toNat - 48) else none

/-- A number from the digits after those already read. -/
def readDigits (value : Nat) : List Char → Option Nat
  | [] => some value
  | character :: rest => do
    let digit ← digitValue? character
    readDigits (value * 10 + digit) rest

/-- The number written by a nonempty list of decimal digits. -/
def readNat? : List Char → Option Nat
  | [] => none
  | characters => readDigits 0 characters

end ScriptVm.Text
