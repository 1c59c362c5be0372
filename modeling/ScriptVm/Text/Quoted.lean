import ScriptVm.Text.Numeral
import ScriptVm.Text.Printable

/-!
# Quoted texts

A text between double quotes on one line: a quote, a backslash and the usual controls have short
escapes, and every other character that does not print has an escape with its code point.
-/
namespace ScriptVm.Text

/-- The letter of the short escape of a character. -/
def shortEscape? (character : Char) : Option Char :=
  match character with
  | '\x00' => some '0'
  | '\t' => some 't'
  | '\n' => some 'n'
  | '\r' => some 'r'
  | '\"' => some '\"'
  | '\\' => some '\\'
  | _ => none

/-- The escape of a character by its code point. -/
def pointEscape (character : Char) : List Char :=
  "\\u\x7b".toList ++ hexChars character.toNat ++ "\x7d".toList

/-- A character inside a quoted text. -/
def quotedChar (character : Char) : List Char :=
  match shortEscape? character with
  | some letter => ['\\', letter]
  | none => if isPrintable character then [character] else pointEscape character

/-- A text between double quotes. -/
def quoted (text : String) : String :=
  "\"" ++ String.ofList (text.toList.flatMap quotedChar) ++ "\""

end ScriptVm.Text
