/-!
# Blank characters

The characters with the Unicode property `White_Space`, and the removal of blanks at the ends of
a text.
-/
namespace ScriptVm.Text

/-- The code points that count as blank, as inclusive ranges in increasing order. -/
def blankRanges : List (Nat × Nat) :=
  [(0x09, 0x0d), (0x20, 0x20), (0x85, 0x85), (0xa0, 0xa0), (0x1680, 0x1680), (0x2000, 0x200a),
    (0x2028, 0x2029), (0x202f, 0x202f), (0x205f, 0x205f), (0x3000, 0x3000)]

/-- A character is blank when its code point lies in one of the blank ranges. -/
def isBlank (character : Char) : Bool :=
  blankRanges.any fun (first, last) => first ≤ character.toNat && character.toNat ≤ last

/-- Removes the blanks at the end. -/
def trimEndChars (characters : List Char) : List Char :=
  (characters.reverse.dropWhile isBlank).reverse

/-- Removes the blanks at both ends. -/
def trimChars (characters : List Char) : List Char :=
  trimEndChars (characters.dropWhile isBlank)

/-- Removes the blanks at the end of a text. -/
def trimEnd (text : String) : String :=
  String.ofList (trimEndChars text.toList)

end ScriptVm.Text
