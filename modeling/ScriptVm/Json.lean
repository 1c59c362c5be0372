import ScriptVm.Text.Numeral

/-!
# Written descriptions

Configurations and module descriptions are written in JSON. A text is first read as a tree; what
a tree means is then asked of it field by field. A string with an unpaired surrogate escape is
well formed but has no content, so it can stand only where nobody asks for it.
-/
namespace ScriptVm

/-- A written tree. -/
inductive Json where
  | null
  | bool (value : Bool)
  /-- A number written as digits after at most a minus sign. -/
  | integer (value : Int)
  /-- A number with a fraction or an exponent, or a negative zero. -/
  | number
  | text (content : Option String)
  | array (items : List Json)
  | object (members : List (Option String × Json))
  deriving Inhabited

namespace Json

/-- Blanks between tokens. -/
def isBlank (character : Char) : Bool :=
  character = ' ' || character = '\t' || character = '\n' || character = '\r'

/-- Drops the blanks before a token. -/
def skip (characters : List Char) : List Char := characters.dropWhile isBlank

/-- A piece of a string: a character, or a code unit from an escape. -/
inductive Piece where
  | character (value : Char)
  | unit (value : Nat)
  deriving DecidableEq

/-- The content of the pieces: a high surrogate unit joins the low one right after it, and no
other surrogate has a content. -/
def join : List Piece → Option (List Char)
  | [] => some []
  | .character value :: rest => (join rest).map (value :: ·)
  | .unit high :: .unit low :: rest =>
    if 0xd800 ≤ high ∧ high < 0xdc00 then
      if 0xdc00 ≤ low ∧ low < 0xe000 then
        (join rest).map
          (Char.ofNat (0x10000 + (high - 0xd800) * 0x400 + (low - 0xdc00)) :: ·)
      else none
    else if 0xdc00 ≤ high ∧ high < 0xe000 then none
    else (join (.unit low :: rest)).map (Char.ofNat high :: ·)
  | .unit value :: rest =>
    if 0xd800 ≤ value ∧ value < 0xe000 then none else (join rest).map (Char.ofNat value :: ·)

/-- The character of a one-letter escape. -/
def escape? (letter : Char) : Option Char :=
  match letter with
  | '"' => some '"'
  | '\\' => some '\\'
  | '/' => some '/'
  | 'b' => some (Char.ofNat 8)
  | 'f' => some (Char.ofNat 12)
  | 'n' => some '\n'
  | 'r' => some '\r'
  | 't' => some '\t'
  | _ => none

/-- The pieces of a string up to its closing quote, and what follows. -/
def readPieces (read : List Piece) : List Char → Option (List Piece × List Char)
  | [] => none
  | '"' :: rest => some (read.reverse, rest)
  | '\\' :: 'u' :: a :: b :: c :: d :: rest => do
    readPieces (.unit (← Text.readHexDigits 0 [a, b, c, d]) :: read) rest
  | '\\' :: letter :: rest => do readPieces (.character (← escape? letter) :: read) rest
  | character :: rest =>
    if character.toNat < 32 ∨ character = '\\' then none
    else readPieces (.character character :: read) rest

/-- A string after its opening quote. -/
def readText (characters : List Char) : Option (Option String × List Char) := do
  let (pieces, rest) ← readPieces [] characters
  return ((join pieces).map String.ofList, rest)

/-- Splits the leading digits of a text. -/
def splitDigits (characters : List Char) : List Char × List Char :=
  (characters.takeWhile Char.isDigit, characters.dropWhile Char.isDigit)

/-- At least one digit, and what follows. -/
def readSomeDigits (characters : List Char) : Option (List Char) :=
  match splitDigits characters with
  | ([], _) => none
  | (_, rest) => some rest

/-- The fraction of a number, if there is one: whether there is, and what follows. -/
def readFraction : List Char → Option (Bool × List Char)
  | '.' :: rest => (readSomeDigits rest).map (true, ·)
  | characters => some (false, characters)

/-- The exponent of a number, if there is one: whether there is, and what follows. -/
def readPower : List Char → Option (Bool × List Char)
  | mark :: rest =>
    if mark = 'e' ∨ mark = 'E' then
      match rest with
      | '+' :: rest | '-' :: rest => (readSomeDigits rest).map (true, ·)
      | _ => (readSomeDigits rest).map (true, ·)
    else some (false, mark :: rest)
  | [] => some (false, [])

/-- An unsigned number, without a zero before other digits; a negative one follows its sign. -/
def readNumber (negative : Bool) (characters : List Char) : Option (Json × List Char) := do
  let (digits, rest) := splitDigits characters
  let value ← Text.readNat? digits
  if digits.length ≠ 1 ∧ digits.head? = some '0' then failure
  let (fraction, rest) ← readFraction rest
  let (power, rest) ← readPower rest
  if fraction || power || (negative && value = 0) then return (.number, rest)
  else return (.integer (if negative then -(value : Int) else value), rest)

/-- What is being read: one value, or the rest of a list of items or of members. -/
inductive Goal where
  | value
  | items (read : List Json)
  | members (read : List (Option String × Json))

/-- Reads a goal. Each level of nesting and each item takes one unit of fuel. -/
def readGoal : Nat → Goal → List Char → Option (Json × List Char)
  | 0, _, _ => none
  | fuel + 1, .value, characters =>
    match skip characters with
    | 'n' :: 'u' :: 'l' :: 'l' :: rest => some (.null, rest)
    | 't' :: 'r' :: 'u' :: 'e' :: rest => some (.bool true, rest)
    | 'f' :: 'a' :: 'l' :: 's' :: 'e' :: rest => some (.bool false, rest)
    | '"' :: rest => (readText rest).map fun (content, rest) => (.text content, rest)
    | '[' :: rest =>
      match skip rest with
      | ']' :: rest => some (.array [], rest)
      | _ => readGoal fuel (.items []) rest
    | '{' :: rest =>
      match skip rest with
      | '}' :: rest => some (.object [], rest)
      | _ => readGoal fuel (.members []) rest
    | '-' :: rest => readNumber true rest
    | characters => readNumber false characters
  | fuel + 1, .items read, characters => do
    let (item, rest) ← readGoal fuel .value characters
    match skip rest with
    | ',' :: rest => readGoal fuel (.items (item :: read)) rest
    | ']' :: rest => some (.array (item :: read).reverse, rest)
    | _ => none
  | fuel + 1, .members read, characters => do
    match skip characters with
    | '"' :: rest =>
      let (name, rest) ← readText rest
      match skip rest with
      | ':' :: rest =>
        let (item, rest) ← readGoal fuel .value rest
        match skip rest with
        | ',' :: rest => readGoal fuel (.members ((name, item) :: read)) rest
        | '}' :: rest => some (.object ((name, item) :: read).reverse, rest)
        | _ => none
      | _ => none
    | _ => none

/-- The tree written by a whole text. Every level and every item starts with a character of its
own, so twice the length is fuel enough. -/
def parse? (text : String) : Option Json :=
  let characters := text.toList
  match readGoal (2 * characters.length + 2) .value characters with
  | some (tree, rest) => if (skip rest).isEmpty then some tree else none
  | none => none

/-- A truth value. -/
def bool? : Json → Option Bool
  | .bool value => some value
  | _ => none

/-- A natural number below a bound. -/
def nat? (bound : Nat) : Json → Option Nat
  | .integer value => if 0 ≤ value ∧ value < bound then some value.toNat else none
  | _ => none

/-- A string with a content. -/
def text? : Json → Option String
  | .text content => content
  | _ => none

/-- An absent, null or present part. -/
def optional? {α : Type} (read? : Json → Option α) : Option Json → Option (Option α)
  | none | some .null => some none
  | some tree => (read? tree).map some

/-- A list of parts. -/
def list? {α : Type} (read? : Json → Option α) : Json → Option (List α)
  | .array items => items.mapM read?
  | _ => none

/-- What a record accepts beside its own fields. -/
structure RecordRule where
  /-- Names that are no fields are passed over. -/
  unknownNames : Bool
  /-- A list of the fields' values may end early. -/
  shortLists : Bool

/-- The field under a name that occurs at most once. -/
def field? (members : List (String × Json)) (name : String) : Option (Option Json) :=
  match members.filter (·.1 = name) with
  | [] => some none
  | [(_, tree)] => some (some tree)
  | _ => none

/-- The values of the fields of a record, in the order of the fields: an object with the fields in
any order, or a list of their values in this order. -/
def record? (rule : RecordRule) (fields : List String) : Json → Option (List (Option Json))
  | .object members => do
    let members ← members.mapM fun (name, tree) => name.map (·, tree)
    if !rule.unknownNames && members.any fun (name, _) => !fields.contains name then failure
    fields.mapM (field? members)
  | .array items =>
    if items.length = fields.length ∨ (rule.shortLists ∧ items.length < fields.length) then
      some (items.map some ++ List.replicate (fields.length - items.length) none)
    else none
  | _ => none

end Json

end ScriptVm
