import ScriptVm.Function.Basic
import ScriptVm.Heap.Handle
import ScriptVm.Number.Decimal

/-!
# Values

The payload of a heap value: a scalar, a text, references to other values or to an object, a
function, or data of the embedding program.
-/
namespace ScriptVm

/-- Data of the embedding program. Copies share the token, by which the data is identified. -/
structure NativeData where
  /-- Identity of the data. -/
  token : Nat
  /-- What the embedding program stored. -/
  content : UInt64
  deriving DecidableEq, Repr, Inhabited

/-- A value. -/
inductive Value where
  | null
  | bool (value : Bool)
  | integer (kind : IntegerKind) (value : Integer kind)
  | binary (kind : BinaryKind) (value : Binary kind)
  | string (value : String)
  | array (items : Array Ref)
  | object (reference : ObjectRef)
  | function (value : Function)
  | native (data : NativeData)
  deriving DecidableEq, Repr, Inhabited

namespace Value

/-- The kind of a value. -/
def kind : Value → Kind
  | .null => .null
  | .bool _ => .bool
  | .integer kind _ => .integer kind
  | .binary kind _ => .binary kind
  | .string _ => .string
  | .array _ => .array
  | .object _ => .object
  | .function _ => .function
  | .native _ => .native

/-- Integers and floating-point numbers. -/
def isNumeric : Value → Bool
  | .integer .. | .binary .. => true
  | _ => false

/-- The truth value of a value, for the kinds that have one. -/
def condition? : Value → Option Bool
  | .null => some false
  | .bool value => some value
  | .integer _ value => some (value.toInt ≠ 0)
  | .binary _ value => some (!value.isZero)
  | .string value => some (!value.isEmpty)
  | .array items => some (!items.isEmpty)
  | .object _ | .function _ | .native _ => none

/-- Equality of payloads: numbers of one kind by value, containers by their references, functions
by signature and host data by identity. -/
def equal : Value → Value → Bool
  | .null, .null => true
  | .bool left, .bool right => left = right
  | .integer kind left, .integer other right => kind = other && left.toInt = right.toInt
  | .binary .single left, .binary .single right => left.equal right
  | .binary .double left, .binary .double right => left.equal right
  | .string left, .string right => left = right
  | .array left, .array right => left = right
  | .object left, .object right => left = right
  | .function left, .function right => left.signature = right.signature
  | .native left, .native right => left.token = right.token
  | _, _ => false

/-- The text of a truth value. -/
def boolText (value : Bool) : String := if value then "true" else "false"

/-- The text of a value. -/
def text : Value → String
  | .null => "null"
  | .bool value => boolText value
  | .integer _ value => Text.signed value.toInt
  | .binary _ value => value.text
  | .string value => value
  | .array items => "<array len=" ++ Text.decimal items.size ++ ">"
  | .object reference => "<object #" ++ Text.decimal reference.handle.index ++ ">"
  | .function value => "<fn " ++ value.signature ++ ">"
  | .native _ => "<native>"

/-- The kind of a value around its text. -/
def inspected (value : Value) : String := value.kind.name ++ "(" ++ value.text ++ ")"

end Value

end ScriptVm
