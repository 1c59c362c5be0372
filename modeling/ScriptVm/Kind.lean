import ScriptVm.Number.Binary
import ScriptVm.Text.Numeral

/-!
# Kinds of values

The closed list of kinds that a value can have. A kind's position in the list is its byte in
compiled modules.
-/
namespace ScriptVm

/-- The kind of a value. -/
inductive Kind where
  | null
  | bool
  | integer (kind : IntegerKind)
  | binary (kind : BinaryKind)
  | string
  | array
  | object
  | function
  | native
  deriving DecidableEq, Repr, Inhabited

namespace Kind

/-- Every kind, in the order of its byte. -/
def all : List Kind :=
  [.null, .bool] ++ IntegerKind.all.map .integer ++
    [.binary .single, .binary .double, .string, .array, .object, .function, .native]

/-- The byte that stands for a kind in compiled modules. -/
def toByte (kind : Kind) : UInt8 := UInt8.ofNat (all.idxOf kind)

/-- The kind that a byte stands for. -/
def ofByte? (byte : UInt8) : Option Kind := all[byte.toNat]?

/-- The name of a kind in messages. -/
def name : Kind → String
  | .null => "null"
  | .bool => "bool"
  | .integer kind => (if kind.signed then "int" else "uint") ++ Text.decimal kind.bits
  | .binary kind => "float" ++ Text.decimal kind.bits
  | .string => "string"
  | .array => "array"
  | .object => "object"
  | .function => "function"
  | .native => "native"

/-- The name of a kind in written module descriptions: the first letter is a capital. -/
def title (kind : Kind) : String :=
  match kind.name.toList with
  | [] => ""
  | first :: rest => String.ofList (first.toUpper :: rest)

/-- The kind with a name. -/
def ofName? (name : String) : Option Kind := all.find? fun kind => kind.name = name

/-- The kind with a title. -/
def ofTitle? (title : String) : Option Kind := all.find? fun kind => kind.title = title

/-- The kinds that have arithmetic and casts, in the order of their bytes. -/
def scalars : List Kind :=
  .bool :: IntegerKind.all.map .integer ++ [.binary .single, .binary .double, .string]

end Kind

end ScriptVm
