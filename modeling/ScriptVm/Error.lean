import ScriptVm.Text.Numeral

/-!
# Errors of host calls

The causes for which a host call can fail, and their texts.
-/
namespace ScriptVm

/-- What makes a compiled module unusable. -/
inductive Flaw where
  | tooShort
  | badMagic
  | unsupportedVersion (version : UInt8)
  | badOrderFlag (flag : UInt8)
  | tableOverlapsHeader
  | tableExceedsBuffer
  | endOfTable
  | unterminatedString
  | invalidText
  | badKind (byte : UInt8)
  | initializerExceedsCode
  | functionExceedsCode (signature : String)
  | blockExceedsCode (signature : String)
  | tableTooLarge
  | nullByteInString
  | handlerWithoutClass
  | described (text : String)
  deriving DecidableEq, Repr, Inhabited

/-- The text of a flaw. -/
def Flaw.text : Flaw → String
  | .tooShort => "too short"
  | .badMagic => "bad magic"
  | .unsupportedVersion version => "unsupported version " ++ Text.decimal version.toNat
  | .badOrderFlag flag => "bad endianness flag " ++ Text.decimal flag.toNat
  | .tableOverlapsHeader => "table overlaps header"
  | .tableExceedsBuffer => "table exceeds buffer"
  | .endOfTable => "unexpected end of table"
  | .unterminatedString => "unterminated string"
  | .invalidText => "invalid UTF-8 string"
  | .badKind byte => "bad value kind " ++ Text.decimal byte.toNat
  | .initializerExceedsCode => "initializer exceeds bytecode"
  | .functionExceedsCode signature => "function '" ++ signature ++ "' exceeds bytecode"
  | .blockExceedsCode signature => "guarded block in '" ++ signature ++ "' exceeds bytecode"
  | .tableTooLarge => "table too large"
  | .nullByteInString => "string contains a null byte"
  | .handlerWithoutClass => "object handler without class name"
  | .described text => text

/-- Why a host call failed. -/
inductive Error where
  | invalidArgument
  | invalidType
  | badAllocation
  | keyAlreadyExists
  | keyDoesNotExist
  | indexOutOfRange
  | stackEmpty
  | stackFull
  | invalidModule (flaw : Flaw)
  | shutdown
  deriving DecidableEq, Repr, Inhabited

namespace Error

/-- The stable name of an error. -/
def name : Error → String
  | .invalidArgument => "InvalidArgument"
  | .invalidType => "InvalidType"
  | .badAllocation => "BadAllocation"
  | .keyAlreadyExists => "KeyAlreadyExists"
  | .keyDoesNotExist => "KeyDoesNotExist"
  | .indexOutOfRange => "IndexOutOfRange"
  | .stackEmpty => "StackEmpty"
  | .stackFull => "StackFull"
  | .invalidModule _ => "InvalidModule"
  | .shutdown => "Shutdown"

/-- The text of an error. -/
def message : Error → String
  | .invalidArgument => "invalid argument"
  | .invalidType => "invalid type"
  | .badAllocation => "bad allocation"
  | .keyAlreadyExists => "key already exists"
  | .keyDoesNotExist => "key does not exist"
  | .indexOutOfRange => "index out of range"
  | .stackEmpty => "stack empty"
  | .stackFull => "stack full"
  | .invalidModule flaw => "invalid module: " ++ flaw.text
  | .shutdown => "vm has been shut down"

/-- One error of each name, in the order of the list of names, with a given module flaw. -/
def all (flaw : Flaw) : List Error :=
  [.invalidArgument, .invalidType, .badAllocation, .keyAlreadyExists, .keyDoesNotExist,
    .indexOutOfRange, .stackEmpty, .stackFull, .invalidModule flaw, .shutdown]

end Error

/-- The result of an optional lookup, with the error of its absence. -/
def Error.orElse {α : Type} (error : Error) : Option α → Except Error α
  | some found => .ok found
  | none => .error error

end ScriptVm
