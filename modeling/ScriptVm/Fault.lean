import ScriptVm.Error
import ScriptVm.Kind
import ScriptVm.Operator

/-!
# Faults of scripts

A fault stops an instruction or a built-in function and is raised as an object of one of three
standard classes. Each class has one member, the message.
-/
namespace ScriptVm

/-- The classes of standard exceptions. -/
inductive ExceptionClass where
  | runtime
  | type
  | divideByZero
  deriving DecidableEq, Repr, Inhabited

namespace ExceptionClass

/-- Every standard class. -/
def all : List ExceptionClass := [.runtime, .type, .divideByZero]

/-- The type name of a class. -/
def name : ExceptionClass → String
  | .runtime => "RuntimeError"
  | .type => "TypeError"
  | .divideByZero => "DivideByZeroError"

/-- The class with a type name. -/
def ofName? (name : String) : Option ExceptionClass :=
  all.find? fun candidate => candidate.name = name

/-- The name of the member that holds the message. -/
def messageMember : String := "message"

end ExceptionClass

/-- What an instruction needed a value to be. -/
inductive Need where
  | function
  | object
  | array
  | condition
  deriving DecidableEq, Repr, Inhabited

/-- The words for a need. -/
def Need.words : Need → String
  | .function => "function"
  | .object => "object"
  | .array => "array"
  | .condition => "a condition"

/-- What went wrong in an instruction or a built-in function. -/
inductive Fault where
  | host (error : Error)
  | unknownFunction (signature : String)
  | unknownGlobal (name : String)
  | unknownLocal (name : String)
  | unknownType (name : String)
  | unboundFunction (signature : String)
  | callStackOverflow
  | operandStackOverflow
  | operandStackUnderflow
  | collectedValue
  | collectedObject
  | lostArray
  | elementOutOfRange (index length : Nat)
  | noMember (typeName member : String)
  | memberKind (member : String) (declared found : Kind)
  | invalidOpcode (byte : UInt8)
  | invalidConstantKind (byte : UInt8)
  | notConstant (kind : Kind)
  | arrayTooLong (length limit : Nat)
  | branchOutside (target : Int) (start stop : Nat)
  | unmet (need : Need) (found : Kind)
  | unsupportedOperands (operator : Operator) (left right : Kind)
  | unreadable (text : String) (target : Kind)
  | uncastable (source target : Kind)
  | divisionByZero
  | stated (exception : ExceptionClass) (message : String)
  deriving DecidableEq, Repr, Inhabited

namespace Fault

/-- The class as which a fault is raised. -/
def exception : Fault → ExceptionClass
  | .memberKind .. | .unmet .. | .unsupportedOperands .. | .unreadable .. | .uncastable .. => .type
  | .divisionByZero => .divideByZero
  | .stated exception _ => exception
  | _ => .runtime

/-- A text between single quotes. -/
def quoted (text : String) : String := "'" ++ text ++ "'"

/-- The message of a fault. -/
def message : Fault → String
  | .host error => error.message
  | .unknownFunction signature => "unknown function " ++ quoted signature
  | .unknownGlobal name => "unknown global " ++ quoted name
  | .unknownLocal name => "unknown local " ++ quoted name
  | .unknownType name => "unknown type " ++ quoted name
  | .unboundFunction signature => "native function " ++ quoted signature ++ " is not bound"
  | .callStackOverflow => "call stack overflow"
  | .operandStackOverflow => "operand stack overflow"
  | .operandStackUnderflow => "operand stack underflow"
  | .collectedValue => "reference to a collected value"
  | .collectedObject => "reference to a collected object"
  | .lostArray => "array reference is null or collected"
  | .elementOutOfRange index length =>
    "index " ++ Text.decimal index ++ " out of range for array of " ++ Text.decimal length
  | .noMember typeName member => typeName ++ " has no member " ++ quoted member
  | .memberKind member declared found =>
    "member " ++ quoted member ++ " holds " ++ declared.name ++ ", found " ++ found.name
  | .invalidOpcode byte => "invalid opcode 0x" ++ Text.hexByte byte
  | .invalidConstantKind byte => "invalid constant kind " ++ Text.decimal byte.toNat
  | .notConstant kind => kind.name ++ " cannot be a constant"
  | .arrayTooLong length limit =>
    "array length " ++ Text.decimal length ++ " exceeds the limit of " ++ Text.decimal limit
  | .branchOutside target start stop =>
    "branch target " ++ Text.signed target ++ " outside function [" ++ Text.decimal start ++ ", " ++
      Text.decimal stop ++ ")"
  | .unmet need found => "expected " ++ need.words ++ ", found " ++ found.name
  | .unsupportedOperands operator left right =>
    "unsupported operands for " ++ operator.symbol ++ ": " ++ left.name ++ " and " ++ right.name
  | .unreadable text target => "cannot convert \"" ++ text ++ "\" to " ++ target.name
  | .uncastable source target => "cannot cast " ++ source.name ++ " to " ++ target.name
  | .divisionByZero => "division by zero"
  | .stated _ message => message

/-- The class and the message of a fault. -/
def text (fault : Fault) : String := fault.exception.name ++ ": " ++ fault.message

end Fault

end ScriptVm
