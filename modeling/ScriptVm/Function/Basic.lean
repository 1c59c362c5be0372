import ScriptVm.Function.Guard
import ScriptVm.Module
import ScriptVm.Operator

/-!
# Functions

A function is a script, which runs bytecode of its module, or it is done by the host machine. What
the host does is a routine: an operator, a cast, or a callback of the embedding program, known by
number. A native function has no routine of its own; one is bound to its signature.
-/
namespace ScriptVm

/-- What the machine or the embedding program does in a call. -/
inductive Routine where
  /-- Applies an operator to the first two parameters. -/
  | operator (operator : Operator)
  /-- Converts the first parameter to a kind. -/
  | cast (target : Kind)
  /-- Calls the embedding program back. -/
  | callback (number : Nat)
  deriving DecidableEq, Repr, Inhabited

/-- A function that runs bytecode. -/
structure ScriptFunction where
  /-- Name under which it is called. -/
  signature : String
  /-- Count of parameters. -/
  parameters : UInt16
  /-- Count of return values. -/
  returns : UInt16
  /-- The module whose code it runs. -/
  module : Module
  /-- Its code. -/
  body : Body
  deriving DecidableEq, Repr, Inhabited

/-- A function that the host does. -/
structure HostFunction where
  /-- Name under which it is called. -/
  signature : String
  /-- Count of parameters. -/
  parameters : UInt16
  /-- Count of return values. -/
  returns : UInt16
  /-- The module that declares it. -/
  module : Option Module
  /-- Its routine when it is built in; a native function is bound by its signature. -/
  routine : Option Routine
  deriving DecidableEq, Repr, Inhabited

/-- A function. -/
inductive Function where
  | script (function : ScriptFunction)
  | host (function : HostFunction)
  deriving DecidableEq, Repr, Inhabited

/-- A script function whose body lies inside the code of its module. -/
def ScriptFunction.create (signature : String) (parameters returns : UInt16) (module : Module)
    (body : Body) : Except Error ScriptFunction :=
  if module.code.size < body.stop then .error .invalidArgument
  else .ok ⟨signature, parameters, returns, module, body⟩

namespace Function

/-- Name under which a function is called. -/
def signature : Function → String
  | .script function => function.signature
  | .host function => function.signature

/-- Count of parameters. -/
def parameters : Function → UInt16
  | .script function => function.parameters
  | .host function => function.parameters

/-- Count of return values. -/
def returns : Function → UInt16
  | .script function => function.returns
  | .host function => function.returns

/-- The module that a function belongs to. -/
def module? : Function → Option Module
  | .script function => some function.module
  | .host function => function.module

/-- A function without bytecode. -/
def isHost : Function → Bool
  | .script _ => false
  | .host _ => true

/-- The body of a script function. -/
def body? : Function → Option Body
  | .script function => some function.body
  | .host _ => none

/-- The names of the local variables; a function without bytecode has none. -/
def localNames (function : Function) : List String :=
  match function.body? with
  | some body => body.locals
  | none => []

/-- The count of guarded blocks of a script function. -/
def blockCount (function : Function) : Except Error Nat :=
  match function.body? with
  | some body => .ok body.blocks.length
  | none => .error .invalidType

/-- A guarded block of a script function. -/
def block (function : Function) (index : Nat) : Except Error GuardedBlock :=
  match function.body? with
  | some body => Error.indexOutOfRange.orElse body.blocks[index]?
  | none => .error .invalidType

/-- Where the handler resumes that catches a value raised at an offset. -/
def findHandler? (function : Function) (offset : Nat) (kind : Kind) (className : Option String) :
    Option Nat := do
  (← function.body?).findHandler? offset kind className

/-- What sort of function it is, and its signature. -/
def text (function : Function) : String :=
  let sort := match function with
    | .script _ => "script"
    | .host ⟨_, _, _, _, none⟩ => "native"
    | .host ⟨_, _, _, _, some _⟩ => "built-in"
  "<" ++ sort ++ " fn " ++ function.signature ++ ">"

end Function

end ScriptVm
