import ScriptVm.Error
import ScriptVm.Kind

/-!
# Compiled modules

The image of a module: everything that it brings to a machine, as data.
-/
namespace ScriptVm

/-- A declared member of an object type. -/
structure MemberImage where
  /-- Name of the member. -/
  name : String
  /-- Kind of the values it holds. -/
  kind : Kind
  deriving DecidableEq, Repr, Inhabited

/-- A declared object type. -/
structure ObjectImage where
  /-- Name of the type. -/
  typeName : String
  /-- Its members in binding order. -/
  members : List MemberImage
  deriving DecidableEq, Repr, Inhabited

/-- A declared exception handler. -/
structure HandlerImage where
  /-- Kind of the values it catches. -/
  kind : Kind
  /-- Class of the objects it catches; only object handlers need one. -/
  className : Option String
  /-- Where it resumes. -/
  offset : UInt32
  deriving DecidableEq, Repr, Inhabited

/-- A declared guarded range of bytecode. -/
structure BlockImage where
  /-- First guarded byte. -/
  start : UInt32
  /-- Count of guarded bytes. -/
  length : UInt32
  /-- Its handlers in declaration order. -/
  handlers : List HandlerImage
  deriving DecidableEq, Repr, Inhabited

/-- A declared function. -/
structure FunctionImage where
  /-- Name under which it is called. -/
  signature : String
  /-- The host supplies it, so it has no bytecode. -/
  native : Bool
  /-- Count of parameters. -/
  parameters : UInt16
  /-- Count of return values. -/
  returns : UInt16
  /-- First byte of its code. -/
  start : UInt32
  /-- Count of bytes of its code. -/
  length : UInt32
  /-- Names of its local variables. -/
  locals : List String
  /-- Its guarded ranges in declaration order. -/
  blocks : List BlockImage
  deriving DecidableEq, Repr, Inhabited

/-- A compiled module. -/
structure Image where
  /-- Names of the modules it needs. -/
  dependencies : List String := []
  /-- Object types it declares. -/
  objects : List ObjectImage := []
  /-- Its string table. -/
  strings : List String := []
  /-- Globals it declares. -/
  globals : List String := []
  /-- Functions it declares. -/
  functions : List FunctionImage := []
  /-- Its bytecode. -/
  code : List UInt8 := []
  /-- Count of leading code bytes that initialize the module. -/
  initLength : UInt32 := 0
  deriving DecidableEq, Repr, Inhabited

namespace Image

/-- The guarded ranges of a function lie inside the code. -/
def checkBlocks (size : Nat) (function : FunctionImage) : Except Flaw Unit :=
  function.blocks.forM fun block =>
    if size < block.start.toNat + block.length.toNat then
      .error (.blockExceedsCode function.signature)
    else .ok ()

/-- A function and its guarded ranges lie inside the code. -/
def checkFunction (size : Nat) (function : FunctionImage) : Except Flaw Unit :=
  if size < function.start.toNat + function.length.toNat then
    .error (.functionExceedsCode function.signature)
  else checkBlocks size function

/-- The initializer and every function with bytecode lie inside the code. -/
def check (image : Image) : Except Flaw Unit :=
  let size := image.code.length
  if size < image.initLength.toNat then .error .initializerExceedsCode
  else (image.functions.filter (!·.native)).forM (checkFunction size)

end Image

end ScriptVm
