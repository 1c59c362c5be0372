import ScriptVm.Error
import ScriptVm.Heap.Handle

/-!
# Loaded modules
-/
namespace ScriptVm

/-- A loaded module: the code that its functions run, and the texts and constants that the code
names. -/
structure Module where
  /-- Name under which it was loaded. -/
  name : String
  /-- Modules it depends on. -/
  dependencies : List String
  /-- Its string table. -/
  strings : Array String
  /-- One string value for each entry of the string table. -/
  constants : Array Ref
  /-- Its bytecode. -/
  code : Array UInt8
  /-- Count of leading code bytes that initialize the module. -/
  initLength : Nat
  deriving DecidableEq, Repr, Inhabited

namespace Module

/-- The text at an index of the string table. -/
def string (module : Module) (index : Nat) : Except Error String :=
  Error.indexOutOfRange.orElse module.strings[index]?

/-- The constant at an index of the string table. -/
def constant (module : Module) (index : Nat) : Except Error Ref :=
  Error.indexOutOfRange.orElse module.constants[index]?

end Module

end ScriptVm
