import ScriptVm.Instruction.Listing
import ScriptVm.Machine.Values

/-!
# Functions for the embedding program

Registering and binding host functions, and listing the code of script functions.
-/
namespace ScriptVm

/-- The listing of a script function. -/
def Function.listing : Function → Except Error (List String)
  | .script function =>
    ScriptVm.listing function.module.strings function.module.code function.body.start
      function.body.stop
  | .host _ => .error .invalidType

namespace Machine

/-- Binds a routine to a signature. -/
def bind (machine : Machine) (signature : String) (routine : Routine) : Machine :=
  { machine with registry := { machine.registry with
    bindings := machine.registry.bindings.put signature routine } }

/-- The loaded module with a name. -/
def module (machine : Machine) (name : String) : Except Error Module :=
  Error.keyDoesNotExist.orElse (machine.registry.modules.find? name)

/-- The initializer of the module with a name. -/
def initializer (machine : Machine) (name : String) : Except Error Function := do
  return .script (← Error.keyDoesNotExist.orElse (machine.registry.initializers.find? name))

end Machine

namespace Work

/-- Registers a function under a new signature. -/
def addFunction (function : Function) : Work Machine Unit := do
  orFail (← get).checkOpen
  if (← get).registry.functions.contains function.signature then throw .keyAlreadyExists
  modify fun machine => { machine with registry := { machine.registry with
    functions := machine.registry.functions.add function.signature function } }

/-- Registers a native function that no module declares, bound to a callback. -/
def addNative (signature : String) (parameters returns : UInt16) (callback : Nat) :
    Work Machine Unit := do
  addFunction (.host ⟨signature, parameters, returns, none, none⟩)
  modify (·.bind signature (.callback callback))

/-- Registers a built-in function that is done by a callback. -/
def addBuiltIn (signature : String) (parameters returns : UInt16) (callback : Nat) :
    Work Machine Unit :=
  addFunction (.host ⟨signature, parameters, returns, none, some (.callback callback)⟩)

/-- Binds a native function to a callback, in place of an earlier one. -/
def bindNative (signature : String) (callback : Nat) : Work Machine Unit := do
  match ← orFail ((← get).function signature) with
  | .host ⟨_, _, _, _, none⟩ => modify (·.bind signature (.callback callback))
  | _ => throw .invalidType

end Work

namespace Machine

/-- The machine with a new function. -/
def addFunction (machine : Machine) (function : Function) : Except Error Machine :=
  (Work.addFunction function).changed machine

/-- The machine with a new native function. -/
def addNative (machine : Machine) (signature : String) (parameters returns : UInt16)
    (callback : Nat) : Except Error Machine :=
  (Work.addNative signature parameters returns callback).changed machine

/-- The machine with a new built-in function. -/
def addBuiltIn (machine : Machine) (signature : String) (parameters returns : UInt16)
    (callback : Nat) : Except Error Machine :=
  (Work.addBuiltIn signature parameters returns callback).changed machine

/-- The machine with a native function bound to a callback. -/
def bindNative (machine : Machine) (signature : String) (callback : Nat) : Except Error Machine :=
  (Work.bindNative signature callback).changed machine

end Machine

end ScriptVm
