import ScriptVm.BuiltIn
import ScriptVm.Fault
import ScriptVm.Heap.Object
import ScriptVm.Table

/-!
# The registry

What a machine knows by name: modules with their initializers, functions, globals and object types.
Entries are added and never taken away.
-/
namespace ScriptVm

/-- What is known by name. -/
structure Registry where
  /-- Loaded modules. -/
  modules : Table Module := {}
  /-- The initializer of each module, by the module's name. -/
  initializers : Table ScriptFunction := {}
  /-- Functions by signature. -/
  functions : Table Function := {}
  /-- The routines bound to native functions, by signature. -/
  bindings : Table Routine := {}
  /-- Global variables. -/
  globals : Table Ref := {}
  /-- Object types by type name. -/
  schemas : Table Schema := {}

namespace Registry

/-- The object type of a standard exception: its message is its only member. -/
def standardSchema (exception : ExceptionClass) : Schema :=
  ⟨exception.name, [(ExceptionClass.messageMember, .string)]⟩

/-- The registry of a fresh machine: the built-in functions and the standard exceptions. -/
def initial : Registry where
  functions := BuiltIn.functions
  schemas := ⟨ExceptionClass.all.map fun exception => (exception.name, standardSchema exception)⟩

/-- The routine of a host function: its own, or the one bound to its signature. -/
def routine? (registry : Registry) (function : HostFunction) : Option Routine :=
  match function.routine with
  | some routine => some routine
  | none => registry.bindings.find? function.signature

/-- The routine of a function. -/
def callable? (registry : Registry) : Function → Option Routine
  | .script _ => none
  | .host function => registry.routine? function

end Registry

end ScriptVm
