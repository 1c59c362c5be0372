/-!
# Handles and references

A handle names a slot of the heap together with the slot's generation, so that it stops resolving
once the slot has been disposed of. A reference is a handle known to name a value, or an object.
-/
namespace ScriptVm

/-- A slot of the heap at one generation. -/
structure Handle where
  /-- Position of the slot. -/
  index : Nat
  /-- How often the slot had been disposed of, as a 32-bit word. -/
  generation : UInt32
  deriving DecidableEq, Repr, Inhabited

/-- The handle of the null value, which is never disposed of. -/
def Handle.null : Handle := ⟨0, 0⟩

/-- A reference to a value. -/
structure Ref where
  /-- Where the value is. -/
  handle : Handle
  deriving DecidableEq, Repr, Inhabited

namespace Ref

/-- The reference to the null value. -/
def null : Ref := ⟨Handle.null⟩

/-- The reference is the one to the null value. -/
def isNull (reference : Ref) : Bool := reference = null

end Ref

/-- A reference to a script object. -/
structure ObjectRef where
  /-- Where the object is. -/
  handle : Handle
  deriving DecidableEq, Repr, Inhabited

end ScriptVm
