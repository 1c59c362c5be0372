import ScriptVm.Step.Basic

/-!
# Places

A place is a location that an instruction reads or writes, with the names and the container that
address it already looked up. Loading reads a place, storing writes it, and pulling reads it and
then writes null.
-/
namespace ScriptVm

/-- A location of a reference. -/
inductive Place where
  | global (name : String)
  | local (name : String)
  | parameter (index : Nat)
  | member (target : Ref) (name : String)
  | element (target : Ref) (index : Nat)
  deriving DecidableEq, Repr, Inhabited

namespace Place

/-- The global whose name has an index. -/
def ofGlobal (name : UInt32) : Step Place := do return .global (← Step.name name)

/-- The local variable whose name has an index. -/
def ofLocal (name : UInt32) : Step Place := do return .local (← Step.name name)

/-- The parameter register with an index. -/
def ofParameter (index : UInt32) : Step Place := return .parameter index.toNat

/-- The member, whose name has an index, of the object in a register. -/
def ofMember (register name : UInt32) : Step Place := do
  let name ← Step.name name
  return .member (← Step.register register) name

/-- The element with an index of the array in a register. -/
def ofElement (register index : UInt32) : Step Place := do
  return .element (← Step.register register) index.toNat

/-- The object behind a reference to an object value. -/
def object (target : Ref) : Step (ObjectRef × Object) := do
  match ← Step.value target with
  | .object reference =>
    let object ← Step.found .collectedObject ((← get).machine.heap.object? reference)
    return (reference, object)
  | other => throw (.unmet .object other.kind)

/-- The member of an object with a name. -/
def memberOf (object : Object) (name : String) : Step Member :=
  match object.schema.member name with
  | .ok found => pure found
  | .error _ => throw (.noMember object.schema.typeName name)

/-- The reference at a place. -/
def read : Place → Step Ref
  | .global name => do
    Step.found (.unknownGlobal name) ((← get).machine.registry.globals.find? name)
  | .local name => do
    Step.found (.unknownLocal name) ((← get).frame.locals.find? name)
  | .parameter index => Step.parameter index
  | .member target name => do
    let (_, object) ← object target
    let member ← memberOf object name
    Step.orFault (object.get member.index)
  | .element target index => do
    match ← Step.value target with
    | .array items => Step.found (.elementOutOfRange index items.size) items[index]?
    | other => throw (.unmet .array other.kind)

/-- Puts a reference into a global. -/
def writeGlobal (name : String) (value : Ref) : Step Unit := do
  if (← get).machine.registry.globals.contains name then
    Step.onMachine (·.setGlobal name value)
  else throw (.unknownGlobal name)

/-- Puts a reference into a local variable. -/
def writeLocal (name : String) (value : Ref) : Step Unit := do
  match (← get).frame.setLocalValue name value with
  | .ok frame => do
    Step.setFrame frame
    Step.shade value
  | .error _ => throw (.unknownLocal name)

/-- Puts a reference into a member, which holds null or values of its declared kind. -/
def writeMember (target : Ref) (name : String) (value : Ref) : Step Unit := do
  let kind := (← Step.value value).kind
  let (reference, object) ← object target
  let member ← memberOf object name
  if kind ≠ .null ∧ kind ≠ member.kind then throw (.memberKind name member.kind kind)
  let object ← Step.orFault (object.set member.index value)
  Step.onMachine (·.updateHeap (·.setCell reference.handle (.object object)))
  Step.shade value

/-- Puts a reference into an element of an array. -/
def writeElement (target : Ref) (index : Nat) (value : Ref) : Step Unit := do
  if target.isNull then throw .lostArray
  match (← get).machine.heap.value? target with
  | none => throw .lostArray
  | some (.array items) =>
    if index < items.size then
      Step.onMachine (·.updateHeap (·.setElement target.handle index value))
      Step.shade value
    else throw (.elementOutOfRange index items.size)
  | some other => throw (.unmet .array other.kind)

/-- Puts a reference into a place. -/
def write (place : Place) (value : Ref) : Step Unit :=
  match place with
  | .global name => writeGlobal name value
  | .local name => writeLocal name value
  | .parameter index => Step.setParameter index value
  | .member target name => writeMember target name value
  | .element target index => writeElement target index value

end Place

end ScriptVm
