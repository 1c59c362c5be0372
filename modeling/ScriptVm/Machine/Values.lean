import ScriptVm.Machine.Basic

/-!
# Values for the embedding program

Creating, reading and changing values from outside. A created value is pinned. Every reference that
is passed in has to resolve, which is checked before anything is changed.
-/
namespace ScriptVm

namespace Machine

/-- The greatest length for which memory is granted to an array. It is a limit of the allocator,
which is asked for the memory before anything is changed; the virtual machine has no limit of its
own. -/
def arrayCapacity : Nat := UInt32.size

/-- A reference resolves. -/
def checkValue (machine : Machine) (value : Ref) : Except Error Unit :=
  if machine.heap.contains value.handle then .ok () else .error .invalidArgument

/-- A new pinned value; null needs no allocation. -/
def createValue (machine : Machine) (value : Value) : Ref × Machine :=
  match value with
  | .null => (Ref.null, machine)
  | value => machine.newValue value true

/-- A new pinned array of nulls, or null when no memory is granted for it. -/
def createArray (machine : Machine) (length : Nat) : Ref × Machine :=
  if arrayCapacity < length then (Ref.null, machine)
  else machine.newValue (.array (Array.replicate length Ref.null)) true

/-- The function with a signature. -/
def function (machine : Machine) (signature : String) : Except Error Function :=
  Error.keyDoesNotExist.orElse (machine.registry.functions.find? signature)

/-- A new pinned value for data of the embedding program. -/
def createNative (machine : Machine) (content : UInt64) : Ref × Machine :=
  { machine with nativeCount := machine.nativeCount + 1 }.newValue
    (.native ⟨machine.nativeCount, content⟩) true

/-- The value behind a reference. -/
def value (machine : Machine) (reference : Ref) : Except Error Value :=
  Error.invalidArgument.orElse (machine.heap.value? reference)

/-- A value is pinned. -/
def isPinned (machine : Machine) (value : Ref) : Except Error Bool :=
  Error.invalidArgument.orElse ((machine.heap.proxy? value.handle).map Proxy.pinned)

/-- The kind of a value. -/
def kind (machine : Machine) (reference : Ref) : Except Error Kind := do
  return (← machine.value reference).kind

/-- The text of a string. -/
def string (machine : Machine) (reference : Ref) : Except Error String := do
  match ← machine.value reference with
  | .string text => return text
  | _ => throw .invalidType

/-- The elements of an array. -/
def items (machine : Machine) (reference : Ref) : Except Error (Array Ref) := do
  match ← machine.value reference with
  | .array items => return items
  | _ => throw .invalidType

/-- The length of an array. -/
def arrayLength (machine : Machine) (reference : Ref) : Except Error Nat := do
  return (← machine.items reference).size

/-- An element of an array. -/
def element (machine : Machine) (reference : Ref) (index : Nat) : Except Error Ref := do
  Error.indexOutOfRange.orElse (← machine.items reference)[index]?

/-- The reference to the object of an object value. -/
def objectRef (machine : Machine) (reference : Ref) : Except Error ObjectRef := do
  match ← machine.value reference with
  | .object object => return object
  | _ => throw .invalidType

/-- The object behind a reference. -/
def object (machine : Machine) (reference : ObjectRef) : Except Error Object :=
  Error.invalidArgument.orElse (machine.heap.object? reference)

/-- The type name of an object. -/
def typeName (machine : Machine) (reference : Ref) : Except Error String := do
  return (← machine.object (← machine.objectRef reference)).schema.typeName

/-- A member of an object. -/
def member (machine : Machine) (reference : Ref) (name : String) : Except Error Ref := do
  let object ← machine.object (← machine.objectRef reference)
  object.get (← object.schema.member name).index

/-- Pins a value; a reference that leads nowhere is left alone. -/
def pin (machine : Machine) (value : Ref) : Machine :=
  match machine.heap.setPinned value.handle true with
  | some heap => machine.updateHeap fun _ => heap
  | none => machine

end Machine

namespace Work

/-- A new pinned array of given elements. -/
def createArrayOf (items : Array Ref) : Work Machine Ref := do
  let machine ← get
  orFail (items.toList.forM machine.checkValue)
  modifyGet (·.newValue (.array items) true)

/-- A new pinned object of a type. -/
def createObject (typeName : String) : Work Machine Ref := newObject typeName true

/-- A new pinned value for a function. -/
def createFunctionValue (signature : String) : Work Machine Ref := do
  let function ← orFail ((← get).function signature)
  modifyGet (·.newValue (.function function) true)

/-- A new pinned standard exception. -/
def createException (exception : ExceptionClass) (message : String) : Work Machine Ref :=
  newException exception message true

/-- A new pinned value with the same payload; null is not copied. -/
def copy (reference : Ref) : Work Machine Ref := do
  if reference.isNull then return Ref.null
  let value ← orFail ((← get).value reference)
  modifyGet (·.newValue value true)

/-- Pins or unpins a value. -/
def setPinned (value : Ref) (pinned : Bool) : Work Machine Unit := do
  let heap ← orFail
    (Error.invalidArgument.orElse ((← get).heap.setPinned value.handle pinned))
  modify (·.updateHeap fun _ => heap)

/-- Puts a reference into an element of an array. -/
def setElement (reference : Ref) (index : Nat) (value : Ref) : Work Machine Unit := do
  orFail ((← get).checkValue value)
  if reference.isNull then throw .invalidArgument
  let items ← orFail ((← get).items reference)
  if items.size ≤ index then throw .indexOutOfRange
  modify fun machine =>
    (machine.updateHeap (·.setElement reference.handle index value)).shade value

/-- Puts a reference into a member of an object, which holds null or values of its declared kind. -/
def setMember (reference : Ref) (name : String) (value : Ref) : Work Machine Unit := do
  let inner ← orFail ((← get).objectRef reference)
  let kind ← orFail ((← get).kind value)
  let object ← orFail ((← get).object inner)
  let member ← orFail (object.schema.member name)
  if kind ≠ .null ∧ kind ≠ member.kind then throw .invalidType
  let object ← orFail (object.set member.index value)
  modify fun machine =>
    (machine.updateHeap (·.setCell inner.handle (.object object))).shade value

/-- The reference in a global, which is pinned. -/
def global (name : String) : Work Machine Ref := do
  let value ← orFail (Error.keyDoesNotExist.orElse ((← get).registry.globals.find? name))
  modify (·.pin value)
  return value

/-- Puts a reference into a known global. -/
def assignGlobal (name : String) (value : Ref) : Work Machine Unit := do
  orFail ((← get).checkValue value)
  if (← get).registry.globals.contains name then modify (·.setGlobal name value)
  else throw .keyDoesNotExist

/-- Declares a new global. -/
def addGlobal (name : String) (value : Ref) : Work Machine Unit := do
  orFail ((← get).checkValue value)
  if (← get).registry.globals.contains name then throw .keyAlreadyExists
  modify fun machine => { machine with registry := { machine.registry with
    globals := machine.registry.globals.add name value } }.shade value

end Work

namespace Machine

/-- The new array, and the machine with it. -/
def createArrayOf (machine : Machine) (items : Array Ref) : Except Error (Ref × Machine) :=
  (Work.createArrayOf items).result machine

/-- The new object, and the machine with it. -/
def createObject (machine : Machine) (typeName : String) : Except Error (Ref × Machine) :=
  (Work.createObject typeName).result machine

/-- The new value for a function, and the machine with it. -/
def createFunctionValue (machine : Machine) (signature : String) : Except Error (Ref × Machine) :=
  (Work.createFunctionValue signature).result machine

/-- The new exception, and the machine with it. -/
def createException (machine : Machine) (exception : ExceptionClass) (message : String) :
    Except Error (Ref × Machine) :=
  (Work.createException exception message).result machine

/-- The new value with the same payload, and the machine with it. -/
def copy (machine : Machine) (reference : Ref) : Except Error (Ref × Machine) :=
  (Work.copy reference).result machine

/-- The machine with a value pinned or unpinned. -/
def setPinned (machine : Machine) (value : Ref) (pinned : Bool) : Except Error Machine :=
  (Work.setPinned value pinned).changed machine

/-- The machine with a reference put into an element of an array. -/
def setElement (machine : Machine) (reference : Ref) (index : Nat) (value : Ref) :
    Except Error Machine :=
  (Work.setElement reference index value).changed machine

/-- The machine with a reference put into a member of an object. -/
def setMember (machine : Machine) (reference : Ref) (name : String) (value : Ref) :
    Except Error Machine :=
  (Work.setMember reference name value).changed machine

/-- The reference in a global, and the machine in which it is pinned. -/
def global (machine : Machine) (name : String) : Except Error (Ref × Machine) :=
  (Work.global name).result machine

/-- The machine with a reference put into a known global. -/
def assignGlobal (machine : Machine) (name : String) (value : Ref) : Except Error Machine :=
  (Work.assignGlobal name value).changed machine

/-- The machine with a new global. -/
def addGlobal (machine : Machine) (name : String) (value : Ref) : Except Error Machine :=
  (Work.addGlobal name value).changed machine

end Machine

end ScriptVm
