import ScriptVm.Collector
import ScriptVm.Config
import ScriptVm.Execution.Basic
import ScriptVm.Journal
import ScriptVm.Machine.Registry
import ScriptVm.Work

/-!
# The machine

Everything that executions share: the settings, what is known by name, the heap with its collector,
and the journal. Storing a reference anywhere marks it while the collector marks roots.
-/
namespace ScriptVm

/-- What executions share. -/
structure Machine where
  /-- Settings. -/
  config : Config
  /-- What is known by name. -/
  registry : Registry
  /-- The heap with its collector. -/
  collector : Collector
  /-- What has been reported. -/
  journal : Journal := {}
  /-- New modules, functions and executions are refused. -/
  closed : Bool := false
  /-- Count of host data stored so far, by which they are identified. -/
  nativeCount : Nat := 0

namespace Machine

/-- A fresh machine with checked settings. -/
def create (config : Config) : Except Error Machine := do
  config.check
  return {
    config
    registry := Registry.initial
    collector := Collector.create config.stepBudget.toNat }

/-- The heap. -/
def heap (machine : Machine) : Heap := machine.collector.heap

/-- Changes the heap, in place as long as nothing else holds the machine. -/
def updateHeap (machine : Machine) (change : Heap → Heap) : Machine :=
  { machine with
    collector := { machine.collector with heap := change machine.collector.heap } }

/-- Reports an event. -/
def note (machine : Machine) (event : Event) : Machine :=
  { machine with journal := machine.journal.note event }

/-- A closed machine refuses the call. -/
def checkOpen (machine : Machine) : Except Error Unit :=
  if machine.closed then .error .shutdown else .ok ()

/-- Closes the machine. -/
def close (machine : Machine) : Machine := { machine with closed := true }

/-- Marks a stored reference while roots are being marked. -/
def shade (machine : Machine) (value : Ref) : Machine :=
  { machine with collector := machine.collector.shade value.handle }

/-- The heap has room for a number of further proxies. -/
def checkRoom (machine : Machine) (count : Nat) : Except Error Unit :=
  if machine.heap.hasRoom count then .ok () else .error .badAllocation

/-- Allocates a proxy. The caller has checked that there is room. -/
def allocate (machine : Machine) (cell : Cell) (pinned : Bool) : Handle × Machine :=
  let { config, registry, collector, journal, closed, nativeCount } := machine
  let (handle, collector) := collector.allocate cell pinned
  (handle, ⟨config, registry, collector, journal, closed, nativeCount⟩)

/-- A new value, or the null reference when the heap is full. -/
def newValue (machine : Machine) (value : Value) (pinned : Bool) : Ref × Machine :=
  if machine.heap.hasRoom 1 then
    let (handle, machine) := machine.allocate (.value value) pinned
    (⟨handle⟩, machine)
  else (Ref.null, machine)

/-- The object type with a name. -/
def schema (machine : Machine) (typeName : String) : Except Error Schema :=
  Error.keyDoesNotExist.orElse (machine.registry.schemas.find? typeName)

/-- What handlers look at in a raised value: its kind, and the class of an object. A reference
whose value is gone counts as null. -/
def thrown (machine : Machine) (value : Ref) : Kind × Option String :=
  match machine.heap.value? value with
  | some (.object reference) =>
    (.object, (machine.heap.object? reference).map fun object => object.schema.typeName)
  | some other => (other.kind, none)
  | none => (.null, none)

/-- Replaces the reference in a known global. -/
def setGlobal (machine : Machine) (name : String) (value : Ref) : Machine :=
  { machine with registry := { machine.registry with
    globals := machine.registry.globals.replace name value } }.shade value

end Machine

namespace Work

/-- Allocates a proxy, if the heap has room for it. -/
def allocate (cell : Cell) (pinned : Bool) : Work Machine Handle := do
  orFail ((← get).checkRoom 1)
  modifyGet (·.allocate cell pinned)

/-- A new value for an object. The object is allocated first, and it is left behind when there is no
room for its value. -/
def newInstance (object : Object) (pinned : Bool) : Work Machine Ref := do
  let inner ← allocate (.object object) false
  return ⟨← allocate (.value (.object ⟨inner⟩)) pinned⟩

/-- A new object of a type, with every member null. -/
def newObject (typeName : String) (pinned : Bool) : Work Machine Ref := do
  let schema ← orFail ((← get).schema typeName)
  newInstance (Object.blank schema) pinned

/-- A new standard exception. Its message is allocated before its object, and what has been
allocated is left behind when there is no room for the rest. -/
def newException (exception : ExceptionClass) (message : String) (pinned : Bool) :
    Work Machine Ref := do
  let schema ← orFail ((← get).schema exception.name)
  let member ← orFail (schema.member ExceptionClass.messageMember)
  let text ← allocate (.value (.string message)) false
  let object ← orFail ((Object.blank schema).set member.index ⟨text⟩)
  newInstance object pinned

end Work

end ScriptVm
