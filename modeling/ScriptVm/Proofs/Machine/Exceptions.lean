import ScriptVm.Proofs.Machine.Edits
import ScriptVm.Proofs.Machine.Garbage

/-!
# New exceptions

A new standard exception is an object of the class of its fault, under handles that had not been
handed out, and its only member holds the message of the fault. Nothing that was there before
changes.
-/
namespace ScriptVm

namespace Machine

variable {machine middle after : Machine}

/-- A machine holds a new exception for a fault under a reference, compared with an earlier
machine. -/
structure Excepts (earlier : Machine) (fault : Fault) (value : Ref) (machine : Machine) : Prop where
  /-- The value had not been handed out. -/
  fresh : ¬earlier.heap.Issued value.handle
  /-- It is an object that had not been handed out, either. Its type is the class of the fault, and
  its first member is the message of the fault. -/
  made : ∃ reference object text, machine.heap.value? value = some (.object reference) ∧
    ¬earlier.heap.Issued reference.handle ∧ machine.heap.object? reference = some object ∧
    object.schema.typeName = fault.exception.name ∧
    object.schema.member ExceptionClass.messageMember = .ok ⟨0, .string⟩ ∧
    object.members[0]? = some text ∧ machine.heap.value? text = some (.string fault.message)

/-- An exception is the same in every machine with the same values and objects. -/
theorem Excepts.of_same {earlier : Machine} {fault : Fault} {value : Ref}
    (excepts : earlier.Excepts fault value machine)
    (values : ∀ reference, after.heap.value? reference = machine.heap.value? reference)
    (objects : ∀ reference, after.heap.object? reference = machine.heap.object? reference) :
    earlier.Excepts fault value after := by
  refine ⟨excepts.fresh, ?_⟩
  simp only [values, objects]
  exact excepts.made

/-- An exception is thrown as an object of the class of its fault. -/
theorem Excepts.thrown {earlier : Machine} {fault : Fault} {value : Ref}
    (excepts : earlier.Excepts fault value machine) :
    machine.thrown value = (.object, some fault.exception.name) := by
  obtain ⟨reference, object, _, shown, _, found, typed, _⟩ := excepts.made
  simp only [Machine.thrown, shown, found, Option.map_some, typed]

/-- Values stay when garbage is left. -/
theorem Scatters.value? (scatters : machine.Scatters after) {reference : Ref} {value : Value}
    (found : machine.heap.value? reference = some value) :
    after.heap.value? reference = some value := by
  obtain ⟨⟨_, _, _, _⟩, resolved, rfl⟩ := Heap.proxy?_of_value? found
  obtain ⟨marked, named⟩ := scatters.proxies _ _ resolved
  rw [Heap.value?, named]

/-- Objects stay when garbage is left. -/
theorem Scatters.object? (scatters : machine.Scatters after) {reference : ObjectRef}
    {object : Object} (found : machine.heap.object? reference = some object) :
    after.heap.object? reference = some object := by
  obtain ⟨⟨_, _, _, _⟩, resolved, rfl⟩ := Heap.proxy?_of_object? found
  obtain ⟨marked, named⟩ := scatters.proxies _ _ resolved
  rw [Heap.object?, named]

/-- What has been allocated is behind its handle. -/
theorem placed_allocate (orderly : machine.collector.Orderly) (cell : Cell) (pinned : Bool) :
    ∃ proxy, (machine.allocate cell pinned).2.heap.proxy? (machine.allocate cell pinned).1 =
      some proxy ∧ proxy.cell = cell := by
  obtain ⟨_, named⟩ := Collector.Orderly.placed_allocate orderly cell pinned
  exact ⟨_, named, rfl⟩

/-- A new value is behind its reference. -/
theorem value?_allocate (orderly : machine.collector.Orderly) (value : Value) (pinned : Bool) :
    (machine.allocate (.value value) pinned).2.heap.value?
      ⟨(machine.allocate (.value value) pinned).1⟩ = some value := by
  obtain ⟨⟨_, _, _, _⟩, named, rfl⟩ := placed_allocate orderly (.value value) pinned
  rw [Heap.value?, named]

/-- A new object is behind its reference. -/
theorem object?_allocate (orderly : machine.collector.Orderly) (object : Object) (pinned : Bool) :
    (machine.allocate (.object object) pinned).2.heap.object?
      ⟨(machine.allocate (.object object) pinned).1⟩ = some object := by
  obtain ⟨⟨_, _, _, _⟩, named, rfl⟩ := placed_allocate orderly (.object object) pinned
  rw [Heap.object?, named]

/-- The handle of what is allocated had not been handed out. -/
theorem not_issued_allocate (orderly : machine.collector.Orderly) (cell : Cell) (pinned : Bool) :
    ¬machine.heap.Issued (machine.allocate cell pinned).1 :=
  machine.collector.heap.not_issued_allocate cell pinned orderly.lawful.vacant

/-- Making an exception allocates its message, its object and its value, one after the other. -/
theorem excepts_newException (orderly : machine.collector.Orderly) (fault : Fault) :
    machine.Excepts fault
      (machine.newException (Object.blank (Registry.standardSchema fault.exception), 0)
        fault.message false).1
      (machine.newException (Object.blank (Registry.standardSchema fault.exception), 0)
        fault.message false).2 := by
  let blank := Object.blank (Registry.standardSchema fault.exception)
  let text := machine.allocate (.value (.string fault.message)) false
  let object : Object := { blank with members := blank.members.setIfInBounds 0 ⟨text.1⟩ }
  let inner := text.2.allocate (.object object) false
  have told : text.2.collector.Orderly := orderly.allocate _ false
  have placed : inner.2.collector.Orderly := told.allocate _ false
  have first : machine.Scatters text.2 := scatters_allocate orderly _
  have second : text.2.Scatters inner.2 := scatters_allocate told _
  have third : inner.2.Scatters (inner.2.allocate (.value (.object ⟨inner.1⟩)) false).2 :=
    scatters_allocate placed _
  have message := value?_allocate orderly (.string fault.message) false
  refine ⟨?_, ⟨inner.1⟩, object, ⟨text.1⟩, value?_allocate placed _ false, ?_,
    third.object? (object?_allocate told object false), rfl, rfl, rfl,
    third.value? (second.value? message)⟩
  · intro issued
    exact not_issued_allocate placed _ false ((first.trans second).issued _ issued)
  · intro issued
    exact not_issued_allocate told _ false (first.issued _ issued)

end Machine

end ScriptVm
