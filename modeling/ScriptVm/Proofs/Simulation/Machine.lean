import ScriptVm.Proofs.Machine.Moves
import ScriptVm.Proofs.Simulation.Pairing

/-!
# Machines that agree

Two machines agree when they differ by what a pairing of handles hides, by their journals and by
the state of the collection under way. Every operation of instructions keeps this: applied to paired
references on both sides it gives the same answer, paired results, and machines that agree under a
pairing with more pairs. Neither journal blames the collector.
-/
namespace ScriptVm

/-- The fault of a reference to something that has been collected. -/
def Fault.blamesCollector : Fault → Bool
  | .collectedValue | .collectedObject => true
  | _ => false

/-- No fault in the journal blames the collector. -/
def Journal.Clean (journal : Journal) : Prop :=
  ∀ fault, Event.faulted fault ∈ journal.events → fault.blamesCollector = false

/-- A clean journal with one more event. -/
theorem Journal.Clean.note {journal : Journal} (clean : journal.Clean) {event : Event}
    (fine : ∀ fault, event = .faulted fault → fault.blamesCollector = false) :
    (journal.note event).Clean := by
  intro fault member
  rcases List.mem_cons.mp member with same | earlier
  · exact fine fault same.symm
  · exact clean fault earlier

/-- The constants of a module stand for themselves. -/
def Module.Anchored (pairing : Pairing) (module : Module) : Prop :=
  ∀ constant ∈ module.constants, pairing.Refs constant constant

/-- Two machines that differ by what a pairing of handles hides. -/
structure Machine.Agrees (pairing : Pairing) (room : Nat) (left right : Machine) : Prop where
  /-- The collectors. -/
  collector : left.collector.Agrees pairing room right.collector
  /-- The settings are the same. -/
  config : right.config = left.config
  /-- What is known by name is the same, apart from what globals hold. -/
  registry : right.registry = { left.registry with globals := right.registry.globals }
  /-- Globals hold paired references. -/
  globals : pairing.Tables left.registry.globals right.registry.globals
  /-- The constants of loaded modules stand for themselves. -/
  constants : ∀ module ∈ left.registry.modules.values, module.Anchored pairing
  /-- The left journal is clean. -/
  clean : left.journal.Clean
  /-- The right journal is clean. -/
  clean' : right.journal.Clean

namespace Machine.Agrees

variable {pairing : Pairing} {room : Nat} {left right : Machine} {first second : Ref}

/-- Less room is looked at. -/
theorem less (agrees : left.Agrees pairing room right) {less : Nat} (bound : less ≤ room) :
    left.Agrees pairing less right :=
  { agrees with collector := agrees.collector.less bound }

/-- Other collectors that agree under more pairs. -/
theorem withCollector (agrees : left.Agrees pairing room right) {more : Pairing} {less : Nat}
    {collector collector' : Collector} (grows : pairing.Grows more)
    (collectors : collector.Agrees more less collector') :
    Machine.Agrees more less { left with collector } { right with collector := collector' } := by
  refine ⟨collectors, agrees.config, agrees.registry, agrees.globals.mono grows, ?_, agrees.clean,
    agrees.clean'⟩
  intro module loaded constant member
  exact (agrees.constants module loaded constant member).mono grows

/-- Any references are shaded. -/
theorem shade (agrees : left.Agrees pairing room right) (first second : Ref) :
    (left.shade first).Agrees pairing room (right.shade second) :=
  agrees.withCollector (.refl pairing) (agrees.collector.shade _ _)

/-- Events are reported on both sides. -/
theorem note (agrees : left.Agrees pairing room right) {event event' : Event}
    (fine : ∀ fault, event = .faulted fault → fault.blamesCollector = false)
    (fine' : ∀ fault, event' = .faulted fault → fault.blamesCollector = false) :
    (left.note event).Agrees pairing room (right.note event') :=
  { agrees with clean := agrees.clean.note fine, clean' := agrees.clean'.note fine' }

/-- Paired references to values. -/
theorem value? (agrees : left.Agrees pairing room right) (paired : pairing.Refs first second) :
    ∃ value value', left.heap.value? first = some value ∧ right.heap.value? second = some value' ∧
      value.Agrees pairing value' :=
  agrees.collector.value? paired

/-- The same room is found. -/
theorem checkRoom (agrees : left.Agrees pairing room right) {count : Nat} (small : count ≤ room) :
    right.checkRoom count = left.checkRoom count := by
  have same : left.heap.hasRoom count = right.heap.hasRoom count :=
    agrees.collector.room count small
  simp only [Machine.checkRoom, same]

/-- The same object types are found. -/
theorem schema (agrees : left.Agrees pairing room right) (typeName : String) :
    right.schema typeName = left.schema typeName := by
  unfold Machine.schema
  rw [agrees.registry]

/-- The same functions are found. -/
theorem functions (agrees : left.Agrees pairing room right) :
    right.registry.functions = left.registry.functions := by
  rw [agrees.registry]

/-- Paired references to null are the same ones. -/
theorem isNull (agrees : left.Agrees pairing room right) (paired : pairing.Refs first second) :
    second.isNull = first.isNull := by
  have same := agrees.collector.eq_iff paired agrees.collector.null
  have refs : ∀ reference : Ref, reference.isNull = true ↔ reference.handle = Handle.null := by
    rintro ⟨handle⟩
    simp [Ref.isNull, Ref.null]
  rw [Bool.eq_iff_iff, refs, refs]
  exact same.symm

variable {value value' : Value} {object object' : Object}

/-- The result of an operation on both sides: paired references, and machines that agree. -/
def Results (pairing : Pairing) (room : Nat) (result result' : Ref × Machine) : Prop :=
  ∃ more, pairing.Grows more ∧ more.Refs result.1 result'.1 ∧
    result.2.Agrees more room result'.2

/-- Agreeing values are allocated. -/
theorem allocateValue (agrees : left.Agrees pairing (room + 1) right)
    (values : value.Agrees pairing value') (pinned pinned' : Bool) :
    Results pairing room
      (⟨(left.allocate (.value value) pinned).1⟩, (left.allocate (.value value) pinned).2)
      (⟨(right.allocate (.value value') pinned').1⟩,
        (right.allocate (.value value') pinned').2) := by
  have grows := pairing.grows_extend .value (left.allocate (.value value) pinned).1
    (right.allocate (.value value') pinned').1
  exact ⟨_, grows, pairing.extend_self _ _ _,
    agrees.withCollector grows (agrees.collector.allocate (.value values) pinned pinned')⟩

/-- New values, if there is room. -/
theorem newValue (agrees : left.Agrees pairing (room + 1) right)
    (values : value.Agrees pairing value') (pinned pinned' : Bool) :
    Results pairing room (left.newValue value pinned) (right.newValue value' pinned') := by
  have same : left.heap.hasRoom 1 = right.heap.hasRoom 1 := agrees.collector.room 1 (by omega)
  unfold Machine.newValue
  rw [← same]
  split
  · exact agrees.allocateValue values pinned pinned'
  · exact ⟨pairing, .refl pairing, agrees.collector.null, agrees.less (by omega)⟩

/-- Agreeing objects are allocated. -/
theorem allocateObject (agrees : left.Agrees pairing (room + 1) right)
    (objects : object.Agrees pairing object') :
    ∃ more, pairing.Grows more ∧
      (Value.object ⟨(left.allocate (.object object) false).1⟩).Agrees more
        (.object ⟨(right.allocate (.object object') false).1⟩) ∧
      (left.allocate (.object object) false).2.Agrees more room
        (right.allocate (.object object') false).2 := by
  have grows := pairing.grows_extend .object (left.allocate (.object object) false).1
    (right.allocate (.object object') false).1
  exact ⟨_, grows, .object (pairing.extend_self .object _ _),
    agrees.withCollector grows (agrees.collector.allocate (.object objects) false false)⟩

/-- New values for new objects. -/
theorem newInstance (agrees : left.Agrees pairing (room + 2) right)
    (objects : object.Agrees pairing object') (pinned pinned' : Bool) :
    Results pairing room (left.newInstance object pinned) (right.newInstance object' pinned') := by
  have start : left.Agrees pairing (room + 1 + 1) right := agrees
  obtain ⟨some, grows, values, inner⟩ := start.allocateObject objects
  obtain ⟨more, grows', paired, outer⟩ := inner.allocateValue values pinned pinned'
  exact ⟨more, grows.trans grows', paired, outer⟩

/-- The same is left of instances for which there is no room. -/
theorem withScrap (agrees : left.Agrees pairing (room + 1) right)
    (objects : object.Agrees pairing object') :
    ∃ more, pairing.Grows more ∧
      (left.withScrap object).Agrees more room (right.withScrap object') := by
  have same : left.heap.hasRoom 1 = right.heap.hasRoom 1 := agrees.collector.room 1 (by omega)
  unfold Machine.withScrap
  rw [← same]
  split
  · obtain ⟨more, grows, _, inner⟩ := agrees.allocateObject objects
    exact ⟨more, grows, inner⟩
  · exact ⟨pairing, .refl pairing, agrees.less (by omega)⟩

/-- The objects of exceptions agree when their messages do. -/
theorem filled_agrees {more : Pairing} {template : Object × Nat}
    (objects : template.1.Agrees pairing template.1) (grows : pairing.Grows more)
    {text text' : Handle} (paired : more.Refs ⟨text⟩ ⟨text'⟩) :
    (Machine.filled template text).Agrees more (Machine.filled template text') := by
  refine ⟨rfl, ?_⟩
  simp only [Machine.filled, Array.toList_setIfInBounds]
  exact (objects.members.mono grows).set paired template.2

/-- New exceptions from one template. -/
theorem newException (agrees : left.Agrees pairing (room + 3) right) {template : Object × Nat}
    (objects : template.1.Agrees pairing template.1) (message : String) (pinned pinned' : Bool) :
    Results pairing room (left.newException template message pinned)
      (right.newException template message pinned') := by
  have text : (Value.string message).Agrees pairing (.string message) := .leaf trivial
  obtain ⟨more, grows, paired, texts⟩ := agrees.allocateValue text false false
  obtain ⟨most, grows', paired', made⟩ :=
    texts.newInstance (filled_agrees objects grows paired) pinned pinned'
  exact ⟨most, grows.trans grows', paired', made⟩

/-- The same is left of exceptions for which there is no room. -/
theorem withScraps (agrees : left.Agrees pairing (room + 2) right) {template : Object × Nat}
    (objects : template.1.Agrees pairing template.1) (message : String) :
    ∃ more, pairing.Grows more ∧
      (left.withScraps template message).Agrees more room
        (right.withScraps template message) := by
  have same : left.heap.hasRoom 1 = right.heap.hasRoom 1 := agrees.collector.room 1 (by omega)
  have text : (Value.string message).Agrees pairing (.string message) := .leaf trivial
  have start : left.Agrees pairing (room + 1 + 1) right := agrees
  unfold Machine.withScraps
  rw [← same]
  split
  · obtain ⟨more, grows, paired, texts⟩ := start.allocateValue text false false
    obtain ⟨most, grows', made⟩ := texts.withScrap (filled_agrees objects grows paired)
    exact ⟨most, grows.trans grows', made⟩
  · exact ⟨pairing, .refl pairing, agrees.less (by omega)⟩

/-- A blank object agrees with itself. -/
theorem blank (agrees : left.Agrees pairing room right) (schema : Schema) :
    (Object.blank schema).Agrees pairing (Object.blank schema) := by
  refine ⟨rfl, ?_⟩
  simp only [Object.blank, Array.toList_replicate]
  exact Pairing.lists_replicate agrees.collector.null _

/-- The same template for a standard exception. -/
theorem exceptionTemplate (agrees : left.Agrees pairing (room + 3) right)
    (exception : ExceptionClass) :
    right.exceptionTemplate exception = left.exceptionTemplate exception := by
  unfold Machine.exceptionTemplate Machine.exceptionShape
  rw [agrees.schema, agrees.checkRoom (by simp [Machine.instanceSize])]

/-- The same is left of an exception, made or not. -/
theorem left_newException (agrees : left.Agrees pairing (room + 3) right)
    (exception : ExceptionClass) (message : String) :
    ∃ more, pairing.Grows more ∧
      ((Work.newException exception message false).left left).Agrees more room
        ((Work.newException exception message false).left right) := by
  have shapes : right.exceptionShape exception = left.exceptionShape exception := by
    unfold Machine.exceptionShape
    rw [agrees.schema]
  have same : left.heap.hasRoom (1 + instanceSize) = right.heap.hasRoom (1 + instanceSize) :=
    agrees.collector.room _ (by simp [instanceSize])
  unfold Work.left
  rw [Work.outcome_newException, Work.outcome_newException, shapes, ← same]
  cases shaped : left.exceptionShape exception with
  | error error => exact ⟨pairing, .refl pairing, agrees.less (by omega)⟩
  | ok template =>
    obtain ⟨schema, blank⟩ := exceptionShape_blank shaped
    have objects : template.1.Agrees pairing template.1 := blank ▸ agrees.blank schema
    dsimp only
    split
    · obtain ⟨more, grows, _, made⟩ := agrees.newException objects message false false
      exact ⟨more, grows, made⟩
    · have start : left.Agrees pairing (room + 1 + 2) right := agrees
      obtain ⟨more, grows, made⟩ := start.withScraps objects message
      exact ⟨more, grows, made.less (by omega)⟩

/-- Handlers look at the same things in paired raised values. -/
theorem thrown (agrees : left.Agrees pairing room right) (paired : pairing.Refs first second) :
    right.thrown second = left.thrown first := by
  obtain ⟨value, value', known, known', values⟩ := agrees.value? paired
  unfold Machine.thrown
  rw [known, known']
  cases values with
  | array items => rfl
  | leaf leaf =>
    cases value with
    | object reference => exact leaf.elim
    | _ => rfl
  | object inner =>
    obtain ⟨object, object', found, found', objects⟩ := agrees.collector.object? inner
    have here : left.heap.object? _ = some object := found
    have there : right.heap.object? _ = some object' := found'
    simp only [here, there, Option.map_some, objects.schema]

/-- Paired references are put into a global. -/
theorem setGlobal (agrees : left.Agrees pairing room right) (paired : pairing.Refs first second)
    (name : String) : (left.setGlobal name first).Agrees pairing room
      (right.setGlobal name second) := by
  have replaced : Machine.Agrees pairing room
      { left with registry := { left.registry with
        globals := left.registry.globals.replace name first } }
      { right with registry := { right.registry with
        globals := right.registry.globals.replace name second } } := by
    refine ⟨agrees.collector, agrees.config, ?_, agrees.globals.replace paired name,
      agrees.constants, agrees.clean, agrees.clean'⟩
    rw [agrees.registry]
  exact replaced.shade first second

/-- Paired references are put into the same element of paired arrays. -/
theorem setElement (agrees : left.Agrees pairing room right) {target target' : Ref}
    (targets : pairing.Refs target target') {items items' : Array Ref}
    (found : left.heap.value? target = some (.array items))
    (found' : right.heap.value? target' = some (.array items'))
    (arrays : pairing.Lists items.toList items'.toList) (paired : pairing.Refs first second)
    (index : Nat) :
    ((left.updateHeap (·.setElement target.handle index first)).shade first).Agrees pairing room
      ((right.updateHeap (·.setElement target'.handle index second)).shade second) := by
  obtain ⟨proxy, named, cell⟩ := Heap.proxy?_of_value? found
  obtain ⟨proxy', named', cell'⟩ := Heap.proxy?_of_value? found'
  have cells : (proxy.cell.setElement index first).Agrees pairing .value
      (proxy'.cell.setElement index second) := by
    rw [cell, cell']
    refine .value (.array ?_)
    simp only [Array.toList_setIfInBounds]
    exact arrays.set paired index
  have changed := agrees.collector.setCell targets cells named named' (by simp [cell])
    (by simp [cell'])
  rw [Machine.updateHeap_setElement named, Machine.updateHeap_setElement named']
  exact (agrees.withCollector (.refl pairing) changed).shade first second

/-- Agreeing objects are put behind paired handles. -/
theorem setObject (agrees : left.Agrees pairing room right) {target target' : ObjectRef}
    (targets : pairing .object target.handle target'.handle)
    (objects : object.Agrees pairing object') :
    (left.updateHeap (·.setCell target.handle (.object object))).Agrees pairing room
      (right.updateHeap (·.setCell target'.handle (.object object'))) := by
  obtain ⟨proxy, proxy', named, named', cells⟩ := agrees.collector.cells targets
  have proper : proxy.cell ≠ .value .null ∧ proxy'.cell ≠ .value .null := by
    generalize proxy.cell = cell at cells
    generalize proxy'.cell = cell' at cells
    cases cells
    simp
  exact agrees.withCollector (.refl pairing) (agrees.collector.setCell targets (.object objects)
    named named' proper.1 proper.2)

end Machine.Agrees

end ScriptVm
