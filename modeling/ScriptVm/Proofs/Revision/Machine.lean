import ScriptVm.Arithmetic
import ScriptVm.Proofs.Machine.Instances

/-!
# Revised modules

A revision gives every module new code and leaves everything else about it. It is carried through
whatever holds modules: functions, values and the heap, the registry, the machine. All that a
machine does for instructions commutes with it, since nothing there looks into code.
-/
namespace ScriptVm

/-- New code for modules. -/
abbrev Revision := Module → Array UInt8

/-- A module with new code. -/
def Module.revise (revision : Revision) (module : Module) : Module :=
  { module with code := revision module }

/-- A function of a module with new code. -/
def ScriptFunction.revise (revision : Revision) (function : ScriptFunction) : ScriptFunction :=
  { function with module := function.module.revise revision }

/-- A function of the host whose module has new code. -/
def HostFunction.revise (revision : Revision) (function : HostFunction) : HostFunction :=
  { function with module := function.module.map (Module.revise revision) }

/-- A function whose module has new code. -/
def Function.revise (revision : Revision) : Function → Function
  | .script function => .script (function.revise revision)
  | .host function => .host (function.revise revision)

/-- A value whose function has new code. -/
def Value.revise (revision : Revision) : Value → Value
  | .function called => .function (called.revise revision)
  | other => other

/-- A cell whose function has new code. -/
def Cell.revise (revision : Revision) : Cell → Cell
  | .value held => .value (held.revise revision)
  | .object held => .object held

/-- A proxy whose function has new code. -/
def Proxy.revise (revision : Revision) (proxy : Proxy) : Proxy :=
  { proxy with cell := proxy.cell.revise revision }

/-- A slot whose function has new code. -/
def Slot.revise (revision : Revision) (slot : Slot) : Slot :=
  { slot with proxy := slot.proxy.map (Proxy.revise revision) }

/-- A heap whose functions have new code. -/
def Heap.revise (revision : Revision) (heap : Heap) : Heap :=
  { heap with slots := heap.slots.map (Slot.revise revision) }

/-- A collector whose functions have new code. -/
def Collector.revise (revision : Revision) (collector : Collector) : Collector :=
  { collector with heap := collector.heap.revise revision }

section Heap

variable (revision : Revision)

/-- The kind of a value is not in code. -/
@[simp] theorem Value.kind_revise (value : Value) : (value.revise revision).kind = value.kind := by
  cases value <;> rfl

/-- The truth value of a value is not in code. -/
@[simp] theorem Value.condition?_revise (value : Value) :
    (value.revise revision).condition? = value.condition? := by
  cases value <;> rfl

/-- Operators do not look into code. -/
theorem Operator.apply_revise (operator : Operator) (left right : Value) :
    operator.apply (left.revise revision) (right.revise revision) = operator.apply left right := by
  cases left with
  | binary kind left => cases kind <;> cases right <;> rfl
  | _ => cases right <;> rfl

/-- The children of a cell are not in code. -/
@[simp] theorem Cell.children_revise (cell : Cell) :
    (cell.revise revision).children = cell.children := by
  rcases cell with value | object
  · cases value <;> rfl
  · rfl

namespace Heap

variable (heap : Heap)

/-- A revision leaves the count of slots. -/
@[simp] theorem size_revise : (heap.revise revision).slots.size = heap.slots.size :=
  Array.size_map

/-- A revision leaves the room on the heap. -/
@[simp] theorem hasRoom_revise (count : Nat) :
    (heap.revise revision).hasRoom count = heap.hasRoom count := by
  simp [hasRoom, revise]

/-- A revision leaves the handles of slots. -/
@[simp] theorem handleAt_revise (index : Nat) :
    (heap.revise revision).handleAt index = heap.handleAt index := by
  simp only [handleAt, revise, Array.getElem?_map]
  cases heap.slots[index]? <;> rfl

/-- A handle names the revised proxy. -/
theorem proxy?_revise (handle : Handle) :
    (heap.revise revision).proxy? handle = (heap.proxy? handle).map (Proxy.revise revision) := by
  simp only [proxy?, revise, Array.getElem?_map]
  cases heap.slots[handle.index]? with
  | none => rfl
  | some slot =>
    simp only [Option.map_some, Option.bind_eq_bind, Option.bind_some, Slot.revise]
    split <;> rfl

/-- A reference leads to the revised value. -/
theorem value?_revise (reference : Ref) :
    (heap.revise revision).value? reference =
      (heap.value? reference).map (Value.revise revision) := by
  simp only [value?, proxy?_revise]
  cases heap.proxy? reference.handle with
  | none => rfl
  | some proxy =>
    obtain ⟨residence, marked, pinned, cell⟩ := proxy
    cases cell <;> rfl

/-- A reference leads to the same object. -/
@[simp] theorem object?_revise (reference : ObjectRef) :
    (heap.revise revision).object? reference = heap.object? reference := by
  simp only [object?, proxy?_revise]
  cases heap.proxy? reference.handle with
  | none => rfl
  | some proxy =>
    obtain ⟨residence, marked, pinned, cell⟩ := proxy
    cases cell <;> rfl

variable {revision}

/-- Changing a proxy commutes with a revision when the change does. -/
theorem updateAt_revise {change change' : Proxy → Proxy}
    (commutes : ∀ proxy, change' (proxy.revise revision) = (change proxy).revise revision)
    (index : Nat) :
    (heap.revise revision).updateAt index change' =
      (heap.updateAt index change).revise revision := by
  suffices slots : ((heap.revise revision).updateAt index change').slots =
      ((heap.updateAt index change).revise revision).slots by
    exact congrArg (fun slots => { heap with slots }) slots
  refine Array.ext_getElem? fun position => ?_
  simp only [slots_updateAt, revise, Array.getElem?_map]
  split
  · cases heap.slots[position]? with
    | none => rfl
    | some slot =>
      simp [Slot.revise, Function.comp_def, commutes]
  · rfl

variable (revision)

/-- Marking a handle commutes with a revision. -/
theorem markOne_revise (handle : Handle) :
    (heap.revise revision).markOne handle =
      ((heap.markOne handle).1.revise revision, (heap.markOne handle).2) := by
  have found : (heap.revise revision).unmarked? handle =
      (heap.unmarked? handle).map (Proxy.revise revision) := by
    simp only [unmarked?, proxy?_revise]
    cases heap.proxy? handle with
    | none => rfl
    | some proxy => cases marked : proxy.marked <;> simp [Option.filter, Proxy.revise, marked]
  have marks : (heap.revise revision).setMarked handle =
      (heap.setMarked handle).revise revision := by
    unfold setMarked
    refine heap.updateAt_revise ?_ _
    exact fun _ => rfl
  unfold markOne
  rw [found]
  cases heap.unmarked? handle with
  | none => rfl
  | some proxy => simp [marks, Proxy.revise]

/-- Marking a worklist commutes with a revision. -/
theorem markAll_revise (worklist : List Handle) :
    (heap.revise revision).markAll worklist = (heap.markAll worklist).revise revision := by
  induction heap, worklist using markAll_induction with
  | nil heap => rw [markAll, markAll]
  | cons heap first rest hypothesis =>
    rw [markAll_cons, markAll_cons, markOne_revise, hypothesis]

/-- Allocating commutes with a revision. -/
theorem allocate_revise (cell : Cell) (pinned : Bool) :
    (heap.revise revision).allocate (cell.revise revision) pinned =
      ((heap.allocate cell pinned).1, (heap.allocate cell pinned).2.revise revision) := by
  obtain ⟨slots, free, pending, active, kept, unmarked⟩ := heap
  cases free with
  | nil => simp [allocate, revise, Slot.revise, Proxy.revise]
  | cons index free =>
    have filled : (slots.map (Slot.revise revision)).modify index (fun slot =>
          { slot with proxy := some ⟨.pending, false, pinned, cell.revise revision⟩ }) =
        (slots.modify index fun slot =>
          { slot with proxy := some ⟨.pending, false, pinned, cell⟩ }).map
            (Slot.revise revision) := by
      refine Array.ext_getElem? fun position => ?_
      simp only [Array.getElem?_modify, Array.getElem?_map]
      split
      · cases slots[position]? <;> rfl
      · rfl
    simp only [allocate, revise, filled]
    refine Prod.ext ?_ rfl
    exact handleAt_revise revision ⟨_, free, index :: pending, active, kept, unmarked⟩ index

end Heap

namespace Collector

variable (collector : Collector)

/-- Marking a handle at once commutes with a revision. -/
theorem shade_revise (handle : Handle) :
    (collector.revise revision).shade handle = (collector.shade handle).revise revision := by
  unfold shade
  have marking : (collector.revise revision).marking = collector.marking := rfl
  rw [marking]
  split
  · simp only [revise, Heap.markAll_revise]
  · rfl

/-- Allocating commutes with a revision. -/
theorem allocate_revise (cell : Cell) (pinned : Bool) :
    (collector.revise revision).allocate (cell.revise revision) pinned =
      ((collector.allocate cell pinned).1, (collector.allocate cell pinned).2.revise revision) := by
  have allocated := collector.heap.allocate_revise revision cell pinned
  have shaded := shade_revise revision
    { collector with heap := (collector.heap.allocate cell pinned).2 }
    (collector.heap.allocate cell pinned).1
  simp only [allocate, revise] at allocated shaded ⊢
  rw [allocated, shaded]

end Collector

end Heap

/-- A table with changed entries. -/
def Table.map {α β : Type} (change : α → β) (table : Table α) : Table β :=
  ⟨table.entries.map fun entry => (entry.1, change entry.2)⟩

/-- The changed entry is under the same name. -/
theorem Table.find?_map {α β : Type} (change : α → β) (table : Table α) (name : String) :
    (table.map change).find? name = (table.find? name).map change := by
  obtain ⟨entries⟩ := table
  simp only [map, find?]
  induction entries with
  | nil => rfl
  | cons entry rest hypothesis =>
    rw [List.map_cons, List.lookup_cons, List.lookup_cons, hypothesis]
    split <;> rfl

/-- A registry whose modules and functions have new code. -/
def Registry.revise (revision : Revision) (registry : Registry) : Registry :=
  { registry with
    modules := registry.modules.map (Module.revise revision)
    initializers := registry.initializers.map (ScriptFunction.revise revision)
    functions := registry.functions.map (Function.revise revision) }

/-- A machine whose modules and functions have new code. -/
def Machine.revise (revision : Revision) (machine : Machine) : Machine :=
  { machine with
    registry := machine.registry.revise revision
    collector := machine.collector.revise revision }

namespace Machine

variable (revision : Revision) (machine : Machine)

/-- The heap of a revised machine. -/
@[simp] theorem heap_revise : (machine.revise revision).heap = machine.heap.revise revision := rfl

/-- Shading commutes with a revision. -/
theorem shade_revise (value : Ref) :
    (machine.revise revision).shade value = (machine.shade value).revise revision := by
  simp only [shade, revise, Collector.shade_revise]

/-- A revision leaves the room on the heap. -/
@[simp] theorem checkRoom_revise (count : Nat) :
    (machine.revise revision).checkRoom count = machine.checkRoom count := by
  simp [checkRoom]

/-- Allocating commutes with a revision. -/
theorem allocate_revise (cell : Cell) (pinned : Bool) :
    (machine.revise revision).allocate (cell.revise revision) pinned =
      ((machine.allocate cell pinned).1, (machine.allocate cell pinned).2.revise revision) := by
  simp only [allocate, revise, Collector.allocate_revise]

/-- Making an instance commutes with a revision. -/
theorem newInstance_revise (object : Object) (pinned : Bool) :
    (machine.revise revision).newInstance object pinned =
      ((machine.newInstance object pinned).1,
        (machine.newInstance object pinned).2.revise revision) := by
  have inner := machine.allocate_revise revision (.object object) false
  have outer := allocate_revise revision (machine.allocate (.object object) false).2
    (.value (.object ⟨(machine.allocate (.object object) false).1⟩)) pinned
  simp only [Cell.revise, Value.revise] at inner outer
  simp only [newInstance, inner, outer]

/-- A revision leaves the object types. -/
@[simp] theorem schema_revise (typeName : String) :
    (machine.revise revision).schema typeName = machine.schema typeName := rfl

/-- What is left of an instance commutes with a revision. -/
theorem withScrap_revise (object : Object) :
    (machine.revise revision).withScrap object =
      (machine.withScrap object).revise revision := by
  have inner := machine.allocate_revise revision (.object object) false
  simp only [Cell.revise] at inner
  simp only [withScrap, heap_revise, Heap.hasRoom_revise, inner]
  split <;> rfl

/-- A revision leaves what standard exceptions are made from. -/
@[simp] theorem exceptionShape_revise (exception : ExceptionClass) :
    (machine.revise revision).exceptionShape exception = machine.exceptionShape exception := rfl

/-- A revision leaves what standard exceptions are made from, as far as there is room. -/
@[simp] theorem exceptionTemplate_revise (exception : ExceptionClass) :
    (machine.revise revision).exceptionTemplate exception =
      machine.exceptionTemplate exception := by
  simp [exceptionTemplate]

/-- Making a standard exception commutes with a revision. -/
theorem newException_revise (template : Object × Nat) (message : String) (pinned : Bool) :
    (machine.revise revision).newException template message pinned =
      ((machine.newException template message pinned).1,
        (machine.newException template message pinned).2.revise revision) := by
  have text := machine.allocate_revise revision (.value (.string message)) false
  simp only [Cell.revise, Value.revise] at text
  simp only [newException, text, newInstance_revise]

/-- What is left of a standard exception commutes with a revision. -/
theorem withScraps_revise (template : Object × Nat) (message : String) :
    (machine.revise revision).withScraps template message =
      (machine.withScraps template message).revise revision := by
  have text := machine.allocate_revise revision (.value (.string message)) false
  simp only [Cell.revise, Value.revise] at text
  simp only [withScraps, heap_revise, Heap.hasRoom_revise, text, withScrap_revise]
  split <;> rfl

/-- What making a standard exception leaves commutes with a revision. -/
theorem left_newException_revise (exception : ExceptionClass) (message : String) (pinned : Bool) :
    (Work.newException exception message pinned).left (machine.revise revision) =
      ((Work.newException exception message pinned).left machine).revise revision := by
  unfold Work.left
  simp only [Work.outcome_newException, exceptionShape_revise, heap_revise, Heap.hasRoom_revise]
  cases machine.exceptionShape exception with
  | error error => rfl
  | ok template =>
    simp only [newException_revise, withScraps_revise]
    split <;> rfl

/-- Handlers look at the same things. -/
@[simp] theorem thrown_revise (value : Ref) :
    (machine.revise revision).thrown value = machine.thrown value := by
  simp only [thrown, heap_revise, Heap.value?_revise]
  cases machine.heap.value? value with
  | none => rfl
  | some content =>
    cases content with
    | object reference => simp [Value.revise]
    | _ => rfl

/-- Replacing the reference in a global commutes with a revision. -/
theorem setGlobal_revise (name : String) (value : Ref) :
    (machine.revise revision).setGlobal name value =
      (machine.setGlobal name value).revise revision :=
  shade_revise revision { machine with registry := { machine.registry with
    globals := machine.registry.globals.replace name value } } value

/-- Replacing an object commutes with a revision. -/
theorem setObject_revise (handle : Handle) (object : Object) :
    (machine.revise revision).updateHeap (·.setCell handle (.object object)) =
      (machine.updateHeap (·.setCell handle (.object object))).revise revision := by
  have same : (machine.heap.revise revision).setCell handle (.object object) =
      (machine.heap.setCell handle (.object object)).revise revision := by
    unfold Heap.setCell
    refine machine.heap.updateAt_revise ?_ _
    exact fun _ => rfl
  exact congrArg (fun heap => (machine.revise revision).updateHeap fun _ => heap) same

/-- Replacing an element commutes with a revision. -/
theorem setElement_revise (handle : Handle) (index : Nat) (value : Ref) :
    (machine.revise revision).updateHeap (·.setElement handle index value) =
      (machine.updateHeap (·.setElement handle index value)).revise revision := by
  have cells : ∀ cell : Cell, (cell.revise revision).setElement index value =
      (cell.setElement index value).revise revision := by
    rintro (content | object)
    · cases content <;> rfl
    · rfl
  have same : (machine.heap.revise revision).setElement handle index value =
      (machine.heap.setElement handle index value).revise revision := by
    unfold Heap.setElement
    refine machine.heap.updateAt_revise (fun proxy => ?_) _
    simp only [Proxy.revise, cells]
  exact congrArg (fun heap => (machine.revise revision).updateHeap fun _ => heap) same

/-- A signature leads to the revised function. -/
theorem functions_revise (signature : String) :
    (machine.revise revision).registry.functions.find? signature =
      (machine.registry.functions.find? signature).map (Function.revise revision) :=
  Table.find?_map _ _ _

end Machine

end ScriptVm
