import ScriptVm.Proofs.Collector.Mutation
import ScriptVm.Proofs.Execution.Roots
import ScriptVm.Proofs.Step.Layout

/-!
# Locations

A location is where a reference can be in a scene: in a register, on the operand stack, in a
variable, in a parameter register, or in a part of an array or an object. Two locations are the same
or do not touch each other, whatever registers lead to the array or the object. A place stands for
one location.
-/
namespace ScriptVm

/-- One entry alone is replaced. -/
theorem Table.find?_replace_eq {α : Type} {table : Table α} {name : String} {old : α}
    (held : table.find? name = some old) (entry : α) (other : String) :
    (table.replace name entry).find? other =
      if other = name then some entry else table.find? other := by
  by_cases same : other = name
  · subst same
    rw [if_pos rfl]
    exact find?_replace (Option.isSome_iff_exists.mpr ⟨old, held⟩)
  · rw [if_neg same]
    obtain ⟨entries⟩ := table
    simp only [find?, replace]
    clear held
    induction entries with
    | nil => rfl
    | cons head rest hypothesis =>
      obtain ⟨key, first⟩ := head
      by_cases here : key = name
      · have differs : (other == name) = false := by simpa using same
        simp only [List.map_cons, here, if_true, List.lookup_cons, differs]
        exact hypothesis
      · simp only [List.map_cons, if_neg here, List.lookup_cons]
        rw [hypothesis]

/-- One entry of a vector alone is set. -/
theorem getElem?_set_of_held {count index : Nat} {entries : Vector Ref count} {old : Ref}
    (held : entries[index]? = some old) (value : Ref) (other : Nat) :
    (entries.setIfInBounds index value)[other]? =
      if other = index then some value else entries[other]? := by
  obtain ⟨inside, _⟩ := Vector.getElem?_eq_some_iff.mp held
  by_cases same : index = other
  · subst same
    simp [inside]
  · simp [same, Ne.symm same]

namespace Cell

/-- The reference in a part of an array or an object. -/
def part? (cell : Cell) (index : Nat) : Option Ref :=
  match cell with
  | .value (.array items) => items[index]?
  | .object content => content.members[index]?
  | .value _ => none

/-- Puts a reference into a part of an array or an object. -/
def setPart (cell : Cell) (index : Nat) (value : Ref) : Cell :=
  match cell with
  | .value (.array items) => .value (.array (items.setIfInBounds index value))
  | .object content => .object { content with
      members := content.members.setIfInBounds index value }
  | .value value => .value value

/-- One part alone is changed, and only if it is there. -/
theorem part?_setPart (cell : Cell) (index other : Nat) (value : Ref) :
    (cell.setPart index value).part? other =
      if other = index then (cell.part? index).map fun _ => value else cell.part? other := by
  have entries : ∀ items : Array Ref, (items.setIfInBounds index value)[other]? =
      if other = index then items[index]?.map fun _ => value else items[other]? := by
    intro items
    rw [Array.getElem?_setIfInBounds]
    by_cases same : index = other
    · subst same
      by_cases inside : index < items.size <;> simp [inside]
    · rw [if_neg same, if_neg (Ne.symm same)]
  match cell with
  | .value (.array items) => exact entries items
  | .object content => exact entries content.members
  | .value .null | .value (.bool _) | .value (.integer _ _) | .value (.binary _ _)
  | .value (.string _) | .value (.object _) | .value (.function _) | .value (.native _) =>
    simp [part?, setPart]

end Cell

namespace Heap

/-- The reference in a part of what a handle names. -/
def part? (heap : Heap) (handle : Handle) (index : Nat) : Option Ref :=
  (heap.proxy? handle).bind fun proxy => proxy.cell.part? index

/-- Puts a reference into a part of what a handle names. -/
def setPart (heap : Heap) (handle : Handle) (index : Nat) (value : Ref) : Heap :=
  heap.updateAt handle.index fun proxy => { proxy with cell := proxy.cell.setPart index value }

variable {heap : Heap} {handle : Handle} {index : Nat} {value old : Ref}

/-- One part alone is changed. -/
theorem part?_setPart (held : heap.part? handle index = some old) (value : Ref) (other : Handle)
    (position : Nat) :
    (heap.setPart handle index value).part? other position =
      if other = handle ∧ position = index then some value else heap.part? other position := by
  obtain ⟨proxy, resolved, inside⟩ := Option.bind_eq_some_iff.mp held
  unfold part? setPart
  rw [proxy?_updateAt]
  by_cases here : handle.index = other.index
  · rw [if_pos here]
    cases named : heap.proxy? other with
    | none =>
      have apart : ¬(other = handle ∧ position = index) := by
        rintro ⟨rfl, _⟩
        rw [resolved] at named
        cases named
      simp [apart]
    | some proxy' =>
      obtain rfl := handle_eq_of_index_eq resolved named here
      obtain rfl := Option.some.inj (resolved.symm.trans named)
      simp [Cell.part?_setPart, inside]
  · have apart : ¬(other = handle ∧ position = index) := fun both => here (by rw [both.1])
    rw [if_neg here, if_neg apart]

/-- Replacing what a handle names by the same with another part. -/
theorem setCell_eq_setPart {proxy : Proxy} (resolved : heap.proxy? handle = some proxy) :
    heap.setCell handle (proxy.cell.setPart index value) = heap.setPart handle index value := by
  have within := proxy?_eq_some_iff.mp resolved
  have same : (heap.setCell handle (proxy.cell.setPart index value)).slots =
      (heap.setPart handle index value).slots := by
    apply Array.ext_getElem?
    intro position
    rw [setCell, setPart, slots_updateAt, slots_updateAt]
    by_cases here : handle.index = position
    · subst here
      simp [within]
    · simp [here]
  simp only [setCell, setPart, updateAt] at same ⊢
  rw [same]

/-- The part of an array that a reference leads to. -/
theorem part?_of_array {reference : Ref} {items : Array Ref}
    (content : heap.value? reference = some (.array items)) (taken : items[index]? = some value) :
    heap.part? reference.handle index = some value := by
  obtain ⟨proxy, resolved, cell⟩ := proxy?_of_value? content
  simp [part?, resolved, cell, Cell.part?, taken]

/-- The part of an object that a reference leads to. -/
theorem part?_of_object {reference : ObjectRef} {object : Object}
    (inner : heap.object? reference = some object) (taken : object.members[index]? = some value) :
    heap.part? reference.handle index = some value := by
  obtain ⟨proxy, resolved, cell⟩ := proxy?_of_object? inner
  simp [part?, resolved, cell, Cell.part?, taken]

/-- Setting a part keeps the heap lawful: the null value has no part. -/
theorem Lawful.setPart (lawful : heap.Lawful) (held : heap.part? handle index = some old)
    (value : Ref) :
    (heap.setPart handle index value).Lawful := by
  obtain ⟨proxy, resolved, inside⟩ := Option.bind_eq_some_iff.mp held
  refine lawful.updateAt ?_ fun _ => rfl
  intro zero
  obtain rfl := lawful.eq_null_of_index resolved zero
  obtain rfl := Option.some.inj (lawful.proxy?_null.symm.trans resolved)
  cases inside

end Heap

/-- Marking the null value changes nothing. -/
theorem Machine.shade_null {machine : Machine} (lawful : machine.heap.Lawful) :
    machine.shade Ref.null = machine := by
  have same : machine.collector.shade Handle.null = machine.collector :=
    Collector.shade_null lawful
  rw [shade, show Ref.null.handle = Handle.null from rfl, same]

/-- Where a reference can be. -/
inductive Location where
  | register (index : Nat)
  | operand (depth : Nat)
  | local (name : String)
  | parameter (index : Nat)
  | global (name : String)
  | part (handle : Handle) (index : Nat)
  deriving DecidableEq

namespace Scene

/-- The reference at a location. -/
def at? (scene : Scene) : Location → Option Ref
  | .register index => scene.frame.registers[index]?
  | .operand depth => scene.frame.stack[depth]?
  | .local name => scene.frame.locals.find? name
  | .parameter index => scene.parameters[index]?
  | .global name => scene.machine.registry.globals.find? name
  | .part handle index => scene.machine.heap.part? handle index

/-- Puts a reference at a location, and leaves everything else. -/
def put (scene : Scene) (location : Location) (value : Ref) : Scene :=
  match location with
  | .register index => { scene with frame := { scene.frame with
      registers := scene.frame.registers.setIfInBounds index value } }
  | .operand depth => { scene with frame := { scene.frame with
      stack := scene.frame.stack.set depth value } }
  | .local name => { scene with frame := { scene.frame with
      locals := scene.frame.locals.replace name value } }
  | .parameter index => { scene with
      parameters := scene.parameters.setIfInBounds index value }
  | .global name => { scene with machine := { scene.machine with
      registry := { scene.machine.registry with
        globals := scene.machine.registry.globals.replace name value } } }
  | .part handle index => { scene with
      machine := scene.machine.updateHeap (·.setPart handle index value) }

/-- One location alone is changed. -/
theorem at?_put {scene : Scene} {location : Location} {old : Ref}
    (held : scene.at? location = some old) (value : Ref) (other : Location) :
    (scene.put location value).at? other =
      if other = location then some value else scene.at? other := by
  cases location with
  | register index =>
    cases other with
    | register position => simpa [put, at?] using getElem?_set_of_held held value position
    | _ => simp [at?, put]
  | operand depth =>
    cases other with
    | operand position =>
      obtain ⟨inside, _⟩ := List.getElem?_eq_some_iff.mp held
      by_cases same : depth = position
      · subst same
        simp [at?, put, inside]
      · simp [at?, put, List.getElem?_set_ne same, Ne.symm same]
    | _ => simp [at?, put]
  | «local» name =>
    cases other with
    | «local» other => simpa [put, at?] using Table.find?_replace_eq held value other
    | _ => simp [at?, put]
  | parameter index =>
    cases other with
    | parameter position => simpa [put, at?] using getElem?_set_of_held held value position
    | _ => simp [at?, put]
  | global name =>
    cases other with
    | global other => simpa [put, at?] using Table.find?_replace_eq held value other
    | part handle index => simp [at?, put, Machine.heap]
    | _ => simp [at?, put]
  | part handle index =>
    cases other with
    | part other position =>
      simpa [put, at?, Machine.heap, Machine.updateHeap] using
        Heap.part?_setPart held value other position
    | _ => simp [at?, put, Machine.updateHeap]

/-- A change of the heap that puts null into one part puts it there and does nothing else, although
null is marked as stored. -/
theorem put_part_null {scene : Scene} {handle : Handle} {index : Nat} {old : Ref}
    (lawful : scene.machine.heap.Lawful) (held : scene.machine.heap.part? handle index = some old)
    (change : Heap → Heap)
    (same : change scene.machine.heap = scene.machine.heap.setPart handle index Ref.null) :
    { scene with machine := (scene.machine.updateHeap change).shade Ref.null } =
      scene.put (.part handle index) Ref.null := by
  have changed : scene.machine.updateHeap change =
      scene.machine.updateHeap (·.setPart handle index Ref.null) := by
    simp only [Machine.updateHeap, Machine.heap] at same ⊢
    rw [same]
  have kept : (scene.machine.updateHeap (·.setPart handle index Ref.null)).heap.Lawful :=
    lawful.setPart held Ref.null
  rw [changed, Machine.shade_null kept]
  rfl

end Scene

/-- The location that a place stands for, if it has one: an array or an object has to be there. -/
def Place.location? (scene : Scene) : Place → Option Location
  | .global name => some (.global name)
  | .local name => some (.local name)
  | .parameter index => some (.parameter index)
  | .member target name =>
    match scene.machine.heap.value? target with
    | some (.object reference) => do
      let object ← scene.machine.heap.object? reference
      let member ← (object.schema.member name).toOption
      return .part reference.handle member.index
    | _ => none
  | .element target index =>
    match scene.machine.heap.value? target with
    | some (.array _) => some (.part target.handle index)
    | _ => none

end ScriptVm
