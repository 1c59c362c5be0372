import ScriptVm.Proofs.Machine.Values

/-!
# What the machine keeps

Whatever references are passed in, the operations of the machine change nothing that is known by
name but what globals hold, and the functions behind values stay good ones, where good is any
condition that the known functions satisfy.
-/
namespace ScriptVm

namespace Machine

variable {good : Function → Prop} {machine after : Machine}

/-- All functions that a machine holds are good. -/
structure Stocked (good : Function → Prop) (machine : Machine) : Prop where
  /-- The bookkeeping of the collector is orderly. -/
  orderly : machine.collector.Orderly
  /-- The known functions are good. -/
  functions : ∀ function ∈ machine.registry.functions.values, good function
  /-- The initializers are good. -/
  initializers : ∀ function ∈ machine.registry.initializers.values, good (.script function)
  /-- The functions behind values are good. -/
  cells : ∀ handle proxy function, machine.heap.proxy? handle = some proxy →
    proxy.cell = .value (.function function) → good function

/-- A machine comes from another by an operation that changes nothing known by name but what
globals hold, and all its functions are good. -/
structure Keeps (good : Function → Prop) (machine after : Machine) : Prop where
  /-- The registry stays, apart from what globals hold. -/
  registry : after.registry = { machine.registry with globals := after.registry.globals }
  /-- The names of globals stay. -/
  globals : after.registry.globals.names = machine.registry.globals.names
  /-- The functions are good. -/
  stocked : after.Stocked good

namespace Keeps

/-- Nothing happens. -/
theorem refl (stocked : machine.Stocked good) : machine.Keeps good machine :=
  ⟨rfl, rfl, stocked⟩

/-- One thing happens after the other. -/
theorem trans {middle : Machine} (first : machine.Keeps good middle)
    (second : middle.Keeps good after) : machine.Keeps good after := by
  refine ⟨second.registry.trans ?_, second.globals.trans first.globals, second.stocked⟩
  rw [first.registry]

end Keeps

/-- An operation keeps what it has to when it leaves the names, the collector orderly and good
functions behind values. -/
theorem Stocked.keeps (stocked : machine.Stocked good) (orderly : after.collector.Orderly)
    (registry : after.registry = { machine.registry with globals := after.registry.globals })
    (globals : after.registry.globals.names = machine.registry.globals.names)
    (cells : ∀ handle proxy function, after.heap.proxy? handle = some proxy →
      proxy.cell = .value (.function function) → good function) : machine.Keeps good after := by
  refine ⟨registry, globals, orderly, ?_, ?_, cells⟩
  · rw [registry]
    exact stocked.functions
  · rw [registry]
    exact stocked.initializers

/-- A change of neither the registry nor the collector. -/
theorem Stocked.keeps_same (stocked : machine.Stocked good)
    (collector : after.collector = machine.collector)
    (registry : after.registry = machine.registry) : machine.Keeps good after := by
  refine stocked.keeps (collector ▸ stocked.orderly) (by rw [registry]) (by rw [registry]) ?_
  intro handle proxy function resolved
  rw [heap, collector] at resolved
  exact stocked.cells handle proxy function resolved

/-- Shading. -/
theorem Stocked.keeps_shade (stocked : machine.Stocked good) (value : Ref) :
    machine.Keeps good (machine.shade value) := by
  refine stocked.keeps (stocked.orderly.shade value.handle) rfl rfl ?_
  intro handle proxy function resolved holds
  obtain ⟨old, known, same⟩ := Collector.origin_shade resolved
  exact stocked.cells handle old function known (same.symm.trans holds)

/-- Shading after an operation. -/
theorem Keeps.shade (keeps : machine.Keeps good after) (value : Ref) :
    machine.Keeps good (after.shade value) :=
  keeps.trans (keeps.stocked.keeps_shade value)

/-- Allocating a cell, which is not that of a bad function. -/
theorem Stocked.keeps_allocate (stocked : machine.Stocked good) {cell : Cell} (pinned : Bool)
    (fine : ∀ function, cell = .value (.function function) → good function) :
    machine.Keeps good (machine.allocate cell pinned).2 := by
  refine stocked.keeps (stocked.orderly.allocate cell pinned) rfl rfl ?_
  intro handle proxy function resolved holds
  rcases stocked.orderly.origin_allocate cell pinned resolved with ⟨-, new⟩ | ⟨old, known, same⟩
  · exact fine function (new.symm.trans holds)
  · exact stocked.cells handle old function known (same.symm.trans holds)

/-- Replacing what a proxy holds, if it does not hold null. -/
theorem Stocked.keeps_setCell (stocked : machine.Stocked good) {target : Handle} {proxy : Proxy}
    {cell : Cell} (resolved : machine.heap.proxy? target = some proxy)
    (proper : proxy.cell ≠ .value .null)
    (fine : ∀ function, cell = .value (.function function) → good function) :
    machine.Keeps good (machine.updateHeap (·.setCell target cell)) := by
  refine stocked.keeps (stocked.orderly.setCell resolved proper cell) rfl rfl ?_
  intro handle found function named holds
  rcases Collector.origin_rewrite resolved named with ⟨-, new⟩ | ⟨old, known, same⟩
  · exact fine function (new.symm.trans holds)
  · exact stocked.cells handle old function known (same.symm.trans holds)

/-- Putting a reference into an element of an array on the heap. -/
theorem Stocked.keeps_setElement (stocked : machine.Stocked good) {target value : Ref}
    {items : Array Ref} (found : machine.heap.value? target = some (.array items)) (index : Nat) :
    machine.Keeps good (machine.updateHeap (·.setElement target.handle index value)) := by
  obtain ⟨proxy, resolved, cell⟩ := Heap.proxy?_of_value? found
  rw [updateHeap_setElement resolved]
  refine stocked.keeps_setCell resolved ?_ ?_
  · simp [cell]
  · simp [cell, Cell.setElement]

/-- Putting a changed object back. -/
theorem Stocked.keeps_setObject (stocked : machine.Stocked good) {target : ObjectRef}
    {object : Object} (found : machine.heap.object? target = some object) (changed : Object) :
    machine.Keeps good (machine.updateHeap (·.setCell target.handle (.object changed))) := by
  obtain ⟨proxy, resolved, cell⟩ := Heap.proxy?_of_object? found
  refine stocked.keeps_setCell resolved ?_ ?_
  · simp [cell]
  · simp

/-- Pinning and unpinning. -/
theorem Stocked.keeps_setPinned (stocked : machine.Stocked good) {handle : Handle} {pinned : Bool}
    {heap : Heap} (done : machine.heap.setPinned handle pinned = some heap) :
    machine.Keeps good (machine.updateHeap fun _ => heap) := by
  refine stocked.keeps (stocked.orderly.setPinned done) rfl rfl ?_
  intro other proxy function resolved holds
  obtain ⟨old, known, same, _⟩ := Heap.origin_setPinned done resolved
  exact stocked.cells other old function known (same.trans holds)

/-- Putting a reference into a global. -/
theorem Stocked.keeps_setGlobal (stocked : machine.Stocked good) (name : String) (value : Ref) :
    machine.Keeps good (machine.setGlobal name value) := by
  have replaced : machine.Keeps good { machine with registry := { machine.registry with
      globals := machine.registry.globals.replace name value } } :=
    stocked.keeps stocked.orderly rfl (Table.names_replace _ _ _) stocked.cells
  exact replaced.shade value

/-- Making a value that is not a bad function. -/
theorem Stocked.keeps_newValue (stocked : machine.Stocked good) {value : Value} (pinned : Bool)
    (fine : ∀ function, value = .function function → good function) :
    machine.Keeps good (machine.newValue value pinned).2 := by
  unfold newValue
  split
  · refine stocked.keeps_allocate pinned ?_
    intro function same
    exact fine function (by simpa using same)
  · exact .refl stocked

/-- Making an instance. -/
theorem Stocked.keeps_newInstance (stocked : machine.Stocked good) (object : Object)
    (pinned : Bool) : machine.Keeps good (machine.newInstance object pinned).2 := by
  have inner : machine.Keeps good (machine.allocate (.object object) false).2 :=
    stocked.keeps_allocate false (by simp)
  exact inner.trans (inner.stocked.keeps_allocate pinned (by simp))

/-- Making an exception. -/
theorem Stocked.keeps_newException (stocked : machine.Stocked good) (template : Object × Nat)
    (message : String) (pinned : Bool) :
    machine.Keeps good (machine.newException template message pinned).2 := by
  have text : machine.Keeps good (machine.allocate (.value (.string message)) false).2 :=
    stocked.keeps_allocate false (by simp)
  exact text.trans (text.stocked.keeps_newInstance _ pinned)

/-- An object alone, when there is no room for its value. -/
theorem Stocked.keeps_withScrap (stocked : machine.Stocked good) (object : Object) :
    machine.Keeps good (machine.withScrap object) := by
  unfold withScrap
  split
  · exact stocked.keeps_allocate false (by simp)
  · exact .refl stocked

/-- Making an object, or what is left of it. -/
theorem Stocked.keeps_left_newObject (stocked : machine.Stocked good) (typeName : String)
    (pinned : Bool) : machine.Keeps good ((Work.newObject typeName pinned).left machine) := by
  unfold Work.left
  rw [Work.outcome_newObject]
  split
  · split
    · exact stocked.keeps_newInstance _ pinned
    · exact stocked.keeps_withScrap _
  · exact .refl stocked

/-- Making an exception, or what is left of it. -/
theorem Stocked.keeps_left_newException (stocked : machine.Stocked good)
    (exception : ExceptionClass) (message : String) (pinned : Bool) :
    machine.Keeps good ((Work.newException exception message pinned).left machine) := by
  have text : machine.Keeps good (machine.allocate (.value (.string message)) false).2 :=
    stocked.keeps_allocate false (by simp)
  unfold Work.left
  rw [Work.outcome_newException]
  split
  · split
    · exact stocked.keeps_newException _ message pinned
    · unfold withScraps
      split
      · exact text.trans (text.stocked.keeps_withScrap _)
      · exact .refl stocked
  · exact .refl stocked

/-- Creating a plain value. -/
theorem Stocked.keeps_createValue (stocked : machine.Stocked good) {value : Value}
    (plain : value.Plain) : machine.Keeps good (machine.createValue value).2 := by
  unfold createValue
  split
  · exact .refl stocked
  · exact stocked.keeps_newValue true fun function same =>
      absurd same (plain.ne_function function)

/-- Creating an array. -/
theorem Stocked.keeps_createArray (stocked : machine.Stocked good) (length : Nat) :
    machine.Keeps good (machine.createArray length).2 := by
  unfold createArray
  split
  · exact .refl stocked
  · exact stocked.keeps_newValue true (by simp)

/-- Creating an array of given elements. -/
theorem Stocked.keeps_createArrayOf (stocked : machine.Stocked good) {items : Array Ref}
    {result : Ref × Machine} (done : machine.createArrayOf items = .ok result) :
    machine.Keeps good result.2 := by
  rw [createArrayOf_eq] at done
  obtain ⟨_, _, made⟩ := Except.bind_eq_ok done
  obtain rfl := Except.ok.inj made
  exact stocked.keeps_newValue true (by simp)

/-- Creating a value for a function. -/
theorem Stocked.keeps_createFunctionValue (stocked : machine.Stocked good) {signature : String}
    {result : Ref × Machine} (done : machine.createFunctionValue signature = .ok result) :
    machine.Keeps good result.2 := by
  rw [createFunctionValue_eq] at done
  obtain ⟨function, found, made⟩ := Except.bind_eq_ok done
  obtain rfl := Except.ok.inj made
  refine stocked.keeps_newValue true ?_
  rintro _ ⟨rfl⟩
  exact stocked.functions function (Table.mem_values_of_find? (Error.orElse_eq_ok.mp found))

/-- Creating a value for data of the embedding program. -/
theorem Stocked.keeps_createNative (stocked : machine.Stocked good) (content : UInt64) :
    machine.Keeps good (machine.createNative content).2 := by
  have counted : machine.Keeps good { machine with nativeCount := machine.nativeCount + 1 } :=
    stocked.keeps_same rfl rfl
  exact counted.trans (counted.stocked.keeps_newValue true (by simp))

/-- Copying a value. -/
theorem Stocked.keeps_copy (stocked : machine.Stocked good) {reference : Ref}
    {result : Ref × Machine} (done : machine.copy reference = .ok result) :
    machine.Keeps good result.2 := by
  rw [copy_eq] at done
  split at done
  · obtain rfl := Except.ok.inj done
    exact .refl stocked
  · obtain ⟨value, found, made⟩ := Except.bind_eq_ok done
    obtain rfl := Except.ok.inj made
    obtain ⟨proxy, resolved, cell⟩ := Heap.proxy?_of_value? (Error.orElse_eq_ok.mp found)
    refine stocked.keeps_newValue true ?_
    rintro function rfl
    exact stocked.cells _ proxy function resolved cell

/-- Putting a reference into an element. -/
theorem Stocked.keeps_putElement (stocked : machine.Stocked good) {reference value : Ref}
    {index : Nat} (done : machine.setElement reference index value = .ok after) :
    machine.Keeps good after := by
  rw [setElement_eq] at done
  obtain ⟨_, _, rest⟩ := Except.bind_eq_ok done
  split at rest
  · cases rest
  · obtain ⟨items, found, last⟩ := Except.bind_eq_ok rest
    split at last
    · cases last
    · obtain rfl := Except.ok.inj last
      exact (stocked.keeps_setElement (value?_of_items found) index).shade value

/-- Putting a reference into a member. -/
theorem Stocked.keeps_putMember (stocked : machine.Stocked good) {reference value : Ref}
    {name : String} (done : machine.setMember reference name value = .ok after) :
    machine.Keeps good after := by
  rw [setMember_eq] at done
  obtain ⟨inner, _, rest⟩ := Except.bind_eq_ok done
  obtain ⟨kind, _, rest⟩ := Except.bind_eq_ok rest
  obtain ⟨object, found, rest⟩ := Except.bind_eq_ok rest
  obtain ⟨member, _, rest⟩ := Except.bind_eq_ok rest
  split at rest
  · cases rest
  · obtain ⟨changed, _, last⟩ := Except.bind_eq_ok rest
    obtain rfl := Except.ok.inj last
    exact (stocked.keeps_setObject (Error.orElse_eq_ok.mp found) changed).shade value

/-- Putting a reference into a known global. -/
theorem Stocked.keeps_assignGlobal (stocked : machine.Stocked good) {name : String} {value : Ref}
    (done : machine.assignGlobal name value = .ok after) : machine.Keeps good after := by
  rw [assignGlobal_eq] at done
  obtain ⟨_, _, rest⟩ := Except.bind_eq_ok done
  split at rest
  · obtain rfl := Except.ok.inj rest
    exact stocked.keeps_setGlobal name value
  · cases rest

end Machine

end ScriptVm
