import ScriptVm.Machine.Values
import ScriptVm.Proofs.Execution.Roots
import ScriptVm.Proofs.Machine.Checks
import ScriptVm.Proofs.Machine.Moves
import ScriptVm.Proofs.Value

/-!
# What the embedding program does to values

Creating, copying and changing values and globals from outside are sequences of moves, as long as
the references that are passed in are held.
-/
namespace ScriptVm

namespace Machine

variable {good : Function → Prop} {machine after : Machine} {running held : Handle → Prop}

/-- Creating a value. -/
theorem leads_createValue (sound : machine.Sound good) {value : Value} (plain : value.Plain) :
    ∃ held', machine.Leads good running held (machine.createValue value).2 running held' := by
  unfold createValue
  split
  · exact ⟨held, .refl sound⟩
  · refine ⟨_, leads_newValue sound true ?_ ?_⟩
    · simp [plain.children]
    · exact fun function same => absurd same (plain.ne_function function)

/-- The references of an array of nulls are reached. -/
theorem Sound.reaches_nulls (sound : machine.Sound good) (length : Nat) :
    ∀ child ∈ (Cell.value (.array (Array.replicate length Ref.null))).children,
      machine.Reaches running held child := by
  intro child listed
  obtain ⟨reference, member, rfl⟩ := List.mem_map.mp listed
  obtain ⟨_, rfl⟩ := Array.mem_replicate.mp (Array.mem_toList_iff.mp member)
  exact sound.reaches_null

/-- Creating an array. -/
theorem leads_createArray (sound : machine.Sound good) (length : Nat) :
    ∃ held', machine.Leads good running held (machine.createArray length).2 running held' := by
  unfold createArray
  split
  · exact ⟨held, .refl sound⟩
  · exact ⟨_, leads_newValue sound true (sound.reaches_nulls length) (by simp)⟩

/-- Creating an array of given elements. -/
theorem leads_createArrayOf (sound : machine.Sound good) {items : Array Ref}
    (holds : ∀ item ∈ items, held item.handle) {result : Ref × Machine}
    (done : machine.createArrayOf items = .ok result) :
    ∃ held', machine.Leads good running held result.2 running held' := by
  rw [createArrayOf_eq] at done
  obtain ⟨_, _, made⟩ := Except.bind_eq_ok done
  obtain rfl := Except.ok.inj made
  refine ⟨_, leads_newValue sound true ?_ (by simp)⟩
  intro child listed
  obtain ⟨item, member, rfl⟩ := List.mem_map.mp listed
  exact reaches_of_held (holds item (Array.mem_toList_iff.mp member))

/-- Creating a value for a function. -/
theorem leads_createFunctionValue (sound : machine.Sound good) {signature : String}
    {result : Ref × Machine} (done : machine.createFunctionValue signature = .ok result) :
    ∃ held', machine.Leads good running held result.2 running held' := by
  rw [createFunctionValue_eq] at done
  obtain ⟨function, found, made⟩ := Except.bind_eq_ok done
  obtain rfl := Except.ok.inj made
  refine ⟨_, leads_newValue sound true (by simp [Cell.children]) ?_⟩
  rintro _ ⟨rfl⟩
  exact sound.functions function (Table.mem_values_of_find? (Error.orElse_eq_ok.mp found))

/-- Creating a value for data of the embedding program. -/
theorem leads_createNative (sound : machine.Sound good) (content : UInt64) :
    ∃ held', machine.Leads good running held (machine.createNative content).2 running held' := by
  have counted : Sound good { machine with nativeCount := machine.nativeCount + 1 } :=
    ⟨sound.orderly, sound.functions, sound.initializers, sound.cells, sound.anchors⟩
  have made : Leads good { machine with nativeCount := machine.nativeCount + 1 } running held
      (machine.createNative content).2 running _ :=
    leads_newValue counted true (by simp [Cell.children]) (by simp)
  exact ⟨_, made.moves, made.sound, made.registry⟩

/-- Copying a value. -/
theorem leads_copy (sound : machine.Sound good) {reference : Ref} (holds : held reference.handle)
    {result : Ref × Machine} (done : machine.copy reference = .ok result) :
    ∃ held', machine.Leads good running held result.2 running held' := by
  rw [copy_eq] at done
  split at done
  · obtain rfl := Except.ok.inj done
    exact ⟨held, .refl sound⟩
  · obtain ⟨value, found, made⟩ := Except.bind_eq_ok done
    obtain rfl := Except.ok.inj made
    obtain ⟨proxy, resolved, cell⟩ := Heap.proxy?_of_value? (Error.orElse_eq_ok.mp found)
    refine ⟨_, leads_newValue sound true ?_ ?_⟩
    · intro child listed
      exact reaches_child (reaches_of_held holds) resolved (cell ▸ listed)
    · rintro function rfl
      exact sound.cells _ proxy function resolved cell

/-- The elements of an array are those of its cell. -/
theorem value?_of_items {reference : Ref} {items : Array Ref}
    (found : machine.items reference = .ok items) :
    machine.heap.value? reference = some (.array items) := by
  obtain ⟨value, known, rest⟩ := Except.bind_eq_ok found
  cases value with
  | array content =>
    obtain rfl := Except.ok.inj rest
    exact Error.orElse_eq_ok.mp known
  | _ => cases rest

/-- Putting a reference into an element. -/
theorem leads_putElement (sound : machine.Sound good) {reference value : Ref} {index : Nat}
    (holds : held value.handle) (done : machine.setElement reference index value = .ok after) :
    ∃ held', machine.Leads good running held after running held' := by
  rw [setElement_eq] at done
  obtain ⟨_, _, rest⟩ := Except.bind_eq_ok done
  split at rest
  · cases rest
  · obtain ⟨items, found, last⟩ := Except.bind_eq_ok rest
    split at last
    · cases last
    · obtain rfl := Except.ok.inj last
      exact ⟨_, leads_setElement sound (value?_of_items found) index (reaches_of_held holds)⟩

/-- Putting a reference into a member. -/
theorem leads_putMember (sound : machine.Sound good) {reference value : Ref} {name : String}
    (holds : held value.handle) (done : machine.setMember reference name value = .ok after) :
    ∃ held', machine.Leads good running held after running held' := by
  rw [setMember_eq] at done
  obtain ⟨inner, _, rest⟩ := Except.bind_eq_ok done
  obtain ⟨kind, _, rest⟩ := Except.bind_eq_ok rest
  obtain ⟨object, found, rest⟩ := Except.bind_eq_ok rest
  obtain ⟨member, _, rest⟩ := Except.bind_eq_ok rest
  split at rest
  · cases rest
  · obtain ⟨changed, set, last⟩ := Except.bind_eq_ok rest
    obtain rfl := Except.ok.inj last
    exact ⟨_, leads_setMember sound (Error.orElse_eq_ok.mp found) set (reaches_of_held holds)⟩

/-- Putting a reference into a known global. -/
theorem leads_assignGlobal (sound : machine.Sound good) {name : String} {value : Ref}
    (holds : held value.handle) (done : machine.assignGlobal name value = .ok after) :
    ∃ held', machine.Leads good running held after running held' := by
  rw [assignGlobal_eq] at done
  obtain ⟨_, _, rest⟩ := Except.bind_eq_ok done
  split at rest
  · obtain rfl := Except.ok.inj rest
    exact ⟨_, leads_setGlobal sound name (reaches_of_held holds)⟩
  · cases rest

/-- Declaring a global. -/
theorem leads_addGlobal (sound : machine.Sound good) {name : String} {value : Ref}
    (holds : held value.handle) (done : machine.addGlobal name value = .ok after) :
    ∃ held', machine.Leads good running held after running held' := by
  rw [addGlobal_eq] at done
  obtain ⟨_, _, rest⟩ := Except.bind_eq_ok done
  split at rest
  · cases rest
  · obtain rfl := Except.ok.inj rest
    refine ⟨held, leads_store sound (reaches_of_held holds) rfl rfl ?_⟩
    intro category handle root
    cases category with
    | globals =>
      have member : handle ∈ (machine.registry.globals.add name value).values.map Ref.handle := root
      simp only [Table.add, Table.values, List.map_append, List.map_cons, List.map_nil,
        List.mem_append, List.mem_singleton] at member
      exact member
    | constants | functions | executions => exact .inl root

end Machine

end ScriptVm
