import ScriptVm.Collector

/-!
# What handles resolve to

Every operation on slots is described by what it does to the proxy that a handle names and to the
occupant of a slot. A slot and its generation determine the one handle that can name the occupant,
so the two descriptions agree.
-/
namespace ScriptVm

/-- The null value's proxy, which is always marked and pinned. -/
def Proxy.null : Proxy := ⟨.immortal, true, true, .value .null⟩

namespace Heap

/-- The proxy in a slot, whatever the generation. -/
def occupant? (heap : Heap) (index : Nat) : Option Proxy := heap.slots[index]?.bind Slot.proxy

/-- A handle names a proxy exactly when its slot holds the proxy at the handle's generation. -/
theorem proxy?_eq_some_iff {heap : Heap} {handle : Handle} {proxy : Proxy} :
    heap.proxy? handle = some proxy ↔
      heap.slots[handle.index]? = some ⟨handle.generation, some proxy⟩ := by
  cases within : heap.slots[handle.index]? with
  | none => simp [proxy?, within]
  | some slot =>
    obtain ⟨generation, occupant⟩ := slot
    by_cases same : generation = handle.generation
    · simp [proxy?, within, same]
    · simp [proxy?, within, same]

/-- A named proxy occupies its slot. -/
theorem occupant?_of_proxy? {heap : Heap} {handle : Handle} {proxy : Proxy}
    (resolved : heap.proxy? handle = some proxy) : heap.occupant? handle.index = some proxy := by
  rw [proxy?_eq_some_iff] at resolved
  simp [occupant?, resolved]

/-- A named proxy's slot exists. -/
theorem index_lt_of_proxy? {heap : Heap} {handle : Handle} {proxy : Proxy}
    (resolved : heap.proxy? handle = some proxy) : handle.index < heap.slots.size := by
  rw [proxy?_eq_some_iff] at resolved
  exact (Array.getElem?_eq_some_iff.mp resolved).1

/-- The current handle of a resolving handle's slot is that handle. -/
theorem handleAt_of_proxy? {heap : Heap} {handle : Handle} {proxy : Proxy}
    (resolved : heap.proxy? handle = some proxy) : heap.handleAt handle.index = handle := by
  rw [proxy?_eq_some_iff] at resolved
  simp [handleAt, resolved]

/-- The occupant of a slot is named by the slot's current handle. -/
theorem proxy?_handleAt {heap : Heap} {index : Nat} {proxy : Proxy}
    (occupied : heap.occupant? index = some proxy) :
    heap.proxy? (heap.handleAt index) = some proxy := by
  cases within : heap.slots[index]? with
  | none => simp [occupant?, within] at occupied
  | some slot =>
    simp only [occupant?, within, Option.bind_some] at occupied
    simp [proxy?, handleAt, within, occupied]

/-- The current handle of a slot has the slot's index. -/
@[simp] theorem handleAt_index (heap : Heap) (index : Nat) :
    (heap.handleAt index).index = index := by
  unfold handleAt
  split <;> rfl

/-- Two resolving handles to one slot are the same. -/
theorem handle_eq_of_index_eq {heap : Heap} {left right : Handle} {first second : Proxy}
    (leftResolved : heap.proxy? left = some first)
    (rightResolved : heap.proxy? right = some second) (same : left.index = right.index) :
    left = right := by
  rw [← handleAt_of_proxy? leftResolved, ← handleAt_of_proxy? rightResolved, same]

/-- A handle to an empty slot resolves to nothing. -/
theorem proxy?_of_vacant {heap : Heap} {handle : Handle}
    (vacant : heap.occupant? handle.index = none) : heap.proxy? handle = none := by
  cases resolved : heap.proxy? handle with
  | none => rfl
  | some proxy => simp [occupant?_of_proxy? resolved] at vacant

/-- A slot with an occupant exists. -/
theorem index_lt_of_occupant? {heap : Heap} {index : Nat} {proxy : Proxy}
    (occupied : heap.occupant? index = some proxy) : index < heap.slots.size := by
  simpa using index_lt_of_proxy? (proxy?_handleAt occupied)

/-- A handle resolves exactly when it names a proxy. -/
theorem contains_iff {heap : Heap} {handle : Handle} :
    heap.contains handle = true ↔ ∃ proxy, heap.proxy? handle = some proxy := by
  simp [contains, Option.isSome_iff_exists]

/-- A value behind a reference is the cell of a proxy. -/
theorem proxy?_of_value? {heap : Heap} {reference : Ref} {value : Value}
    (found : heap.value? reference = some value) :
    ∃ proxy, heap.proxy? reference.handle = some proxy ∧ proxy.cell = .value value := by
  unfold value? at found
  split at found
  · rename_i residence marked pinned content resolved
    exact ⟨_, resolved, by simpa using found⟩
  · simp at found

/-- An object behind a reference is the cell of a proxy. -/
theorem proxy?_of_object? {heap : Heap} {reference : ObjectRef} {object : Object}
    (found : heap.object? reference = some object) :
    ∃ proxy, heap.proxy? reference.handle = some proxy ∧ proxy.cell = .object object := by
  unfold object? at found
  split at found
  · rename_i residence marked pinned content resolved
    exact ⟨_, resolved, by simpa using found⟩
  · simp at found

section Slots

variable {heap after : Heap} {handle : Handle} {position : Nat} {change : Proxy → Proxy}

/-- What a handle names depends on its slot alone. -/
theorem proxy?_congr (same : after.slots[handle.index]? = heap.slots[handle.index]?) :
    after.proxy? handle = heap.proxy? handle := by
  rw [proxy?, proxy?, same]

/-- The occupant of a slot depends on the slot alone. -/
theorem occupant?_congr (same : after.slots[position]? = heap.slots[position]?) :
    after.occupant? position = heap.occupant? position := by
  rw [occupant?, occupant?, same]

/-- A slot whose occupant is changed names the changed one at the same generation. -/
theorem proxy?_of_changed (changed : after.slots[handle.index]? =
      heap.slots[handle.index]?.map fun slot => { slot with proxy := slot.proxy.map change }) :
    after.proxy? handle = (heap.proxy? handle).map change := by
  cases within : heap.slots[handle.index]? with
  | none => simp [proxy?, changed, within]
  | some slot => by_cases same : slot.generation = handle.generation <;>
      simp [proxy?, changed, within, same]

/-- A slot whose occupant is changed holds the changed one. -/
theorem occupant?_of_changed (changed : after.slots[position]? =
      heap.slots[position]?.map fun slot => { slot with proxy := slot.proxy.map change }) :
    after.occupant? position = (heap.occupant? position).map change := by
  cases within : heap.slots[position]? <;> simp [occupant?, changed, within]

end Slots

section Update

variable (heap : Heap) (index : Nat) (change : Proxy → Proxy)

/-- The slots after a proxy is changed. -/
theorem slots_updateAt (position : Nat) :
    (heap.updateAt index change).slots[position]? =
      if index = position then
        heap.slots[position]?.map fun slot => { slot with proxy := slot.proxy.map change }
      else heap.slots[position]? := by
  simp [updateAt, Array.getElem?_modify]

/-- Changing a proxy adds no slot. -/
@[simp] theorem size_updateAt : (heap.updateAt index change).slots.size = heap.slots.size := by
  simp [updateAt]

/-- A changed proxy is named by the same handle. -/
theorem proxy?_updateAt (handle : Handle) :
    (heap.updateAt index change).proxy? handle =
      if index = handle.index then (heap.proxy? handle).map change else heap.proxy? handle := by
  have slots := slots_updateAt heap index change handle.index
  split
  · rename_i here
    exact proxy?_of_changed (slots.trans (if_pos here))
  · rename_i elsewhere
    exact proxy?_congr (slots.trans (if_neg elsewhere))

/-- A changed proxy occupies the same slot. -/
theorem occupant?_updateAt (position : Nat) :
    (heap.updateAt index change).occupant? position =
      if index = position then (heap.occupant? position).map change
      else heap.occupant? position := by
  have slots := slots_updateAt heap index change position
  split
  · rename_i here
    exact occupant?_of_changed (slots.trans (if_pos here))
  · rename_i elsewhere
    exact occupant?_congr (slots.trans (if_neg elsewhere))

/-- Changing a proxy moves no slot's handle. -/
@[simp] theorem handleAt_updateAt (position : Nat) :
    (heap.updateAt index change).handleAt position = heap.handleAt position := by
  by_cases here : index = position
  · cases within : heap.slots[position]? with
    | none => simp [handleAt, slots_updateAt, here, within]
    | some slot => simp [handleAt, slots_updateAt, here, within]
  · simp [handleAt, slots_updateAt, here]

end Update

section UpdateAll

variable (change : Proxy → Proxy)

/-- Changing proxies adds no slot and moves no slot in a list. -/
theorem updateAll_frame (indices : List Nat) (heap : Heap) :
    (heap.updateAll indices change).slots.size = heap.slots.size ∧
      (heap.updateAll indices change).free = heap.free ∧
      (heap.updateAll indices change).pending = heap.pending ∧
      (heap.updateAll indices change).active = heap.active ∧
      (heap.updateAll indices change).kept = heap.kept ∧
      (heap.updateAll indices change).unmarked = heap.unmarked := by
  induction indices generalizing heap with
  | nil => exact ⟨rfl, rfl, rfl, rfl, rfl, rfl⟩
  | cons index rest hypothesis =>
    have later := hypothesis (heap.updateAt index change)
    simpa [updateAll, updateAt] using later

variable {change}

/-- The slots after listed proxies are changed by a change that does nothing twice. -/
theorem slots_updateAll (idempotent : ∀ proxy, change (change proxy) = change proxy)
    (indices : List Nat) (heap : Heap) (position : Nat) :
    (heap.updateAll indices change).slots[position]? =
      if position ∈ indices then
        heap.slots[position]?.map fun slot => { slot with proxy := slot.proxy.map change }
      else heap.slots[position]? := by
  induction indices generalizing heap with
  | nil => simp [updateAll]
  | cons index rest hypothesis =>
    have later := hypothesis (heap.updateAt index change)
    change ((heap.updateAt index change).updateAll rest change).slots[position]? = _
    rw [later, slots_updateAt]
    by_cases here : index = position
    · by_cases again : position ∈ rest
      · simp [here, again, idempotent, Function.comp_def]
      · simp [here, again]
    · have apart : position ≠ index := fun equal => here equal.symm
      simp [here, apart]

/-- What handles name after listed proxies are changed by a change that does nothing twice. -/
theorem proxy?_updateAll (idempotent : ∀ proxy, change (change proxy) = change proxy)
    (indices : List Nat) (heap : Heap) (handle : Handle) :
    (heap.updateAll indices change).proxy? handle =
      if handle.index ∈ indices then (heap.proxy? handle).map change
      else heap.proxy? handle := by
  have slots := slots_updateAll idempotent indices heap handle.index
  split
  · rename_i listed
    exact proxy?_of_changed (slots.trans (if_pos listed))
  · rename_i other
    exact proxy?_congr (slots.trans (if_neg other))

/-- The occupants after listed proxies are changed by a change that does nothing twice. -/
theorem occupant?_updateAll (idempotent : ∀ proxy, change (change proxy) = change proxy)
    (indices : List Nat) (heap : Heap) (position : Nat) :
    (heap.updateAll indices change).occupant? position =
      if position ∈ indices then (heap.occupant? position).map change
      else heap.occupant? position := by
  have slots := slots_updateAll idempotent indices heap position
  split
  · rename_i listed
    exact occupant?_of_changed (slots.trans (if_pos listed))
  · rename_i other
    exact occupant?_congr (slots.trans (if_neg other))

/-- Changing proxies moves no slot's handle. -/
@[simp] theorem handleAt_updateAll (indices : List Nat) (heap : Heap) (position : Nat) :
    (heap.updateAll indices change).handleAt position = heap.handleAt position := by
  induction indices generalizing heap with
  | nil => rfl
  | cons index rest hypothesis =>
    have later := hypothesis (heap.updateAt index change)
    rw [handleAt_updateAt] at later
    exact later

end UpdateAll

/-- The slots after one is emptied. -/
theorem slots_vacate (slots : Array Slot) (index position : Nat) :
    (vacate slots index)[position]? =
      if index = position then slots[position]?.map fun slot => ⟨slot.generation + 1, none⟩
      else slots[position]? := by
  simp [vacate, Array.getElem?_modify]

/-- The slots after some are emptied: the others stay, and the emptied ones have no occupant. -/
theorem slots_foldl_vacate (batch : List Nat) (slots : Array Slot) (position : Nat) :
    (position ∉ batch → (batch.foldl vacate slots)[position]? = slots[position]?) ∧
      (position ∈ batch → ∀ slot, (batch.foldl vacate slots)[position]? = some slot →
        slot.proxy = none) := by
  induction batch generalizing slots with
  | nil => simp
  | cons index rest hypothesis =>
    obtain ⟨apart, emptied⟩ := hypothesis (vacate slots index)
    constructor
    · intro outside
      simp only [List.mem_cons, not_or] at outside
      have other : index ≠ position := fun equal => outside.1 equal.symm
      rw [List.foldl_cons, apart outside.2, slots_vacate, if_neg other]
    · intro inside slot found
      by_cases later : position ∈ rest
      · exact emptied later slot found
      · have here : index = position := by
          rcases List.mem_cons.mp inside with equal | member
          · exact equal.symm
          · exact absurd member later
        rw [List.foldl_cons, apart later, slots_vacate, if_pos here] at found
        obtain ⟨old, _, rfl⟩ := Option.map_eq_some_iff.mp found
        rfl

/-- Emptying slots removes none of them. -/
theorem size_foldl_vacate (batch : List Nat) (slots : Array Slot) :
    (batch.foldl vacate slots).size = slots.size := by
  induction batch generalizing slots with
  | nil => rfl
  | cons index rest hypothesis =>
    rw [List.foldl_cons, hypothesis, vacate, Array.size_modify]

/-- The occupants after a batch of condemned proxies is disposed of. -/
theorem occupant?_disposeSome (heap : Heap) (budget : Nat) (position : Nat) :
    (heap.disposeSome budget).2.2.occupant? position =
      if position ∈ heap.unmarked.take budget then none else heap.occupant? position := by
  obtain ⟨apart, emptied⟩ := slots_foldl_vacate (heap.unmarked.take budget) heap.slots position
  split
  · rename_i inside
    cases within : ((heap.unmarked.take budget).foldl vacate heap.slots)[position]? with
    | none => simp [occupant?, disposeSome, within]
    | some slot => simp [occupant?, disposeSome, within, emptied inside slot within]
  · rename_i outside
    exact occupant?_congr (apart outside)

/-- What handles name after a batch of condemned proxies is disposed of. -/
theorem proxy?_disposeSome (heap : Heap) (budget : Nat) (handle : Handle) :
    (heap.disposeSome budget).2.2.proxy? handle =
      if handle.index ∈ heap.unmarked.take budget then none else heap.proxy? handle := by
  have slots := slots_foldl_vacate (heap.unmarked.take budget) heap.slots handle.index
  split
  · rename_i inside
    have empty := occupant?_disposeSome heap budget handle.index
    rw [if_pos inside] at empty
    exact proxy?_of_vacant empty
  · rename_i outside
    exact proxy?_congr (slots.1 outside)

/-- What a handle still names after a batch is disposed of, it named before. -/
theorem proxy?_of_disposeSome {heap : Heap} {budget : Nat} {handle : Handle} {proxy : Proxy}
    (resolved : (heap.disposeSome budget).2.2.proxy? handle = some proxy) :
    handle.index ∉ heap.unmarked.take budget ∧ heap.proxy? handle = some proxy := by
  rw [proxy?_disposeSome] at resolved
  split at resolved
  · cases resolved
  · rename_i outside
    exact ⟨outside, resolved⟩

/-- The proxy that an allocation makes. -/
def freshProxy (cell : Cell) (pinned : Bool) : Proxy := ⟨.pending, false, pinned, cell⟩

/-- What an allocation does, from the slot it takes: the slot was empty, and the new handle names
the new proxy there. -/
structure Allocates (heap : Heap) (cell : Cell) (pinned : Bool) (handle : Handle)
    (after : Heap) : Prop where
  /-- The slot had no occupant. -/
  vacant : heap.occupant? handle.index = none
  /-- The new handle alone names something else than before. -/
  proxies : ∀ other, after.proxy? other =
    if other = handle then some (freshProxy cell pinned) else heap.proxy? other
  /-- The new slot alone has another occupant than before. -/
  occupants : ∀ position, after.occupant? position =
    if position = handle.index then some (freshProxy cell pinned) else heap.occupant? position
  /-- The slot is pending. -/
  pending : after.pending = handle.index :: heap.pending
  /-- It was an empty one, or it is new. -/
  source : (heap.free = handle.index :: after.free ∧ after.slots.size = heap.slots.size) ∨
    (heap.free = [] ∧ after.free = [] ∧ handle.index = heap.slots.size ∧
      after.slots.size = heap.slots.size + 1)
  /-- The other lists stay. -/
  others : after.active = heap.active ∧ after.kept = heap.kept ∧ after.unmarked = heap.unmarked

/-- An allocation takes an empty slot, provided that the slots on the list of empty ones are. -/
theorem allocates (heap : Heap) (cell : Cell) (pinned : Bool)
    (vacant : ∀ index ∈ heap.free, index < heap.slots.size ∧ heap.occupant? index = none) :
    heap.Allocates cell pinned (heap.allocate cell pinned).1 (heap.allocate cell pinned).2 := by
  cases empties : heap.free with
  | nil =>
    have made : heap.allocate cell pinned = (⟨heap.slots.size, 0⟩, { heap with
        slots := heap.slots.push ⟨0, some (freshProxy cell pinned)⟩
        pending := heap.slots.size :: heap.pending }) := by
      simp [allocate, empties, freshProxy]
    rw [made]
    constructor
    · simp [occupant?]
    · intro other
      by_cases here : other.index = heap.slots.size
      · by_cases same : other.generation = 0
        · have equal : other = ⟨heap.slots.size, 0⟩ := by
            cases other
            simp_all
          simp [proxy?, equal]
        · have apart : other ≠ ⟨heap.slots.size, 0⟩ := fun equal => same (by rw [equal])
          have differ : (0 : UInt32) ≠ other.generation := fun equal => same equal.symm
          simp [proxy?, here, apart, differ]
      · have apart : other ≠ ⟨heap.slots.size, 0⟩ := fun equal => here (by rw [equal])
        simp [proxy?, Array.getElem?_push, here, apart]
    · intro position
      by_cases here : position = heap.slots.size
      · simp [occupant?, here]
      · simp [occupant?, Array.getElem?_push, here]
    · rfl
    · exact .inr ⟨empties, empties, rfl, by simp⟩
    · exact ⟨rfl, rfl, rfl⟩
  | cons index rest =>
    obtain ⟨within, empty⟩ := vacant index (by simp [empties])
    have found : heap.slots[index]? = some heap.slots[index] := Array.getElem?_eq_getElem within
    have hollow : heap.slots[index].proxy = none := by simpa [occupant?, found] using empty
    have made : heap.allocate cell pinned = (⟨index, heap.slots[index].generation⟩, { heap with
        free := rest
        slots := heap.slots.modify index fun slot =>
          { slot with proxy := some (freshProxy cell pinned) }
        pending := index :: heap.pending }) := by
      simp [allocate, empties, freshProxy, handleAt, Array.getElem?_modify, found]
    rw [made]
    constructor
    · exact empty
    · intro other
      by_cases here : other.index = index
      · by_cases same : other.generation = heap.slots[index].generation
        · have equal : other = ⟨index, heap.slots[index].generation⟩ := by
            cases other
            simp_all
          simp [proxy?, equal, Array.getElem?_modify, found]
        · have apart : other ≠ ⟨index, heap.slots[index].generation⟩ :=
            fun equal => same (by rw [equal])
          have differ : heap.slots[index].generation ≠ other.generation :=
            fun equal => same equal.symm
          simp [proxy?, here, apart, differ, Array.getElem?_modify, found]
      · have apart : other ≠ ⟨index, heap.slots[index].generation⟩ :=
          fun equal => here (by rw [equal])
        have differ : index ≠ other.index := fun equal => here equal.symm
        simp [proxy?, Array.getElem?_modify, differ, apart]
    · intro position
      by_cases here : position = index
      · simp [occupant?, here, Array.getElem?_modify, found]
      · have differ : index ≠ position := fun equal => here equal.symm
        simp [occupant?, Array.getElem?_modify, here, differ]
    · rfl
    · exact .inl ⟨empties, by simp⟩
    · exact ⟨rfl, rfl, rfl⟩

/-- The handle that an allocation returns named nothing before. -/
theorem Allocates.fresh {heap after : Heap} {cell : Cell} {pinned : Bool} {handle : Handle}
    (allocates : heap.Allocates cell pinned handle after) : heap.proxy? handle = none :=
  proxy?_of_vacant allocates.vacant

end Heap

end ScriptVm
