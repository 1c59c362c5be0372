import Mathlib.Tactic.ByContra
import ScriptVm.Proofs.Heap.Resolution

/-!
# Where slots stand

The representation invariant of the heap: the first slot holds the null value, every other slot is
on exactly one list, once, and the list says whether the slot is empty or where its proxy stands.
Every operation of the heap and of the collector's phases keeps it.
-/
namespace ScriptVm

namespace Heap

/-- Where the occupant of a slot stands. -/
def residenceAt? (heap : Heap) (index : Nat) : Option Residence :=
  (heap.occupant? index).map Proxy.residence

/-- A handle's proxy stands where its slot says. -/
theorem residenceAt?_of_proxy? {heap : Heap} {handle : Handle} {proxy : Proxy}
    (resolved : heap.proxy? handle = some proxy) :
    heap.residenceAt? handle.index = some proxy.residence := by
  rw [residenceAt?, occupant?_of_proxy? resolved]
  rfl

/-- The representation invariant: each list holds, once, exactly the slots that stand there. -/
structure Lawful (heap : Heap) : Prop where
  /-- The first slot holds the null value at its first generation. -/
  null : heap.slots[0]? = some ⟨0, some Proxy.null⟩
  /-- Nothing else is immortal. -/
  immortal : ∀ index, heap.residenceAt? index = some .immortal → index = 0
  /-- The empty slots. -/
  free : ∀ index, heap.free.count index =
    if index < heap.slots.size ∧ heap.residenceAt? index = none then 1 else 0
  /-- The slots of pending proxies. -/
  pending : ∀ index, heap.pending.count index =
    if heap.residenceAt? index = some .pending then 1 else 0
  /-- The slots of active proxies, kept or ahead. -/
  active : ∀ index, heap.active.count index + heap.kept.count index =
    if heap.residenceAt? index = some .active then 1 else 0
  /-- The slots of condemned proxies. -/
  unmarked : ∀ index, heap.unmarked.count index =
    if heap.residenceAt? index = some .unmarked then 1 else 0

/-- Only slots that exist hold proxies. -/
theorem index_lt_of_residenceAt? {heap : Heap} {index : Nat} {residence : Residence}
    (stands : heap.residenceAt? index = some residence) : index < heap.slots.size := by
  obtain ⟨proxy, occupied, _⟩ := Option.map_eq_some_iff.mp stands
  exact index_lt_of_occupant? occupied

/-- The slots that are listed as standing somewhere, or as empty. -/
def listed (heap : Heap) : Option Residence → List Nat
  | none => heap.free
  | some .immortal => [0]
  | some .pending => heap.pending
  | some .active => heap.active ++ heap.kept
  | some .unmarked => heap.unmarked

/-- A lawful heap lists every slot once, where it stands, and nowhere else. -/
theorem lawful_iff {heap : Heap} : heap.Lawful ↔
    heap.slots[0]? = some ⟨0, some Proxy.null⟩ ∧
      ∀ home index, (heap.listed home).count index =
        if index < heap.slots.size ∧ heap.residenceAt? index = home then 1 else 0 := by
  have within : ∀ index residence, index < heap.slots.size ∧
      heap.residenceAt? index = some residence ↔ heap.residenceAt? index = some residence :=
    fun _ _ => and_iff_right_of_imp index_lt_of_residenceAt?
  have sum : ∀ index, (heap.listed (some .active)).count index =
      heap.active.count index + heap.kept.count index := fun _ => List.count_append
  constructor
  · intro lawful
    refine ⟨lawful.null, fun home index => ?_⟩
    cases home with
    | none => exact lawful.free index
    | some residence =>
      rw [if_congr (within index residence) rfl rfl]
      cases residence with
      | immortal =>
        have zero : heap.residenceAt? 0 = some .immortal := by
          simp [residenceAt?, occupant?, lawful.null, Proxy.null]
        have only : heap.residenceAt? index = some .immortal ↔ index = 0 :=
          ⟨lawful.immortal index, fun first => first ▸ zero⟩
        rw [if_congr only rfl rfl]
        cases index <;> rfl
      | pending => exact lawful.pending index
      | active => exact (sum index).trans (lawful.active index)
      | unmarked => exact lawful.unmarked index
  · rintro ⟨null, once⟩
    have counted : ∀ residence index, (heap.listed (some residence)).count index =
        if heap.residenceAt? index = some residence then 1 else 0 := fun residence index =>
      (once (some residence) index).trans (if_congr (within index residence) rfl rfl)
    refine ⟨null, fun index immortal => ?_, once none, counted .pending, fun index => ?_,
      counted .unmarked⟩
    · have first := counted .immortal index
      rw [if_pos immortal] at first
      exact List.mem_singleton.mp (List.count_pos_iff.mp (first ▸ Nat.one_pos))
    · rw [← sum, counted]

/-- The heap with the null value alone is lawful. -/
theorem lawful_empty : empty.Lawful := by
  refine lawful_iff.mpr ⟨rfl, fun home index => ?_⟩
  cases index with
  | zero => cases home with
    | none => rfl
    | some residence => cases residence <;> rfl
  | succ index =>
    rw [if_neg fun stands => absurd stands.1 (by simp [empty])]
    cases home with
    | none => rfl
    | some residence => cases residence <;> rfl

/-- The heap with the null value alone holds nothing else. -/
theorem eq_null_of_empty {handle : Handle} {proxy : Proxy}
    (resolved : empty.proxy? handle = some proxy) : handle = Handle.null ∧ proxy = Proxy.null := by
  obtain ⟨index, generation⟩ := handle
  cases index with
  | zero =>
    have named := proxy?_eq_some_iff.mp resolved
    simp only [empty, List.getElem?_toArray, List.getElem?_cons_zero, Option.some.injEq,
      Slot.mk.injEq] at named
    obtain ⟨rfl, rfl⟩ := named
    exact ⟨rfl, rfl⟩
  | succ index => simp [proxy?, empty] at resolved

namespace Lawful

variable {heap : Heap}

/-- The null handle names the null value. -/
theorem proxy?_null (lawful : heap.Lawful) : heap.proxy? Handle.null = some Proxy.null :=
  proxy?_eq_some_iff.mpr lawful.null

/-- The null reference leads to null. -/
theorem value?_null (lawful : heap.Lawful) : heap.value? Ref.null = some .null := by
  unfold Heap.value?
  rw [show Ref.null.handle = Handle.null from rfl, lawful.proxy?_null]
  rfl

/-- The first slot's occupant is the null value. -/
theorem occupant?_zero (lawful : heap.Lawful) : heap.occupant? 0 = some Proxy.null :=
  occupant?_of_proxy? lawful.proxy?_null

/-- A handle to the first slot that resolves is the null handle. -/
theorem eq_null_of_index (lawful : heap.Lawful) {handle : Handle} {proxy : Proxy}
    (resolved : heap.proxy? handle = some proxy) (zero : handle.index = 0) :
    handle = Handle.null :=
  handle_eq_of_index_eq resolved lawful.proxy?_null zero

/-- A handle to an immortal proxy is the null handle. -/
theorem eq_null_of_immortal (lawful : heap.Lawful) {handle : Handle} {proxy : Proxy}
    (resolved : heap.proxy? handle = some proxy) (immortal : proxy.residence = .immortal) :
    handle = Handle.null := by
  apply lawful.eq_null_of_index resolved
  apply lawful.immortal
  rw [residenceAt?_of_proxy? resolved, immortal]

/-- A slot is on the list of empty ones exactly when it exists without an occupant. -/
theorem mem_free (lawful : heap.Lawful) {index : Nat} :
    index ∈ heap.free ↔ index < heap.slots.size ∧ heap.residenceAt? index = none := by
  rw [← List.count_pos_iff, lawful.free]
  split <;> simp_all

/-- A slot is pending exactly when its occupant is. -/
theorem mem_pending (lawful : heap.Lawful) {index : Nat} :
    index ∈ heap.pending ↔ heap.residenceAt? index = some .pending := by
  rw [← List.count_pos_iff, lawful.pending]
  split <;> simp_all

/-- A slot is kept or ahead exactly when its occupant is active. -/
theorem mem_active (lawful : heap.Lawful) {index : Nat} :
    index ∈ heap.active ∨ index ∈ heap.kept ↔ heap.residenceAt? index = some .active := by
  have counted := lawful.active index
  rw [← List.count_pos_iff, ← List.count_pos_iff (l := heap.kept)]
  constructor
  · intro positive
    by_contra other
    rw [if_neg other] at counted
    omega
  · intro standing
    rw [if_pos standing] at counted
    omega

/-- A slot is condemned exactly when its occupant is. -/
theorem mem_unmarked (lawful : heap.Lawful) {index : Nat} :
    index ∈ heap.unmarked ↔ heap.residenceAt? index = some .unmarked := by
  rw [← List.count_pos_iff, lawful.unmarked]
  split <;> simp_all

section Named

variable {handle : Handle} {proxy : Proxy}

/-- The slot of a named proxy is pending exactly when the proxy is. -/
theorem mem_pending_iff (lawful : heap.Lawful) (resolved : heap.proxy? handle = some proxy) :
    handle.index ∈ heap.pending ↔ proxy.residence = .pending := by
  rw [lawful.mem_pending, residenceAt?_of_proxy? resolved, Option.some.injEq]

/-- The slot of a named proxy is kept or ahead exactly when the proxy is active. -/
theorem mem_active_iff (lawful : heap.Lawful) (resolved : heap.proxy? handle = some proxy) :
    handle.index ∈ heap.active ∨ handle.index ∈ heap.kept ↔ proxy.residence = .active := by
  rw [lawful.mem_active, residenceAt?_of_proxy? resolved, Option.some.injEq]

/-- The slot of a named proxy is condemned exactly when the proxy is. -/
theorem mem_unmarked_iff (lawful : heap.Lawful) (resolved : heap.proxy? handle = some proxy) :
    handle.index ∈ heap.unmarked ↔ proxy.residence = .unmarked := by
  rw [lawful.mem_unmarked, residenceAt?_of_proxy? resolved, Option.some.injEq]

end Named

/-- The slots that an allocation may take are empty. -/
theorem vacant (lawful : heap.Lawful) :
    ∀ index ∈ heap.free, index < heap.slots.size ∧ heap.occupant? index = none := by
  intro index member
  obtain ⟨within, standing⟩ := lawful.mem_free.mp member
  exact ⟨within, by simpa [residenceAt?] using standing⟩

/-- A heap with the same lists and the same standings, and with the null value in place, is lawful
too. -/
theorem of_same_standing {after : Heap} (lawful : heap.Lawful)
    (null : after.slots[0]? = some ⟨0, some Proxy.null⟩)
    (size : after.slots.size = heap.slots.size)
    (standing : ∀ index, after.residenceAt? index = heap.residenceAt? index)
    (lists : after.free = heap.free ∧ after.pending = heap.pending ∧ after.active = heap.active ∧
      after.kept = heap.kept ∧ after.unmarked = heap.unmarked) : after.Lawful := by
  obtain ⟨free, pending, active, kept, unmarked⟩ := lists
  have same : ∀ home, after.listed home = heap.listed home := by
    rintro (_ | _ | _ | _ | _) <;> simp [listed, free, pending, active, kept, unmarked]
  refine lawful_iff.mpr ⟨null, fun home index => ?_⟩
  rw [same, size, standing, (lawful_iff.mp lawful).2]

/-- Slots of one standing that get another one, and that the lists follow, keep the heap lawful:
each was listed once where it stood, and is listed once where it goes. -/
theorem moved {after : Heap} (lawful : heap.Lawful) {batch : List Nat} {source : Residence}
    {target : Option Residence}
    (before : ∀ index ∈ batch, heap.residenceAt? index = some source) (mortal : source ≠ .immortal)
    (others : ∀ handle, handle.index ∉ batch → after.proxy? handle = heap.proxy? handle)
    (standing : ∀ index, after.residenceAt? index =
      if index ∈ batch then target else heap.residenceAt? index)
    (size : after.slots.size = heap.slots.size)
    (lists : ∀ home index, (after.listed home).count index +
        (if some source = home then batch.count index else 0) =
      (heap.listed home).count index + if target = home then batch.count index else 0) :
    after.Lawful := by
  have once := (lawful_iff.mp lawful).2
  refine lawful_iff.mpr ⟨?_, fun home index => ?_⟩
  · have outside : 0 ∉ batch := by
      intro inside
      have stands := before 0 inside
      rw [residenceAt?, lawful.occupant?_zero] at stands
      exact mortal (Option.some.inj stands).symm
    exact proxy?_eq_some_iff.mp ((others Handle.null outside).trans lawful.proxy?_null)
  · have moves := lists home index
    have listed := once home index
    rw [size, standing]
    by_cases inside : index ∈ batch
    · have within := index_lt_of_residenceAt? (before index inside)
      have positive := List.count_pos_iff.mpr inside
      have leaves := lists (some source) index
      have stood := once (some source) index
      simp only [before index inside, within, true_and, if_true] at listed stood leaves
      simp only [inside, within, true_and, if_true]
      rcases eq_or_ne target (some source) with rfl | elsewhere
      · omega
      · rw [if_neg elsewhere] at leaves
        by_cases left : some source = home
        · subst left
          rw [if_neg elsewhere]
          omega
        · rw [if_neg left] at listed moves
          by_cases arrived : target = home
          · rw [if_pos arrived] at moves ⊢
            omega
          · rw [if_neg arrived] at moves ⊢
            omega
    · have none := List.count_eq_zero.mpr inside
      simp only [none, ite_self, Nat.add_zero] at moves
      rw [if_neg inside, moves, listed]

/-- Changing a proxy other than the null value without moving it keeps the heap lawful. -/
theorem updateAt (lawful : heap.Lawful) {index : Nat} {change : Proxy → Proxy}
    (inner : index ≠ 0) (stays : ∀ proxy, (change proxy).residence = proxy.residence) :
    (heap.updateAt index change).Lawful := by
  apply lawful.of_same_standing
  · rw [slots_updateAt, if_neg inner, lawful.null]
  · exact size_updateAt heap index change
  · intro position
    rw [residenceAt?, residenceAt?, occupant?_updateAt]
    split
    · simp [Option.map_map, Function.comp_def, stays]
    · rfl
  · exact ⟨rfl, rfl, rfl, rfl, rfl⟩

/-- An allocation keeps the heap lawful. -/
theorem allocate (lawful : heap.Lawful) (cell : Cell) (pinned : Bool) :
    (heap.allocate cell pinned).2.Lawful := by
  have allocates := heap.allocates cell pinned lawful.vacant
  generalize (heap.allocate cell pinned).1 = handle at allocates
  generalize (heap.allocate cell pinned).2 = after at allocates
  obtain ⟨active, kept, unmarked⟩ := allocates.others
  have standing : ∀ index, after.residenceAt? index =
      if index = handle.index then some .pending else heap.residenceAt? index := by
    intro index
    rw [residenceAt?, allocates.occupants]
    split <;> rfl
  have before : heap.residenceAt? handle.index = none := by
    rw [residenceAt?, allocates.vacant]
    rfl
  have positive : handle.index ≠ 0 := by
    intro zero
    have vacant := allocates.vacant
    rw [zero, lawful.occupant?_zero] at vacant
    contradiction
  refine lawful_iff.mpr ⟨?_, fun home index => ?_⟩
  · have named := allocates.proxies Handle.null
    have other : Handle.null ≠ handle := fun equal => positive (by rw [← equal]; rfl)
    rw [if_neg other, lawful.proxy?_null] at named
    exact proxy?_eq_some_iff.mp named
  · have counted := (lawful_iff.mp lawful).2 home index
    rw [standing]
    by_cases here : index = handle.index
    · subst here
      have taken : handle.index < after.slots.size ∧ after.free.count handle.index = 0 := by
        rcases allocates.source with ⟨taken, size⟩ | ⟨_, none, new, size⟩
        · have once := lawful.free handle.index
          have listed : handle.index ∈ heap.free := taken ▸ List.mem_cons_self
          have within := (lawful.mem_free.mp listed).1
          rw [if_pos ⟨within, before⟩, taken, List.count_cons_self] at once
          exact ⟨size ▸ within, Nat.succ.inj once⟩
        · exact ⟨by omega, by simp [none]⟩
      rw [before] at counted
      rcases home with _ | _ | _ | _ | _ <;>
        simp_all [listed, allocates.pending, List.count_eq_zero]
    · rw [if_neg here]
      have other : handle.index ≠ index := Ne.symm here
      have size : index < after.slots.size ↔ index < heap.slots.size := by
        rcases allocates.source with ⟨_, size⟩ | ⟨_, _, new, size⟩ <;> omega
      have free : after.free.count index = heap.free.count index := by
        rcases allocates.source with ⟨taken, _⟩ | ⟨none, empty, _⟩
        · rw [taken, List.count_cons_of_ne other]
        · rw [none, empty]
      rw [if_congr (and_congr_left' size) rfl rfl, ← counted]
      rcases home with _ | _ | _ | _ | _ <;>
        simp [listed, allocates.pending, active, kept, unmarked, free, List.count_cons_of_ne other]

/-- Ending a pass keeps the heap lawful. -/
theorem rewind (lawful : heap.Lawful) : heap.rewind.Lawful := by
  refine ⟨lawful.null, lawful.immortal, lawful.free, lawful.pending, ?_, lawful.unmarked⟩
  intro index
  have counted := lawful.active index
  have sum : heap.rewind.active.count index + heap.rewind.kept.count index =
      heap.active.count index + heap.kept.count index := by
    simp [Heap.rewind, activeSlots, List.count_append, Nat.add_comm]
  rw [sum]
  exact counted

end Lawful

/-- The heap after a batch of pending proxies has become active, before the pass may end. -/
def linked (heap : Heap) (budget : Nat) : Heap :=
  { heap with
    pending := heap.pending.drop budget
    active := []
    kept := (heap.pending.take budget).reverse ++ (heap.active.reverse ++ heap.kept) }.updateAll
      (heap.pending.take budget) ({ · with residence := .active })

/-- The heap after the marks of a batch of active proxies have been cleared, before the pass may
end. -/
def cleared (heap : Heap) (budget : Nat) : Heap :=
  { heap with
    active := heap.active.drop budget
    kept := (heap.active.take budget).reverse ++ heap.kept }.updateAll
      (heap.active.take budget) ({ · with marked := false })

/-- The slots of a batch of active proxies whose proxies are not marked. -/
def condemnedBatch (heap : Heap) (budget : Nat) : List Nat :=
  (heap.active.take budget).filter fun index => !heap.isMarkedAt index

/-- The heap after the unmarked ones of a batch of active proxies have been condemned, before the
pass may end. -/
def sifted (heap : Heap) (budget : Nat) : Heap :=
  { heap with
    active := heap.active.drop budget
    kept := ((heap.active.take budget).filter heap.isMarkedAt).reverse ++ heap.kept
    unmarked := (heap.condemnedBatch budget).reverse ++ heap.unmarked }.updateAll
      (heap.condemnedBatch budget) ({ · with residence := .unmarked })

/-- Linking ends when no pending proxy is left. -/
theorem linkPending_eq (heap : Heap) (budget : Nat) :
    heap.linkPending budget =
      if (heap.pending.drop budget).isEmpty then (true, (heap.linked budget).rewind)
      else (false, heap.linked budget) := by
  have pending : (heap.linked budget).pending = heap.pending.drop budget :=
    (updateAll_frame _ _ _).2.2.1
  rw [← pending]
  rfl

/-- Clearing marks is clearing a batch, and then perhaps ending the pass. -/
theorem resetMarks_eq (heap : Heap) (budget : Nat) :
    heap.resetMarks budget = ((heap.cleared budget).endPass.1, (heap.cleared budget).endPass.2,
      (((heap.active.take budget).filter (heap.cleared budget).endPass.2.isPinnedAt).map
        (heap.cleared budget).endPass.2.handleAt).reverse) := rfl

/-- Condemning is sifting a batch, and then perhaps ending the pass. -/
theorem collectSome_eq (heap : Heap) (budget : Nat) :
    heap.collectSome budget = (heap.sifted budget).endPass := by
  simp only [collectSome, List.partition_eq_filter_filter]
  rfl

section Passes

variable {heap : Heap} (budget : Nat)

/-- The lists after a batch is linked. -/
theorem linked_lists (heap : Heap) :
    (heap.linked budget).slots.size = heap.slots.size ∧ (heap.linked budget).free = heap.free ∧
      (heap.linked budget).pending = heap.pending.drop budget ∧
      (heap.linked budget).active = [] ∧
      (heap.linked budget).kept =
        (heap.pending.take budget).reverse ++ (heap.active.reverse ++ heap.kept) ∧
      (heap.linked budget).unmarked = heap.unmarked :=
  updateAll_frame _ _ _

/-- The lists after the marks of a batch are cleared. -/
theorem cleared_lists (heap : Heap) :
    (heap.cleared budget).slots.size = heap.slots.size ∧ (heap.cleared budget).free = heap.free ∧
      (heap.cleared budget).pending = heap.pending ∧
      (heap.cleared budget).active = heap.active.drop budget ∧
      (heap.cleared budget).kept = (heap.active.take budget).reverse ++ heap.kept ∧
      (heap.cleared budget).unmarked = heap.unmarked :=
  updateAll_frame _ _ _

/-- The lists after a batch is sifted. -/
theorem sifted_lists (heap : Heap) :
    (heap.sifted budget).slots.size = heap.slots.size ∧ (heap.sifted budget).free = heap.free ∧
      (heap.sifted budget).pending = heap.pending ∧
      (heap.sifted budget).active = heap.active.drop budget ∧
      (heap.sifted budget).kept =
        ((heap.active.take budget).filter heap.isMarkedAt).reverse ++ heap.kept ∧
      (heap.sifted budget).unmarked = (heap.condemnedBatch budget).reverse ++ heap.unmarked :=
  updateAll_frame _ _ _

/-- What handles name after a batch is linked. -/
theorem proxy?_linked (heap : Heap) (handle : Handle) :
    (heap.linked budget).proxy? handle =
      if handle.index ∈ heap.pending.take budget then
        (heap.proxy? handle).map ({ · with residence := .active })
      else heap.proxy? handle :=
  proxy?_updateAll (by intro _; rfl) _ _ _

/-- What handles name after the marks of a batch are cleared. -/
theorem proxy?_cleared (heap : Heap) (handle : Handle) :
    (heap.cleared budget).proxy? handle =
      if handle.index ∈ heap.active.take budget then
        (heap.proxy? handle).map ({ · with marked := false })
      else heap.proxy? handle :=
  proxy?_updateAll (by intro _; rfl) _ _ _

/-- What handles name after a batch is sifted. -/
theorem proxy?_sifted (heap : Heap) (handle : Handle) :
    (heap.sifted budget).proxy? handle =
      if handle.index ∈ heap.condemnedBatch budget then
        (heap.proxy? handle).map ({ · with residence := .unmarked })
      else heap.proxy? handle :=
  proxy?_updateAll (by intro _; rfl) _ _ _

/-- The occupants after a batch is linked. -/
theorem occupant?_linked (heap : Heap) (position : Nat) :
    (heap.linked budget).occupant? position =
      if position ∈ heap.pending.take budget then
        (heap.occupant? position).map ({ · with residence := .active })
      else heap.occupant? position :=
  occupant?_updateAll (by intro _; rfl) _ _ _

/-- The occupants after the marks of a batch are cleared. -/
theorem occupant?_cleared (heap : Heap) (position : Nat) :
    (heap.cleared budget).occupant? position =
      if position ∈ heap.active.take budget then
        (heap.occupant? position).map ({ · with marked := false })
      else heap.occupant? position :=
  occupant?_updateAll (by intro _; rfl) _ _ _

/-- The occupants after a batch is sifted. -/
theorem occupant?_sifted (heap : Heap) (position : Nat) :
    (heap.sifted budget).occupant? position =
      if position ∈ heap.condemnedBatch budget then
        (heap.occupant? position).map ({ · with residence := .unmarked })
      else heap.occupant? position :=
  occupant?_updateAll (by intro _; rfl) _ _ _

/-- The count of a slot in a list is its count in the first part and in the rest. -/
theorem count_take_add_count_drop (slots : List Nat) (index : Nat) :
    (slots.take budget).count index + (slots.drop budget).count index = slots.count index := by
  rw [← List.count_append, List.take_append_drop]

/-- Where slots stand after the proxies of a batch have been changed. -/
theorem residenceAt?_of_occupants {after : Heap} {batch : List Nat} {change : Proxy → Proxy}
    {source : Residence} (target : Residence)
    (before : ∀ index ∈ batch, heap.residenceAt? index = some source)
    (occupants : ∀ index, after.occupant? index =
      if index ∈ batch then (heap.occupant? index).map change else heap.occupant? index)
    (makes : ∀ proxy, proxy.residence = source → (change proxy).residence = target)
    (index : Nat) : after.residenceAt? index =
      if index ∈ batch then some target else heap.residenceAt? index := by
  rw [residenceAt?, occupants]
  split
  · rename_i inside
    obtain ⟨proxy, occupied, stands⟩ := Option.map_eq_some_iff.mp (before index inside)
    rw [occupied, Option.map_some, Option.map_some, makes proxy stands]
  · rfl

/-- Linking a batch keeps the heap lawful. -/
theorem Lawful.linked (lawful : heap.Lawful) : (heap.linked budget).Lawful := by
  obtain ⟨size, free, pending, active, kept, unmarked⟩ := linked_lists budget heap
  have before : ∀ index ∈ heap.pending.take budget, heap.residenceAt? index = some .pending :=
    fun index inside => lawful.mem_pending.mp (List.mem_of_mem_take inside)
  have standing := residenceAt?_of_occupants .active before (occupant?_linked budget heap)
    fun _ _ => rfl
  refine lawful.moved before nofun
    (fun handle outside => (proxy?_linked budget heap handle).trans (if_neg outside))
    standing size ?_
  intro home index
  have parts := count_take_add_count_drop budget heap.pending index
  rcases home with _ | _ | _ | _ | _ <;> simp [listed, free, pending, active, kept, unmarked] <;>
    omega

/-- Clearing the marks of a batch keeps the heap lawful. -/
theorem Lawful.cleared (lawful : heap.Lawful) : (heap.cleared budget).Lawful := by
  obtain ⟨size, free, pending, active, kept, unmarked⟩ := cleared_lists budget heap
  have before : ∀ index ∈ heap.active.take budget, heap.residenceAt? index = some .active :=
    fun index inside => lawful.mem_active.mp (.inl (List.mem_of_mem_take inside))
  have standing := residenceAt?_of_occupants .active before (occupant?_cleared budget heap)
    fun _ stands => stands
  refine lawful.moved before nofun
    (fun handle outside => (proxy?_cleared budget heap handle).trans (if_neg outside)) standing
    size ?_
  intro home index
  have parts := count_take_add_count_drop budget heap.active index
  rcases home with _ | _ | _ | _ | _ <;> simp [listed, free, pending, active, kept, unmarked]
  omega

/-- A condemned slot was ahead of the pass. -/
theorem mem_active_of_mem_condemnedBatch {index : Nat}
    (condemned : index ∈ heap.condemnedBatch budget) : index ∈ heap.active :=
  List.mem_of_mem_take (List.mem_filter.mp condemned).1

/-- A batch is its marked part and its condemned part. -/
theorem count_marked_add_count_condemnedBatch (heap : Heap) (index : Nat) :
    ((heap.active.take budget).filter heap.isMarkedAt).count index +
      (heap.condemnedBatch budget).count index = (heap.active.take budget).count index := by
  rw [condemnedBatch]
  by_cases marked : heap.isMarkedAt index = true
  · have none : index ∉ (heap.active.take budget).filter fun index => !heap.isMarkedAt index := by
      simp [marked]
    rw [List.count_filter marked, List.count_eq_zero.mpr none, Nat.add_zero]
  · have none : index ∉ (heap.active.take budget).filter heap.isMarkedAt := by
      simp [marked]
    rw [List.count_eq_zero.mpr none, List.count_filter (by simpa using marked), Nat.zero_add]

/-- Sifting a batch keeps the heap lawful. -/
theorem Lawful.sifted (lawful : heap.Lawful) : (heap.sifted budget).Lawful := by
  obtain ⟨size, free, pending, active, kept, unmarked⟩ := sifted_lists budget heap
  have before : ∀ index ∈ heap.condemnedBatch budget, heap.residenceAt? index = some .active :=
    fun index condemned =>
      lawful.mem_active.mp (.inl (mem_active_of_mem_condemnedBatch budget condemned))
  have standing := residenceAt?_of_occupants .unmarked before (occupant?_sifted budget heap)
    fun _ _ => rfl
  refine lawful.moved before nofun
    (fun handle outside => (proxy?_sifted budget heap handle).trans (if_neg outside))
    standing size ?_
  intro home index
  have parts := count_take_add_count_drop budget heap.active index
  have split := count_marked_add_count_condemnedBatch budget heap index
  rcases home with _ | _ | _ | _ | _ <;> simp [listed, free, pending, active, kept, unmarked] <;>
    omega

/-- Disposing of a batch keeps the heap lawful. -/
theorem Lawful.disposeSome (lawful : heap.Lawful) : (heap.disposeSome budget).2.2.Lawful := by
  have before : ∀ index ∈ heap.unmarked.take budget, heap.residenceAt? index = some .unmarked :=
    fun index inside => lawful.mem_unmarked.mp (List.mem_of_mem_take inside)
  have standing : ∀ index, (heap.disposeSome budget).2.2.residenceAt? index =
      if index ∈ heap.unmarked.take budget then none else heap.residenceAt? index := by
    intro index
    rw [residenceAt?, occupant?_disposeSome]
    split <;> rfl
  refine lawful.moved before nofun
    (fun handle outside => (proxy?_disposeSome heap budget handle).trans (if_neg outside)) standing
    (size_foldl_vacate _ _) ?_
  intro home index
  have parts := count_take_add_count_drop budget heap.unmarked index
  have free : (heap.disposeSome budget).2.2.free =
      (heap.unmarked.take budget).reverse ++ heap.free := rfl
  have unmarked : (heap.disposeSome budget).2.2.unmarked = heap.unmarked.drop budget := rfl
  rcases home with _ | _ | _ | _ | _
  · simp [listed, free, Nat.add_comm]
  · rfl
  · rfl
  · rfl
  · simp [listed, unmarked]
    omega

end Passes

end Heap

end ScriptVm
