import ScriptVm.Proofs.Heap.Marking

/-!
# Handles that have been handed out

A slot is stamped with its generation and with whether it is occupied. A handle has been handed out
when its slot is at a later generation, or at the same one and occupied. Allocating hands out one
more handle, which had not been handed out before, and disposing of proxies takes none back as long
as generations do not start over.
-/
namespace ScriptVm

/-- The generation of a slot, and whether it is occupied. -/
def Slot.stamp (slot : Slot) : UInt32 × Bool := (slot.generation, slot.proxy.isSome)

namespace Heap

variable {heap before middle after : Heap} {handle : Handle}

/-- The stamp of a slot. -/
def stamp? (heap : Heap) (index : Nat) : Option (UInt32 × Bool) :=
  heap.slots[index]?.map Slot.stamp

/-- The handle has been handed out. -/
def Issued (heap : Heap) (handle : Handle) : Prop :=
  ∃ generation occupied, heap.stamp? handle.index = some (generation, occupied) ∧
    (handle.generation < generation ∨ handle.generation = generation ∧ occupied = true)

/-- A handle that resolves has been handed out. -/
theorem issued_of_proxy? {proxy : Proxy} (resolved : heap.proxy? handle = some proxy) :
    heap.Issued handle := by
  have within := proxy?_eq_some_iff.mp resolved
  exact ⟨handle.generation, true, by simp [stamp?, within, Slot.stamp], .inr ⟨rfl, rfl⟩⟩

/-- The current handle of a vacant slot, or of none, has not been handed out. -/
theorem not_issued_of_vacant (vacant : heap.occupant? handle.index = none)
    (current : heap.handleAt handle.index = handle) : ¬heap.Issued handle := by
  rintro ⟨generation, occupied, stamped, earlier⟩
  obtain ⟨slot, within, same⟩ := Option.map_eq_some_iff.mp stamped
  have empty : slot.proxy = none := by simpa [occupant?, within] using vacant
  have dated : slot.generation = handle.generation := by
    simpa [handleAt, within] using congrArg Handle.generation current
  obtain ⟨rfl, rfl⟩ := Prod.mk.inj same
  rw [dated, empty] at earlier
  rcases earlier with later | ⟨_, filled⟩
  · exact absurd later (UInt32.lt_irrefl _)
  · simp at filled

/-- Slots keep their stamps. -/
theorem Issued.of_stamps (issued : before.Issued handle)
    (same : after.stamp? handle.index = before.stamp? handle.index) : after.Issued handle := by
  obtain ⟨generation, occupied, stamped, earlier⟩ := issued
  exact ⟨generation, occupied, same.trans stamped, earlier⟩

/-- Changing a proxy keeps stamps. -/
@[simp] theorem stamp?_updateAt (heap : Heap) (index : Nat) (change : Proxy → Proxy)
    (position : Nat) : (heap.updateAt index change).stamp? position = heap.stamp? position := by
  unfold stamp?
  rw [slots_updateAt]
  split
  · cases heap.slots[position]? <;> simp [Slot.stamp]
  · rfl

/-- Changing proxies keeps stamps. -/
@[simp] theorem stamp?_updateAll (heap : Heap) (indices : List Nat) (change : Proxy → Proxy)
    (position : Nat) : (heap.updateAll indices change).stamp? position = heap.stamp? position := by
  induction indices generalizing heap with
  | nil => rfl
  | cons index indices hypothesis =>
    have rest := hypothesis (heap.updateAt index change)
    rwa [stamp?_updateAt] at rest

/-- Marking one handle keeps stamps. -/
theorem stamp?_markOne (heap : Heap) (handle : Handle) (position : Nat) :
    (heap.markOne handle).1.stamp? position = heap.stamp? position := by
  rcases heap.markOne_cases handle with ⟨same, _⟩ | ⟨_, _, _, marks⟩
  · rw [same]
  · rw [marks]
    exact stamp?_updateAt heap _ _ position

/-- Marking keeps stamps. -/
theorem stamp?_markAll (heap : Heap) (worklist : List Handle) (position : Nat) :
    (heap.markAll worklist).stamp? position = heap.stamp? position :=
  markAll_keeps (motive := fun after _ => after.stamp? position = heap.stamp? position)
    (fun after handle _ same => (stamp?_markOne after handle position).trans same) rfl

/-- Marking at most a number of handles keeps stamps. -/
theorem stamp?_markSome (budget : Nat) (heap : Heap) (worklist : List Handle) (position : Nat) :
    (heap.markSome budget worklist).2.1.stamp? position = heap.stamp? position :=
  markSome_keeps (motive := fun after _ => after.stamp? position = heap.stamp? position)
    (fun after handle _ same => (stamp?_markOne after handle position).trans same) budget rfl

/-- Allocating takes no handle back. -/
theorem Issued.allocate (issued : heap.Issued handle) (cell : Cell) (pinned : Bool) :
    (heap.allocate cell pinned).2.Issued handle := by
  obtain ⟨generation, occupied, stamped, earlier⟩ := issued
  obtain ⟨slot, within, same⟩ := Option.map_eq_some_iff.mp stamped
  obtain ⟨rfl, rfl⟩ := Prod.mk.inj same
  unfold Heap.allocate
  split
  · rename_i index free empties
    by_cases here : index = handle.index
    · refine ⟨slot.generation, true, ?_, earlier.imp id fun both => ⟨both.1, rfl⟩⟩
      simp [stamp?, Array.getElem?_modify, here, within, Slot.stamp]
    · refine ⟨slot.generation, slot.proxy.isSome, ?_, earlier⟩
      simp [stamp?, Array.getElem?_modify, here, within, Slot.stamp]
  · obtain ⟨inside, _⟩ := Array.getElem?_eq_some_iff.mp within
    refine ⟨slot.generation, slot.proxy.isSome, ?_, earlier⟩
    simp [stamp?, Array.getElem?_push, Nat.ne_of_lt inside, within, Slot.stamp]

/-- Allocating hands out the current handle of a slot, or the first one of a new slot. -/
theorem handleAt_allocate (heap : Heap) (cell : Cell) (pinned : Bool) :
    heap.handleAt (heap.allocate cell pinned).1.index = (heap.allocate cell pinned).1 := by
  unfold Heap.allocate
  split
  · rename_i index free empties
    cases within : heap.slots[index]? <;> simp [handleAt, Array.getElem?_modify, within]
  · simp [handleAt]

/-- Allocating hands out a handle that had not been handed out. -/
theorem not_issued_allocate (heap : Heap) (cell : Cell) (pinned : Bool)
    (vacant : ∀ index ∈ heap.free, index < heap.slots.size ∧ heap.occupant? index = none) :
    ¬heap.Issued (heap.allocate cell pinned).1 :=
  not_issued_of_vacant (heap.allocates cell pinned vacant).vacant
    (heap.handleAt_allocate cell pinned)

/-- Some occupied slots have been emptied and are at their next generation, and all other slots keep
their stamps. -/
def Ages (before after : Heap) : Prop :=
  ∀ index generation occupied, before.stamp? index = some (generation, occupied) →
    after.stamp? index = some (generation, occupied) ∨
      occupied = true ∧ after.stamp? index = some (generation + 1, false)

/-- All slots keep their stamps. -/
theorem Ages.of_stamps (same : ∀ index, after.stamp? index = before.stamp? index) :
    before.Ages after :=
  fun index _ _ stamped => .inl ((same index).trans stamped)

/-- Slots are emptied in two rounds; one that has been emptied stays so. -/
theorem Ages.trans (first : before.Ages middle) (second : middle.Ages after) :
    before.Ages after := by
  intro index generation occupied stamped
  rcases first index generation occupied stamped with same | ⟨filled, emptied⟩
  · exact second index generation occupied same
  · rcases second index _ _ emptied with still | ⟨absurd, _⟩
    · exact .inr ⟨filled, still⟩
    · simp at absurd

/-- A generation that does not start over is earlier than the next one. -/
theorem generation_lt_succ {generation : UInt32} (proper : generation + 1 ≠ 0) :
    generation < generation + 1 := by
  have bound := generation.toNat_lt
  have differs : (generation.toNat + 1) % 2 ^ 32 ≠ 0 := by
    intro zero
    apply proper
    apply UInt32.toNat_inj.mp
    simpa [UInt32.toNat_add] using zero
  rw [UInt32.lt_iff_toNat_lt, UInt32.toNat_add]
  simp only [UInt32.toNat_one]
  omega

/-- No slot is at an earlier generation than before. A slot that is emptied falls to an earlier
generation when its generations start over. -/
def Matures (before after : Heap) : Prop :=
  ∀ (index : Nat) (slot later : Slot), before.slots[index]? = some slot →
    after.slots[index]? = some later → slot.generation ≤ later.generation

/-- Emptying slots takes none to an earlier generation, unless a generation starts over. -/
theorem Ages.matures (ages : before.Ages after)
    (young : ∀ slot ∈ before.slots, slot.generation + 1 ≠ 0) : before.Matures after := by
  intro index slot later within there
  have first : before.stamp? index = some slot.stamp := by rw [stamp?, within]; rfl
  have second : after.stamp? index = some later.stamp := by rw [stamp?, there]; rfl
  rcases ages index slot.generation slot.proxy.isSome first with same | ⟨-, emptied⟩
  · have stamps : later.stamp = (slot.generation, _) := Option.some.inj (second.symm.trans same)
    exact UInt32.le_of_eq (Prod.mk.inj stamps).1.symm
  · have stamps : later.stamp = (slot.generation + 1, false) :=
      Option.some.inj (second.symm.trans emptied)
    have proper := young slot (Array.mem_of_getElem? within)
    rw [(Prod.mk.inj stamps).1]
    exact UInt32.le_of_lt (generation_lt_succ proper)

/-- Emptying slots takes no handle back, as long as no slot falls to an earlier generation. -/
theorem Issued.matures (issued : before.Issued handle) (ages : before.Ages after)
    (matures : before.Matures after) : after.Issued handle := by
  obtain ⟨generation, occupied, stamped, earlier⟩ := issued
  rcases ages handle.index generation occupied stamped with same | ⟨rfl, emptied⟩
  · exact ⟨generation, occupied, same, earlier⟩
  · obtain ⟨slot, within, stamp⟩ := Option.map_eq_some_iff.mp stamped
    obtain ⟨later, there, stamp'⟩ := Option.map_eq_some_iff.mp emptied
    obtain ⟨rfl, -⟩ := Prod.mk.inj stamp
    have ordered := matures handle.index slot later within there
    rw [(Prod.mk.inj stamp').1] at ordered
    have next : slot.generation < slot.generation + 1 := UInt32.lt_of_le_of_ne ordered (by simp)
    refine ⟨slot.generation + 1, false, emptied, .inl ?_⟩
    rcases earlier with earlier | ⟨same, _⟩
    · exact UInt32.lt_trans earlier next
    · rwa [same]

/-- Emptying slots takes no handle back, unless a generation starts over. -/
theorem Issued.ages (issued : before.Issued handle) (ages : before.Ages after)
    (young : ∀ slot ∈ before.slots, slot.generation + 1 ≠ 0) : after.Issued handle :=
  issued.matures ages (ages.matures young)

end Heap

end ScriptVm
