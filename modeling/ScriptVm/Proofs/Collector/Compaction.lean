import ScriptVm.Proofs.Collector.Mutation

/-!
# The active proxies in one vector

In memory the active proxies lie in one vector. A pass visits it with a cursor. The pass that
condemns proxies compacts the vector on the way: it writes every marked proxy behind those it has
already kept. In the middle of that pass the entries between the two positions are stale, and the
same slot may be in the vector twice; the proxies are then those before the written position and
those from the cursor on. Every access of a vector or of a slot is checked here, and the checks
never fail: the vector always shows the lists that the collector works with.
-/
namespace ScriptVm

/-- All slots of a list are there. -/
def Heap.inBounds (heap : Heap) (indices : List Nat) : Bool :=
  indices.all fun index => decide (index < heap.slots.size)

/-- Slots are in bounds when each is. -/
theorem Heap.inBounds_iff {heap : Heap} {indices : List Nat} :
    heap.inBounds indices = true ↔ ∀ index ∈ indices, index < heap.slots.size := by
  simp [inBounds]

/-- A slot and further ones are in bounds when the slot is and the others are. -/
theorem Heap.inBounds_cons {heap : Heap} {index : Nat} {indices : List Nat} :
    heap.inBounds (index :: indices) = true ↔
      heap.inBounds [index] = true ∧ heap.inBounds indices = true := by
  simp [inBounds]

/-- The vector of the active proxies, and where the pass over it is. -/
structure ActiveVector where
  /-- Slots of active proxies; stale ones between the two positions. -/
  items : List Nat := []
  /-- The position that the pass visits next. -/
  cursor : Nat := 0
  /-- The position that the pass writes to next. -/
  write : Nat := 0
  deriving DecidableEq, Repr

namespace ActiveVector

/-- One visit of a pass, which goes on behind the visited slot. A pass that compacts writes a marked
slot. None when a slot or a position is out of bounds. -/
def visit (heap : Heap) (compacts : Bool) (vector : ActiveVector) (index : Nat) :
    Option ActiveVector :=
  if !heap.inBounds [index] then none
  else if !(compacts && heap.isMarkedAt index) then
    some { vector with cursor := vector.cursor + 1 }
  else if vector.write < vector.items.length then
    some ⟨vector.items.set vector.write index, vector.cursor + 1, vector.write + 1⟩
  else none

/-- A number of visits, or fewer when the pass comes to the end. -/
def pass (heap : Heap) (compacts : Bool) : Nat → ActiveVector → Option ActiveVector
  | 0, vector => some vector
  | budget + 1, vector =>
    match vector.items[vector.cursor]? with
    | none => some vector
    | some index => (vector.visit heap compacts index).bind (pass heap compacts budget)

/-- Takes the stale entries out when a pass that compacts is given up. -/
def repair (vector : ActiveVector) : ActiveVector :=
  if vector.write < vector.cursor ∧ vector.cursor ≤ vector.items.length then
    { items := vector.items.take vector.write ++ vector.items.drop vector.cursor }
  else { items := vector.items }

/-- What a step of the collector does to the vector. None when a slot or a position is out of
bounds. -/
def step (vector : ActiveVector) (collector : Collector) : Option ActiveVector :=
  let heap := collector.heap
  match collector.cycle.phase with
  | .linkPending =>
    let batch := heap.pending.take collector.budget
    if heap.inBounds batch then some { vector with items := vector.items ++ batch } else none
  | .resetState =>
    (vector.pass heap false collector.budget).map fun vector =>
      if vector.items.length ≤ vector.cursor then { items := vector.items } else vector
  | .mark _ => if heap.inBounds heap.pending then some vector else none
  | .collect =>
    (vector.pass heap true collector.budget).map fun vector =>
      if vector.items.length ≤ vector.cursor then { items := vector.items.take vector.write }
      else vector
  | .dispose =>
    if heap.inBounds (heap.unmarked.take collector.budget) then some vector else none

/-- What the active proxies are according to the vector. -/
def effective (vector : ActiveVector) (phase : Phase) : List Nat :=
  if phase = .collect then vector.items.take vector.write ++ vector.items.drop vector.cursor
  else vector.items

/-- The vector shows the active proxies of a collector, and where its pass is. -/
def Shows (vector : ActiveVector) (collector : Collector) : Prop :=
  match collector.cycle.phase with
  | .resetState => vector = ⟨collector.heap.activeSlots, collector.heap.kept.length, 0⟩
  | .collect => vector.items.take vector.write = collector.heap.kept.reverse ∧
      vector.items.drop vector.cursor = collector.heap.active ∧
      vector.write ≤ vector.cursor ∧ vector.cursor ≤ vector.items.length
  | .linkPending | .mark _ | .dispose => vector = { items := collector.heap.activeSlots }

/-- A vector that shows the active proxies holds them. -/
theorem Shows.effective {vector : ActiveVector} {collector : Collector}
    (shows : vector.Shows collector) :
    vector.effective collector.cycle.phase = collector.heap.activeSlots := by
  unfold Shows at shows
  unfold ActiveVector.effective
  split at shows
  · rename_i phase
    simp [phase, shows]
  · rename_i phase
    rw [if_pos phase, shows.1, shows.2.1]
    rfl
  all_goals
    rename_i phase
    simp [phase, shows]

/-- Only the lists and the phase matter. -/
theorem Shows.congr {vector : ActiveVector} {before after : Collector}
    (shows : vector.Shows before) (phase : after.cycle.phase = before.cycle.phase)
    (active : after.heap.active = before.heap.active)
    (kept : after.heap.kept = before.heap.kept) : vector.Shows after := by
  unfold Shows Heap.activeSlots at shows ⊢
  rw [phase, active, kept]
  exact shows

section Passes

variable {heap : Heap}

/-- A pass that does not compact moves the cursor alone. -/
theorem pass_unchanged (budget : Nat) (vector : ActiveVector)
    (bounds : heap.inBounds (vector.items.drop vector.cursor) = true) :
    vector.pass heap false budget = some { vector with
      cursor := vector.cursor + ((vector.items.drop vector.cursor).take budget).length } := by
  induction budget generalizing vector with
  | zero => simp [pass]
  | succ budget hypothesis =>
    rw [pass]
    cases next : vector.items[vector.cursor]? with
    | none =>
      have past := List.getElem?_eq_none_iff.mp next
      simp [List.drop_eq_nil_of_le past]
    | some index =>
      obtain ⟨inside, here⟩ := List.getElem?_eq_some_iff.mp next
      have split := List.drop_eq_getElem_cons inside
      rw [here] at split
      rw [split, Heap.inBounds_cons] at bounds
      have visited : vector.visit heap false index =
          some { vector with cursor := vector.cursor + 1 } := by
        simp [visit, bounds.1]
      dsimp only
      rw [visited, Option.bind_some,
        hypothesis { vector with cursor := vector.cursor + 1 } bounds.2, split]
      simp only [List.take_succ_cons, List.length_cons]
      rw [Nat.add_assoc, Nat.add_comm 1]

/-- A pass that compacts leaves the marked slots of the batch before the written position, in order,
and the slots behind the batch from the cursor on. -/
theorem pass_compacts (budget : Nat) (vector : ActiveVector)
    (ordered : vector.write ≤ vector.cursor) (within : vector.cursor ≤ vector.items.length)
    (bounds : heap.inBounds (vector.items.drop vector.cursor) = true) :
    ∃ after, vector.pass heap true budget = some after ∧
      after.items.take after.write = vector.items.take vector.write ++
        ((vector.items.drop vector.cursor).take budget).filter heap.isMarkedAt ∧
      after.items.drop after.cursor = (vector.items.drop vector.cursor).drop budget ∧
      after.write ≤ after.cursor ∧ after.cursor ≤ after.items.length := by
  induction budget generalizing vector with
  | zero => exact ⟨vector, rfl, by simp, by simp, ordered, within⟩
  | succ budget hypothesis =>
    rw [pass]
    cases next : vector.items[vector.cursor]? with
    | none =>
      have past := List.getElem?_eq_none_iff.mp next
      refine ⟨vector, rfl, ?_, ?_, ordered, within⟩ <;> simp [List.drop_eq_nil_of_le past]
    | some index =>
      obtain ⟨inside, here⟩ := List.getElem?_eq_some_iff.mp next
      have split := List.drop_eq_getElem_cons inside
      rw [here] at split
      rw [split, Heap.inBounds_cons] at bounds
      rw [split, List.take_succ_cons, List.drop_succ_cons]
      dsimp only
      cases marked : heap.isMarkedAt index with
      | false =>
        have visited : vector.visit heap true index =
            some { vector with cursor := vector.cursor + 1 } := by
          simp [visit, bounds.1, marked]
        rw [visited, List.filter_cons_of_neg (by simp [marked])]
        exact hypothesis { vector with cursor := vector.cursor + 1 } (by dsimp only; omega) inside
          bounds.2
      | true =>
        have room : vector.write < vector.items.length := Nat.lt_of_le_of_lt ordered inside
        let written : ActiveVector :=
          ⟨vector.items.set vector.write index, vector.cursor + 1, vector.write + 1⟩
        have visited : vector.visit heap true index = some written := by
          simp [visit, bounds.1, marked, room, written]
        have rest : written.items.drop written.cursor = vector.items.drop (vector.cursor + 1) :=
          List.drop_set_of_lt (Nat.lt_succ_of_le ordered)
        have before : written.items.take written.write =
            vector.items.take vector.write ++ [index] := by
          simp [written, List.take_add_one, List.take_set_of_le, room]
        obtain ⟨after, done, result⟩ := hypothesis written (Nat.succ_le_succ ordered)
          (by simpa [written] using Nat.succ_le_of_lt inside) (by rw [rest]; exact bounds.2)
        refine ⟨after, by rw [visited]; exact done, ?_⟩
        rw [List.filter_cons_of_pos marked]
        rw [rest, before, List.append_assoc] at result
        exact result

end Passes

section Steps

variable {vector : ActiveVector} {collector after : Collector}

/-- A fresh vector shows the active proxies of a fresh collector. -/
theorem shows_create (budget : Nat) : ({} : ActiveVector).Shows (.create budget) := rfl

/-- Slots whose proxies stand somewhere are in bounds. -/
theorem inBounds_of_standing {heap : Heap} {indices : List Nat} {residence : Residence}
    (standing : ∀ index ∈ indices, heap.residenceAt? index = some residence) :
    heap.inBounds indices = true := by
  rw [Heap.inBounds_iff]
  intro index member
  obtain ⟨proxy, occupied, _⟩ := Option.map_eq_some_iff.mp (standing index member)
  exact Heap.index_lt_of_occupant? occupied

/-- Clearing marks leaves the active proxies as they are. -/
theorem activeSlots_cleared (heap : Heap) (budget : Nat) :
    (heap.cleared budget).activeSlots = heap.activeSlots := by
  obtain ⟨_, _, _, active, kept, _⟩ := heap.cleared_lists budget
  rw [Heap.activeSlots, active, kept]
  simp [Heap.activeSlots]

/-- Ending a pass leaves the active proxies as they are. -/
theorem activeSlots_rewind (heap : Heap) : heap.rewind.activeSlots = heap.activeSlots := by
  simp [Heap.rewind, Heap.activeSlots]

/-- The pass that clears marks is at the end when nothing is left ahead. -/
theorem length_activeSlots_le_iff (heap : Heap) (budget : Nat) :
    heap.activeSlots.length ≤ (heap.cleared budget).kept.length ↔
      heap.active.drop budget = [] := by
  rw [← activeSlots_cleared heap budget, Heap.activeSlots, List.length_append, List.length_reverse,
    (heap.cleared_lists budget).2.2.2.1, ← List.length_eq_zero_iff]
  omega

/-- A pass that clears marks moves the cursor behind the batch. -/
theorem Shows.cleared (shows : vector.Shows collector) (lawful : collector.heap.Lawful)
    (phase : collector.cycle.phase = .resetState) :
    vector.pass collector.heap false collector.budget =
      some ⟨collector.heap.activeSlots,
        (collector.heap.cleared collector.budget).kept.length, 0⟩ := by
  simp only [Shows, phase] at shows
  subst shows
  have ahead : collector.heap.activeSlots.drop collector.heap.kept.length =
      collector.heap.active := by
    simp [Heap.activeSlots]
  have kept := (collector.heap.cleared_lists collector.budget).2.2.2.2.1
  rw [pass_unchanged, ahead, kept]
  · simp [Nat.add_comm]
  · rw [ahead]
    exact inBounds_of_standing fun _ member => lawful.mem_active.mp (.inl member)

/-- A pass that condemns shows the sifted proxies. -/
theorem Shows.sifted (shows : vector.Shows collector) (lawful : collector.heap.Lawful)
    (phase : collector.cycle.phase = .collect) :
    ∃ moved, vector.pass collector.heap true collector.budget = some moved ∧
      moved.items.take moved.write = (collector.heap.sifted collector.budget).kept.reverse ∧
      moved.items.drop moved.cursor = collector.heap.active.drop collector.budget ∧
      moved.write ≤ moved.cursor ∧ moved.cursor ≤ moved.items.length := by
  simp only [Shows, phase] at shows
  obtain ⟨before, ahead, ordered, within⟩ := shows
  have bounds : collector.heap.inBounds (vector.items.drop vector.cursor) = true := by
    rw [ahead]
    exact inBounds_of_standing fun _ member => lawful.mem_active.mp (.inl member)
  obtain ⟨moved, done, written, rest, result⟩ :=
    pass_compacts collector.budget vector ordered within bounds
  refine ⟨moved, done, ?_, by rw [rest, ahead], result⟩
  rw [written, before, ahead, (collector.heap.sifted_lists collector.budget).2.2.2.2.1]
  simp

/-- The vector follows a step, and shows the active proxies again. -/
theorem Shows.stepped (shows : vector.Shows collector) (orderly : collector.Orderly)
    {roots : RootSet} {completed : Bool}
    (stepped : Collector.Stepped collector roots completed after) :
    ∃ moved, vector.step collector = some moved ∧ moved.Shows after := by
  have lawful := orderly.lawful
  cases stepped with
  | linking phase | linkedAll phase =>
    simp only [Shows, phase] at shows
    subst shows
    have bounds :
        collector.heap.inBounds (collector.heap.pending.take collector.budget) = true :=
      inBounds_of_standing fun _ member =>
        lawful.mem_pending.mp (List.mem_of_mem_take member)
    refine ⟨_, by simp only [step, phase, bounds, if_true]; rfl, ?_⟩
    simp [Shows, phase, Collector.nextCycle, Phase.next, Heap.rewind, Heap.activeSlots,
      Heap.linked_lists]
  | clearing phase more =>
    have ongoing := mt (length_activeSlots_le_iff _ _).mp more
    refine ⟨_, by simp only [step, phase, shows.cleared lawful phase, Option.map_some]; rfl, ?_⟩
    simp [Shows, phase, ongoing, activeSlots_cleared]
  | clearedAll phase all =>
    have ended := (length_activeSlots_le_iff _ _).mpr all
    refine ⟨_, by simp only [step, phase, shows.cleared lawful phase, Option.map_some]; rfl, ?_⟩
    have same := activeSlots_cleared collector.heap collector.budget
    simp only [Shows, Collector.nextCycle, phase, Phase.next, if_pos ended]
    rw [activeSlots_rewind, same]
  | marking category phase heap rest marked =>
    obtain ⟨_, _, active, kept, _⟩ := (Heap.darkens_of_markSome marked).lists
    have bounds : collector.heap.inBounds collector.heap.pending = true :=
      inBounds_of_standing fun _ member => lawful.mem_pending.mp member
    exact ⟨vector, by simp [step, phase, bounds], shows.congr rfl active kept⟩
  | markedAll category phase heap marked =>
    obtain ⟨_, _, active, kept, _⟩ := (Heap.darkens_of_markSome marked).lists
    have bounds : collector.heap.inBounds collector.heap.pending = true :=
      inBounds_of_standing fun _ member => lawful.mem_pending.mp member
    have unkept : collector.heap.kept = [] := orderly.kept (by simp [phase, Phase.passes])
    refine ⟨vector, by simp [step, phase, bounds], ?_⟩
    simp only [Shows, phase] at shows
    subst shows
    cases category <;>
      simp [Shows, Collector.nextCycle, phase, Phase.next, Heap.activeSlots, active, kept, unkept]
  | sifting phase more =>
    obtain ⟨moved, done, written, rest, ordered, within⟩ := shows.sifted lawful phase
    have ongoing : ¬ moved.items.length ≤ moved.cursor := by
      rw [← List.drop_eq_nil_iff, rest]
      exact more
    refine ⟨moved, by simp [step, phase, done, ongoing], ?_⟩
    simp only [Shows, phase]
    rw [(collector.heap.sifted_lists collector.budget).2.2.2.1]
    exact ⟨written, rest, ordered, within⟩
  | siftedAll phase all =>
    obtain ⟨moved, done, written, rest, _⟩ := shows.sifted lawful phase
    have ended : moved.items.length ≤ moved.cursor := by
      rw [← List.drop_eq_nil_iff, rest]
      exact all
    refine ⟨_, by simp only [step, phase, done, Option.map_some, if_pos ended]; rfl, ?_⟩
    have ahead := (collector.heap.sifted_lists collector.budget).2.2.2.1
    simp [Shows, Collector.nextCycle, phase, Phase.next, written, Heap.rewind, Heap.activeSlots,
      ahead, all]
  | disposing phase | disposedAll phase =>
    have bounds :
        collector.heap.inBounds (collector.heap.unmarked.take collector.budget) = true :=
      inBounds_of_standing fun _ member =>
        lawful.mem_unmarked.mp (List.mem_of_mem_take member)
    refine ⟨vector, by simp [step, phase, bounds], ?_⟩
    simp only [Shows, phase] at shows
    simp [Shows, Collector.complete, Collector.nextCycle, phase, Phase.next, shows,
      Heap.activeSlots, Heap.disposeSome]

/-- When a collection is given up, the repaired vector shows the active proxies. -/
theorem Shows.reset (shows : vector.Shows collector) :
    (if collector.cycle.phase = .collect then vector.repair else { items := vector.items }).Shows
      collector.reset := by
  have given : ({ items := collector.heap.activeSlots } : ActiveVector).Shows collector.reset := by
    simp [Shows, Collector.reset, activeSlots_rewind]
  cases phase : collector.cycle.phase with
  | collect =>
    simp only [Shows, phase] at shows
    obtain ⟨before, ahead, ordered, within⟩ := shows
    rw [if_pos rfl, repair]
    split
    · rw [before, ahead]
      exact given
    · have same : vector.write = vector.cursor := by omega
      have whole : vector.items = collector.heap.activeSlots := by
        rw [Heap.activeSlots, ← before, ← ahead, same, List.take_append_drop]
      rw [whole]
      exact given
  | linkPending | resetState | mark | dispose =>
    simp only [Shows, phase] at shows
    simp only [shows, reduceCtorEq, if_false]
    exact given

end Steps

end ActiveVector

end ScriptVm
