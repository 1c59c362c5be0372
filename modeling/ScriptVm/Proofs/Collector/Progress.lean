import Mathlib.Algebra.Order.BigOperators.Group.Finset
import Mathlib.Data.List.Perm.Subperm
import Mathlib.Logic.Relation
import ScriptVm.Proofs.Collector.Steps

/-!
# Progress of the collector

Every step either completes the collection under way or leaves fewer steps to do, so a run of the
collector completes a collection. The count of steps to do is a measure with one clause a phase. In
the mark phases its units are the handles on the worklist, the roots to be taken and the references
of proxies that are not marked: marking a proxy takes its references out of the last and puts them
into the first.
-/
namespace ScriptVm

namespace Heap

/-- A list of slots that holds each of them at most once is no longer than the heap. -/
theorem length_le_of_count {slots : List Nat} {size : Nat} (once : ∀ index, slots.count index ≤ 1)
    (within : ∀ index ∈ slots, index < size) : slots.length ≤ size := by
  have distinct : slots.Nodup := List.nodup_iff_count_le_one.mpr once
  have included : slots ⊆ List.range size := fun index member =>
    List.mem_range.mpr (within index member)
  simpa using (List.subperm_of_subset distinct included).length_le

namespace Lawful

variable {heap : Heap}

/-- A slot that stands somewhere is inside the heap. -/
theorem index_lt {index : Nat} {residence : Residence}
    (standing : heap.residenceAt? index = some residence) : index < heap.slots.size := by
  obtain ⟨proxy, occupied, _⟩ := Option.map_eq_some_iff.mp standing
  exact index_lt_of_occupant? occupied

/-- There are no more pending proxies than slots. -/
theorem length_pending_le (lawful : heap.Lawful) : heap.pending.length ≤ heap.slots.size := by
  refine length_le_of_count ?_ fun index member => index_lt (lawful.mem_pending.mp member)
  intro index
  rw [lawful.pending]
  split <;> omega

/-- There are no more active proxies ahead than slots. -/
theorem length_active_le (lawful : heap.Lawful) : heap.active.length ≤ heap.slots.size := by
  refine length_le_of_count ?_ fun index member => index_lt (lawful.mem_active.mp (.inl member))
  intro index
  have counted := lawful.active index
  split at counted <;> omega

/-- There are no more condemned proxies than slots. -/
theorem length_unmarked_le (lawful : heap.Lawful) : heap.unmarked.length ≤ heap.slots.size := by
  refine length_le_of_count ?_ fun index member => index_lt (lawful.mem_unmarked.mp member)
  intro index
  rw [lawful.unmarked]
  split <;> omega

end Lawful

/-- The sum of a weight over all proxies. -/
def weigh (weight : Proxy → Nat) (heap : Heap) : Nat :=
  ∑ index ∈ Finset.range heap.slots.size, ((heap.occupant? index).map weight).getD 0

/-- The count of references that proxies hold. -/
def references : Heap → Nat := weigh fun proxy => proxy.cell.children.length

/-- The count of references that proxies without a mark hold. -/
def openReferences : Heap → Nat :=
  weigh fun proxy => if proxy.marked then 0 else proxy.cell.children.length

/-- Heaps whose occupants have the same weights have the same sum. -/
theorem weigh_congr {weight : Proxy → Nat} {before after : Heap}
    (size : after.slots.size = before.slots.size)
    (same : ∀ index, (after.occupant? index).map weight = (before.occupant? index).map weight) :
    after.weigh weight = before.weigh weight := by
  unfold weigh
  rw [size]
  exact Finset.sum_congr rfl fun index _ => by rw [same]

/-- No more references are open than there are. -/
theorem openReferences_le (heap : Heap) : heap.openReferences ≤ heap.references := by
  unfold openReferences references weigh
  refine Finset.sum_le_sum fun index _ => ?_
  cases heap.occupant? index with
  | none => exact le_rfl
  | some proxy =>
    simp only [Option.map_some, Option.getD_some]
    split <;> omega

/-- Linking leaves all references. -/
theorem references_linked (heap : Heap) (budget : Nat) :
    (heap.linked budget).references = heap.references := by
  refine weigh_congr (heap.linked_lists budget).1 fun index => ?_
  rw [occupant?_linked]
  split
  · rw [Option.map_map]
    rfl
  · rfl

/-- Clearing marks leaves all references. -/
theorem references_cleared (heap : Heap) (budget : Nat) :
    (heap.cleared budget).references = heap.references := by
  refine weigh_congr (heap.cleared_lists budget).1 fun index => ?_
  rw [occupant?_cleared]
  split
  · rw [Option.map_map]
    rfl
  · rfl

/-- Marking one handle moves its references from the heap to the worklist. -/
theorem openReferences_markOne (heap : Heap) (handle : Handle) :
    (heap.markOne handle).1.openReferences + (heap.markOne handle).2.length =
      heap.openReferences := by
  rcases heap.markOne_cases handle with ⟨same, _⟩ | ⟨proxy, resolved, light, marks⟩
  · rw [same]
    rfl
  · have occupied := occupant?_of_proxy? resolved
    have inside : handle.index ∈ Finset.range heap.slots.size :=
      Finset.mem_range.mpr (index_lt_of_occupant? occupied)
    have size : (heap.setMarked handle).slots.size = heap.slots.size := size_updateAt _ _ _
    rw [marks]
    unfold openReferences weigh
    rw [size, ← Finset.add_sum_erase _ _ inside, ← Finset.add_sum_erase _ _ inside]
    have others : ∀ index ∈ (Finset.range heap.slots.size).erase handle.index,
        (heap.setMarked handle).occupant? index = heap.occupant? index := by
      intro index member
      have apart : handle.index ≠ index := (Finset.ne_of_mem_erase member).symm
      rw [setMarked, occupant?_updateAt, if_neg apart]
    have here : (heap.setMarked handle).occupant? handle.index =
        some { proxy with marked := true } := by
      rw [setMarked, occupant?_updateAt, if_pos rfl, occupied]
      rfl
    rw [Finset.sum_congr rfl fun index member => by rw [others index member], here, occupied]
    simp only [Option.map_some, Option.getD_some, if_true, light, Bool.false_eq_true, if_false,
      List.length_reverse]
    omega

/-- Bounded marking works off handles and open references. -/
theorem units_markSome_le (budget : Nat) (heap : Heap) (worklist : List Handle) :
    (heap.markSome budget worklist).2.2.length +
        (heap.markSome budget worklist).2.1.openReferences ≤
      worklist.length + heap.openReferences := by
  induction budget generalizing heap worklist with
  | zero => exact le_rfl
  | succ budget hypothesis =>
    cases worklist with
    | nil => exact le_rfl
    | cons handle rest =>
      rw [markSome_cons]
      have later := hypothesis (heap.markOne handle).1 ((heap.markOne handle).2 ++ rest)
      have once := heap.openReferences_markOne handle
      rw [List.length_append] at later
      rw [List.length_cons]
      omega

/-- Bounded marking that does not empty the worklist works off one unit at least. -/
theorem units_markSome_lt {budget : Nat} (positive : 0 < budget) {heap after : Heap}
    {worklist rest : List Handle} (marked : heap.markSome budget worklist = (false, after, rest)) :
    rest.length + after.openReferences < worklist.length + heap.openReferences := by
  obtain ⟨budget, rfl⟩ := Nat.exists_eq_succ_of_ne_zero positive.ne'
  cases worklist with
  | nil => simp [markSome] at marked
  | cons handle tail =>
    rw [markSome_cons] at marked
    have later := units_markSome_le budget (heap.markOne handle).1 ((heap.markOne handle).2 ++ tail)
    have once := heap.openReferences_markOne handle
    rw [marked, List.length_append] at later
    rw [List.length_cons]
    dsimp only at later
    omega

/-- A count over the slots of a list is the sum of what each of them adds. -/
theorem foldl_children (slots : List Slot) (start : Nat) :
    slots.foldl (fun count slot =>
        match slot.proxy with
        | some proxy => count + proxy.cell.children.length
        | none => count) start =
      start + ∑ index ∈ Finset.range slots.length, ((slots[index]?.bind Slot.proxy).map
        fun proxy => proxy.cell.children.length).getD 0 := by
  induction slots generalizing start with
  | nil => rfl
  | cons slot rest hypothesis =>
    rw [List.foldl_cons, hypothesis, List.length_cons, Finset.sum_range_succ']
    simp only [List.getElem?_cons_succ, List.getElem?_cons_zero, Option.bind_some]
    cases slot.proxy with
    | none => rfl
    | some proxy =>
      simp only [Option.map_some, Option.getD_some]
      omega

end Heap

namespace Collector

/-- The count of all roots. -/
def rootCount (roots : RootSet) : Nat :=
  (roots .constants).length + (roots .globals).length + (roots .functions).length +
    (roots .executions).length

/-- The bound on steps counts the references of the heap. -/
theorem stepBound_eq (collector : Collector) (roots : RootSet) :
    collector.stepBound roots = 8 + 6 * collector.heap.slots.size +
      collector.cycle.worklist.length + rootCount roots + collector.heap.references := by
  have counted := Heap.foldl_children collector.heap.slots.toList 0
  simp only [Array.foldl_toList, Array.length_toList, Array.getElem?_toList,
    Nat.zero_add] at counted
  exact congrArg (8 + 6 * collector.heap.slots.size + collector.cycle.worklist.length +
    rootCount roots + ·) counted

/-- The count of mark phases from one to the last. -/
def countdown : RootCategory → Nat
  | .constants => 4
  | .globals => 3
  | .functions => 2
  | .executions => 1

/-- The count of the roots of later categories. -/
def rootsAfter (heap : Heap) (roots : RootSet) : RootCategory → Nat
  | .constants => (roots .globals).length + ((roots .functions).length +
      (heap.pending.length + (roots .executions).length))
  | .globals => (roots .functions).length + (heap.pending.length + (roots .executions).length)
  | .functions => heap.pending.length + (roots .executions).length
  | .executions => 0

/-- A bound on the steps to the end of the collection under way. -/
def remaining (roots : RootSet) (collector : Collector) : Nat :=
  let size := collector.heap.slots.size
  match collector.cycle.phase with
  | .linkPending => 8 + 5 * size + collector.heap.pending.length +
      collector.cycle.worklist.length + rootCount roots + collector.heap.references
  | .resetState => 7 + 3 * size + 2 * collector.heap.active.length +
      collector.cycle.worklist.length + rootCount roots + collector.heap.references
  | .mark category => countdown category + 2 + 2 * size +
      (collector.openWorklist roots category).length + rootsAfter collector.heap roots category +
      collector.heap.openReferences
  | .collect => 2 + size + collector.heap.active.length
  | .dispose => 1 + collector.heap.unmarked.length

variable {collector after : Collector} {roots : RootSet}

/-- The steps to do at a mark phase. -/
theorem remaining_mark {category : RootCategory} (phase : collector.cycle.phase = .mark category) :
    collector.remaining roots = countdown category + 2 + 2 * collector.heap.slots.size +
      (collector.openWorklist roots category).length + rootsAfter collector.heap roots category +
      collector.heap.openReferences := by
  simp only [remaining, phase]

/-- A batch that is not the last holds one slot at least. -/
theorem length_drop_lt {slots : List Nat} {budget : Nat} (positive : 0 < budget)
    (more : slots.drop budget ≠ []) : (slots.drop budget).length < slots.length := by
  have nonempty := List.length_pos_iff.mpr more
  rw [List.length_drop] at nonempty ⊢
  omega

/-- The pinned handles of a batch are no more than its slots. -/
theorem length_pinnedBatch_le (heap : Heap) (budget : Nat) :
    (heap.pinnedBatch budget).length ≤ (heap.active.take budget).length := by
  rw [Heap.pinnedBatch, List.length_reverse, List.length_map]
  exact List.length_filter_le _ _

/-- The roots that are left at a mark phase are the later ones and, while they are not taken, its
own. -/
theorem length_takeRoots (heap : Heap) (roots : RootSet) (category : RootCategory) :
    (takeRoots heap roots category).length + rootsAfter heap roots category ≤
      heap.pending.length + rootCount roots := by
  cases category <;> simp [takeRoots, rootsAfter, rootCount] <;> omega

/-- A step that does not complete the collection leaves fewer steps to do. -/
theorem Stepped.remaining_lt (stepped : Stepped collector roots false after)
    (orderly : collector.Orderly) : after.remaining roots < collector.remaining roots := by
  have positive := orderly.budget
  have lawful := orderly.lawful
  have lawfulAfter := (orderly.stepped stepped).lawful
  cases stepped with
  | linking phase more =>
    obtain ⟨size, _, pending, _⟩ := collector.heap.linked_lists collector.budget
    have fewer := length_drop_lt positive more
    simp only [remaining, phase, size, pending, Heap.references_linked]
    omega
  | linkedAll phase all =>
    have size : (collector.heap.linked collector.budget).rewind.slots.size = _ :=
      (collector.heap.linked_lists collector.budget).1
    have references : (collector.heap.linked collector.budget).rewind.references = _ :=
      collector.heap.references_linked collector.budget
    have active := lawfulAfter.length_active_le
    simp only [remaining, nextCycle, phase, Phase.next, size, references] at active ⊢
    omega
  | clearing phase more =>
    obtain ⟨size, _, _, active, _⟩ := collector.heap.cleared_lists collector.budget
    have fewer := length_drop_lt positive more
    have pinned := length_pinnedBatch_le collector.heap collector.budget
    rw [List.length_take] at pinned
    rw [List.length_drop] at fewer
    simp only [remaining, phase, size, active, Heap.references_cleared, List.length_append,
      List.length_drop]
    omega
  | clearedAll phase all =>
    obtain ⟨size, _, pending, _⟩ := collector.heap.cleared_lists collector.budget
    have pinned := length_pinnedBatch_le collector.heap collector.budget
    have taken := length_takeRoots (collector.heap.cleared collector.budget).rewind roots .constants
    have waiting := lawful.length_pending_le
    have few : (collector.heap.cleared collector.budget).rewind.openReferences ≤
        collector.heap.references :=
      ((collector.heap.cleared collector.budget).rewind.openReferences_le).trans
        (collector.heap.references_cleared collector.budget).le
    rw [List.length_take] at pinned
    have samePending : (collector.heap.cleared collector.budget).rewind.pending = _ := pending
    have sameSize : (collector.heap.cleared collector.budget).rewind.slots.size = _ := size
    simp only [samePending] at taken
    simp only [remaining, nextCycle, phase, Phase.next, sameSize, countdown, openWorklist,
      List.length_append, Bool.false_eq_true, if_false]
    omega
  | marking category phase heap worklist marked =>
    have darkens := Heap.darkens_of_markSome marked
    have units := Heap.units_markSome_lt positive marked
    have later : rootsAfter heap roots category = rootsAfter collector.heap roots category := by
      cases category <;> simp only [rootsAfter, darkens.lists.2.1]
    rw [remaining_mark phase, remaining_mark (by exact phase), darkens.size, later]
    show _ + worklist.length + _ + heap.openReferences < _
    omega
  | markedAll category phase heap marked =>
    have darkens := Heap.darkens_of_markSome marked
    have units := Heap.units_markSome_le collector.budget collector.heap
      (collector.openWorklist roots category)
    have active := lawfulAfter.length_active_le
    rw [remaining_mark phase]
    rw [marked, List.length_nil] at units
    dsimp only at units active
    rw [darkens.size] at active
    generalize (collector.openWorklist roots category).length = ahead at units
    cases category <;>
      simp only [remaining, nextCycle, phase, Phase.next, darkens.size, countdown, rootsAfter,
        openWorklist, takeRoots, darkens.lists.2.1, List.nil_append, List.length_reverse,
        List.length_append, List.length_map, Bool.false_eq_true, if_false] <;>
      omega
  | sifting phase more =>
    obtain ⟨size, _, _, active, _⟩ := collector.heap.sifted_lists collector.budget
    have fewer := length_drop_lt positive more
    simp only [remaining, phase, size, active]
    omega
  | siftedAll phase all =>
    have size : (collector.heap.sifted collector.budget).rewind.slots.size = _ :=
      (collector.heap.sifted_lists collector.budget).1
    have unmarked := lawfulAfter.length_unmarked_le
    simp only [remaining, nextCycle, phase, Phase.next, size] at unmarked ⊢
    omega
  | disposing phase more =>
    have fewer := length_drop_lt positive more
    simp only [remaining, phase, Heap.disposeSome]
    omega

/-- The bound on steps is one on the steps to do. -/
theorem remaining_le_stepBound (orderly : collector.Orderly) :
    collector.remaining roots ≤ collector.stepBound roots := by
  have pending := orderly.lawful.length_pending_le
  have active := orderly.lawful.length_active_le
  have unmarked := orderly.lawful.length_unmarked_le
  have few := collector.heap.openReferences_le
  rw [stepBound_eq]
  cases phase : collector.cycle.phase with
  | linkPending | resetState | collect | dispose =>
    simp only [remaining, phase]
    omega
  | mark category =>
    have taken := length_takeRoots collector.heap roots category
    have start : countdown category ≤ 4 := by cases category <;> simp [countdown]
    have waiting : (collector.openWorklist roots category).length ≤
        collector.cycle.worklist.length + (takeRoots collector.heap roots category).length := by
      unfold openWorklist
      split
      · omega
      · rw [List.length_append]
    rw [remaining_mark phase]
    omega

/-- Steps, none of which completes a collection. -/
abbrev Proceeds (roots : RootSet) : Collector → Collector → Prop :=
  Relation.ReflTransGen fun collector after => Stepped collector roots false after

/-- There is always a step to do. -/
theorem remaining_pos (roots : RootSet) (collector : Collector) :
    0 < collector.remaining roots := by
  unfold remaining
  dsimp only
  split <;> omega

/-- Enough fuel takes the collector to the end of the collection under way. -/
theorem runSteps_completes (orderly : collector.Orderly) {fuel : Nat}
    (enough : collector.remaining roots ≤ fuel) :
    ∃ last, Proceeds roots collector last ∧
      Stepped last roots true (runSteps roots fuel collector) := by
  induction fuel generalizing collector with
  | zero =>
    have positive := collector.remaining_pos roots
    omega
  | succ fuel hypothesis =>
    have stepped := collector.stepped roots
    rw [runSteps]
    dsimp only
    cases completed : (collector.step roots).1 with
    | true =>
      rw [completed] at stepped
      rw [if_pos rfl]
      exact ⟨collector, .refl, stepped⟩
    | false =>
      rw [completed] at stepped
      rw [if_neg Bool.false_ne_true]
      have fewer := stepped.remaining_lt orderly
      obtain ⟨last, proceeds, finish⟩ :=
        hypothesis (orderly.stepped stepped) (Nat.le_of_lt_succ (fewer.trans_le enough))
      exact ⟨last, proceeds.head stepped, finish⟩

/-- A run of the collector completes the collection under way. -/
theorem run_completes (orderly : collector.Orderly) (roots : RootSet) :
    ∃ last, Proceeds roots collector last ∧ Stepped last roots true (collector.run roots) :=
  runSteps_completes orderly (remaining_le_stepBound orderly)

end Collector

end ScriptVm
