import Mathlib.Data.List.Nodup
import ScriptVm.Proofs.Collector.Safety

/-!
# How many proxies there are

The proxies of a heap are counted by its occupied slots. A collector step takes away as many as it
disposes of, moves between steps take none away, and whether there is room for further proxies
depends on their count alone.
-/
namespace ScriptVm

namespace Heap

/-- The count of proxies. -/
def population (heap : Heap) : Nat :=
  (List.range heap.slots.size).countP fun index => (heap.occupant? index).isSome

namespace Lawful

variable {heap : Heap}

/-- Every slot is empty or holds a proxy. -/
theorem population_add_free (lawful : heap.Lawful) :
    heap.population + heap.free.length = heap.slots.size := by
  have vacant : heap.free.Perm
      ((List.range heap.slots.size).filter fun index => !(heap.occupant? index).isSome) := by
    rw [List.perm_iff_count]
    intro index
    rw [lawful.free, residenceAt?]
    by_cases inside : index < heap.slots.size
    · cases occupied : heap.occupant? index with
      | none =>
        rw [List.count_filter (by simp [occupied])]
        simp [List.count_eq_one_of_mem List.nodup_range (List.mem_range.mpr inside), inside]
      | some proxy =>
        rw [List.count_eq_zero.mpr (by simp [occupied])]
        simp
    · rw [List.count_eq_zero.mpr (by simp [inside])]
      simp [inside]
  have both := List.length_eq_length_filter_add
    (fun index => (heap.occupant? index).isSome) (l := List.range heap.slots.size)
  rw [vacant.length_eq, population, List.countP_eq_length_filter, ← both, List.length_range]

/-- The null value is counted. -/
theorem population_pos (lawful : heap.Lawful) : 0 < heap.population := by
  rw [population, List.countP_pos_iff]
  refine ⟨0, List.mem_range.mpr ?_, ?_⟩
  · exact index_lt_of_occupant? lawful.occupant?_zero
  · rw [lawful.occupant?_zero]
    rfl

/-- The live count is that of all proxies but the null value. -/
theorem liveCount_add_one (lawful : heap.Lawful) : heap.liveCount + 1 = heap.population := by
  have all := lawful.population_add_free
  have null := lawful.population_pos
  unfold liveCount
  omega

/-- The same slots and empty slots hold as many proxies. -/
theorem population_congr {other : Heap} (lawful : heap.Lawful) (lawful' : other.Lawful)
    (size : other.slots.size = heap.slots.size) (free : other.free = heap.free) :
    other.population = heap.population := by
  have before := lawful.population_add_free
  have after := lawful'.population_add_free
  rw [size, free] at after
  omega

/-- Disposing takes away as many proxies as it counts. -/
theorem population_disposeSome (lawful : heap.Lawful) (budget : Nat) :
    (heap.unmarked.take budget).length + (heap.disposeSome budget).2.2.population =
      heap.population := by
  have before := lawful.population_add_free
  have after := (lawful.disposeSome budget).population_add_free
  have size : (heap.disposeSome budget).2.2.slots.size = heap.slots.size := size_foldl_vacate _ _
  have free : (heap.disposeSome budget).2.2.free.length =
      (heap.unmarked.take budget).length + heap.free.length := by
    simp [Heap.disposeSome]
  omega

/-- Room depends on the count of proxies. -/
theorem hasRoom_iff (lawful : heap.Lawful) (count : Nat) :
    heap.hasRoom count = true ↔ heap.population + count ≤ Heap.limit := by
  have all := lawful.population_add_free
  simp only [Heap.hasRoom, Bool.or_eq_true, decide_eq_true_eq]
  omega

/-- Where there is room next to more proxies, there is next to fewer. -/
theorem hasRoom_eq {other : Heap} (lawful : heap.Lawful) (lawful' : other.Lawful)
    (fewer : heap.population ≤ other.population) {enough : Nat}
    (roomy : other.hasRoom enough = true) {count : Nat} (small : count ≤ enough) :
    heap.hasRoom count = other.hasRoom count := by
  rw [lawful'.hasRoom_iff] at roomy
  have here := (lawful.hasRoom_iff count).mpr (by omega)
  have there := (lawful'.hasRoom_iff count).mpr (by omega)
  rw [here, there]

end Lawful

/-- An allocation adds one proxy. -/
theorem Allocates.population {heap after : Heap} {cell : Cell} {pinned : Bool}
    {handle : Handle} (allocates : heap.Allocates cell pinned handle after) (lawful : heap.Lawful)
    (lawful' : after.Lawful) : after.population = heap.population + 1 := by
  have before := lawful.population_add_free
  have counted := lawful'.population_add_free
  rcases allocates.source with ⟨free, size⟩ | ⟨none, none', _, size⟩
  · have length := congrArg List.length free
    rw [List.length_cons] at length
    omega
  · rw [none, List.length_nil] at before
    rw [none', List.length_nil] at counted
    omega

end Heap

namespace Collector

variable {collector after : Collector} {roots : RootSet}

/-- The proxies before a step are those after it and the ones it disposes of, which are counted
until the collection is complete. -/
theorem Stepped.disposes {completed : Bool} (stepped : Stepped collector roots completed after)
    (orderly : collector.Orderly) :
    ∃ gone, after.heap.population + gone = collector.heap.population ∧
      (completed = false → after.cycle.disposed = collector.cycle.disposed + gone) := by
  have lawful := orderly.lawful
  have lawfulAfter := (orderly.stepped stepped).lawful
  have same : after.heap.slots.size = collector.heap.slots.size →
      after.heap.free = collector.heap.free → after.heap.population = collector.heap.population :=
    lawful.population_congr lawfulAfter
  cases stepped with
  | linking | linkedAll =>
    obtain ⟨size, free, _⟩ := collector.heap.linked_lists collector.budget
    exact ⟨0, same size free, fun _ => rfl⟩
  | clearing | clearedAll =>
    obtain ⟨size, free, _⟩ := collector.heap.cleared_lists collector.budget
    exact ⟨0, same size free, fun _ => rfl⟩
  | marking _ _ _ _ marked | markedAll _ _ _ marked =>
    have darkens := Heap.darkens_of_markSome marked
    exact ⟨0, same darkens.size darkens.lists.1, fun _ => rfl⟩
  | sifting | siftedAll =>
    obtain ⟨size, free, _⟩ := collector.heap.sifted_lists collector.budget
    exact ⟨0, same size free, fun _ => rfl⟩
  | disposing =>
    have disposed := lawful.population_disposeSome collector.budget
    exact ⟨(collector.heap.unmarked.take collector.budget).length, by dsimp only; omega,
      fun _ => rfl⟩
  | disposedAll =>
    have disposed := lawful.population_disposeSome collector.budget
    exact ⟨(collector.heap.unmarked.take collector.budget).length, by simp only [complete]; omega,
      by simp⟩

/-- Before a collection is complete, what is disposed of and what is left are all the proxies. -/
theorem Stepped.population (stepped : Stepped collector roots false after)
    (orderly : collector.Orderly) :
    after.cycle.disposed + after.heap.population =
      collector.cycle.disposed + collector.heap.population := by
  obtain ⟨gone, left, counted⟩ := stepped.disposes orderly
  have disposed := counted rfl
  omega

namespace Orderly

/-- Shading leaves the proxies there are. -/
theorem population_shade (orderly : collector.Orderly) (handle : Handle) :
    (collector.shade handle).heap.population = collector.heap.population := by
  have darkens := collector.darkens_shade handle
  exact orderly.lawful.population_congr (orderly.shade handle).lawful darkens.size darkens.lists.1

/-- An allocation adds one proxy. -/
theorem population_allocate (orderly : collector.Orderly) (cell : Cell) (pinned : Bool) :
    (collector.allocate cell pinned).2.heap.population = collector.heap.population + 1 := by
  have lawful := orderly.lawful
  have allocates := collector.heap.allocates cell pinned lawful.vacant
  have placed : Orderly { collector with heap := (collector.heap.allocate cell pinned).2 } :=
    orderly.withHeap (lawful.allocate cell pinned) allocates.others.2.1
  rw [allocate_eq, placed.population_shade]
  exact allocates.population lawful placed.lawful

/-- Replacing a cell leaves the proxies there are. -/
theorem population_setCell (orderly : collector.Orderly) {target : Handle} {proxy : Proxy}
    (resolved : collector.heap.proxy? target = some proxy) (proper : proxy.cell ≠ .value .null)
    (cell : Cell) : (collector.heap.setCell target cell).population = collector.heap.population :=
  orderly.lawful.population_congr (orderly.setCell resolved proper cell).lawful
    (Heap.size_updateAt _ _ _) rfl

end Orderly

end Collector

namespace View

/-- A move takes no proxy away. -/
theorem Move.population_le {view after : View} (move : Move view after)
    (orderly : view.collector.Orderly) :
    view.collector.heap.population ≤ after.collector.heap.population := by
  cases move with
  | weaken => exact Nat.le_refl _
  | shade handle => exact Nat.le_of_eq (orderly.population_shade handle).symm
  | @allocate cell pinned children =>
    have more := orderly.population_allocate cell pinned
    dsimp only
    omega
  | @rewrite target stored proxy cell resolved proper children reached kind =>
    have replaced := orderly.setCell resolved proper cell
    dsimp only
    rw [replaced.population_shade]
    exact Nat.le_of_eq (orderly.population_setCell resolved proper cell).symm

/-- Moves take no proxy away. -/
theorem Moves.population_le {view after : View} (moves : Moves view after)
    (orderly : view.collector.Orderly) :
    view.collector.heap.population ≤ after.collector.heap.population := by
  induction moves with
  | refl => exact Nat.le_refl _
  | tail earlier move hypothesis =>
    exact Nat.le_trans hypothesis (move.population_le (Moves.orderly earlier orderly))

end View

end ScriptVm
