import ScriptVm.Proofs.Collector.Compaction
import ScriptVm.Proofs.Collector.Population

/-!
# The representation of the heap

Whatever is done with a collector, step by step, each slot but the first one is in exactly one
place, and its occupant says which. The active proxies are read off the vector in which they lie,
also in the middle of the pass that compacts it.
-/
namespace ScriptVm

/-- Something to do with a collector. -/
inductive Operation where
  /-- Allocates a proxy, unless the heap is full. -/
  | allocate (cell : Cell) (pinned : Bool)
  /-- Pins or unpins the proxy that a handle names, if any. -/
  | setPinned (handle : Handle) (pinned : Bool)
  | shade (handle : Handle)
  | step (roots : RootSet)
  | run (roots : RootSet)
  | reset

/-- What an operation does to a collector. -/
def Collector.operate (collector : Collector) : Operation → Collector
  | .allocate cell pinned =>
    if collector.heap.hasRoom 1 then (collector.allocate cell pinned).2 else collector
  | .setPinned handle pinned =>
    { collector with heap := (collector.heap.setPinned handle pinned).getD collector.heap }
  | .shade handle => collector.shade handle
  | .step roots => (collector.step roots).2
  | .run roots => collector.run roots
  | .reset => collector.reset

namespace ActiveVector

/-- What steps up to the end of a collection do to the vector. -/
def runSteps (roots : RootSet) : Nat → Collector → ActiveVector → Option ActiveVector
  | 0, _, vector => some vector
  | fuel + 1, collector, vector =>
    (vector.step collector).bind fun vector =>
      if (collector.step roots).1 then some vector
      else runSteps roots fuel (collector.step roots).2 vector

/-- What an operation does to the vector. None when a slot or a position is out of bounds. -/
def follow (vector : ActiveVector) (collector : Collector) : Operation → Option ActiveVector
  | .allocate _ _ =>
    if collector.heap.inBounds (collector.heap.free.take 1) then some vector else none
  | .setPinned _ _ | .shade _ => some vector
  | .step _ => vector.step collector
  | .run roots => vector.runSteps roots (collector.stepBound roots) collector
  | .reset =>
    some (if collector.cycle.phase = .collect then vector.repair else { items := vector.items })

/-- What a sequence of operations does to the vector. -/
def followAll : List Operation → Collector → ActiveVector → Option ActiveVector
  | [], _, vector => some vector
  | operation :: operations, collector, vector =>
    (vector.follow collector operation).bind
      (followAll operations (collector.operate operation))

end ActiveVector

/-- How slots are represented, given the list of the active ones. -/
structure Heap.Represented (heap : Heap) (active : List Nat) : Prop where
  /-- The first slot holds the null value, which is immortal. -/
  null : heap.slots[0]? = some ⟨0, some ⟨.immortal, true, true, .value .null⟩⟩
  /-- Every other slot is on exactly one list, once. -/
  once : ∀ index, 0 < index → index < heap.slots.size →
    (heap.free ++ heap.pending ++ heap.unmarked ++ active).count index = 1
  /-- There is nothing else on the lists. -/
  bounds : ∀ index ∈ heap.free ++ heap.pending ++ heap.unmarked ++ active,
    0 < index ∧ index < heap.slots.size
  /-- A slot holds a proxy unless it is on the list of the empty ones. -/
  occupied : ∀ index, index < heap.slots.size →
    ((heap.occupant? index).isSome = true ↔ index ∉ heap.free)
  /-- A proxy stands where the list of its slot says. -/
  standing : ∀ index proxy, 0 < index → heap.occupant? index = some proxy →
    (proxy.residence = .pending ∧ index ∈ heap.pending) ∨
    (proxy.residence = .active ∧ index ∈ active) ∨
    (proxy.residence = .unmarked ∧ index ∈ heap.unmarked)
  /-- The live count does not go below zero. -/
  free : 1 + heap.free.length ≤ heap.slots.size
  /-- The live count is that of the occupied slots, the first one apart. -/
  live : heap.liveCount =
    (List.range heap.slots.size).countP fun index => index ≠ 0 && (heap.occupant? index).isSome
  /-- Indices fit in a 32-bit word. -/
  limit : heap.slots.size ≤ Heap.limit

/-- A lawful heap that is not too large is represented by its lists. -/
theorem Heap.Lawful.represented {heap : Heap} (lawful : heap.Lawful)
    (limit : heap.slots.size ≤ Heap.limit) : heap.Represented heap.activeSlots := by
  have active : ∀ index, heap.activeSlots.count index =
      if heap.residenceAt? index = some .active then 1 else 0 := by
    intro index
    rw [Heap.activeSlots, List.count_append, List.count_reverse, Nat.add_comm, lawful.active]
  have memActive : ∀ index,
      index ∈ heap.activeSlots ↔ heap.residenceAt? index = some .active := by
    intro index
    rw [← List.count_pos_iff, active]
    split <;> simp_all
  have first : heap.residenceAt? 0 = some .immortal := by
    rw [Heap.residenceAt?, lawful.occupant?_zero]
    rfl
  have all := lawful.population_add_free
  have null := lawful.population_pos
  refine ⟨lawful.null, ?_, ?_, ?_, ?_, by omega, ?_, limit⟩
  · intro index positive inside
    have mortal : heap.residenceAt? index ≠ some .immortal := by
      intro immortal
      have zero := lawful.immortal index immortal
      omega
    simp only [List.count_append, lawful.free, lawful.pending, lawful.unmarked, active]
    cases standing : heap.residenceAt? index with
    | none => simp [inside]
    | some residence => cases residence <;> simp_all
  · intro index member
    simp only [List.mem_append, lawful.mem_free, lawful.mem_pending, lawful.mem_unmarked,
      memActive] at member
    constructor
    · refine Nat.pos_of_ne_zero fun zero => ?_
      subst zero
      simp [first] at member
    · rcases member with ((vacant | standing) | standing) | standing
      · exact vacant.1
      all_goals
        obtain ⟨proxy, occupied, _⟩ := Option.map_eq_some_iff.mp standing
        exact Heap.index_lt_of_occupant? occupied
  · intro index inside
    rw [lawful.mem_free, Heap.residenceAt?]
    cases heap.occupant? index <;> simp [inside]
  · intro index proxy positive occupied
    have standing : heap.residenceAt? index = some proxy.residence := by
      rw [Heap.residenceAt?, occupied]
      rfl
    rw [lawful.mem_pending, memActive, lawful.mem_unmarked, standing]
    cases residence : proxy.residence with
    | immortal =>
      have zero := lawful.immortal index (standing.trans (congrArg some residence))
      omega
    | pending | active | unmarked => simp
  · have live := lawful.liveCount_add_one
    have zero := lawful.occupant?_zero
    obtain ⟨rest, size⟩ := Nat.exists_eq_succ_of_ne_zero (n := heap.slots.size) (by omega)
    rw [Heap.population, size, List.range_succ_eq_map, List.countP_cons] at live
    rw [size, List.range_succ_eq_map, List.countP_cons]
    simpa [zero, List.countP_map, Function.comp_def] using live

namespace Collector

/-- A step makes no slot. -/
theorem Stepped.size {collector after : Collector} {roots : RootSet} {completed : Bool}
    (stepped : Stepped collector roots completed after) :
    after.heap.slots.size = collector.heap.slots.size := by
  cases stepped with
  | linking | linkedAll => exact (collector.heap.linked_lists collector.budget).1
  | clearing | clearedAll => exact (collector.heap.cleared_lists collector.budget).1
  | marking _ _ _ _ marked | markedAll _ _ _ marked =>
    exact (Heap.darkens_of_markSome marked).size
  | sifting | siftedAll => exact (collector.heap.sifted_lists collector.budget).1
  | disposing | disposedAll => exact Heap.size_foldl_vacate _ _

/-- An allocation makes a slot only when there is room for it. -/
theorem Orderly.size_allocate {collector : Collector} (orderly : collector.Orderly) {cell : Cell}
    {pinned : Bool} (room : collector.heap.hasRoom 1 = true)
    (limit : collector.heap.slots.size ≤ Heap.limit) :
    (collector.allocate cell pinned).2.heap.slots.size ≤ Heap.limit := by
  have allocates := collector.heap.allocates cell pinned orderly.lawful.vacant
  rw [allocate_eq, (darkens_shade _ _).size]
  rcases allocates.source with ⟨_, same⟩ | ⟨none, _, _, more⟩
  · exact same ▸ limit
  · simp only [Heap.hasRoom, none, List.length_nil, Bool.or_eq_true, decide_eq_true_eq] at room
    dsimp only
    omega

end Collector

namespace ActiveVector

variable {vector : ActiveVector} {collector : Collector}

/-- The collector is in order and not too large, and the vector shows its active proxies. -/
structure Fits (vector : ActiveVector) (collector : Collector) : Prop where
  /-- The bookkeeping is orderly. -/
  orderly : collector.Orderly
  /-- Indices fit in a 32-bit word. -/
  limit : collector.heap.slots.size ≤ Heap.limit
  /-- The vector shows the active proxies. -/
  shows : vector.Shows collector

/-- A fresh vector fits a fresh collector. -/
theorem fits_create (budget : Nat) : ({} : ActiveVector).Fits (.create budget) :=
  ⟨Collector.orderly_create budget, show 1 ≤ Heap.limit by decide, shows_create budget⟩

/-- The vector fits after a step. -/
theorem Fits.step (fits : vector.Fits collector) (roots : RootSet) :
    ∃ moved, vector.step collector = some moved ∧ moved.Fits (collector.step roots).2 := by
  have stepped := collector.stepped roots
  obtain ⟨moved, done, shows⟩ := fits.shows.stepped fits.orderly stepped
  exact ⟨moved, done, fits.orderly.step, Nat.le_trans (Nat.le_of_eq stepped.size) fits.limit, shows⟩

/-- The vector fits after steps up to the end of a collection. -/
theorem Fits.runSteps (fits : vector.Fits collector) (roots : RootSet) (fuel : Nat) :
    ∃ moved, vector.runSteps roots fuel collector = some moved ∧
      moved.Fits (Collector.runSteps roots fuel collector) := by
  induction fuel generalizing vector collector with
  | zero => exact ⟨vector, rfl, fits⟩
  | succ fuel hypothesis =>
    obtain ⟨moved, done, after⟩ := fits.step roots
    rw [ActiveVector.runSteps, done, Option.bind_some, Collector.runSteps]
    dsimp only
    split
    · exact ⟨moved, rfl, after⟩
    · exact hypothesis after

/-- Pinning and unpinning leave the vector as it is. -/
theorem Fits.setPinned (fits : vector.Fits collector) (handle : Handle) (pinned : Bool) :
    vector.Fits (collector.operate (.setPinned handle pinned)) := by
  rw [Collector.operate]
  cases done : collector.heap.setPinned handle pinned with
  | none => exact fits
  | some heap =>
    have orderly := fits.orderly.setPinned done
    rw [Option.getD_some]
    rcases Heap.setPinned_cases done with rfl | ⟨_, _, _, rfl⟩
    · exact fits
    · have size := Heap.size_updateAt collector.heap handle.index ({ · with pinned })
      exact ⟨orderly, Nat.le_trans (Nat.le_of_eq size) fits.limit, fits.shows.congr rfl rfl rfl⟩

/-- The vector fits after every operation. -/
theorem Fits.follow (fits : vector.Fits collector) (operation : Operation) :
    ∃ moved, vector.follow collector operation = some moved ∧
      moved.Fits (collector.operate operation) := by
  have lawful := fits.orderly.lawful
  cases operation with
  | allocate cell pinned =>
    have bounds : collector.heap.inBounds (collector.heap.free.take 1) = true :=
      Heap.inBounds_iff.mpr fun _ member => (lawful.vacant _ (List.mem_of_mem_take member)).1
    refine ⟨vector, by simp [ActiveVector.follow, bounds], ?_⟩
    rw [Collector.operate]
    split
    · rename_i room
      obtain ⟨active, kept, _⟩ := fits.orderly.lists_allocate cell pinned
      exact ⟨fits.orderly.allocate cell pinned, fits.orderly.size_allocate room fits.limit,
        fits.shows.congr (by rw [Collector.cycle_allocate]) active kept⟩
    · exact fits
  | setPinned handle pinned => exact ⟨vector, rfl, fits.setPinned handle pinned⟩
  | shade handle =>
    have darkens := collector.darkens_shade handle
    exact ⟨vector, rfl, fits.orderly.shade handle,
      Nat.le_trans (Nat.le_of_eq darkens.size) fits.limit,
      fits.shows.congr (by rw [Collector.operate, Collector.cycle_shade]) darkens.lists.2.2.1
        darkens.lists.2.2.2.1⟩
  | step roots => exact fits.step roots
  | run roots => exact fits.runSteps roots _
  | reset => exact ⟨_, rfl, fits.orderly.reset, fits.limit, fits.shows.reset⟩

/-- The vector fits after every sequence of operations. -/
theorem Fits.followAll (operations : List Operation) (fits : vector.Fits collector) :
    ∃ moved, followAll operations collector vector = some moved ∧
      moved.Fits (operations.foldl Collector.operate collector) := by
  induction operations generalizing vector collector with
  | nil => exact ⟨vector, rfl, fits⟩
  | cons operation operations hypothesis =>
    obtain ⟨moved, done, after⟩ := fits.follow operation
    rw [ActiveVector.followAll, done, Option.bind_some, List.foldl_cons]
    exact hypothesis after

end ActiveVector

/-- After every sequence of operations no access has been out of bounds, and the heap is represented
by its lists and by the vector of the active proxies. -/
theorem Collector.represented_of_operations (budget : Nat) (operations : List Operation) :
    ∃ vector, ActiveVector.followAll operations (.create budget) {} = some vector ∧
      (operations.foldl operate (.create budget)).heap.Represented
        (vector.effective (operations.foldl operate (.create budget)).cycle.phase) := by
  obtain ⟨vector, followed, fits⟩ := (ActiveVector.fits_create budget).followAll operations
  refine ⟨vector, followed, ?_⟩
  rw [fits.shows.effective]
  exact fits.orderly.lawful.represented fits.limit

/-- In the middle of the pass that condemns, one slot may be in the vector twice: the last allocated
text is condemned, and the one before it has been written over its entry. -/
example :
    let text : Cell := .value (.string "text")
    let operations : List Operation :=
      [.allocate text true, .allocate text true, .allocate text false] ++
        List.replicate 14 (.step fun _ => [])
    (operations.foldl Collector.operate (.create 1)).cycle.phase = .collect ∧
      ActiveVector.followAll operations (.create 1) {} = some ⟨[2, 2, 1], 2, 1⟩ := by
  decide +kernel

end ScriptVm
