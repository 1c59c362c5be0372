import ScriptVm.Proofs.Collector.Chronicle
import ScriptVm.Proofs.Collector.Exactness

/-!
# The balance of allocations and disposals

Every proxy that has been allocated is alive or has been disposed of. A disposal is counted in the
cycle and goes to the statistics when the collection is complete. A collection that is given up
takes the disposals that it has counted with it: the statistics balance exactly when no collection
has been given up after its first disposal.
-/
namespace ScriptVm

namespace Heap

variable {before after : Heap}

/-- A slot that is occupied once others have been emptied was occupied before. -/
theorem Ages.isSome_occupant? (ages : before.Ages after)
    (size : after.slots.size = before.slots.size) {index : Nat}
    (filled : (after.occupant? index).isSome = true) :
    (before.occupant? index).isSome = true := by
  cases stamped : before.stamp? index with
  | none =>
    obtain ⟨proxy, occupied⟩ := Option.isSome_iff_exists.mp filled
    have inside := index_lt_of_occupant? occupied
    rw [stamp?_eq_none_iff] at stamped
    omega
  | some stamp =>
    obtain ⟨generation, occupied⟩ := stamp
    rw [Heap.isSome_occupant? stamped]
    rcases ages index generation occupied stamped with same | ⟨rfl, _⟩
    · rwa [Heap.isSome_occupant? same] at filled
    · rfl

/-- As many slots are emptied as there are fewer proxies. -/
theorem Ages.length_emptied (ages : before.Ages after)
    (size : after.slots.size = before.slots.size) :
    (before.emptied after).length + after.population = before.population := by
  have left : after.population = (List.range before.slots.size).countP fun index =>
      (before.occupant? index).isSome && (after.occupant? index).isSome := by
    rw [population, size]
    refine List.countP_congr fun index _ => ?_
    have known : (after.occupant? index).isSome = true → (before.occupant? index).isSome = true :=
      ages.isSome_occupant? size
    cases filled : (after.occupant? index).isSome with
    | false => simp
    | true => simp [known filled]
  have parts := List.countP_eq_countP_filter_add (List.range before.slots.size)
    (fun index => (before.occupant? index).isSome) fun index => (after.occupant? index).isSome
  rw [List.countP_filter, List.countP_filter, Nat.add_comm] at parts
  rw [left, emptied, ← List.countP_eq_length_filter]
  exact parts.symm

end Heap

namespace Collector

variable {collector after : Collector} {roots : RootSet} {completed : Bool}

/-- Shading does not touch the statistics. -/
@[simp] theorem stats_shade (collector : Collector) (handle : Handle) :
    (collector.shade handle).stats = collector.stats := by
  rcases collector.shade_eq handle with ⟨_, same⟩ | ⟨_, marks⟩
  · rw [same]
  · rw [marks]

/-- Allocating does not touch the statistics. -/
@[simp] theorem stats_allocate (collector : Collector) (cell : Cell) (pinned : Bool) :
    (collector.allocate cell pinned).2.stats = collector.stats := by
  rw [allocate_eq, stats_shade]

/-- What a step disposes of is counted, in the cycle or in the statistics. -/
theorem Stepped.counts (stepped : Stepped collector roots completed after)
    (orderly : collector.Orderly) :
    after.stats.totalDisposed + after.cycle.disposed + after.heap.population =
      collector.stats.totalDisposed + collector.cycle.disposed + collector.heap.population := by
  cases completed with
  | false =>
    have counted := stepped.population orderly
    rw [stepped.stats]
    omega
  | true =>
    cases stepped with
    | disposedAll =>
      have disposed := orderly.lawful.population_disposeSome collector.budget
      simp only [complete, nextCycle]
      omega

/-- The disposals that the collection under way has counted and that are lost when it is given
up. -/
def forfeits (collector : Collector) : Operation → Nat
  | .reset => collector.cycle.disposed
  | _ => 0

/-- The disposals whose count is lost in a sequence of operations. -/
def forfeited : List Operation → Collector → Nat
  | [], _ => 0
  | operation :: operations, collector =>
    collector.forfeits operation + forfeited operations (collector.operate operation)

/-- No count is lost exactly when no collection is given up that has counted a disposal. -/
theorem forfeited_eq_zero_iff (operations : List Operation) (collector : Collector) :
    forfeited operations collector = 0 ↔
      ∀ before after, operations = before ++ .reset :: after →
        (before.foldl operate collector).cycle.disposed = 0 := by
  induction operations generalizing collector with
  | nil => simp [forfeited]
  | cons operation operations hypothesis =>
    rw [forfeited, Nat.add_eq_zero_iff, hypothesis]
    constructor
    · rintro ⟨first, later⟩ before after parts
      cases before with
      | nil =>
        obtain ⟨rfl, rfl⟩ := List.cons_eq_cons.mp parts
        exact first
      | cons head before =>
        obtain ⟨rfl, rest⟩ := List.cons_eq_cons.mp parts
        exact later before after rest
    · intro all
      refine ⟨?_, fun before after parts => all (operation :: before) after (by simp [parts])⟩
      cases operation with
      | reset => exact all [] operations rfl
      | _ => rfl

/-- Allocations, disposals and the statistics balance, apart from counts that have been lost. -/
structure Balanced (collector : Collector) (past : List Occurrence) (lost : Nat) : Prop where
  /-- What has been allocated is alive, or it has been disposed of. -/
  alive : (issuedHandles past).length + 1 =
    collector.heap.population + (disposedSlots past).length
  /-- What has been disposed of is counted, or its count has been lost. -/
  counted : (disposedSlots past).length =
    collector.stats.totalDisposed + collector.cycle.disposed + lost

namespace Balanced

variable {past : List Occurrence} {lost : Nat}

/-- A fresh collector has a balance of nothing. -/
theorem start (budget : Nat) : (create budget).Balanced [] 0 := ⟨rfl, rfl⟩

/-- What neither adds nor takes away a proxy leaves the balance. -/
theorem of_population (balanced : collector.Balanced past lost)
    (population : after.heap.population = collector.heap.population)
    (stats : after.stats = collector.stats) (cycle : after.cycle = collector.cycle) :
    after.Balanced past lost :=
  ⟨by rw [population]; exact balanced.alive, by rw [stats, cycle]; exact balanced.counted⟩

/-- A step keeps the balance. -/
theorem step (balanced : collector.Balanced past lost) (orderly : collector.Orderly)
    (roots : RootSet) :
    (collector.step roots).2.Balanced (past ++ collector.stepOccurrences roots) lost := by
  have stepped := collector.stepped roots
  have counts := stepped.counts orderly
  have gone := (stepped.ages orderly.lawful).length_emptied stepped.size
  obtain ⟨alive, counted⟩ := balanced
  constructor <;>
    simp only [stepOccurrences, issuedHandles_append, issuedHandles_disposed,
      disposedSlots_append, disposedSlots_disposed, List.append_nil, List.length_append] <;>
    omega

/-- Steps up to the end of a collection keep the balance. -/
theorem runSteps (balanced : collector.Balanced past lost) (orderly : collector.Orderly)
    (roots : RootSet) (fuel : Nat) :
    (Collector.runSteps roots fuel collector).Balanced
      (past ++ runOccurrences roots fuel collector) lost := by
  induction fuel generalizing collector past with
  | zero => simpa [Collector.runSteps, runOccurrences] using balanced
  | succ fuel hypothesis =>
    have after := balanced.step orderly roots
    rw [Collector.runSteps, runOccurrences]
    dsimp only
    split
    · simpa using after
    · rw [← List.append_assoc]
      exact hypothesis after orderly.step

/-- An operation keeps the balance, apart from the counts lost in it. -/
theorem operate (balanced : collector.Balanced past lost) (orderly : collector.Orderly)
    (operation : Operation) :
    (collector.operate operation).Balanced (past ++ collector.occurrences operation)
      (lost + collector.forfeits operation) := by
  have same : ∀ after : Collector, after.heap.population = collector.heap.population →
      after.stats = collector.stats → after.cycle = collector.cycle →
      after.Balanced (past ++ []) (lost + 0) := by
    intro after population stats cycle
    rw [List.append_nil]
    exact balanced.of_population population stats cycle
  cases operation with
  | allocate cell pinned =>
    rw [Collector.operate, occurrences]
    split
    · have more := orderly.population_allocate cell pinned
      obtain ⟨alive, counted⟩ := balanced
      constructor
      · rw [more, issuedHandles_append, disposedSlots_append, List.length_append,
          List.length_append]
        show _ + 1 + 1 = _ + (_ + 0)
        omega
      · rw [disposedSlots_append, List.length_append, stats_allocate, cycle_allocate]
        exact counted
    · exact same _ rfl rfl rfl
  | setPinned handle pinned =>
    refine same _ ?_ rfl rfl
    rw [Collector.operate]
    cases done : collector.heap.setPinned handle pinned with
    | none => rfl
    | some heap =>
      have lawful := (orderly.setPinned done).lawful
      rw [Option.getD_some]
      rcases Heap.setPinned_cases done with rfl | ⟨_, _, _, rfl⟩
      · rfl
      · exact orderly.lawful.population_congr lawful (Heap.size_updateAt _ _ _) rfl
  | shade handle =>
    exact same _ (orderly.population_shade handle) (stats_shade _ _) (cycle_shade _ _)
  | step roots => exact balanced.step orderly roots
  | run roots => exact balanced.runSteps orderly roots _
  | reset =>
    have population := orderly.lawful.population_congr orderly.reset.lawful rfl rfl
    obtain ⟨alive, counted⟩ := balanced
    constructor
    · rw [occurrences, List.append_nil]
      exact population ▸ alive
    · rw [occurrences, List.append_nil, counted]
      simp only [Collector.operate, reset, forfeits]
      omega

/-- A sequence of operations keeps the balance, apart from the counts lost in it. -/
theorem operations (balanced : collector.Balanced past lost) (orderly : collector.Orderly)
    (chronicled : collector.Chronicled past) (operations : List Operation) :
    (operations.foldl Collector.operate collector).Balanced
      (past ++ chronicle operations collector) (lost + forfeited operations collector) := by
  induction operations generalizing collector past lost with
  | nil => simpa [chronicle, forfeited] using balanced
  | cons operation operations hypothesis =>
    rw [List.foldl_cons, chronicle, forfeited, ← List.append_assoc, ← Nat.add_assoc]
    have after := chronicled.operate operation
    exact hypothesis (balanced.operate orderly operation) after.orderly after

end Balanced

/-- When no collection is under way, what has been allocated is alive or disposed of, and what has
been disposed of is in the statistics, apart from the counts that were lost. So the statistics
balance exactly when no collection was given up after its first disposal. -/
theorem balances_iff_of_operations (budget : Nat) (operations : List Operation)
    (idle : (operations.foldl operate (create budget)).cycle.phase = .linkPending) :
    let collector := operations.foldl operate (create budget)
    let happened := chronicle operations (create budget)
    (issuedHandles happened).length =
        collector.heap.liveCount + (disposedSlots happened).length ∧
      (disposedSlots happened).length =
        collector.stats.totalDisposed + forfeited operations (create budget) ∧
      ((issuedHandles happened).length =
          collector.heap.liveCount + collector.stats.totalDisposed ↔
        ∀ before after, operations = before ++ .reset :: after →
          (before.foldl operate (create budget)).cycle.disposed = 0) := by
  intro collector happened
  have orderly : collector.Orderly :=
    ((chronicled_create budget).operations operations).orderly
  have balanced : collector.Balanced happened (0 + forfeited operations (create budget)) :=
    (Balanced.start budget).operations (orderly_create budget) (chronicled_create budget) operations
  have alive := balanced.alive
  have counted := balanced.counted
  have live := orderly.lawful.liveCount_add_one
  rw [orderly.disposed (by rw [idle]; simp)] at counted
  rw [← forfeited_eq_zero_iff]
  refine ⟨?_, ?_, ?_⟩ <;> omega

/-- A collection with a budget of two is given up after it has disposed of two of three proxies:
three have been allocated and one is alive, but the statistics count no disposal. -/
theorem balances_iff_of_operations_cut :
    let text : Cell := .value (.string "text")
    let before : List Operation :=
      List.replicate 3 (.allocate text false) ++ List.replicate 11 (.step fun _ => [])
    let operations := before ++ [.reset]
    let collector := operations.foldl operate (create 2)
    let happened := chronicle operations (create 2)
    collector.cycle.phase = .linkPending ∧ (issuedHandles happened).length = 3 ∧
      collector.heap.liveCount = 1 ∧ collector.stats.totalDisposed = 0 ∧
      (disposedSlots happened).length = forfeited operations (create 2) ∧
      ¬∀ before after, operations = before ++ .reset :: after →
        (before.foldl operate (create 2)).cycle.disposed = 0 := by
  intro text before operations collector happened
  have idle : collector.cycle.phase = .linkPending := by decide +kernel
  have issued : (issuedHandles happened).length = 3 := by decide +kernel
  have live : collector.heap.liveCount = 1 := by decide +kernel
  have total : collector.stats.totalDisposed = 0 := by decide +kernel
  have counted : (disposedSlots happened).length =
      collector.stats.totalDisposed + forfeited operations (create 2) :=
    (balances_iff_of_operations 2 operations idle).2.1
  rw [total, Nat.zero_add] at counted
  refine ⟨idle, issued, live, total, counted, fun never => ?_⟩
  have balanced : (issuedHandles happened).length =
      collector.heap.liveCount + collector.stats.totalDisposed :=
    (balances_iff_of_operations 2 operations idle).2.2.mpr never
  rw [issued, live, total] at balanced
  exact absurd balanced (by decide)

end Collector

end ScriptVm
