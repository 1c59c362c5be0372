import Mathlib.Data.Prod.Lex
import Mathlib.Order.WellFounded
import ScriptVm.Proofs.Collector.Exactness
import ScriptVm.Proofs.Collector.Outcome
import ScriptVm.Proofs.Collector.Piles

/-!
# Collections come to an end

Steps without anything between them complete the collection under way, wherever it is and whatever
the heap looks like. The roots may be others at each step, so there is no bound to count down from.
What decreases is lexicographic: a step goes to the next phase, or it takes the roots of its mark
phase, or it works off units of the phase. In a mark phase these are the handles on the worklist and
the references of unmarked proxies, so that children that are put on the worklist are counted
already.
-/
namespace ScriptVm

namespace Collector

variable {collector after : Collector} {roots : RootSet}

/-- The units of work that are in sight in the phase under way. -/
def units (collector : Collector) : Nat :=
  match collector.cycle.phase with
  | .linkPending => collector.heap.pending.length
  | .resetState | .collect => collector.heap.active.length
  | .mark _ => collector.cycle.worklist.length + collector.heap.openReferences
  | .dispose => collector.heap.unmarked.length

/-- The work that is left: the phases, then whether roots have not been taken, then the units. -/
def workload (collector : Collector) : Nat ×ₗ Nat ×ₗ Nat :=
  toLex (collector.cycle.phase.ahead,
    toLex (if collector.cycle.rootsTaken then 0 else 1, collector.units))

/-- In the next phase less work is left. -/
theorem workload_lt_of_next (more : collector.cycle.phase ≠ .dispose)
    (phase : after.cycle.phase = collector.cycle.phase.next) :
    after.workload < collector.workload := by
  have fewer := Phase.ahead_next_add_one more
  refine Prod.Lex.toLex_lt_toLex.mpr (.inl ?_)
  dsimp only
  rw [phase]
  omega

/-- With fewer units of the same phase less work is left. -/
theorem workload_lt_of_units (phase : after.cycle.phase = collector.cycle.phase)
    (taken : after.cycle.rootsTaken = collector.cycle.rootsTaken)
    (fewer : after.units < collector.units) : after.workload < collector.workload := by
  refine Prod.Lex.toLex_lt_toLex.mpr (.inr ⟨congrArg Phase.ahead phase, ?_⟩)
  refine Prod.Lex.toLex_lt_toLex.mpr (.inr ⟨?_, fewer⟩)
  dsimp only
  rw [taken]

/-- Once the roots of the phase have been taken less work is left. -/
theorem workload_lt_of_taken (phase : after.cycle.phase = collector.cycle.phase)
    (untaken : collector.cycle.rootsTaken = false) (taken : after.cycle.rootsTaken = true) :
    after.workload < collector.workload := by
  refine Prod.Lex.toLex_lt_toLex.mpr (.inr ⟨congrArg Phase.ahead phase, ?_⟩)
  refine Prod.Lex.toLex_lt_toLex.mpr (.inl ?_)
  simp [untaken, taken]

/-- A step that does not complete the collection leaves less work. -/
theorem Stepped.workload_lt (stepped : Stepped collector roots false after)
    (positive : 0 < collector.budget) : after.workload < collector.workload := by
  cases stepped with
  | linking phase more =>
    refine workload_lt_of_units rfl rfl ?_
    have pending := (collector.heap.linked_lists collector.budget).2.2.1
    simp only [units, phase, pending]
    exact length_drop_lt positive more
  | clearing phase more =>
    refine workload_lt_of_units rfl rfl ?_
    have active := (collector.heap.cleared_lists collector.budget).2.2.2.1
    simp only [units, phase, active]
    exact length_drop_lt positive more
  | sifting phase more =>
    refine workload_lt_of_units rfl rfl ?_
    have active := (collector.heap.sifted_lists collector.budget).2.2.2.1
    simp only [units, phase, active]
    exact length_drop_lt positive more
  | disposing phase more =>
    refine workload_lt_of_units rfl rfl ?_
    simp only [units, phase, Heap.disposeSome]
    exact length_drop_lt positive more
  | marking category phase heap worklist marked =>
    cases taken : collector.cycle.rootsTaken with
    | false => exact workload_lt_of_taken rfl taken rfl
    | true =>
      have fewer := Heap.units_markSome_lt positive marked
      rw [openWorklist, if_pos taken] at fewer
      refine workload_lt_of_units rfl taken.symm ?_
      simp only [units, phase]
      exact fewer
  | linkedAll phase | clearedAll phase | markedAll category phase | siftedAll phase =>
    exact workload_lt_of_next (by simp [phase]) rfl

/-- A step leaves the budget. -/
theorem Stepped.budget {completed : Bool} (stepped : Stepped collector roots completed after) :
    after.budget = collector.budget := by
  cases stepped <;> rfl

/-- The collector after a number of steps, each with roots of its own. -/
def stepping (collector : Collector) (roots : Nat → RootSet) : Nat → Collector
  | 0 => collector
  | number + 1 => ((collector.stepping roots number).step (roots number)).2

/-- Steps after a first one are steps. -/
theorem stepping_step (collector : Collector) (roots : Nat → RootSet) (number : Nat) :
    (collector.step (roots 0)).2.stepping (fun later => roots (later + 1)) number =
      collector.stepping roots (number + 1) := by
  induction number with
  | zero => rfl
  | succ number hypothesis =>
    rw [stepping, hypothesis]
    rfl

/-- Steps leave the budget. -/
theorem budget_stepping (collector : Collector) (roots : Nat → RootSet) (number : Nat) :
    (collector.stepping roots number).budget = collector.budget := by
  induction number with
  | zero => rfl
  | succ number hypothesis => exact (stepped _ _).budget.trans hypothesis

/-- Steps keep the collector orderly. -/
theorem Orderly.stepping (orderly : collector.Orderly) (roots : Nat → RootSet) (number : Nat) :
    (collector.stepping roots number).Orderly := by
  induction number with
  | zero => exact orderly
  | succ number hypothesis => exact hypothesis.step

/-- Some step completes the collection, since the work that is left cannot get less forever. -/
theorem exists_completing (positive : 0 < collector.budget) (roots : Nat → RootSet) :
    ∃ count, ((collector.stepping roots count).step (roots count)).1 = true := by
  obtain ⟨count, stuck⟩ := WellFounded.not_rel_apply_succ (r := (· < ·)) fun number =>
    (collector.stepping roots number).workload
  refine ⟨count, ?_⟩
  cases completed : ((collector.stepping roots count).step (roots count)).1 with
  | true => rfl
  | false =>
    have stepped := (collector.stepping roots count).stepped (roots count)
    rw [completed] at stepped
    exact absurd (stepped.workload_lt (by rwa [budget_stepping])) stuck

/-- The step after a number of others completes the collection under way. -/
structure Completes (collector : Collector) (roots : Nat → RootSet) (count : Nat) : Prop where
  /-- The others do not. -/
  going : ∀ number < count, ((collector.stepping roots number).step (roots number)).1 = false
  /-- This one does. -/
  completed : ((collector.stepping roots count).step (roots count)).1 = true
  /-- It is a step of the last phase. -/
  last : (collector.stepping roots count).cycle.phase = .dispose
  /-- It counts the collection, which the others do not. -/
  counted : (∀ number ≤ count, (collector.stepping roots number).stats = collector.stats) ∧
    (collector.stepping roots (count + 1)).stats.collections = collector.stats.collections + 1
  /-- No collection is under way after it. -/
  idle : (collector.stepping roots (count + 1)).cycle = {}
  /-- Nothing is left to be disposed of. -/
  disposed : (collector.stepping roots (count + 1)).heap.unmarked = []

/-- The statistics stay until a step completes the collection. -/
theorem stats_stepping {roots : Nat → RootSet} {count : Nat}
    (going : ∀ number < count, ((collector.stepping roots number).step (roots number)).1 = false) :
    (collector.stepping roots count).stats = collector.stats := by
  induction count with
  | zero => rfl
  | succ count hypothesis =>
    have stepped := (collector.stepping roots count).stepped (roots count)
    rw [going count (Nat.lt_succ_self count)] at stepped
    exact stepped.stats.trans (hypothesis fun number less => going number (Nat.lt_succ_of_lt less))

/-- A step that completes a collection is one of the last phase, counts the collection and leaves
none under way. -/
theorem Stepped.complete (stepped : Stepped collector roots true after)
    (orderly : collector.Orderly) :
    collector.cycle.phase = .dispose ∧
      after.stats.collections = collector.stats.collections + 1 ∧ after.cycle = {} ∧
      after.heap.unmarked = [] := by
  cases stepped with
  | disposedAll phase all =>
    have worklist := orderly.worklist (by simp [phase, Phase.gathers])
    refine ⟨phase, rfl, ?_, all⟩
    simp [Collector.complete, nextCycle, phase, Phase.next, worklist]

/-- The collection under way is completed after a number of steps. -/
theorem Orderly.exists_completes (orderly : collector.Orderly) (roots : Nat → RootSet) :
    ∃ count, collector.Completes roots count := by
  have some := exists_completing orderly.budget roots
  let count := Nat.find some
  have completed : ((collector.stepping roots count).step (roots count)).1 = true :=
    Nat.find_spec some
  have going : ∀ number < count,
      ((collector.stepping roots number).step (roots number)).1 = false := fun number less =>
    Bool.eq_false_iff.mpr (Nat.find_min some less)
  have stepped := (collector.stepping roots count).stepped (roots count)
  rw [completed] at stepped
  obtain ⟨last, counted, idle, disposed⟩ := stepped.complete (orderly.stepping roots count)
  have before : ∀ number ≤ count, (collector.stepping roots number).stats = collector.stats :=
    fun number most => stats_stepping fun earlier less => going earlier (by omega)
  rw [before count le_rfl] at counted
  exact ⟨count, going, completed, last, ⟨before, counted⟩, idle, disposed⟩

/-- With fuel left a run makes a step, and goes on unless that completes the collection. -/
theorem runSteps_of_pos {fuel : Nat} (positive : 0 < fuel) :
    runSteps roots fuel collector =
      if (collector.step roots).1 then (collector.step roots).2
      else runSteps roots (fuel - 1) (collector.step roots).2 := by
  obtain ⟨fuel, rfl⟩ := Nat.exists_eq_succ_of_ne_zero positive.ne'
  rfl

/-- With enough fuel a run makes the steps that complete the collection. -/
theorem runSteps_eq_stepping {count fuel : Nat} (orderly : collector.Orderly)
    (going : ∀ number < count,
      ((collector.stepping (fun _ => roots) number).step roots).1 = false)
    (completed : ((collector.stepping (fun _ => roots) count).step roots).1 = true)
    (enough : collector.remaining roots ≤ fuel) :
    runSteps roots fuel collector = collector.stepping (fun _ => roots) (count + 1) := by
  induction count generalizing collector fuel with
  | zero =>
    have first : (collector.step roots).1 = true := completed
    rw [runSteps_of_pos ((collector.remaining_pos roots).trans_le enough), if_pos first]
    rfl
  | succ count hypothesis =>
    have first : (collector.step roots).1 = false := going 0 (Nat.succ_pos count)
    have stepped := collector.stepped roots
    rw [first] at stepped
    have fewer := stepped.remaining_lt orderly
    have later := stepping_step collector fun _ => roots
    rw [runSteps_of_pos ((collector.remaining_pos roots).trans_le enough),
      if_neg (by simp [first]), ← later]
    refine hypothesis orderly.step (fun number less => ?_) ?_ (by omega)
    · rw [later]
      exact going (number + 1) (Nat.succ_lt_succ less)
    · rw [later]
      exact completed

/-- From where a collector is, with its worklist on two piles, collections come to an end. -/
structure Terminates (collector : Collector) (piles : MarkPiles) : Prop where
  /-- Steps complete the collection under way, whatever the roots are at each of them. -/
  steps : ∀ roots, ∃ count, collector.Completes roots count
  /-- A whole run makes these steps. -/
  run : ∀ roots count, collector.Completes (fun _ => roots) count →
    collector.run roots = collector.stepping (fun _ => roots) (count + 1)
  /-- The piles make up the worklist. -/
  worklist : collector.cycle.worklist = piles.scratch ++ piles.roots
  /-- A step of a mark phase marks from the piles, and ends the phase when that is done. -/
  marks : ∀ roots category, collector.cycle.phase = .mark category →
    let marked := MarkPiles.markSome collector.budget collector.heap piles.scratch
      (piles.waiting collector roots category)
    (collector.work roots).1 = marked.1 ∧ (collector.work roots).2.heap = marked.2.1
  /-- When a step ends a mark phase, nothing is left on the piles. -/
  scratch : ∀ roots category, collector.cycle.phase = .mark category →
    (collector.work roots).1 = true → piles.step collector roots = {}

/-- Whatever has happened to a collector, the collection under way comes to an end, and every mark
phase ends with nothing left to be marked. -/
theorem terminates_of_activities (budget : Nat) (activities : List Activity) :
    (activities.foldl undergo (create budget)).Terminates
      (MarkPiles.followAll activities (create budget) {}) := by
  have orderly := (orderly_create budget).activities activities
  have shows := (MarkPiles.shows_create budget).followAll activities
  exact {
    steps := orderly.exists_completes
    run := fun _ _ completes => runSteps_eq_stepping orderly completes.going completes.completed
      (remaining_le_stepBound orderly)
    worklist := shows.worklist
    marks := fun _ _ phase => shows.work_eq phase
    scratch := fun _ _ phase done => shows.step_eq_of_done phase done }

/-- Two arrays refer to each other, and both are roots. With a budget of one the mark phase of the
globals has marked the second array, whose child is the first, and then the first, whose child is
the second: that handle is on the scratch pile, and the other root still waits. -/
example :
    let array (index : Nat) : Cell := .value (.array #[⟨⟨index, 0⟩⟩])
    let roots : RootSet := fun | .globals => [⟨1, 0⟩, ⟨2, 0⟩] | _ => []
    let activities : List Activity :=
      [.operation (.allocate (array 1) false), .operation (.allocate (array 1) false),
        .store ⟨1, 0⟩ (array 2)] ++ List.replicate 7 (.operation (.step roots))
    MarkPiles.followAll activities (create 1) {} = ⟨[⟨2, 0⟩], [⟨1, 0⟩]⟩ ∧
      ((activities.foldl undergo (create 1)).run roots).stats.collections = 1 := by
  cbv

end Collector

end ScriptVm
