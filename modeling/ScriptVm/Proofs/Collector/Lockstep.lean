import ScriptVm.Proofs.Collector.Chronicle
import ScriptVm.Proofs.Collector.Outcome

/-!
# Collections in lockstep

Two collections of one heap whose roots come in different orders visit proxies in different orders,
and between two steps they may have marked different ones. They keep in step all the same: the
units that a mark phase has left to work off, which are the handles on the worklist and the
references of unmarked proxies, are as many in both, and both end it with the same heap. Each step
works off the same number of units, so both phases end at the same step.
-/
namespace ScriptVm

namespace Heap

/-- Marking a worklist works off handles and open references. -/
theorem openReferences_markAll_le (heap : Heap) (worklist : List Handle) :
    (heap.markAll worklist).openReferences ≤ worklist.length + heap.openReferences := by
  induction heap, worklist using markAll_induction with
  | nil heap =>
    rw [markAll]
    omega
  | cons heap first rest hypothesis =>
    have once := heap.openReferences_markOne first
    rw [List.length_append] at hypothesis
    rw [markAll_cons, List.length_cons]
    omega

/-- Bounded marking empties the worklist exactly when the units that marking all of it works off
are fewer than the bound. -/
theorem markSome_done_iff (budget : Nat) (heap : Heap) (worklist : List Handle) :
    (heap.markSome budget worklist).1 = true ↔
      worklist.length + heap.openReferences <
        budget + (heap.markAll worklist).openReferences := by
  induction budget generalizing heap worklist with
  | zero =>
    have fewer := heap.openReferences_markAll_le worklist
    simp only [markSome, Bool.false_eq_true, false_iff, not_lt, Nat.zero_add]
    exact fewer
  | succ budget hypothesis =>
    cases worklist with
    | nil =>
      rw [markAll]
      simp [markSome]
    | cons first rest =>
      have once := heap.openReferences_markOne first
      rw [markSome_cons, hypothesis, markAll_cons, List.length_append, List.length_cons]
      omega

/-- Bounded marking that does not empty the worklist works off as many units as the bound. -/
theorem units_markSome {budget : Nat} {heap : Heap} {worklist : List Handle}
    (more : (heap.markSome budget worklist).1 = false) :
    (heap.markSome budget worklist).2.2.length +
        (heap.markSome budget worklist).2.1.openReferences + budget =
      worklist.length + heap.openReferences := by
  induction budget generalizing heap worklist with
  | zero => rfl
  | succ budget hypothesis =>
    cases worklist with
    | nil => simp [markSome] at more
    | cons first rest =>
      have once := heap.openReferences_markOne first
      rw [markSome_cons] at more ⊢
      have later := hypothesis more
      rw [List.length_append] at later
      rw [List.length_cons]
      omega

/-- Marking one worklist in one heap comes to the same as marking another in another, and it has as
many units to work off. -/
structure Alike (left : Heap) (worklist : List Handle) (right : Heap) (others : List Handle) :
    Prop where
  marks : left.markAll worklist = right.markAll others
  units : worklist.length + left.openReferences = others.length + right.openReferences

namespace Alike

variable {heap left right : Heap} {worklist others : List Handle}

/-- The same handles in another order are marked alike. -/
theorem of_perm (same : worklist.Perm others) : heap.Alike worklist heap others :=
  ⟨markAll_congr fun _ => same.mem_iff, by rw [same.length_eq]⟩

/-- Bounded marking empties both worklists or none. -/
theorem markSome_done (alike : left.Alike worklist right others) (budget : Nat) :
    (left.markSome budget worklist).1 = (right.markSome budget others).1 := by
  rw [Bool.eq_iff_iff, markSome_done_iff, markSome_done_iff, alike.marks, alike.units]

/-- Bounded marking leaves alike what it leaves. -/
theorem markSome (alike : left.Alike worklist right others) (budget : Nat)
    (more : (left.markSome budget worklist).1 = false) :
    (left.markSome budget worklist).2.1.Alike (left.markSome budget worklist).2.2
      (right.markSome budget others).2.1 (right.markSome budget others).2.2 := by
  refine ⟨?_, ?_⟩
  · rw [markAll_markSome, markAll_markSome, alike.marks]
  · have first := units_markSome more
    have second := units_markSome ((alike.markSome_done budget).symm.trans more)
    have same := alike.units
    omega

end Alike

/-- Bounded marking that empties the worklist marks all that it exposes. -/
theorem markSome_all (budget : Nat) (heap : Heap) (worklist : List Handle)
    (all : (heap.markSome budget worklist).1 = true) :
    (heap.markSome budget worklist).2.1 = heap.markAll worklist := by
  have marked := markAll_markSome budget heap worklist
  rwa [markSome_done budget heap worklist all, markAll] at marked

end Heap

namespace Collector

/-- The steps up to the one that completes a collection are so many. -/
inductive CompletesIn (roots : RootSet) : Nat → Collector → Prop where
  | last {collector : Collector} (completed : (collector.step roots).1 = true) :
    CompletesIn roots 1 collector
  | more {collector : Collector} {count : Nat} (going : (collector.step roots).1 = false)
    (later : CompletesIn roots count (collector.step roots).2) :
    CompletesIn roots (count + 1) collector

/-- Two collections are at the same place: they are the same, or they are in the middle of the same
mark phase and are left with marking alike. -/
inductive Abreast : Collector → Collector → Prop where
  | same (collector : Collector) : Abreast collector collector
  | marking {left right : Heap} {worklist others : List Handle}
    (alike : left.Alike worklist right others) (category : RootCategory) (disposed : Nat)
    (stats : CollectorStats) (budget : Nat) :
    Abreast ⟨left, ⟨.mark category, true, worklist, disposed⟩, stats, budget⟩
      ⟨right, ⟨.mark category, true, others, disposed⟩, stats, budget⟩

variable {collector left right : Collector} {roots others : RootSet}

/-- The collector after a step of a mark phase, given what marking comes to. -/
def marked (category : RootCategory) (disposed : Nat) (stats : CollectorStats) (budget : Nat) :
    Bool × Heap × List Handle → Collector
  | (true, heap, worklist) =>
    ⟨heap, ⟨(Phase.mark category).next, false, worklist, disposed⟩, stats, budget⟩
  | (false, heap, worklist) => ⟨heap, ⟨.mark category, true, worklist, disposed⟩, stats, budget⟩

/-- A step of a mark phase completes nothing. -/
theorem step_mark (heap : Heap) (category : RootCategory) (rootsTaken : Bool)
    (worklist : List Handle) (disposed : Nat) (stats : CollectorStats) (budget : Nat)
    (roots : RootSet) :
    step ⟨heap, ⟨.mark category, rootsTaken, worklist, disposed⟩, stats, budget⟩ roots =
      (false, marked category disposed stats budget
        (heap.markSome budget (openWorklist
          ⟨heap, ⟨.mark category, rootsTaken, worklist, disposed⟩, stats, budget⟩ roots
            category))) := by
  simp only [step, work, openWorklist]
  generalize heap.markSome budget _ = result
  obtain ⟨done, after, rest⟩ := result
  cases done <;> simp [marked, advance]

/-- Marking alike leaves two collections at the same place. -/
theorem Abreast.marked {left right : Heap} {worklist others : List Handle}
    (alike : left.Alike worklist right others) (category : RootCategory) (disposed : Nat)
    (stats : CollectorStats) (budget : Nat) :
    Abreast (marked category disposed stats budget (left.markSome budget worklist))
      (marked category disposed stats budget (right.markSome budget others)) := by
  have same := alike.markSome_done budget
  have further := alike.markSome budget
  have ended := Heap.markSome_all budget left worklist
  have ended' := Heap.markSome_all budget right others
  have empty := left.markSome_done budget worklist
  have empty' := right.markSome_done budget others
  generalize left.markSome budget worklist = here at *
  generalize right.markSome budget others = there at *
  obtain ⟨done, heap, rest⟩ := here
  obtain ⟨done', heap', rest'⟩ := there
  obtain rfl : done = done' := same
  cases done with
  | false => exact .marking (further rfl) category disposed stats budget
  | true =>
    obtain rfl : heap = heap' := (ended rfl).trans (alike.marks.trans (ended' rfl).symm)
    obtain rfl : rest = rest' := (empty rfl).trans (empty' rfl).symm
    exact .same _

/-- The same roots in another order are put on the worklist in another order. -/
theorem perm_openWorklist (reordered : ∀ category, (roots category).Perm (others category))
    (collector : Collector) (category : RootCategory) :
    (collector.openWorklist roots category).Perm (collector.openWorklist others category) := by
  have reversed : ∀ category, (roots category).reverse.Perm (others category).reverse :=
    fun category => (List.reverse_perm _).trans
      ((reordered category).trans (List.reverse_perm _).symm)
  unfold openWorklist
  split
  · exact .refl _
  · cases category <;> exact List.Perm.append_left _ (by
      first | exact reversed _ | exact List.Perm.append_left _ (reversed _))

/-- Outside the mark phases a step reads no roots. -/
theorem step_eq_of_not_mark (apart : ∀ category, collector.cycle.phase ≠ .mark category) :
    collector.step roots = collector.step others := by
  obtain ⟨heap, ⟨phase, rootsTaken, worklist, disposed⟩, stats, budget⟩ := collector
  cases phase with
  | mark category => exact absurd rfl (apart category)
  | linkPending | resetState | collect | dispose => rfl

/-- A step takes two collections at the same place to the same place, and both or none of them are
complete then. -/
theorem Abreast.step (abreast : Abreast left right)
    (reordered : ∀ category, (roots category).Perm (others category)) :
    (left.step roots).1 = (right.step others).1 ∧
      Abreast (left.step roots).2 (right.step others).2 := by
  cases abreast with
  | same =>
    by_cases marks : ∃ category, left.cycle.phase = .mark category
    · obtain ⟨heap, ⟨phase, rootsTaken, worklist, disposed⟩, stats, budget⟩ := left
      obtain ⟨category, rfl⟩ := marks
      rw [step_mark, step_mark]
      exact ⟨rfl, .marked (.of_perm (perm_openWorklist reordered _ _)) _ _ _ _⟩
    · have same : left.step roots = left.step others :=
        step_eq_of_not_mark fun category phase => marks ⟨category, phase⟩
      rw [same]
      exact ⟨rfl, .same _⟩
  | marking alike category disposed stats budget =>
    rw [step_mark, step_mark]
    exact ⟨rfl, .marked alike _ _ _ _⟩

/-- Two collections at the same place are complete after as many steps. -/
theorem CompletesIn.abreast {count : Nat} (completes : CompletesIn roots count left)
    (abreast : Abreast left right)
    (reordered : ∀ category, (roots category).Perm (others category)) :
    CompletesIn others count right := by
  induction completes generalizing right with
  | last completed => exact .last ((abreast.step reordered).1.symm.trans completed)
  | more going _ hypothesis =>
    obtain ⟨same, further⟩ := abreast.step reordered
    exact .more (same.symm.trans going) (hypothesis further)

/-- The steps to the end of a collection are so many and no others. -/
theorem CompletesIn.unique {count number : Nat} (completes : CompletesIn roots count collector)
    (other : CompletesIn roots number collector) : count = number := by
  induction completes generalizing number with
  | last completed =>
    cases other with
    | last => rfl
    | more going => exact absurd completed (by simp [going])
  | more going _ hypothesis =>
    cases other with
    | last completed => exact absurd completed (by simp [going])
    | more _ later => rw [hypothesis later]

/-- Every collection is completed by a number of steps. -/
theorem exists_completesIn (orderly : collector.Orderly) (roots : RootSet) :
    ∃ count, CompletesIn roots count collector := by
  induction counted : collector.remaining roots using Nat.strongRecOn generalizing collector with
  | ind number hypothesis =>
    have stepped := collector.stepped roots
    cases completed : (collector.step roots).1 with
    | true => exact ⟨1, .last completed⟩
    | false =>
      rw [completed] at stepped
      obtain ⟨count, later⟩ :=
        hypothesis _ (counted ▸ stepped.remaining_lt orderly) (orderly.stepped stepped) rfl
      exact ⟨count + 1, .more completed later⟩

/-- Operations that differ at most in the order of the roots. A single step is not among them: how
far it gets depends on the budget. -/
inductive Akin : Operation → Operation → Prop where
  | allocate (cell : Cell) (pinned : Bool) : Akin (.allocate cell pinned) (.allocate cell pinned)
  | setPinned (handle : Handle) (pinned : Bool) :
    Akin (.setPinned handle pinned) (.setPinned handle pinned)
  | shade (handle : Handle) : Akin (.shade handle) (.shade handle)
  | run {roots others : RootSet}
    (reordered : ∀ category, (roots category).Perm (others category)) :
    Akin (.run roots) (.run others)
  | reset : Akin .reset .reset

/-- A run of the collector hands out nothing. -/
theorem issuedHandles_runOccurrences (roots : RootSet) (fuel : Nat) (collector : Collector) :
    issuedHandles (runOccurrences roots fuel collector) = [] := by
  induction fuel generalizing collector with
  | zero => rfl
  | succ fuel hypothesis =>
    rw [runOccurrences, issuedHandles_append, stepOccurrences, issuedHandles_disposed]
    split
    · rfl
    · exact hypothesis _

/-- Marking a handle at once takes no account of the budget. -/
theorem shade_withBudget (budget : Nat) (collector : Collector) (handle : Handle) :
    shade { collector with budget } handle = { collector.shade handle with budget } := by
  unfold shade
  cases marking : collector.marking <;> simp_all [Collector.marking]

/-- Operations that differ at most in the order of the roots do the same whatever the budget. -/
theorem Akin.operate {operation other : Operation} (akin : Akin operation other)
    (orderly : collector.Orderly) {budget : Nat} (positive : 0 < budget) :
    { collector with budget }.operate other = { collector.operate operation with budget } := by
  cases akin with
  | allocate cell pinned =>
    simp only [Collector.operate]
    split
    · rw [allocate_eq, allocate_eq]
      exact shade_withBudget budget
        { collector with heap := (collector.heap.allocate cell pinned).2 }
        (collector.heap.allocate cell pinned).1
    · rfl
  | setPinned handle pinned => rfl
  | shade handle => exact shade_withBudget budget collector handle
  | run reordered =>
    exact run_congr orderly positive fun category handle => (reordered category).mem_iff
  | reset => rfl

/-- Operations that differ at most in the order of the roots hand out the same handles whatever the
budget. -/
theorem Akin.issuedHandles {operation other : Operation} (akin : Akin operation other)
    (budget : Nat) :
    issuedHandles ({ collector with budget }.occurrences other) =
      issuedHandles (collector.occurrences operation) := by
  cases akin with
  | allocate cell pinned => rfl
  | setPinned handle pinned => rfl
  | shade handle => rfl
  | run reordered =>
    rw [occurrences, occurrences, issuedHandles_runOccurrences, issuedHandles_runOccurrences]
  | reset => rfl

/-- Sequences of operations that differ at most in the order of the roots hand out the same handles
whatever the budget. -/
theorem issuedHandles_chronicle {later others : List Operation}
    (akin : List.Forall₂ Akin later others) (orderly : collector.Orderly) {budget : Nat}
    (positive : 0 < budget) :
    issuedHandles (chronicle others { collector with budget }) =
      issuedHandles (chronicle later collector) := by
  induction akin generalizing collector with
  | nil => rfl
  | cons first _ hypothesis =>
    rw [chronicle, chronicle, issuedHandles_append, issuedHandles_append, first.issuedHandles,
      first.operate orderly positive, hypothesis (orderly.operate _)]

/-- The outcome of a collection depends neither on the order of the roots in their categories nor
on the budget of a step: it leaves the same collector, apart from the budget itself, and whatever is
allocated, pinned and collected afterwards, the same handles are handed out. With equal budgets the
collection takes as many steps for every order of the roots. -/
theorem run_independent (orderly : collector.Orderly) {budget : Nat} (positive : 0 < budget)
    (reordered : ∀ category, (roots category).Perm (others category)) :
    { collector with budget }.run others = { collector.run roots with budget } ∧
      (∀ later laterOthers, List.Forall₂ Akin later laterOthers →
        issuedHandles (chronicle laterOthers ({ collector with budget }.run others)) =
          issuedHandles (chronicle later (collector.run roots))) ∧
      ∃ count, ∀ number,
        (CompletesIn roots number collector ↔ number = count) ∧
          (CompletesIn others number collector ↔ number = count) := by
  have same : { collector with budget }.run others = { collector.run roots with budget } :=
    run_congr orderly positive fun category handle => (reordered category).mem_iff
  refine ⟨same, ?_, ?_⟩
  · intro later laterOthers akin
    rw [same]
    exact issuedHandles_chronicle akin (orderly.runSteps roots _) positive
  · obtain ⟨count, completes⟩ := exists_completesIn orderly roots
    have completes' := completes.abreast (.same collector) reordered
    exact ⟨count, fun number =>
      ⟨⟨fun counted => counted.unique completes, fun equal => equal ▸ completes⟩,
        ⟨fun counted => counted.unique completes', fun equal => equal ▸ completes'⟩⟩⟩

/-- An array and the text in it are roots in either order, and steps do one or three units of work.
The text that is no root is disposed of, and its slot is used again by the next allocation. -/
theorem run_independent_swapped :
    let text : Cell := .value (.string "text")
    let allocations : List Operation := [.allocate text false,
      .allocate (.value (.array #[⟨⟨1, 0⟩⟩])) false, .allocate text false]
    let collector := allocations.foldl operate (create 1)
    let roots : RootSet := fun | .globals => [⟨1, 0⟩, ⟨2, 0⟩] | _ => []
    let others : RootSet := fun | .globals => [⟨2, 0⟩, ⟨1, 0⟩] | _ => []
    0 < 3 ∧ { collector with budget := 3 }.run others = { collector.run roots with budget := 3 } ∧
      (collector.run roots).heap.free = [3] ∧
      issuedHandles (chronicle [.allocate text true] ({ collector with budget := 3 }.run others)) =
        [⟨3, 1⟩] ∧
      ∃ count, CompletesIn roots count collector ∧ CompletesIn others count collector := by
  intro text allocations collector roots others
  have orderly : collector.Orderly :=
    ((chronicled_create 1).operations allocations).orderly
  have reordered : ∀ category, (roots category).Perm (others category) := by
    intro category
    cases category with
    | globals => exact .swap _ _ _
    | constants | functions | executions => exact .refl _
  obtain ⟨same, later, count, completes⟩ :=
    run_independent orderly (by decide : 0 < 3) reordered
  refine ⟨by decide, same, by decide +kernel, ?_, count, (completes count).1.mpr rfl,
    (completes count).2.mpr rfl⟩
  rw [later [.allocate text true] _ (.cons (.allocate _ _) .nil)]
  decide +kernel

end Collector

end ScriptVm
