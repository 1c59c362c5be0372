import ScriptVm.Proofs.Collector.Progress
import ScriptVm.Proofs.Heap.Closure

/-!
# The outcome of a collection

A phase does the same in many small steps as in one that is large enough, so what a collection
comes to is eight phases finished one after the other. It knows nothing of the budget of a step,
and roots come into it as the members of their categories, in no order.
-/
namespace ScriptVm

namespace Heap

section Batches

variable (heap : Heap) (first second : Nat)

/-- Changing proxies changes slots alone, whatever the lists hold. -/
theorem updateAll_eq (indices : List Nat) (change : Proxy → Proxy) (heap : Heap) :
    heap.updateAll indices change = { heap with
      slots := indices.foldl (fun slots index => slots.modify index fun slot =>
        { slot with proxy := slot.proxy.map change }) heap.slots } := by
  induction indices generalizing heap with
  | nil => rfl
  | cons index rest hypothesis => exact hypothesis (heap.updateAt index change)

/-- Marks are where they were after a batch of proxies is sifted. -/
theorem isMarkedAt_sifted : (heap.sifted first).isMarkedAt = heap.isMarkedAt := by
  funext index
  rw [isMarkedAt_eq, isMarkedAt_eq, occupant?_sifted]
  split
  · rw [Option.map_map]
    rfl
  · rfl

/-- Pins are where they were after the marks of a batch are cleared. -/
theorem isPinnedAt_cleared : (heap.cleared first).isPinnedAt = heap.isPinnedAt := by
  funext index
  rw [isPinnedAt_eq, isPinnedAt_eq, occupant?_cleared]
  split
  · rw [Option.map_map]
    rfl
  · rfl

/-- Linking two batches is linking them in one. -/
theorem linked_linked : (heap.linked first).linked second = heap.linked (first + second) := by
  simp [linked, updateAll_eq, List.take_add, List.drop_drop, List.foldl_append]

/-- Clearing the marks of two batches is clearing those of both. -/
theorem cleared_cleared : (heap.cleared first).cleared second = heap.cleared (first + second) := by
  simp [cleared, updateAll_eq, List.take_add, List.drop_drop, List.foldl_append]

/-- Sifting two batches is sifting them in one. -/
theorem sifted_sifted : (heap.sifted first).sifted second = heap.sifted (first + second) := by
  have marked := heap.isMarkedAt_sifted first
  have condemned : (heap.sifted first).condemnedBatch second =
      ((heap.active.drop first).take second).filter fun index => !heap.isMarkedAt index := by
    rw [condemnedBatch, marked, (heap.sifted_lists first).2.2.2.1]
  have both : heap.condemnedBatch (first + second) = heap.condemnedBatch first ++
      ((heap.active.drop first).take second).filter fun index => !heap.isMarkedAt index := by
    rw [condemnedBatch, List.take_add, List.filter_append]
    rfl
  rw [sifted, condemned, marked]
  simp [sifted, both, updateAll_eq, List.take_add, List.drop_drop, List.foldl_append]

/-- The pinned ones of two batches are those of both, those of the second in front. -/
theorem pinnedBatch_cleared :
    (heap.cleared first).pinnedBatch second ++ heap.pinnedBatch first =
      heap.pinnedBatch (first + second) := by
  have handles : (heap.cleared first).handleAt = heap.handleAt :=
    funext fun index => handleAt_updateAll _ _ _
  rw [pinnedBatch, isPinnedAt_cleared, handles, (heap.cleared_lists first).2.2.2.1]
  simp [pinnedBatch, List.take_add]

/-- Disposing of two batches is disposing of both in one. -/
theorem disposeSome_disposeSome :
    ((heap.disposeSome first).2.2.disposeSome second).2.2 =
      (heap.disposeSome (first + second)).2.2 := by
  simp [disposeSome, List.take_add, List.drop_drop, List.foldl_append]

/-- A batch that is large enough holds all that is left by another. -/
theorem le_add_length_drop (slots : List Nat) (budget : Nat) :
    slots.length ≤ budget + (slots.drop budget).length := by
  rw [List.length_drop]
  omega

variable {heap} {budget : Nat}

/-- A batch larger than the list of the pending proxies links all of them. -/
theorem linked_of_length_le (enough : heap.pending.length ≤ budget) :
    heap.linked budget = heap.linked heap.pending.length := by
  simp [linked, List.take_of_length_le enough, List.drop_of_length_le enough]

/-- A batch larger than the list of the active proxies clears all of their marks. -/
theorem cleared_of_length_le (enough : heap.active.length ≤ budget) :
    heap.cleared budget = heap.cleared heap.active.length := by
  simp [cleared, List.take_of_length_le enough, List.drop_of_length_le enough]

/-- A batch larger than the list of the active proxies holds all of the pinned ones. -/
theorem pinnedBatch_of_length_le (enough : heap.active.length ≤ budget) :
    heap.pinnedBatch budget = heap.pinnedBatch heap.active.length := by
  simp [pinnedBatch, List.take_of_length_le enough]

/-- A batch larger than the list of the active proxies sifts all of them. -/
theorem sifted_of_length_le (enough : heap.active.length ≤ budget) :
    heap.sifted budget = heap.sifted heap.active.length := by
  simp [sifted, condemnedBatch, List.take_of_length_le enough, List.drop_of_length_le enough]

/-- A batch larger than the list of the condemned proxies disposes of all of them. -/
theorem disposeSome_of_length_le (enough : heap.unmarked.length ≤ budget) :
    (heap.disposeSome budget).2.2 = (heap.disposeSome heap.unmarked.length).2.2 := by
  simp [disposeSome, List.take_of_length_le enough, List.drop_of_length_le enough]

variable (heap) (budget)

/-- Linking a batch and then the rest links all. -/
theorem linked_rest :
    (heap.linked budget).linked (heap.linked budget).pending.length =
      heap.linked heap.pending.length := by
  rw [linked_linked, (heap.linked_lists budget).2.2.1]
  exact linked_of_length_le (le_add_length_drop _ _)

/-- Clearing the marks of a batch and then of the rest clears all. -/
theorem cleared_rest :
    (heap.cleared budget).cleared (heap.cleared budget).active.length =
      heap.cleared heap.active.length := by
  rw [cleared_cleared, (heap.cleared_lists budget).2.2.2.1]
  exact cleared_of_length_le (le_add_length_drop _ _)

/-- The pinned ones of a batch and of the rest are all of them. -/
theorem pinnedBatch_rest :
    (heap.cleared budget).pinnedBatch (heap.cleared budget).active.length ++
        heap.pinnedBatch budget =
      heap.pinnedBatch heap.active.length := by
  rw [pinnedBatch_cleared, (heap.cleared_lists budget).2.2.2.1]
  exact pinnedBatch_of_length_le (le_add_length_drop _ _)

/-- Sifting a batch and then the rest sifts all. -/
theorem sifted_rest :
    (heap.sifted budget).sifted (heap.sifted budget).active.length =
      heap.sifted heap.active.length := by
  rw [sifted_sifted, (heap.sifted_lists budget).2.2.2.1]
  exact sifted_of_length_le (le_add_length_drop _ _)

/-- Disposing of a batch and then of the rest disposes of all. -/
theorem disposeSome_rest :
    ((heap.disposeSome budget).2.2.disposeSome
        (heap.disposeSome budget).2.2.unmarked.length).2.2 =
      (heap.disposeSome heap.unmarked.length).2.2 := by
  rw [disposeSome_disposeSome]
  exact disposeSome_of_length_le (le_add_length_drop _ _)

end Batches

end Heap

/-- The count of phases from one to the last. -/
def Phase.ahead : Phase → Nat
  | .linkPending => 8
  | .resetState => 7
  | .mark .constants => 6
  | .mark .globals => 5
  | .mark .functions => 4
  | .mark .executions => 3
  | .collect => 2
  | .dispose => 1

/-- There is always a phase to finish. -/
theorem Phase.ahead_ne_zero (phase : Phase) : phase.ahead ≠ 0 := by
  rcases phase with _ | _ | (_ | _ | _ | _) | _ | _ <;> decide

/-- From the next phase on there is one less, unless the phase is the last. -/
theorem Phase.ahead_next_add_one {phase : Phase} (more : phase ≠ .dispose) :
    phase.next.ahead + 1 = phase.ahead := by
  rcases phase with _ | _ | (_ | _ | _ | _) | _ | _
  all_goals first | rfl | exact absurd rfl more

namespace Collector

variable {collector after : Collector} {roots others : RootSet} {completed : Bool}

/-- The collector at the end of the phase it is in. -/
def finish (roots : RootSet) (collector : Collector) : Collector :=
  let heap := collector.heap
  let cycle := collector.cycle
  match cycle.phase with
  | .linkPending =>
    { collector with
      heap := (heap.linked heap.pending.length).rewind
      cycle := nextCycle cycle }
  | .resetState =>
    { collector with
      heap := (heap.cleared heap.active.length).rewind
      cycle := nextCycle { cycle with
        worklist := heap.pinnedBatch heap.active.length ++ cycle.worklist } }
  | .mark category =>
    { collector with
      heap := heap.markAll (collector.openWorklist roots category)
      cycle := nextCycle { cycle with worklist := [] } }
  | .collect =>
    { collector with
      heap := (heap.sifted heap.active.length).rewind
      cycle := nextCycle cycle }
  | .dispose =>
    complete { collector with
      heap := (heap.disposeSome heap.unmarked.length).2.2
      cycle := nextCycle { cycle with disposed := cycle.disposed + heap.unmarked.length } }

/-- A step goes on with its phase, and has the same to finish, or it finishes it. The collection is
complete when the last phase is finished. -/
theorem Stepped.finish (stepped : Stepped collector roots completed after) :
    (completed = false ∧ after.cycle.phase = collector.cycle.phase ∧
      after.finish roots = collector.finish roots) ∨
    (completed = decide (collector.cycle.phase = .dispose) ∧
      after.cycle.phase = collector.cycle.phase.next ∧ after = collector.finish roots) := by
  cases stepped with
  | linking phase more =>
    refine .inl ⟨rfl, rfl, ?_⟩
    simp only [Collector.finish, phase]
    rw [Heap.linked_rest]
  | linkedAll phase all =>
    refine .inr ⟨by simp [phase], rfl, ?_⟩
    simp only [Collector.finish, phase]
    rw [Heap.linked_of_length_le (List.drop_eq_nil_iff.mp all)]
  | clearing phase more =>
    refine .inl ⟨rfl, rfl, ?_⟩
    simp only [Collector.finish, phase]
    rw [Heap.cleared_rest, ← List.append_assoc, Heap.pinnedBatch_rest]
  | clearedAll phase all =>
    refine .inr ⟨by simp [phase], rfl, ?_⟩
    have enough := List.drop_eq_nil_iff.mp all
    simp only [Collector.finish, phase]
    rw [Heap.cleared_of_length_le enough, Heap.pinnedBatch_of_length_le enough]
  | marking category phase heap worklist marked =>
    refine .inl ⟨rfl, rfl, ?_⟩
    have rest := collector.heap.markAll_markSome collector.budget
      (collector.openWorklist roots category)
    rw [marked] at rest
    simp only [Collector.finish, phase]
    rw [← rest]
    rfl
  | markedAll category phase heap marked =>
    refine .inr ⟨by simp [phase], rfl, ?_⟩
    have rest := collector.heap.markAll_markSome collector.budget
      (collector.openWorklist roots category)
    rw [marked, Heap.markAll] at rest
    simp only [Collector.finish, phase]
    rw [← rest]
    rfl
  | sifting phase more =>
    refine .inl ⟨rfl, rfl, ?_⟩
    simp only [Collector.finish, phase]
    rw [Heap.sifted_rest]
  | siftedAll phase all =>
    refine .inr ⟨by simp [phase], rfl, ?_⟩
    simp only [Collector.finish, phase]
    rw [Heap.sifted_of_length_le (List.drop_eq_nil_iff.mp all)]
  | disposing phase more =>
    refine .inl ⟨rfl, rfl, ?_⟩
    have counted : (collector.heap.unmarked.take collector.budget ++
        collector.heap.unmarked.drop collector.budget).length = _ := List.length_append
    rw [List.take_append_drop] at counted
    simp only [Collector.finish, phase]
    rw [Heap.disposeSome_rest, Nat.add_assoc]
    simp only [Heap.disposeSome]
    rw [← counted]
  | disposedAll phase all =>
    refine .inr ⟨by simp [phase], rfl, ?_⟩
    have enough := List.drop_eq_nil_iff.mp all
    simp only [Collector.finish, phase]
    rw [Heap.disposeSome_of_length_le enough, List.take_of_length_le enough]

/-- The collector at the end of the collection under way, or of the next one if none is. -/
def outcome (roots : RootSet) (collector : Collector) : Collector :=
  (finish roots)^[collector.cycle.phase.ahead] collector

/-- A step that completes no collection leaves the outcome of the one under way. -/
theorem Stepped.outcome (stepped : Stepped collector roots false after) :
    after.outcome roots = collector.outcome roots := by
  unfold Collector.outcome
  rcases stepped.finish with ⟨_, phase, same⟩ | ⟨more, phase, rfl⟩
  · obtain ⟨ahead, counted⟩ := Nat.exists_eq_succ_of_ne_zero (Phase.ahead_ne_zero after.cycle.phase)
    rw [← phase, counted, Function.iterate_succ_apply, Function.iterate_succ_apply, same]
  · have later : collector.cycle.phase ≠ .dispose := by simpa using more.symm
    rw [phase, ← Phase.ahead_next_add_one later, Function.iterate_succ_apply]

/-- The step that completes a collection gives its outcome. -/
theorem Stepped.eq_outcome (stepped : Stepped collector roots true after) :
    after = collector.outcome roots := by
  rcases stepped.finish with ⟨absurd, _⟩ | ⟨last, _, rfl⟩
  · simp at absurd
  · have phase : collector.cycle.phase = .dispose := by simpa using last.symm
    rw [Collector.outcome, phase]
    rfl

/-- Steps, none of which completes a collection, leave the outcome of the one under way. -/
theorem Proceeds.outcome (proceeds : Proceeds roots collector after) :
    after.outcome roots = collector.outcome roots := by
  induction proceeds with
  | refl => rfl
  | tail _ stepped hypothesis => rw [stepped.outcome, hypothesis]

/-- A run of the collector gives the outcome of the collection. -/
theorem run_eq_outcome (orderly : collector.Orderly) (roots : RootSet) :
    collector.run roots = collector.outcome roots := by
  obtain ⟨last, proceeds, finished⟩ := run_completes orderly roots
  rw [finished.eq_outcome, proceeds.outcome]

/-- A collector is orderly with any budget that is not zero. -/
theorem Orderly.withBudget (orderly : collector.Orderly) {budget : Nat} (positive : 0 < budget) :
    { collector with budget }.Orderly :=
  ⟨orderly.lawful, positive, orderly.worklist, orderly.kept, orderly.disposed⟩

/-- What a phase comes to is the same for every budget. -/
theorem finish_withBudget (budget : Nat) (collector : Collector) :
    finish roots { collector with budget } = { finish roots collector with budget } := by
  obtain ⟨heap, ⟨phase, rootsTaken, worklist, disposed⟩, stats, units⟩ := collector
  cases phase <;> rfl

/-- What a collection comes to is the same for every budget. -/
theorem outcome_withBudget (budget : Nat) (collector : Collector) :
    outcome roots { collector with budget } = { outcome roots collector with budget } := by
  have semiconj : Function.Semiconj (fun collector : Collector => { collector with budget })
      (finish roots) (finish roots) := fun collector => (finish_withBudget budget collector).symm
  exact (semiconj.iterate_right _ collector).symm

/-- The handles that a mark phase begins with are the same for the same roots. -/
theorem mem_openWorklist_congr (same : ∀ category handle,
      handle ∈ roots category ↔ handle ∈ others category)
    (collector : Collector) (category : RootCategory) (handle : Handle) :
    handle ∈ collector.openWorklist roots category ↔
      handle ∈ collector.openWorklist others category := by
  unfold openWorklist
  split
  · rfl
  · cases category <;> simp [takeRoots, same]

/-- What a phase comes to is the same for the same roots. -/
theorem finish_congr (same : ∀ category handle,
      handle ∈ roots category ↔ handle ∈ others category) : finish roots = finish others := by
  funext collector
  cases phase : collector.cycle.phase with
  | mark category =>
    simp only [finish, phase]
    rw [Heap.markAll_congr (mem_openWorklist_congr same collector category)]
  | linkPending | resetState | collect | dispose => simp only [finish, phase]

/-- What a collection comes to is the same for the same roots. -/
theorem outcome_congr (same : ∀ category handle,
      handle ∈ roots category ↔ handle ∈ others category) : outcome roots = outcome others := by
  funext collector
  rw [outcome, outcome, finish_congr same]

/-- A run of the collector gives the same for the same roots, whatever its steps are worth. -/
theorem run_congr (orderly : collector.Orderly) {budget : Nat} (positive : 0 < budget)
    (same : ∀ category handle, handle ∈ roots category ↔ handle ∈ others category) :
    { collector with budget }.run others = { collector.run roots with budget } := by
  rw [run_eq_outcome (orderly.withBudget positive), run_eq_outcome orderly, outcome_withBudget,
    outcome_congr same]

end Collector

end ScriptVm
