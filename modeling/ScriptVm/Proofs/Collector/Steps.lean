import ScriptVm.Proofs.Heap.Marking

/-!
# What a collector step does

One relation lists everything that a step of the collector can do, phase by phase, and whether it
ends its phase. What holds of the bookkeeping between steps is the discipline of the collector: the
worklist is empty outside the phases that mark, and no proxy is kept outside the phases that pass
over the active ones.
-/
namespace ScriptVm

namespace Heap

/-- The proxy in a slot is marked, in terms of the occupant. -/
theorem isMarkedAt_eq (heap : Heap) (index : Nat) :
    heap.isMarkedAt index = ((heap.occupant? index).map Proxy.marked).getD false := by
  cases within : heap.slots[index]? with
  | none => simp [isMarkedAt, occupant?, within]
  | some slot =>
    obtain ⟨generation, proxy⟩ := slot
    cases proxy <;> simp [isMarkedAt, occupant?, within]

/-- The mark in the slot of a named proxy is the proxy's. -/
theorem isMarkedAt_of_proxy? {heap : Heap} {handle : Handle} {proxy : Proxy}
    (resolved : heap.proxy? handle = some proxy) : heap.isMarkedAt handle.index = proxy.marked := by
  rw [isMarkedAt_eq, occupant?_of_proxy? resolved]
  rfl

/-- Sifting condemns active proxies without marks. -/
theorem Lawful.of_mem_condemnedBatch {heap : Heap} (lawful : heap.Lawful) {budget : Nat}
    {handle : Handle} {proxy : Proxy} (resolved : heap.proxy? handle = some proxy)
    (condemned : handle.index ∈ heap.condemnedBatch budget) :
    proxy.residence = .active ∧ proxy.marked = false := by
  have ahead := mem_active_of_mem_condemnedBatch budget condemned
  have light := (List.mem_filter.mp condemned).2
  rw [isMarkedAt_of_proxy? resolved, Bool.not_eq_true'] at light
  exact ⟨(lawful.mem_active_iff resolved).mp (.inl ahead), light⟩

/-- The proxy in a slot is pinned, in terms of the occupant. -/
theorem isPinnedAt_eq (heap : Heap) (index : Nat) :
    heap.isPinnedAt index = ((heap.occupant? index).map Proxy.pinned).getD false := by
  cases within : heap.slots[index]? with
  | none => simp [isPinnedAt, occupant?, within]
  | some slot =>
    obtain ⟨generation, proxy⟩ := slot
    cases proxy <;> simp [isPinnedAt, occupant?, within]

/-- The handles of the pinned ones among a batch of active proxies, last first. -/
def pinnedBatch (heap : Heap) (budget : Nat) : List Handle :=
  (((heap.active.take budget).filter heap.isPinnedAt).map heap.handleAt).reverse

/-- Clearing marks is clearing those of a batch, and then perhaps ending the pass; the pinned
proxies that it returns are those pinned before. -/
theorem resetMarks_eq_endPass (heap : Heap) (budget : Nat) :
    heap.resetMarks budget = ((heap.cleared budget).endPass.1, (heap.cleared budget).endPass.2,
      heap.pinnedBatch budget) := by
  have pinned : (heap.cleared budget).endPass.2.isPinnedAt = heap.isPinnedAt := by
    funext index
    have same : (heap.cleared budget).endPass.2.occupant? index =
        (heap.cleared budget).occupant? index := by
      unfold endPass
      split <;> rfl
    rw [isPinnedAt_eq, isPinnedAt_eq, same, occupant?_cleared]
    split
    · simp only [Option.map_map, Function.comp_def]
    · rfl
  have handles : (heap.cleared budget).endPass.2.handleAt = heap.handleAt := by
    funext index
    have same : (heap.cleared budget).endPass.2.handleAt index =
        (heap.cleared budget).handleAt index := by
      unfold endPass
      split <;> rfl
    rw [same]
    exact handleAt_updateAll _ _ _
  rw [resetMarks_eq, pinned, handles]
  rfl

/-- The pinned handles of a batch are those of the pinned proxies in it. -/
theorem mem_pinnedBatch {heap : Heap} {budget : Nat} {handle : Handle} {proxy : Proxy}
    (resolved : heap.proxy? handle = some proxy) (pinned : proxy.pinned = true)
    (inside : handle.index ∈ heap.active.take budget) : handle ∈ heap.pinnedBatch budget := by
  refine List.mem_reverse.mpr (List.mem_map.mpr ⟨handle.index, ?_, handleAt_of_proxy? resolved⟩)
  refine List.mem_filter.mpr ⟨inside, ?_⟩
  rw [isPinnedAt_eq, occupant?_of_proxy? resolved]
  exact pinned

/-- Every pinned handle of a batch names a pinned proxy. -/
theorem pins_of_mem_pinnedBatch {heap : Heap} {budget : Nat} {handle : Handle}
    (member : handle ∈ heap.pinnedBatch budget) : heap.Pins handle := by
  obtain ⟨index, filtered, rfl⟩ := List.mem_map.mp (List.mem_reverse.mp member)
  have pinned := (List.mem_filter.mp filtered).2
  rw [isPinnedAt_eq] at pinned
  cases occupied : heap.occupant? index with
  | none => simp [occupied] at pinned
  | some proxy =>
    rw [occupied] at pinned
    exact ⟨proxy, proxy?_handleAt occupied, pinned⟩

/-- Every pinned handle of a batch names a slot of the batch. -/
theorem index_mem_of_mem_pinnedBatch {heap : Heap} {budget : Nat} {handle : Handle}
    (member : handle ∈ heap.pinnedBatch budget) : handle.index ∈ heap.active.take budget := by
  obtain ⟨index, filtered, rfl⟩ := List.mem_map.mp (List.mem_reverse.mp member)
  rw [handleAt_index]
  exact (List.mem_filter.mp filtered).1

end Heap

/-- Phases in which handles may wait on the worklist. -/
def Phase.gathers : Phase → Bool
  | .resetState | .mark _ => true
  | _ => false

/-- Phases that pass over the active proxies, so that some may be kept already. -/
def Phase.passes : Phase → Bool
  | .linkPending | .resetState | .collect => true
  | _ => false

namespace Collector

/-- The cycle at the start of the next phase. -/
def nextCycle (cycle : Cycle) : Cycle :=
  { cycle with phase := cycle.phase.next, rootsTaken := false }

/-- The worklist that a step of a mark phase begins with. -/
def openWorklist (collector : Collector) (roots : RootSet) (category : RootCategory) :
    List Handle :=
  if collector.cycle.rootsTaken then collector.cycle.worklist
  else collector.cycle.worklist ++ takeRoots collector.heap roots category

/-- What waits on the worklist is there when the roots have been taken, too. -/
theorem worklist_subset_openWorklist (collector : Collector) (roots : RootSet)
    (category : RootCategory) :
    collector.cycle.worklist ⊆ collector.openWorklist roots category := by
  unfold openWorklist
  split
  · exact List.Subset.refl _
  · exact List.subset_append_left _ _

/-- Everything that a step can do, and whether it completes a collection. -/
inductive Stepped (collector : Collector) (roots : RootSet) : Bool → Collector → Prop where
  | linking (phase : collector.cycle.phase = .linkPending)
    (more : collector.heap.pending.drop collector.budget ≠ []) :
    Stepped collector roots false
      { collector with heap := collector.heap.linked collector.budget }
  | linkedAll (phase : collector.cycle.phase = .linkPending)
    (all : collector.heap.pending.drop collector.budget = []) :
    Stepped collector roots false
      { collector with
        heap := (collector.heap.linked collector.budget).rewind
        cycle := nextCycle collector.cycle }
  | clearing (phase : collector.cycle.phase = .resetState)
    (more : collector.heap.active.drop collector.budget ≠ []) :
    Stepped collector roots false
      { collector with
        heap := collector.heap.cleared collector.budget
        cycle := { collector.cycle with
          worklist := collector.heap.pinnedBatch collector.budget ++ collector.cycle.worklist } }
  | clearedAll (phase : collector.cycle.phase = .resetState)
    (all : collector.heap.active.drop collector.budget = []) :
    Stepped collector roots false
      { collector with
        heap := (collector.heap.cleared collector.budget).rewind
        cycle := nextCycle { collector.cycle with
          worklist := collector.heap.pinnedBatch collector.budget ++ collector.cycle.worklist } }
  | marking (category : RootCategory) (phase : collector.cycle.phase = .mark category)
    (heap : Heap) (worklist : List Handle)
    (marked : collector.heap.markSome collector.budget (collector.openWorklist roots category) =
      (false, heap, worklist)) :
    Stepped collector roots false
      { collector with
        heap
        cycle := { collector.cycle with rootsTaken := true, worklist } }
  | markedAll (category : RootCategory) (phase : collector.cycle.phase = .mark category)
    (heap : Heap)
    (marked : collector.heap.markSome collector.budget (collector.openWorklist roots category) =
      (true, heap, [])) :
    Stepped collector roots false
      { collector with
        heap
        cycle := nextCycle { collector.cycle with rootsTaken := true, worklist := [] } }
  | sifting (phase : collector.cycle.phase = .collect)
    (more : collector.heap.active.drop collector.budget ≠ []) :
    Stepped collector roots false
      { collector with heap := collector.heap.sifted collector.budget }
  | siftedAll (phase : collector.cycle.phase = .collect)
    (all : collector.heap.active.drop collector.budget = []) :
    Stepped collector roots false
      { collector with
        heap := (collector.heap.sifted collector.budget).rewind
        cycle := nextCycle collector.cycle }
  | disposing (phase : collector.cycle.phase = .dispose)
    (more : collector.heap.unmarked.drop collector.budget ≠ []) :
    Stepped collector roots false
      { collector with
        heap := (collector.heap.disposeSome collector.budget).2.2
        cycle := { collector.cycle with
          disposed :=
            collector.cycle.disposed + (collector.heap.unmarked.take collector.budget).length } }
  | disposedAll (phase : collector.cycle.phase = .dispose)
    (all : collector.heap.unmarked.drop collector.budget = []) :
    Stepped collector roots true
      (complete { collector with
        heap := (collector.heap.disposeSome collector.budget).2.2
        cycle := nextCycle { collector.cycle with
          disposed :=
            collector.cycle.disposed + (collector.heap.unmarked.take collector.budget).length } })

/-- A step does one of the listed things. -/
theorem stepped (collector : Collector) (roots : RootSet) :
    Stepped collector roots (collector.step roots).1 (collector.step roots).2 := by
  obtain ⟨heap, cycle, stats, budget⟩ := collector
  obtain ⟨phase, rootsTaken, worklist, disposed⟩ := cycle
  cases phase with
  | linkPending =>
    by_cases all : heap.pending.drop budget = []
    · have result : Stepped ⟨heap, ⟨.linkPending, rootsTaken, worklist, disposed⟩, stats, budget⟩
        roots false _ := .linkedAll rfl all
      simpa [step, work, Heap.linkPending_eq, all, advance, nextCycle] using result
    · have result : Stepped ⟨heap, ⟨.linkPending, rootsTaken, worklist, disposed⟩, stats, budget⟩
        roots false _ := .linking rfl all
      simpa [step, work, Heap.linkPending_eq, all] using result
  | resetState =>
    have ahead := (Heap.cleared_lists budget heap).2.2.2.1
    by_cases all : heap.active.drop budget = []
    · have result : Stepped ⟨heap, ⟨.resetState, rootsTaken, worklist, disposed⟩, stats, budget⟩
        roots false _ := .clearedAll rfl all
      simpa [step, work, Heap.resetMarks_eq_endPass, Heap.endPass, ahead, all, advance,
        nextCycle] using result
    · have result : Stepped ⟨heap, ⟨.resetState, rootsTaken, worklist, disposed⟩, stats, budget⟩
        roots false _ := .clearing rfl all
      simpa [step, work, Heap.resetMarks_eq_endPass, Heap.endPass, ahead, all] using result
  | mark category =>
    let worklist' :=
      openWorklist ⟨heap, ⟨.mark category, rootsTaken, worklist, disposed⟩, stats, budget⟩ roots
        category
    have empties := Heap.markSome_done budget heap worklist'
    generalize marked : heap.markSome budget worklist' = result at empties
    obtain ⟨done, after, rest⟩ := result
    cases done with
    | true =>
      obtain rfl : rest = [] := empties rfl
      have result : Stepped ⟨heap, ⟨.mark category, rootsTaken, worklist, disposed⟩, stats,
        budget⟩ roots false _ := .markedAll category rfl after marked
      simp only [worklist', openWorklist] at marked
      simpa [step, work, marked, advance, nextCycle] using result
    | false =>
      have result : Stepped ⟨heap, ⟨.mark category, rootsTaken, worklist, disposed⟩, stats,
        budget⟩ roots false _ := .marking category rfl after rest marked
      simp only [worklist', openWorklist] at marked
      simpa [step, work, marked] using result
  | collect =>
    have ahead := (Heap.sifted_lists budget heap).2.2.2.1
    by_cases all : heap.active.drop budget = []
    · have result : Stepped ⟨heap, ⟨.collect, rootsTaken, worklist, disposed⟩, stats, budget⟩
        roots false _ := .siftedAll rfl all
      simpa [step, work, Heap.collectSome_eq, Heap.endPass, ahead, all, advance, nextCycle]
        using result
    · have result : Stepped ⟨heap, ⟨.collect, rootsTaken, worklist, disposed⟩, stats, budget⟩
        roots false _ := .sifting rfl all
      simpa [step, work, Heap.collectSome_eq, Heap.endPass, ahead, all] using result
  | dispose =>
    by_cases all : heap.unmarked.drop budget = []
    · have result : Stepped ⟨heap, ⟨.dispose, rootsTaken, worklist, disposed⟩, stats, budget⟩
        roots true _ := .disposedAll rfl all
      simpa [step, work, Heap.disposeSome, all, advance, nextCycle] using result
    · have result : Stepped ⟨heap, ⟨.dispose, rootsTaken, worklist, disposed⟩, stats, budget⟩
        roots false _ := .disposing rfl all
      simpa [step, work, Heap.disposeSome, all] using result

/-- What holds of the bookkeeping between steps. -/
structure Orderly (collector : Collector) : Prop where
  /-- The heap is lawful. -/
  lawful : collector.heap.Lawful
  /-- A step does at least one unit of work. -/
  budget : 0 < collector.budget
  /-- Handles wait only in the phases that gather them. -/
  worklist : collector.cycle.phase.gathers = false → collector.cycle.worklist = []
  /-- Proxies are kept only in the phases that pass over the active ones. -/
  kept : collector.cycle.phase.passes = false → collector.heap.kept = []
  /-- Disposed proxies are counted only in the last phase. -/
  disposed : collector.cycle.phase ≠ .dispose → collector.cycle.disposed = 0

/-- A fresh collector is orderly. -/
theorem orderly_create (budget : Nat) : (create budget).Orderly :=
  ⟨Heap.lawful_empty, Nat.le_max_right budget 1, fun _ => rfl, fun _ => rfl, fun _ => rfl⟩

namespace Orderly

variable {collector : Collector} {roots : RootSet}

/-- A change of the heap that keeps it lawful and keeps the same proxies back is orderly. -/
theorem withHeap (orderly : collector.Orderly) {heap : Heap} (lawful : heap.Lawful)
    (kept : heap.kept = collector.heap.kept) : { collector with heap }.Orderly :=
  ⟨lawful, orderly.budget, orderly.worklist, fun passes => kept.trans (orderly.kept passes),
    orderly.disposed⟩

/-- Everything that a step can do keeps the collector orderly. -/
theorem stepped (orderly : collector.Orderly) {completed : Bool} {after : Collector}
    (stepped : Stepped collector roots completed after) : after.Orderly := by
  obtain ⟨lawful, budget, worklist, kept, disposed⟩ := orderly
  cases stepped with
  | linking phase => exact ⟨lawful.linked _, budget, worklist, by simp [phase, Phase.passes],
      disposed⟩
  | linkedAll phase =>
    refine ⟨(lawful.linked _).rewind, budget, ?_, ?_, ?_⟩ <;>
      simp_all [nextCycle, Phase.next, Phase.gathers, Phase.passes]
  | clearing phase =>
    refine ⟨lawful.cleared _, budget, ?_, ?_, disposed⟩ <;>
      simp [phase, Phase.gathers, Phase.passes]
  | clearedAll phase =>
    refine ⟨(lawful.cleared _).rewind, budget, ?_, ?_, ?_⟩ <;>
      simp_all [nextCycle, Phase.next, Phase.gathers, Phase.passes, Heap.rewind]
  | marking category phase heap rest marked =>
    have darkens := collector.heap.darkens_markSome collector.budget
      (collector.openWorklist roots category)
    rw [marked] at darkens
    refine ⟨darkens.lawful lawful, budget, ?_, ?_, disposed⟩
    · simp [phase, Phase.gathers]
    · intro passes
      exact darkens.lists.2.2.2.1.trans (kept passes)
  | markedAll category phase heap marked =>
    have darkens := collector.heap.darkens_markSome collector.budget
      (collector.openWorklist roots category)
    rw [marked] at darkens
    refine ⟨darkens.lawful lawful, budget, fun _ => rfl, ?_, ?_⟩
    · intro _
      exact darkens.lists.2.2.2.1.trans (kept (by simp [phase, Phase.passes]))
    · intro _
      exact disposed (by simp [phase])
  | sifting phase =>
    exact ⟨lawful.sifted _, budget, worklist, by simp [phase, Phase.passes], disposed⟩
  | siftedAll phase =>
    refine ⟨(lawful.sifted _).rewind, budget, ?_, ?_, ?_⟩ <;>
      simp_all [nextCycle, Phase.next, Phase.gathers, Heap.rewind]
  | disposing phase =>
    refine ⟨lawful.disposeSome _, budget, worklist, ?_, ?_⟩
    · intro passes
      exact kept passes
    · simp [phase]
  | disposedAll phase =>
    refine ⟨lawful.disposeSome _, budget, ?_, ?_, fun _ => rfl⟩
    · intro _
      exact worklist (by simp [phase, Phase.gathers])
    · simp [complete, nextCycle, phase, Phase.next, Phase.passes]

/-- Every step keeps the collector orderly. -/
theorem step (orderly : collector.Orderly) : (collector.step roots).2.Orderly :=
  orderly.stepped (collector.stepped roots)

/-- Giving a collection up keeps the collector orderly. -/
theorem reset (orderly : collector.Orderly) : collector.reset.Orderly :=
  ⟨orderly.lawful.rewind, orderly.budget, fun _ => rfl, fun _ => rfl, fun _ => rfl⟩

end Orderly

end Collector

end ScriptVm
