import ScriptVm.Proofs.Collector.Population
import ScriptVm.Proofs.Collector.Progress

/-!
# Exactness of a whole collection

A collection that is not interrupted keeps exactly what is reached when it begins, provided that
nothing is condemned by then. What holds between its steps is stated relative to the collector at
its beginning: up to the last phase no proxy is lost, what is marked has been reached, and at the
end of marking what has been reached is marked.
-/
namespace ScriptVm

/-- Where no slot is condemned, no proxy is. -/
theorem Heap.Lawful.standing {heap : Heap} (lawful : heap.Lawful) (unmarked : heap.unmarked = [])
    {handle : Handle} {proxy : Proxy} (resolved : heap.proxy? handle = some proxy) :
    proxy.residence ≠ .unmarked := by
  intro condemned
  have listed := (lawful.mem_unmarked_iff resolved).mpr condemned
  simp [unmarked] at listed

namespace Collector

variable {collector after : Collector} {roots : RootSet}

/-- The statistics stay until a collection is complete. -/
theorem Stepped.stats (stepped : Stepped collector roots false after) :
    after.stats = collector.stats := by
  cases stepped <;> rfl

/-- What holds between the steps of a collection that began with another collector. -/
structure Exact (initial : Collector) (roots : RootSet) (collector : Collector) : Prop where
  /-- The bookkeeping is orderly. -/
  orderly : collector.Orderly
  /-- Each phase has ready what the next one needs. -/
  tended : collector.Tended roots.scope
  /-- No proxy is made or changed. -/
  origin : ∀ handle proxy, collector.heap.proxy? handle = some proxy →
    ∃ old, initial.heap.proxy? handle = some old ∧ old.cell = proxy.cell ∧
      old.pinned = proxy.pinned
  /-- No proxy is lost before the last phase, and none that was reached is lost at all. -/
  alive : ∀ handle old, initial.heap.proxy? handle = some old →
    collector.cycle.phase ≠ .dispose ∨ initial.Reaches roots.scope unheld handle →
    ∃ proxy, collector.heap.proxy? handle = some proxy
  /-- Nothing is condemned before marking ends. -/
  unmarked : collector.cycle.phase ≠ .collect → collector.cycle.phase ≠ .dispose →
    collector.heap.unmarked = []
  /-- Nothing is pending after the first phase. -/
  pending : collector.cycle.phase ≠ .linkPending → collector.heap.pending = []
  /-- What is to be marked was reached. -/
  listed : ∀ handle ∈ collector.cycle.worklist, initial.Reaches roots.scope unheld handle
  /-- What is marked was reached. -/
  dark : (∃ category, collector.cycle.phase = .mark category) ∨ collector.cycle.phase = .collect →
    ∀ handle proxy, collector.heap.proxy? handle = some proxy → proxy.marked = true →
    initial.Reaches roots.scope unheld handle
  /-- After marking, what was reached is marked. -/
  complete : collector.cycle.phase = .collect → ∀ handle proxy,
    collector.heap.proxy? handle = some proxy → initial.Reaches roots.scope unheld handle →
    proxy.marked = true
  /-- What the sifting pass keeps is marked. -/
  kept : collector.cycle.phase = .collect → ∀ handle proxy,
    collector.heap.proxy? handle = some proxy → handle.index ∈ collector.heap.kept →
    proxy.marked = true
  /-- What is condemned was not reached. -/
  condemned : ∀ handle proxy, collector.heap.proxy? handle = some proxy →
    proxy.residence = .unmarked → ¬ initial.Reaches roots.scope unheld handle
  /-- In the last phase, what is not condemned was reached. -/
  spared : collector.cycle.phase = .dispose → ∀ handle proxy,
    collector.heap.proxy? handle = some proxy → proxy.residence ≠ .unmarked →
    initial.Reaches roots.scope unheld handle

namespace Exact

variable {initial : Collector}

/-- What is pinned between the steps was reached. -/
theorem reaches_of_pins (precise : Exact initial roots collector) {handle : Handle}
    (pins : collector.heap.Pins handle) : initial.Reaches roots.scope unheld handle := by
  obtain ⟨proxy, resolved, pinned⟩ := pins
  obtain ⟨old, known, _, same⟩ := precise.origin handle proxy resolved
  exact .start (.inr (.inl ⟨old, known, same.trans pinned⟩))

/-- The children of what was reached were reached. -/
theorem reaches_child (precise : Exact initial roots collector) (handle : Handle) (proxy : Proxy)
    (reached : initial.Reaches roots.scope unheld handle)
    (resolved : collector.heap.proxy? handle = some proxy) :
    ∀ child ∈ proxy.cell.children, initial.Reaches roots.scope unheld child := by
  intro child listed
  obtain ⟨old, known, cell, _⟩ := precise.origin handle proxy resolved
  exact .child reached known (cell ▸ listed)

/-- What a mark phase works off was reached. -/
theorem reaches_openWorklist (precise : Exact initial roots collector) {category : RootCategory}
    (phase : collector.cycle.phase = .mark category) :
    ∀ handle ∈ collector.openWorklist roots category,
      initial.Reaches roots.scope unheld handle := by
  have nothing : collector.heap.pending = [] := precise.pending (by simp [phase])
  have rooted : ∀ handle ∈ takeRoots collector.heap roots category,
      initial.Reaches roots.scope unheld handle := by
    intro handle member
    refine .start (.inl ⟨category, ?_⟩)
    cases category <;> simpa [takeRoots, nothing, RootSet.scope] using member
  intro handle member
  unfold openWorklist at member
  split at member
  · exact precise.listed handle member
  · exact (List.mem_append.mp member).elim (precise.listed handle) (rooted handle)

/-- Up to the end of marking little has to hold. -/
theorem early {collector : Collector} (orderly : collector.Orderly)
    (tended : collector.Tended roots.scope)
    (origin : ∀ handle proxy, collector.heap.proxy? handle = some proxy →
      ∃ old, initial.heap.proxy? handle = some old ∧ old.cell = proxy.cell ∧
        old.pinned = proxy.pinned)
    (alive : ∀ handle old, initial.heap.proxy? handle = some old →
      ∃ proxy, collector.heap.proxy? handle = some proxy)
    (phase : collector.cycle.phase ≠ .collect ∧ collector.cycle.phase ≠ .dispose)
    (unmarked : collector.heap.unmarked = [])
    (pending : collector.cycle.phase ≠ .linkPending → collector.heap.pending = [])
    (listed : ∀ handle ∈ collector.cycle.worklist, initial.Reaches roots.scope unheld handle)
    (dark : ∀ category, collector.cycle.phase = .mark category → ∀ handle proxy,
      collector.heap.proxy? handle = some proxy → proxy.marked = true →
      initial.Reaches roots.scope unheld handle) : Exact initial roots collector where
  orderly := orderly
  tended := tended
  origin := origin
  alive := fun handle old known _ => alive handle old known
  unmarked := fun _ _ => unmarked
  pending := pending
  listed := listed
  dark := by
    rintro (⟨category, marks⟩ | sifts)
    · exact dark category marks
    · exact absurd sifts phase.1
  complete := fun sifts => absurd sifts phase.1
  kept := fun sifts => absurd sifts phase.1
  condemned := fun _ _ resolved condemned =>
    absurd condemned (orderly.lawful.standing unmarked resolved)
  spared := fun disposes => absurd disposes phase.2

/-- A collection that begins with nothing condemned. -/
theorem start (orderly : initial.Orderly) (phase : initial.cycle.phase = .linkPending)
    (unmarked : initial.heap.unmarked = []) : Exact initial roots initial := by
  refine early orderly (.of_idle (by rw [phase]; rfl)) ?_ ?_ (by simp [phase]) unmarked ?_ ?_ ?_
  · exact fun _ proxy resolved => ⟨proxy, resolved, rfl, rfl⟩
  · exact fun _ old resolved => ⟨old, resolved⟩
  · exact fun other => absurd phase other
  · simp [orderly.worklist (by rw [phase]; rfl)]
  · simp [phase]

/-- What is to be marked after clearing was reached. -/
theorem listed_pinnedBatch (precise : Exact initial roots collector) :
    ∀ handle ∈ collector.heap.pinnedBatch collector.budget ++ collector.cycle.worklist,
      initial.Reaches roots.scope unheld handle := by
  intro handle member
  rcases List.mem_append.mp member with pinned | listed
  · exact precise.reaches_of_pins (Heap.pins_of_mem_pinnedBatch pinned)
  · exact precise.listed handle listed

/-- Marking marks only what was reached. -/
theorem within_marked (precise : Exact initial roots collector) {category : RootCategory}
    (phase : collector.cycle.phase = .mark category) {done : Bool} {heap : Heap}
    {worklist : List Handle}
    (marked : collector.heap.markSome collector.budget (collector.openWorklist roots category) =
      (done, heap, worklist)) :
    heap.Within worklist (initial.Reaches roots.scope unheld) := by
  have before : collector.heap.Within (collector.openWorklist roots category)
      (initial.Reaches roots.scope unheld) :=
    ⟨precise.dark (.inl ⟨category, phase⟩), precise.reaches_openWorklist phase⟩
  have result := before.markSome collector.budget precise.reaches_child
  rwa [marked] at result

/-- At the end of marking, everything that was reached is marked. -/
theorem complete_marked (precise : Exact initial roots collector)
    (phase : collector.cycle.phase = .mark .executions) {heap : Heap}
    (marked : collector.heap.markSome collector.budget (collector.openWorklist roots .executions) =
      (true, heap, [])) {handle : Handle} {proxy : Proxy}
    (resolved : heap.proxy? handle = some proxy)
    (reached : initial.Reaches roots.scope unheld handle) : proxy.marked = true := by
  have lawful := precise.orderly.lawful
  have darkens := Heap.darkens_of_markSome marked
  have begun : Cycle.marking { collector.cycle with
      rootsTaken := true, worklist := collector.openWorklist roots .executions } = true :=
    Cycle.marking_iff.mpr ⟨.executions, phase, fun _ => rfl⟩
  have tended := (precise.tended.takeRoots lawful phase).markSome begun collector.budget
  simp only [marked] at tended
  have none : heap.unmarked = [] :=
    darkens.lists.2.2.2.2.trans (precise.unmarked (by simp [phase]) (by simp [phase]))
  have lawfulAfter := darkens.lawful lawful
  refine tended.marked_of_reaches lawfulAfter phase rfl rfl ?_ ?_ resolved
  · exact fun other found _ named => lawfulAfter.standing none named
  · apply reaches_of_proxies _ reached
    intro other old known
    obtain ⟨found, named⟩ := precise.alive other old known (by simp [phase])
    obtain ⟨dark, _, shaded⟩ := darkens.proxies other found named
    obtain ⟨same, known', cell, pinned⟩ := precise.origin other found named
    obtain rfl := Option.some.inj (known.symm.trans known')
    exact ⟨_, shaded, cell.symm, fun pins => pinned.symm.trans pins⟩

/-- What a sifted batch condemns was not reached. -/
theorem condemned_sifted (precise : Exact initial roots collector)
    (phase : collector.cycle.phase = .collect) {handle : Handle} {proxy : Proxy}
    (resolved : (collector.heap.sifted collector.budget).proxy? handle = some proxy)
    (condemned : proxy.residence = .unmarked) : ¬ initial.Reaches roots.scope unheld handle := by
  rw [Heap.proxy?_sifted] at resolved
  split at resolved
  · rename_i inside
    obtain ⟨old, known, rfl⟩ := Option.map_eq_some_iff.mp resolved
    intro reached
    have dark := precise.complete phase handle old known reached
    have light := (precise.orderly.lawful.of_mem_condemnedBatch known inside).2
    simp [dark] at light
  · exact precise.condemned handle proxy resolved condemned

/-- Marks stay as they are while a batch is sifted. -/
theorem marked_sifted {handle : Handle} {proxy : Proxy}
    (resolved : (collector.heap.sifted collector.budget).proxy? handle = some proxy) :
    ∃ old, collector.heap.proxy? handle = some old ∧ old.marked = proxy.marked := by
  rw [Heap.proxy?_sifted] at resolved
  split at resolved
  · obtain ⟨old, known, rfl⟩ := Option.map_eq_some_iff.mp resolved
    exact ⟨old, known, rfl⟩
  · exact ⟨proxy, resolved, rfl⟩

/-- What the sifting pass keeps is marked. -/
theorem kept_sifted (precise : Exact initial roots collector)
    (phase : collector.cycle.phase = .collect) {handle : Handle} {proxy : Proxy}
    (resolved : (collector.heap.sifted collector.budget).proxy? handle = some proxy)
    (inside : handle.index ∈ (collector.heap.sifted collector.budget).kept) :
    proxy.marked = true := by
  obtain ⟨old, known, same⟩ := marked_sifted resolved
  rw [← same]
  rw [(collector.heap.sifted_lists collector.budget).2.2.2.2.1, List.mem_append,
    List.mem_reverse] at inside
  rcases inside with batch | earlier
  · have dark := (List.mem_filter.mp batch).2
    rwa [Heap.isMarkedAt_of_proxy? known] at dark
  · exact precise.kept phase handle old known earlier

/-- What the sifting pass has not condemned by its end was reached. -/
theorem spared_sifted (precise : Exact initial roots collector) (begun : initial.Orderly)
    (phase : collector.cycle.phase = .collect)
    (all : collector.heap.active.drop collector.budget = []) {handle : Handle} {proxy : Proxy}
    (resolved : (collector.heap.sifted collector.budget).proxy? handle = some proxy)
    (spared : proxy.residence ≠ .unmarked) : initial.Reaches roots.scope unheld handle := by
  obtain ⟨_, _, pending, active, _, _⟩ := collector.heap.sifted_lists collector.budget
  have lawful := precise.orderly.lawful.sifted collector.budget
  cases stands : proxy.residence with
  | immortal =>
    obtain rfl := lawful.eq_null_of_immortal resolved stands
    exact reaches_null begun.lawful _ _
  | pending =>
    have listed := (lawful.mem_pending_iff resolved).mpr stands
    simp [pending, precise.pending (by simp [phase])] at listed
  | active =>
    have listed := (lawful.mem_active_iff resolved).mpr stands
    rw [active, all] at listed
    have dark := precise.kept_sifted phase resolved (listed.resolve_left (by simp))
    obtain ⟨old, known, same⟩ := marked_sifted resolved
    exact precise.dark (.inr phase) handle old known (same.trans dark)
  | unmarked => exact absurd stands spared

/-- When marking begins, nothing is marked but the null value. -/
theorem reaches_of_marked (begun : initial.Orderly) (orderly : collector.Orderly)
    (tended : collector.Tended roots.scope) (phase : collector.cycle.phase = .mark .constants)
    (untaken : collector.cycle.rootsTaken = false) (unmarked : collector.heap.unmarked = [])
    {handle : Handle} {proxy : Proxy} (resolved : collector.heap.proxy? handle = some proxy)
    (dark : proxy.marked = true) : initial.Reaches roots.scope unheld handle := by
  have blank := tended.blank phase untaken handle proxy resolved
  cases stands : proxy.residence with
  | immortal =>
    obtain rfl := orderly.lawful.eq_null_of_immortal resolved stands
    exact reaches_null begun.lawful _ _
  | pending | active => simp [stands, dark] at blank
  | unmarked => exact absurd stands (orderly.lawful.standing unmarked resolved)

/-- A step makes no proxy, and it changes no cell and no pin. -/
theorem origin_stepped (precise : Exact initial roots collector) {completed : Bool}
    (stepped : Stepped collector roots completed after) :
    ∀ handle proxy, after.heap.proxy? handle = some proxy →
      ∃ old, initial.heap.proxy? handle = some old ∧ old.cell = proxy.cell ∧
        old.pinned = proxy.pinned := by
  intro handle proxy resolved
  obtain ⟨between, named, cell, pinned⟩ := stepped.proxies resolved
  obtain ⟨old, known, sameCell, samePinned⟩ := precise.origin handle between named
  exact ⟨old, known, sameCell.trans cell, samePinned.trans pinned⟩

/-- A step loses no proxy before the last phase, and none that was reached. -/
theorem alive_stepped (precise : Exact initial roots collector) {completed : Bool}
    (stepped : Stepped collector roots completed after) :
    ∀ handle old, initial.heap.proxy? handle = some old →
      collector.cycle.phase ≠ .dispose ∨ initial.Reaches roots.scope unheld handle →
      ∃ proxy, after.heap.proxy? handle = some proxy := by
  intro handle old known stays
  obtain ⟨proxy, resolved⟩ := precise.alive handle old known stays
  refine stepped.keeps precise.orderly.lawful resolved ?_
  intro phase condemned
  exact precise.condemned handle proxy resolved condemned (stays.resolve_left (absurd phase))

/-- A step that does not end marking has little to keep. -/
theorem early_of_stepped (precise : Exact initial roots collector)
    (stepped : Stepped collector roots false after) (unfinished : collector.cycle.phase ≠ .dispose)
    (phase : after.cycle.phase ≠ .collect ∧ after.cycle.phase ≠ .dispose)
    (unmarked : after.heap.unmarked = [])
    (pending : after.cycle.phase ≠ .linkPending → after.heap.pending = [])
    (listed : ∀ handle ∈ after.cycle.worklist, initial.Reaches roots.scope unheld handle)
    (dark : ∀ category, after.cycle.phase = .mark category → ∀ handle proxy,
      after.heap.proxy? handle = some proxy → proxy.marked = true →
      initial.Reaches roots.scope unheld handle) : Exact initial roots after :=
  early (precise.orderly.stepped stepped) (precise.tended.stepped precise.orderly.lawful stepped)
    (precise.origin_stepped stepped)
    (fun handle old known => precise.alive_stepped stepped handle old known (.inl unfinished))
    phase unmarked pending listed dark

/-- Every step but the last keeps the collection exact. -/
theorem stepped (precise : Exact initial roots collector)
    (stepped : Stepped collector roots false after) (begun : initial.Orderly) :
    Exact initial roots after := by
  have orderly := precise.orderly.stepped stepped
  have tended := precise.tended.stepped precise.orderly.lawful stepped
  have origin := precise.origin_stepped stepped
  have alive := precise.alive_stepped stepped
  have early := precise.early_of_stepped stepped
  cases stepped with
  | linking phase more =>
    have unmarked := (collector.heap.linked_lists collector.budget).2.2.2.2.2
    have none := precise.unmarked (by simp [phase]) (by simp [phase])
    refine early (by simp [phase]) ?_ (unmarked.trans none) (absurd phase) precise.listed ?_
    · simp [phase]
    · simp [phase]
  | linkedAll phase all =>
    obtain ⟨_, _, pending, _, _, unmarked⟩ := collector.heap.linked_lists collector.budget
    have none := precise.unmarked (by simp [phase]) (by simp [phase])
    refine early (by simp [phase]) ?_ (unmarked.trans none) (fun _ => pending.trans all)
      precise.listed ?_
    · simp [nextCycle, phase, Phase.next]
    · simp [nextCycle, phase, Phase.next]
  | clearing phase more =>
    obtain ⟨_, _, pending, _, _, unmarked⟩ := collector.heap.cleared_lists collector.budget
    have none := precise.unmarked (by simp [phase]) (by simp [phase])
    have linked := precise.pending (by simp [phase])
    refine early (by simp [phase]) ?_ (unmarked.trans none) (fun _ => pending.trans linked)
      precise.listed_pinnedBatch ?_
    · simp [phase]
    · simp [phase]
  | clearedAll phase all =>
    obtain ⟨_, _, pending, _, _, unmarked⟩ := collector.heap.cleared_lists collector.budget
    have none := unmarked.trans (precise.unmarked (by simp [phase]) (by simp [phase]))
    have linked := precise.pending (by simp [phase])
    refine early (by simp [phase]) ?_ none (fun _ => pending.trans linked)
      precise.listed_pinnedBatch ?_
    · simp [nextCycle, phase, Phase.next]
    · intro _ _ handle proxy resolved dark
      have begins : (nextCycle collector.cycle).phase = .mark .constants := by
        simp [nextCycle, phase, Phase.next]
      exact reaches_of_marked begun orderly tended begins rfl none resolved dark
  | marking category phase heap worklist marked =>
    have darkens := Heap.darkens_of_markSome marked
    have none := precise.unmarked (by simp [phase]) (by simp [phase])
    have linked := precise.pending (by simp [phase])
    have within := precise.within_marked phase marked
    refine early (by simp [phase]) ?_ (darkens.lists.2.2.2.2.trans none)
      (fun _ => darkens.lists.2.1.trans linked) within.2 (fun _ _ => within.1)
    simp [phase]
  | markedAll category phase heap marked =>
    have darkens := Heap.darkens_of_markSome marked
    have none := darkens.lists.2.2.2.2.trans
      (precise.unmarked (by simp [phase]) (by simp [phase]))
    have linked := darkens.lists.2.1.trans (precise.pending (by simp [phase]))
    have within := precise.within_marked phase marked
    by_cases last : category = .executions
    · subst last
      refine ⟨orderly, tended, origin, ?_, fun _ _ => none, fun _ => linked,
        by simp [nextCycle], fun _ => within.1, ?_, ?_, ?_, ?_⟩
      · exact fun handle old known _ => alive handle old known (by simp [phase])
      · exact fun _ handle proxy resolved => precise.complete_marked phase marked resolved
      · intro _ handle proxy resolved inside
        have empty := darkens.lists.2.2.2.1.trans
          (precise.orderly.kept (by simp [phase, Phase.passes]))
        simp [empty] at inside
      · intro handle proxy resolved condemned
        exact absurd condemned (orderly.lawful.standing none resolved)
      · simp [nextCycle, phase, Phase.next]
    · refine early (by simp [phase]) ?_ none (fun _ => linked) (by simp [nextCycle])
        (fun _ _ => within.1)
      cases category <;> simp_all [nextCycle, Phase.next]
  | sifting phase more =>
    obtain ⟨_, _, pending, _⟩ := collector.heap.sifted_lists collector.budget
    refine ⟨orderly, tended, origin, ?_, ?_, ?_, precise.listed, ?_, ?_, ?_, ?_, ?_⟩
    · exact fun handle old known _ => alive handle old known (by simp [phase])
    · exact fun other => absurd phase other
    · exact fun _ => pending.trans (precise.pending (by simp [phase]))
    · intro _ handle proxy resolved dark
      obtain ⟨old, known, same⟩ := marked_sifted resolved
      exact precise.dark (.inr phase) handle old known (same.trans dark)
    · intro _ handle proxy resolved reached
      obtain ⟨old, known, same⟩ := marked_sifted resolved
      exact same.symm.trans (precise.complete phase handle old known reached)
    · exact fun _ handle proxy resolved => precise.kept_sifted phase resolved
    · exact fun handle proxy resolved => precise.condemned_sifted phase resolved
    · simp [phase]
  | siftedAll phase all =>
    obtain ⟨_, _, pending, _⟩ := collector.heap.sifted_lists collector.budget
    have linked := pending.trans (precise.pending (by simp [phase]))
    refine ⟨orderly, tended, origin, ?_, ?_, fun _ => linked, precise.listed, ?_, ?_, ?_, ?_, ?_⟩
    · exact fun handle old known _ => alive handle old known (by simp [phase])
    · simp [nextCycle, phase, Phase.next]
    · simp [nextCycle, phase, Phase.next]
    · simp [nextCycle, phase, Phase.next]
    · simp [nextCycle, phase, Phase.next]
    · exact fun handle proxy resolved => precise.condemned_sifted phase resolved
    · exact fun _ handle proxy resolved => precise.spared_sifted begun phase all resolved
  | disposing phase more =>
    have linked := precise.pending (by simp [phase])
    refine ⟨orderly, tended, origin, alive, ?_, fun _ => linked, precise.listed, ?_, ?_, ?_, ?_, ?_⟩
    · exact fun _ other => absurd phase other
    · simp [phase]
    · simp [phase]
    · simp [phase]
    · intro handle proxy resolved
      exact precise.condemned handle proxy (Heap.proxy?_of_disposeSome resolved).2
    · intro _ handle proxy resolved
      exact precise.spared phase handle proxy (Heap.proxy?_of_disposeSome resolved).2

/-- Steps up to the last one keep the collection exact and count what is disposed of. -/
theorem proceeds (begun : initial.Orderly) (phase : initial.cycle.phase = .linkPending)
    (unmarked : initial.heap.unmarked = []) (proceeds : Proceeds roots initial collector) :
    Exact initial roots collector ∧ collector.stats = initial.stats ∧
      collector.cycle.disposed + collector.heap.population = initial.heap.population := by
  induction proceeds with
  | refl =>
    refine ⟨start begun phase unmarked, rfl, ?_⟩
    rw [begun.disposed (by simp [phase]), Nat.zero_add]
  | tail _ stepped hypothesis =>
    obtain ⟨precise, stats, counted⟩ := hypothesis
    refine ⟨precise.stepped stepped begun, stepped.stats.trans stats, ?_⟩
    exact (stepped.population precise.orderly).trans counted

end Exact

/-- What a collection leaves of a heap: what is reached, unchanged, and its count. -/
structure Sweeps (before : Collector) (scope : Scope) (after : Collector) : Prop where
  /-- A proxy is left exactly if it was reached. -/
  alive : ∀ handle, after.heap.contains handle = true ↔
    before.heap.contains handle = true ∧ before.Reaches scope unheld handle
  /-- What is left has its cell and its pin. -/
  same : ∀ handle proxy, after.heap.proxy? handle = some proxy →
    ∃ old, before.heap.proxy? handle = some old ∧ old.cell = proxy.cell ∧
      old.pinned = proxy.pinned
  /-- What is left is active, the null value apart. -/
  active : ∀ handle, after.heap.contains handle = true → handle ≠ Handle.null →
    handle.index ∈ after.heap.activeSlots
  /-- One more collection is counted. -/
  collections : after.stats.collections = before.stats.collections + 1
  /-- What is lost is counted. -/
  lastDisposed : after.stats.lastDisposed + after.heap.population = before.heap.population
  /-- What is left is counted, the null value apart. -/
  liveCount : after.stats.liveCount + 1 = after.heap.population

/-- The last step of an exact collection leaves what was reached. -/
theorem Exact.sweeps {initial : Collector} (precise : Exact initial roots collector)
    (stats : collector.stats = initial.stats)
    (counted : collector.cycle.disposed + collector.heap.population = initial.heap.population)
    (stepped : Stepped collector roots true after) : Sweeps initial roots.scope after := by
  have lawful := precise.orderly.lawful
  have orderly := precise.orderly.stepped stepped
  have origin := precise.origin_stepped stepped
  have alive : ∀ handle, initial.heap.contains handle = true →
      initial.Reaches roots.scope unheld handle → after.heap.contains handle = true := by
    intro handle contained reached
    obtain ⟨old, known⟩ := Heap.contains_iff.mp contained
    exact Heap.contains_iff.mpr (precise.alive_stepped stepped handle old known (.inr reached))
  cases stepped with
  | disposedAll phase all =>
    have left : ∀ handle proxy,
        (collector.heap.disposeSome collector.budget).2.2.proxy? handle = some proxy →
        collector.heap.proxy? handle = some proxy ∧ proxy.residence ≠ .unmarked := by
      intro handle proxy resolved
      obtain ⟨outside, before⟩ := Heap.proxy?_of_disposeSome resolved
      refine ⟨before, fun condemned => outside ?_⟩
      have listed := (lawful.mem_unmarked_iff before).mpr condemned
      rwa [← List.take_append_drop collector.budget collector.heap.unmarked, all,
        List.append_nil] at listed
    constructor
    · intro handle
      refine ⟨fun contained => ?_, fun ⟨contained, reached⟩ => alive handle contained reached⟩
      obtain ⟨proxy, resolved⟩ := Heap.contains_iff.mp contained
      obtain ⟨old, known, _⟩ := origin handle proxy resolved
      obtain ⟨before, standing⟩ := left handle proxy resolved
      exact ⟨Heap.contains_iff.mpr ⟨old, known⟩, precise.spared phase handle proxy before standing⟩
    · exact origin
    · intro handle contained mortal
      obtain ⟨proxy, resolved⟩ := Heap.contains_iff.mp contained
      obtain ⟨before, standing⟩ := left handle proxy resolved
      have listed : handle.index ∈ collector.heap.active ∨ handle.index ∈ collector.heap.kept := by
        rw [lawful.mem_active_iff before]
        cases stands : proxy.residence with
        | immortal => exact absurd (lawful.eq_null_of_immortal before stands) mortal
        | pending =>
          have waiting := (lawful.mem_pending_iff before).mpr stands
          simp [precise.pending (by simp [phase])] at waiting
        | active => rfl
        | unmarked => exact absurd stands standing
      show handle.index ∈ collector.heap.kept.reverse ++ collector.heap.active
      rw [List.mem_append, List.mem_reverse]
      exact listed.symm
    · show collector.stats.collections + 1 = _
      rw [stats]
    · have disposed := lawful.population_disposeSome collector.budget
      show collector.cycle.disposed + (collector.heap.unmarked.take collector.budget).length +
        (collector.heap.disposeSome collector.budget).2.2.population = _
      omega
    · exact orderly.lawful.liveCount_add_one

/-- A whole collection that begins with nothing condemned leaves exactly what is reached. -/
theorem sweeps_run (orderly : collector.Orderly) (phase : collector.cycle.phase = .linkPending)
    (unmarked : collector.heap.unmarked = []) (roots : RootSet) :
    Sweeps collector roots.scope (collector.run roots) := by
  obtain ⟨last, proceeds, finish⟩ := run_completes orderly roots
  obtain ⟨precise, stats, counted⟩ := Exact.proceeds orderly phase unmarked proceeds
  exact precise.sweeps stats counted finish

end Collector

end ScriptVm
