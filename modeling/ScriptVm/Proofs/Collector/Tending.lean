import ScriptVm.Proofs.Collector.Steps

/-!
# What each phase has ready for the next one

The invariant of an interrupted collection, phase by phase. Clearing leaves the proxies that it has
passed without marks and has the pinned ones of them on the worklist. Marking keeps marked proxies
closed, and has every root of the categories taken so far marked or on the worklist. It does not
ask that what is reached resolves, so it holds of collections over stale references, too.
-/
namespace ScriptVm

/-- Handles that count as roots, by category. -/
abbrev Scope := RootCategory → Handle → Prop

/-- The handles of a root set. -/
def RootSet.scope (roots : RootSet) : Scope := fun category handle => handle ∈ roots category

/-- The position of a category in the order in which the categories are marked. -/
def RootCategory.rank : RootCategory → Nat
  | .constants => 0
  | .globals => 1
  | .functions => 2
  | .executions => 3

/-- The roots of a category have been put on the worklist by the collection under way, which is
still marking. -/
def Cycle.Scanned (cycle : Cycle) (category : RootCategory) : Prop :=
  match cycle.phase with
  | .mark current =>
    category.rank < current.rank ∨ category = current ∧ cycle.rootsTaken = true
  | _ => False

/-- Once a category has been scanned, roots are being marked. -/
theorem Cycle.Scanned.marking {cycle : Cycle} {category : RootCategory}
    (scanned : cycle.Scanned category) : cycle.marking = true := by
  obtain ⟨phase, rootsTaken, worklist, disposed⟩ := cycle
  cases phase with
  | mark current =>
    cases current <;> simp_all [Cycle.Scanned, Cycle.marking, RootCategory.rank]
  | _ => exact scanned.elim

/-- Roots are marked only in a mark phase, and in the first one only once its roots are taken. -/
theorem Cycle.marking_iff {cycle : Cycle} :
    cycle.marking = true ↔
      ∃ category, cycle.phase = .mark category ∧
        (category = .constants → cycle.rootsTaken = true) := by
  obtain ⟨phase, rootsTaken, worklist, disposed⟩ := cycle
  cases phase with
  | mark current => cases current <;> simp [Cycle.marking]
  | _ => simp [Cycle.marking]

namespace Collector

/-- What each phase has ready for the next one. -/
structure Tended (collector : Collector) (scope : Scope) : Prop where
  /-- While marks are cleared, proxies already passed and new ones have none. -/
  passed : collector.cycle.phase = .resetState → ∀ handle proxy,
    collector.heap.proxy? handle = some proxy →
    handle.index ∈ collector.heap.kept ∨ proxy.residence = .pending → proxy.marked = false
  /-- While marks are cleared, the pinned ones of the proxies already passed are to be marked. -/
  gathered : collector.cycle.phase = .resetState → ∀ handle proxy,
    collector.heap.proxy? handle = some proxy → handle.index ∈ collector.heap.kept →
    proxy.pinned = true → handle ∈ collector.cycle.worklist
  /-- Before the first roots are taken, nothing but the null value and condemned proxies has a
  mark. -/
  blank : collector.cycle.phase = .mark .constants → collector.cycle.rootsTaken = false →
    ∀ handle proxy, collector.heap.proxy? handle = some proxy →
    proxy.residence = .active ∨ proxy.residence = .pending → proxy.marked = false
  /-- From the first mark phase on, pinned proxies are marked or to be marked. -/
  pinned : (∃ category, collector.cycle.phase = .mark category) → ∀ handle proxy,
    collector.heap.proxy? handle = some proxy → proxy.pinned = true →
    proxy.residence = .active → collector.heap.Covered collector.cycle.worklist handle
  /-- While roots are marked, so are the children of marked proxies. -/
  closed : collector.cycle.marking = true → collector.heap.Closed collector.cycle.worklist
  /-- The roots of scanned categories are marked or to be marked. -/
  scanned : ∀ category, collector.cycle.Scanned category → ∀ handle, scope category handle →
    collector.heap.Covered collector.cycle.worklist handle
  /-- Pending proxies are scanned with the last category. -/
  pending : collector.cycle.Scanned .executions → ∀ handle proxy,
    collector.heap.proxy? handle = some proxy → proxy.residence = .pending →
    collector.heap.Covered collector.cycle.worklist handle

namespace Tended

variable {collector : Collector} {scope : Scope} {roots : RootSet}

/-- Nothing has to be ready outside the phases that clear and mark. -/
theorem of_idle (gathers : collector.cycle.phase.gathers = false) : collector.Tended scope := by
  have clearing : collector.cycle.phase ≠ .resetState := by
    intro phase
    simp [phase, Phase.gathers] at gathers
  have marking : ∀ category, collector.cycle.phase ≠ .mark category := by
    intro category phase
    simp [phase, Phase.gathers] at gathers
  have unscanned : ∀ category, ¬ collector.cycle.Scanned category := by
    intro category scanned
    obtain ⟨current, phase, _⟩ := Cycle.marking_iff.mp scanned.marking
    exact marking current phase
  refine ⟨fun phase => absurd phase clearing, fun phase => absurd phase clearing,
    fun phase => absurd phase (marking _), ?_, ?_, fun category scanned =>
      absurd scanned (unscanned category), fun scanned => absurd scanned (unscanned _)⟩
  · rintro ⟨category, phase⟩
    exact absurd phase (marking category)
  · intro begun
    obtain ⟨current, phase, _⟩ := Cycle.marking_iff.mp begun
    exact absurd phase (marking current)

/-- A further root is tended when it is marked, or to be marked, while roots are marked. -/
theorem enroll (tended : collector.Tended scope) {more : Scope}
    (added : ∀ category handle, more category handle → scope category handle ∨
      (collector.cycle.marking = true →
        collector.heap.Covered collector.cycle.worklist handle)) :
    collector.Tended more :=
  { tended with
    scanned := fun category scanned handle root => by
      rcases added category handle root with known | covered
      · exact tended.scanned category scanned handle known
      · exact covered scanned.marking }

/-- Clearing a batch: the proxies passed by now have no marks, and the pinned ones of them are
gathered. -/
theorem clear (tended : collector.Tended scope) (phase : collector.cycle.phase = .resetState)
    (handle : Handle) (proxy : Proxy)
    (resolved : (collector.heap.cleared collector.budget).proxy? handle = some proxy) :
    (handle.index ∈ (collector.heap.cleared collector.budget).kept ∨ proxy.residence = .pending →
      proxy.marked = false) ∧
    (handle.index ∈ (collector.heap.cleared collector.budget).kept → proxy.pinned = true →
      handle ∈ collector.heap.pinnedBatch collector.budget ++ collector.cycle.worklist) := by
  rw [(Heap.cleared_lists collector.budget collector.heap).2.2.2.2.1, List.mem_append,
    List.mem_reverse]
  rw [Heap.proxy?_cleared] at resolved
  split at resolved
  · rename_i inside
    obtain ⟨old, named, rfl⟩ := Option.map_eq_some_iff.mp resolved
    refine ⟨fun _ => rfl, ?_⟩
    intro _ pinned
    exact List.mem_append_left _ (Heap.mem_pinnedBatch named pinned inside)
  · rename_i outside
    constructor
    · intro standing
      apply tended.passed phase handle proxy resolved
      rcases standing with (inside | kept) | pending
      · exact absurd inside outside
      · exact .inl kept
      · exact .inr pending
    · intro kept pinned
      have earlier := kept.resolve_left outside
      exact List.mem_append_right _ (tended.gathered phase handle proxy resolved earlier pinned)

/-- Taking the roots of the current category: they are on the worklist, and so are the pending
proxies when the category is the last one. Nothing with children is marked before the first
roots. -/
theorem takeRoots (tended : collector.Tended roots.scope) (lawful : collector.heap.Lawful)
    {category : RootCategory} (phase : collector.cycle.phase = .mark category) :
    { collector with cycle := { collector.cycle with
      rootsTaken := true
      worklist := collector.openWorklist roots category } }.Tended roots.scope := by
  have longer := collector.worklist_subset_openWorklist roots category
  have inMark : ∃ category, collector.cycle.phase = .mark category := ⟨category, phase⟩
  refine ⟨fun other => ?_, fun other => ?_, fun _ taken => ?_, fun _ handle proxy resolved pinned
    active => (tended.pinned inMark handle proxy resolved pinned active).mono longer, ?_, ?_, ?_⟩
  · simp [phase] at other
  · simp [phase] at other
  · simp at taken
  · intro _
    by_cases begun : collector.cycle.marking = true
    · exact (tended.closed begun).mono longer
    · have first : category = .constants ∧ collector.cycle.rootsTaken = false := by
        cases category <;> simp_all [Cycle.marking]
      obtain ⟨rfl, untaken⟩ := first
      intro handle proxy resolved marked standing child listed
      have standing' : proxy.residence = .immortal := by
        have unmarked := tended.blank phase untaken handle proxy resolved
        cases here : proxy.residence <;> simp_all
      obtain rfl := lawful.eq_null_of_immortal resolved standing'
      obtain rfl := Option.some.inj (lawful.proxy?_null.symm.trans resolved)
      simp [Proxy.null, Cell.children] at listed
  · intro other scanned handle root
    have earlier : collector.cycle.Scanned other ∨
        other = category ∧ collector.cycle.rootsTaken = false := by
      simp only [Cycle.Scanned, phase] at scanned ⊢
      cases taken : collector.cycle.rootsTaken <;> simp_all
    rcases earlier with before | ⟨rfl, untaken⟩
    · exact (tended.scanned other before handle root).mono longer
    · intro _ _
      have listed : handle ∈ roots other := root
      right
      cases other <;>
        simp_all [openWorklist, Collector.takeRoots, RootSet.scope]
  · intro scanned handle proxy resolved standing
    have last : category = .executions := by
      cases category <;> simp_all [Cycle.Scanned, RootCategory.rank]
    subst last
    by_cases taken : collector.cycle.rootsTaken = true
    · have before : collector.cycle.Scanned .executions := by simp [Cycle.Scanned, phase, taken]
      exact (tended.pending before handle proxy resolved standing).mono longer
    · intro _ _
      right
      have slot : handle.index ∈ collector.heap.pending := by
        rw [lawful.mem_pending_iff resolved, standing]
      have listed : handle ∈ collector.heap.pending.map collector.heap.handleAt :=
        List.mem_map.mpr ⟨handle.index, slot, Heap.handleAt_of_proxy? resolved⟩
      simp only [openWorklist, taken, Bool.false_eq_true, if_false, Collector.takeRoots]
      exact List.mem_append_right _ (List.mem_append_left _ listed)

/-- Marking a part of the worklist, once roots are marked. -/
theorem markSome (tended : collector.Tended scope) (begun : collector.cycle.marking = true)
    (budget : Nat) :
    { collector with
      heap := (collector.heap.markSome budget collector.cycle.worklist).2.1
      cycle := { collector.cycle with
        worklist := (collector.heap.markSome budget collector.cycle.worklist).2.2 } }.Tended
      scope := by
  obtain ⟨category, phase, first⟩ := Cycle.marking_iff.mp begun
  have darkens := collector.heap.darkens_markSome budget collector.cycle.worklist
  refine ⟨fun other => ?_, fun other => ?_, fun other untaken => ?_, ?_, ?_, ?_, ?_⟩
  · simp [phase] at other
  · simp [phase] at other
  · have constants : category = .constants := by simpa [phase] using other
    simp [first constants] at untaken
  · intro inMark handle proxy resolved pinned active
    obtain ⟨marked, _, named⟩ := darkens.origin resolved
    exact (tended.pinned inMark handle _ named pinned active).markSome budget
  · intro _
    exact (tended.closed begun).markSome budget
  · intro category scanned handle root
    exact (tended.scanned category scanned handle root).markSome budget
  · intro scanned handle proxy resolved standing
    obtain ⟨marked, _, named⟩ := darkens.origin resolved
    exact (tended.pending scanned handle _ named standing).markSome budget

/-- Going on to the next mark phase, once the worklist is empty, or to the end of marking. -/
theorem nextMark (tended : collector.Tended scope) {category : RootCategory}
    (phase : collector.cycle.phase = .mark category)
    (taken : collector.cycle.rootsTaken = true) :
    { collector with cycle := nextCycle collector.cycle }.Tended scope := by
  have begun : collector.cycle.marking = true :=
    Cycle.marking_iff.mpr ⟨category, phase, fun _ => taken⟩
  have inMark : ∃ category, collector.cycle.phase = .mark category := ⟨category, phase⟩
  by_cases last : category = .executions
  · subst last
    apply of_idle
    simp [nextCycle, phase, Phase.next, Phase.gathers]
  · have earlier : ∀ other, (nextCycle collector.cycle).Scanned other →
        collector.cycle.Scanned other := by
      intro other scanned
      cases category <;> cases other <;>
        simp_all [nextCycle, Cycle.Scanned, Phase.next, RootCategory.rank]
    refine ⟨fun other => ?_, fun other => ?_, fun other => ?_, fun _ => tended.pinned inMark,
      fun _ => tended.closed begun,
      fun other scanned => tended.scanned other (earlier other scanned),
      fun scanned => tended.pending (earlier _ scanned)⟩
    all_goals
      cases category <;> simp_all [nextCycle, Phase.next]

/-- Everything that a step can do leaves the collection tended. -/
theorem stepped (tended : collector.Tended roots.scope) (lawful : collector.heap.Lawful)
    {completed : Bool} {after : Collector} (stepped : Stepped collector roots completed after) :
    after.Tended roots.scope := by
  cases stepped with
  | linking phase => exact of_idle (by simp [phase, Phase.gathers])
  | linkedAll phase all =>
    have lawful' := lawful.linked collector.budget
    have none : (collector.heap.linked collector.budget).pending = [] :=
      (Heap.linked_lists collector.budget collector.heap).2.2.1.trans all
    have unscanned : ∀ category, ¬ (nextCycle collector.cycle).Scanned category := by
      simp [Cycle.Scanned, nextCycle, phase, Phase.next]
    refine ⟨?_, ?_, ?_, ?_, ?_, fun category scanned => absurd scanned (unscanned category),
      fun scanned => absurd scanned (unscanned _)⟩
    · intro _ handle proxy resolved standing
      rcases standing with kept | pending
      · simp [Heap.rewind] at kept
      · have slot := (lawful'.mem_pending_iff resolved).mpr pending
        simp [none] at slot
    · intro _ handle proxy _ kept
      simp [Heap.rewind] at kept
    · simp [nextCycle, phase, Phase.next]
    · simp [nextCycle, phase, Phase.next]
    · simp [nextCycle, phase, Phase.next, Cycle.marking]
  | clearing phase more =>
    have unscanned : ∀ category, ¬ collector.cycle.Scanned category := by
      simp [Cycle.Scanned, phase]
    refine ⟨?_, ?_, ?_, ?_, ?_, fun category scanned => absurd scanned (unscanned category),
      fun scanned => absurd scanned (unscanned _)⟩
    · intro _ handle proxy resolved
      exact (tended.clear phase handle proxy resolved).1
    · intro _ handle proxy resolved
      exact (tended.clear phase handle proxy resolved).2
    · simp [phase]
    · simp [phase]
    · simp [phase, Cycle.marking]
  | clearedAll phase all =>
    have lawful' := lawful.cleared collector.budget
    have none : (collector.heap.cleared collector.budget).active = [] :=
      (Heap.cleared_lists collector.budget collector.heap).2.2.2.1.trans all
    have unscanned : ∀ category, ¬ (nextCycle { collector.cycle with
        worklist := collector.heap.pinnedBatch collector.budget ++
          collector.cycle.worklist }).Scanned category := by
      intro category
      cases category <;> simp [Cycle.Scanned, nextCycle, phase, Phase.next, RootCategory.rank]
    have keptOfActive : ∀ (handle : Handle) proxy,
        (collector.heap.cleared collector.budget).proxy? handle = some proxy →
        proxy.residence = .active →
        handle.index ∈ (collector.heap.cleared collector.budget).kept := by
      intro handle proxy resolved standing
      simpa [none] using (lawful'.mem_active_iff resolved).mpr standing
    refine ⟨?_, ?_, ?_, ?_, ?_, fun category scanned => absurd scanned (unscanned category),
      fun scanned => absurd scanned (unscanned _)⟩
    · simp [nextCycle, phase, Phase.next]
    · simp [nextCycle, phase, Phase.next]
    · intro _ _ handle proxy resolved standing
      apply (tended.clear phase handle proxy resolved).1
      exact standing.imp (keptOfActive handle proxy resolved) id
    · intro _ handle proxy resolved pinned active _ _
      have kept := keptOfActive handle proxy resolved active
      exact .inr ((tended.clear phase handle proxy resolved).2 kept pinned)
    · simp [nextCycle, phase, Phase.next, Cycle.marking]
  | marking category phase heap rest marked =>
    have taken := tended.takeRoots lawful phase
    have begun : Cycle.marking { collector.cycle with
        rootsTaken := true, worklist := collector.openWorklist roots category } = true :=
      Cycle.marking_iff.mpr ⟨category, phase, fun _ => rfl⟩
    have result := taken.markSome begun collector.budget
    simpa [marked] using result
  | markedAll category phase heap marked =>
    have taken := tended.takeRoots lawful phase
    have begun : Cycle.marking { collector.cycle with
        rootsTaken := true, worklist := collector.openWorklist roots category } = true :=
      Cycle.marking_iff.mpr ⟨category, phase, fun _ => rfl⟩
    have result := (taken.markSome begun collector.budget).nextMark phase rfl
    simpa [marked] using result
  | sifting phase => exact of_idle (by simp [phase, Phase.gathers])
  | siftedAll phase => exact of_idle (by simp [nextCycle, phase, Phase.next, Phase.gathers])
  | disposing phase => exact of_idle (by simp [phase, Phase.gathers])
  | disposedAll phase =>
    exact of_idle (by simp [complete, nextCycle, phase, Phase.next, Phase.gathers])

end Tended

end Collector

end ScriptVm
