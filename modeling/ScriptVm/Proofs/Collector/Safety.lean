import Mathlib.Logic.Relation
import ScriptVm.Proofs.Collector.Mutation

/-!
# Safety of the collector

What is reached from the roots, from pinned proxies and from the references held for the moment is
never condemned. A collector is safe when this holds, when its collection is tended and when its
bookkeeping is orderly. Steps keep it safe as long as nothing else is held, and so does every move
of the embedding program and of scripts: forgetting references, storing shaded ones, allocating,
and writing shaded references into cells.
-/
namespace ScriptVm

/-- Where reachability begins: at roots, at pinned proxies, and at handles held for the moment. -/
def Heap.Origin (heap : Heap) (scope : Scope) (held : Handle → Prop) (handle : Handle) : Prop :=
  (∃ category, scope category handle) ∨ heap.Pins handle ∨ held handle

/-- Nothing is held for the moment. -/
def unheld : Handle → Prop := fun _ => False

/-- A further handle is held. -/
def holding (held : Handle → Prop) (handle : Handle) : Handle → Prop :=
  fun other => held other ∨ other = handle

namespace Collector

/-- A handle names a proxy that the collection under way does not dispose of by itself: it is not
condemned, and it is not about to be. -/
def Secures (collector : Collector) (handle : Handle) : Prop :=
  ∃ proxy, collector.heap.proxy? handle = some proxy ∧ proxy.residence ≠ .unmarked ∧
    (collector.cycle.phase = .collect → proxy.marked = true ∨ proxy.residence = .pending)

/-- What is reached from roots, pinned proxies and held handles. -/
def Reaches (collector : Collector) (scope : Scope) (held : Handle → Prop) : Handle → Prop :=
  collector.heap.Reaches (collector.heap.Origin scope held)

/-- Everything reached is secured, and the collection under way keeps it so. -/
structure Safe (collector : Collector) (scope : Scope) (held : Handle → Prop) : Prop where
  /-- The bookkeeping is orderly. -/
  orderly : collector.Orderly
  /-- Each phase has ready what the next one needs. -/
  tended : collector.Tended scope
  /-- Nothing reached is condemned. -/
  secure : ∀ handle, collector.Reaches scope held handle → collector.Secures handle

/-- The null value is reached from everywhere. -/
theorem reaches_null {collector : Collector} (lawful : collector.heap.Lawful) (scope : Scope)
    (held : Handle → Prop) : collector.Reaches scope held Handle.null :=
  .start (.inr (.inl ⟨Proxy.null, lawful.proxy?_null, rfl⟩))

/-- What is reached in one collector is reached in another that has the same cells and at least the
same pins. -/
theorem reaches_of_proxies {before after : Collector} {scope : Scope} {held : Handle → Prop}
    (proxies : ∀ handle proxy, after.heap.proxy? handle = some proxy →
      ∃ old, before.heap.proxy? handle = some old ∧ old.cell = proxy.cell ∧
        (proxy.pinned = true → old.pinned = true))
    {handle : Handle} (reached : after.Reaches scope held handle) :
    before.Reaches scope held handle := by
  have sameCells : before.heap.Reaches (after.heap.Origin scope held) handle := by
    apply reached.of_cells
    intro other found named
    obtain ⟨old, known, cell, _⟩ := proxies other found named
    exact ⟨old, known, cell⟩
  apply sameCells.of_origins
  rintro start (root | ⟨found, named, pinned⟩ | holding)
  · exact .start (.inl root)
  · obtain ⟨old, known, _, pins⟩ := proxies _ _ named
    exact .start (.inr (.inl ⟨old, known, pins pinned⟩))
  · exact .start (.inr (.inr holding))

namespace Safe

variable {collector : Collector} {scope : Scope} {held : Handle → Prop}

/-- What is reached resolves. -/
theorem contains (safe : collector.Safe scope held) {handle : Handle}
    (reached : collector.Reaches scope held handle) :
    collector.heap.contains handle = true := by
  obtain ⟨proxy, resolved, _⟩ := safe.secure handle reached
  exact Heap.contains_iff.mpr ⟨proxy, resolved⟩

/-- Roots and held handles may be exchanged for reached ones, provided that new roots are covered
while roots are marked. -/
theorem weaken (safe : collector.Safe scope held) {scope' : Scope} {held' : Handle → Prop}
    (roots : ∀ category handle, scope' category handle → scope category handle ∨
      collector.Reaches scope held handle ∧ (collector.cycle.marking = true →
        collector.heap.Covered collector.cycle.worklist handle))
    (holds : ∀ handle, held' handle → collector.Reaches scope held handle) :
    collector.Safe scope' held' := by
  refine ⟨safe.orderly, safe.tended.enroll ?_, ?_⟩
  · intro category handle root
    exact (roots category handle root).imp id And.right
  · intro handle reached
    apply safe.secure
    apply reached.of_origins
    rintro start (⟨category, root⟩ | pins | holding)
    · rcases roots category start root with known | ⟨known, _⟩
      · exact .start (.inl ⟨category, known⟩)
      · exact known
    · exact .start (.inr (.inl pins))
    · exact holds start holding

/-- A heap with additional marks and an unchanged cycle secures what the old one did. -/
theorem secures_of_darkens {before after : Collector} (cycle : after.cycle = before.cycle)
    (darkens : before.heap.Darkens after.heap) {handle : Handle} (secured : before.Secures handle) :
    after.Secures handle := by
  obtain ⟨proxy, resolved, standing, collecting⟩ := secured
  obtain ⟨marked, grows, named⟩ := darkens.proxies handle proxy resolved
  refine ⟨_, named, standing, ?_⟩
  intro phase
  rw [cycle] at phase
  exact (collecting phase).imp grows id

/-- Marking changes nothing that is reached. -/
theorem reaches_of_darkens {before after : Collector} (darkens : before.heap.Darkens after.heap)
    {handle : Handle} (reached : after.Reaches scope held handle) :
    before.Reaches scope held handle := by
  apply reaches_of_proxies _ reached
  intro other found named
  obtain ⟨marked, _, known⟩ := darkens.origin named
  exact ⟨_, known, rfl, id⟩

/-- Shading keeps the collector safe. -/
theorem shade (safe : collector.Safe scope held) (handle : Handle) :
    (collector.shade handle).Safe scope held := by
  have darkens := collector.darkens_shade handle
  refine ⟨safe.orderly.shade handle, safe.tended.shade handle, ?_⟩
  intro other reached
  exact secures_of_darkens (collector.cycle_shade handle) darkens
    (safe.secure other (reaches_of_darkens darkens reached))

/-- After an allocation of a cell whose children are reached, only the new handle and what was
reached before is reached. -/
theorem reaches_of_allocate (orderly : collector.Orderly) {cell : Cell} {pinned : Bool}
    (children : ∀ child ∈ cell.children, collector.Reaches scope held child) {handle : Handle}
    (reached : (collector.allocate cell pinned).2.Reaches scope
      (holding held (collector.allocate cell pinned).1) handle) :
    handle = (collector.allocate cell pinned).1 ∨ collector.Reaches scope held handle := by
  induction reached with
  | start begins =>
    rcases begins with root | ⟨proxy, resolved, pins⟩ | holding | rfl
    · exact .inr (.start (.inl root))
    · obtain ⟨_, ⟨here, _⟩ | before⟩ := orderly.cases_allocate cell pinned resolved
      · exact .inl here
      · exact .inr (.start (.inr (.inl ⟨_, before, pins⟩)))
    · exact .inr (.start (.inr (.inr holding)))
    · exact .inl rfl
  | @child parent proxy _ _ resolved listed hypothesis =>
    obtain ⟨_, ⟨_, fresh⟩ | before⟩ := orderly.cases_allocate cell pinned resolved
    · have same : proxy.cell = cell := congrArg Proxy.cell fresh
      exact .inr (children _ (same ▸ listed))
    · have apart : parent ≠ (collector.allocate cell pinned).1 := by
        rintro rfl
        simp [orderly.fresh_allocate cell pinned] at before
      exact .inr (.child (hypothesis.resolve_left apart) before listed)

/-- Allocating a cell whose children are reached keeps the collector safe, and the new handle is
held. -/
theorem allocate (safe : collector.Safe scope held) {cell : Cell} (pinned : Bool)
    (children : ∀ child ∈ cell.children, collector.Reaches scope held child) :
    (collector.allocate cell pinned).2.Safe scope
      (holding held (collector.allocate cell pinned).1) := by
  have allocates := collector.heap.allocates cell pinned safe.orderly.lawful.vacant
  have mutates := allocates.mutates safe.orderly.lawful
  refine ⟨safe.orderly.allocate cell pinned, safe.tended.mutate mutates, ?_⟩
  intro handle reached
  rcases reaches_of_allocate safe.orderly children reached with rfl | known
  · obtain ⟨_, named⟩ := safe.orderly.placed_allocate cell pinned
    exact ⟨_, named, by simp [Heap.freshProxy], fun _ => .inr rfl⟩
  · obtain ⟨proxy, resolved, standing, collecting⟩ := safe.secure handle known
    obtain ⟨_, grows, named⟩ := safe.orderly.kept_allocate cell pinned resolved
    refine ⟨_, named, standing, fun phase => ?_⟩
    rw [cycle_allocate] at phase
    exact (collecting phase).imp grows id

/-- After a reached handle has been stored into a cell, nothing is reached that was not reached
before. -/
theorem reaches_of_rewrite {target stored : Handle} {proxy : Proxy} {cell : Cell}
    (resolved : collector.heap.proxy? target = some proxy)
    (children : ∀ child ∈ cell.children, child ∈ proxy.cell.children ∨ child = stored)
    (reached : collector.Reaches scope held stored) {handle : Handle}
    (reachedAfter : ({ collector with heap := collector.heap.setCell target cell }.shade
      stored).Reaches scope held handle) : collector.Reaches scope held handle := by
  replace reachedAfter := reaches_of_darkens (darkens_shade _ stored) reachedAfter
  induction reachedAfter with
  | start begins =>
    rcases begins with root | ⟨found, named, pinned⟩ | holding
    · exact .start (.inl root)
    · obtain ⟨old, before, _, _, same, _⟩ := Heap.origin_setCell resolved children named
      exact .start (.inr (.inl ⟨old, before, same ▸ pinned⟩))
    · exact .start (.inr (.inr holding))
  | child _ named listed hypothesis =>
    obtain ⟨old, before, _, _, _, more⟩ := Heap.origin_setCell resolved children named
    rcases more _ listed with earlier | rfl
    · exact .child hypothesis before earlier
    · exact reached

/-- Replacing a cell by one whose only new child is a reached handle keeps the collector safe, once
that handle is shaded. -/
theorem rewrite (safe : collector.Safe scope held) {target stored : Handle} {proxy : Proxy}
    {cell : Cell} (resolved : collector.heap.proxy? target = some proxy)
    (proper : proxy.cell ≠ .value .null)
    (children : ∀ child ∈ cell.children, child ∈ proxy.cell.children ∨ child = stored)
    (reached : collector.Reaches scope held stored) :
    ({ collector with heap := collector.heap.setCell target cell }.shade stored).Safe
      scope held := by
  have mutates := Heap.mutates_setCell resolved children
  refine ⟨(safe.orderly.setCell resolved proper cell).shade stored, safe.tended.mutate mutates, ?_⟩
  have darkens :=
    darkens_shade { collector with heap := collector.heap.setCell target cell } stored
  intro handle reachedAfter
  apply secures_of_darkens (cycle_shade _ stored) darkens
  obtain ⟨old, before, secured⟩ :=
    safe.secure handle (reaches_of_rewrite resolved children reached reachedAfter)
  refine ⟨if target.index = handle.index then { old with cell } else old, ?_, ?_⟩
  · rw [Heap.setCell, Heap.proxy?_updateAt, before]
    split <;> rfl
  · split <;> exact secured

/-- Unpinning keeps the collector safe. -/
theorem unpin (safe : collector.Safe scope held) {heap : Heap} {handle : Handle}
    (done : collector.heap.setPinned handle false = some heap) :
    { collector with heap }.Safe scope held := by
  have orderly := safe.orderly.setPinned done
  rcases Heap.setPinned_cases done with rfl | ⟨proxy, resolved, mortal, rfl⟩
  · exact safe
  · have tended := safe.tended.mutate (collector.heap.mutates_unpin handle Handle.null)
    rw [shade_null orderly.lawful] at tended
    refine ⟨orderly, tended, ?_⟩
    intro other reached
    have known : collector.Reaches scope held other := by
      apply reaches_of_proxies _ reached
      intro other found named
      obtain ⟨old, before, cell, _, _, pins⟩ := Heap.origin_setPinned done named
      exact ⟨old, before, cell, pins rfl⟩
    obtain ⟨old, before, secured⟩ := safe.secure other known
    refine ⟨if handle.index = other.index then { old with pinned := false } else old, ?_, ?_⟩
    · rw [Heap.proxy?_updateAt, before]
      split <;> rfl
    · split <;> exact secured

end Safe

section Steps

variable {collector after : Collector} {roots : RootSet} {completed : Bool}

/-- A change of some proxies that leaves cells and pins alone. -/
theorem origin_of_changed {condition : Prop} [Decidable condition] {before? : Option Proxy}
    {change : Proxy → Proxy} {proxy : Proxy}
    (found : (if condition then before?.map change else before?) = some proxy)
    (keeps : ∀ proxy, (change proxy).cell = proxy.cell ∧ (change proxy).pinned = proxy.pinned) :
    ∃ old, before? = some old ∧ old.cell = proxy.cell ∧ old.pinned = proxy.pinned := by
  split at found
  · obtain ⟨old, known, rfl⟩ := Option.map_eq_some_iff.mp found
    obtain ⟨cell, pinned⟩ := keeps old
    exact ⟨old, known, cell.symm, pinned.symm⟩
  · exact ⟨proxy, found, rfl, rfl⟩

/-- A step makes no proxy, and it changes no cell and no pin. -/
theorem Stepped.proxies (stepped : Stepped collector roots completed after) {handle : Handle}
    {proxy : Proxy} (resolved : after.heap.proxy? handle = some proxy) :
    ∃ old, collector.heap.proxy? handle = some old ∧ old.cell = proxy.cell ∧
      old.pinned = proxy.pinned := by
  cases stepped with
  | linking | linkedAll =>
    have found := (Heap.proxy?_linked collector.budget collector.heap handle).symm.trans resolved
    exact origin_of_changed found fun _ => ⟨rfl, rfl⟩
  | clearing | clearedAll =>
    have found := (Heap.proxy?_cleared collector.budget collector.heap handle).symm.trans resolved
    exact origin_of_changed found fun _ => ⟨rfl, rfl⟩
  | marking category _ _ _ marked | markedAll category _ _ marked =>
    have darkens := collector.heap.darkens_markSome collector.budget
      (collector.openWorklist roots category)
    rw [marked] at darkens
    obtain ⟨_, _, before⟩ := darkens.origin resolved
    exact ⟨_, before, rfl, rfl⟩
  | sifting | siftedAll =>
    have found := (Heap.proxy?_sifted collector.budget collector.heap handle).symm.trans resolved
    exact origin_of_changed found fun _ => ⟨rfl, rfl⟩
  | disposing | disposedAll =>
    exact ⟨proxy, (Heap.proxy?_of_disposeSome resolved).2, rfl, rfl⟩

/-- A step loses no proxy but condemned ones, and those in the last phase alone. -/
theorem Stepped.keeps (stepped : Stepped collector roots completed after)
    (lawful : collector.heap.Lawful) {handle : Handle} {proxy : Proxy}
    (resolved : collector.heap.proxy? handle = some proxy)
    (spared : collector.cycle.phase = .dispose → proxy.residence ≠ .unmarked) :
    ∃ kept, after.heap.proxy? handle = some kept := by
  cases stepped with
  | linking | linkedAll =>
    show ∃ kept, (collector.heap.linked collector.budget).proxy? handle = some kept
    rw [Heap.proxy?_linked, resolved]
    split <;> exact ⟨_, rfl⟩
  | clearing | clearedAll =>
    show ∃ kept, (collector.heap.cleared collector.budget).proxy? handle = some kept
    rw [Heap.proxy?_cleared, resolved]
    split <;> exact ⟨_, rfl⟩
  | marking _ _ _ _ marked | markedAll _ _ _ marked =>
    obtain ⟨_, _, named⟩ := (Heap.darkens_of_markSome marked).proxies handle proxy resolved
    exact ⟨_, named⟩
  | sifting | siftedAll =>
    show ∃ kept, (collector.heap.sifted collector.budget).proxy? handle = some kept
    rw [Heap.proxy?_sifted, resolved]
    split <;> exact ⟨_, rfl⟩
  | disposing phase | disposedAll phase =>
    have outside : handle.index ∉ collector.heap.unmarked.take collector.budget := by
      intro condemned
      exact spared phase
        ((lawful.mem_unmarked_iff resolved).mp (List.mem_of_mem_take condemned))
    show ∃ kept, (collector.heap.disposeSome collector.budget).2.2.proxy? handle = some kept
    rw [Heap.proxy?_disposeSome, if_neg outside, resolved]
    exact ⟨_, rfl⟩

/-- What is reached after a step was reached before. -/
theorem Stepped.reaches (stepped : Stepped collector roots completed after) {scope : Scope}
    {held : Handle → Prop} {handle : Handle} (reached : after.Reaches scope held handle) :
    collector.Reaches scope held handle := by
  apply reaches_of_proxies _ reached
  intro other found named
  obtain ⟨old, before, cell, pinned⟩ := stepped.proxies named
  exact ⟨old, before, cell, pinned.trans⟩

/-- At the end of the last mark phase everything reached is marked, apart from what is reached
through condemned proxies. -/
theorem Tended.marked_of_reaches {scope : Scope} (tended : collector.Tended scope)
    (lawful : collector.heap.Lawful) (phase : collector.cycle.phase = .mark .executions)
    (taken : collector.cycle.rootsTaken = true) (done : collector.cycle.worklist = [])
    (standing : ∀ handle proxy, collector.Reaches scope unheld handle →
      collector.heap.proxy? handle = some proxy → proxy.residence ≠ .unmarked)
    {handle : Handle} {proxy : Proxy} (reached : collector.Reaches scope unheld handle)
    (resolved : collector.heap.proxy? handle = some proxy) : proxy.marked = true := by
  have scanned : ∀ category, collector.cycle.Scanned category := by
    intro category
    cases category <;> simp [Cycle.Scanned, phase, taken, RootCategory.rank]
  have marked : ∀ other, collector.heap.Covered collector.cycle.worklist other →
      ∀ found, collector.heap.proxy? other = some found → found.marked = true := by
    intro other covered found named
    simpa [done] using covered found named
  induction reached generalizing proxy with
  | start begins =>
    rcases begins with ⟨category, root⟩ | ⟨found, named, pinned⟩ | holding
    · exact marked _ (tended.scanned category (scanned category) _ root) proxy resolved
    · obtain rfl := Option.some.inj (named.symm.trans resolved)
      have here := standing _ _ (.start (.inr (.inl ⟨found, named, pinned⟩))) named
      cases at' : found.residence with
      | immortal =>
        obtain rfl := lawful.eq_null_of_immortal named at'
        obtain rfl := Option.some.inj (lawful.proxy?_null.symm.trans named)
        rfl
      | pending => exact marked _ (tended.pending (scanned _) _ found named at') found named
      | active =>
        exact marked _ (tended.pinned ⟨_, phase⟩ _ found named pinned at') found named
      | unmarked => exact absurd at' here
    · exact holding.elim
  | child above named listed hypothesis =>
    have dark := hypothesis named
    have closed := tended.closed (scanned .executions).marking
    exact marked _ (closed _ _ named dark (standing _ _ above named) _ listed) proxy resolved

/-- Everything that a step can do keeps the collector safe. -/
theorem Safe.stepped (safe : collector.Safe roots.scope unheld)
    (stepped : Stepped collector roots completed after) : after.Safe roots.scope unheld := by
  have lawful := safe.orderly.lawful
  refine ⟨safe.orderly.stepped stepped, safe.tended.stepped lawful stepped, ?_⟩
  intro handle reached
  obtain ⟨proxy, resolved, standing, collecting⟩ := safe.secure handle (stepped.reaches reached)
  cases stepped with
  | linking phase | linkedAll phase =>
    refine ⟨if handle.index ∈ collector.heap.pending.take collector.budget then
      { proxy with residence := .active } else proxy, ?_, ?_, ?_⟩
    · show (collector.heap.linked collector.budget).proxy? handle = _
      rw [Heap.proxy?_linked, resolved]
      split <;> rfl
    · split
      · simp
      · exact standing
    · simp [nextCycle, phase, Phase.next]
  | clearing phase | clearedAll phase =>
    refine ⟨if handle.index ∈ collector.heap.active.take collector.budget then
      { proxy with marked := false } else proxy, ?_, ?_, ?_⟩
    · show (collector.heap.cleared collector.budget).proxy? handle = _
      rw [Heap.proxy?_cleared, resolved]
      split <;> rfl
    · split <;> exact standing
    · simp [nextCycle, phase, Phase.next]
  | marking category phase heap rest marked =>
    have darkens := collector.heap.darkens_markSome collector.budget
      (collector.openWorklist roots category)
    rw [marked] at darkens
    obtain ⟨dark, _, named⟩ := darkens.proxies handle proxy resolved
    exact ⟨_, named, standing, by simp [phase]⟩
  | markedAll category phase heap marked =>
    have darkens := collector.heap.darkens_markSome collector.budget
      (collector.openWorklist roots category)
    have begun : Cycle.marking { collector.cycle with
        rootsTaken := true, worklist := collector.openWorklist roots category } = true :=
      Cycle.marking_iff.mpr ⟨category, phase, fun _ => rfl⟩
    have tended := (safe.tended.takeRoots lawful phase).markSome begun collector.budget
    simp only [marked] at darkens tended
    obtain ⟨dark, _, named⟩ := darkens.proxies handle proxy resolved
    refine ⟨_, named, standing, ?_⟩
    intro last
    have executions : category = .executions := by
      cases category <;> simp_all [nextCycle, Phase.next]
    subst executions
    left
    refine tended.marked_of_reaches (darkens.lawful lawful) phase rfl rfl ?_ reached named
    intro other found reachedOther namedOther
    obtain ⟨shadow, _, before⟩ := darkens.origin namedOther
    obtain ⟨old, resolvedOther, standingOther, _⟩ :=
      safe.secure other (Safe.reaches_of_darkens darkens reachedOther)
    obtain rfl := Option.some.inj (before.symm.trans resolvedOther)
    exact standingOther
  | sifting phase | siftedAll phase =>
    have spared : handle.index ∉ collector.heap.condemnedBatch collector.budget := by
      intro condemned
      obtain ⟨active, light⟩ := lawful.of_mem_condemnedBatch resolved condemned
      rcases collecting phase with marked | pending
      · simp [marked] at light
      · simp [pending] at active
    refine ⟨proxy, ?_, standing, ?_⟩
    · show (collector.heap.sifted collector.budget).proxy? handle = _
      rw [Heap.proxy?_sifted, if_neg spared, resolved]
    · first
        | exact collecting
        | simp [nextCycle, phase, Phase.next]
  | disposing phase | disposedAll phase =>
    have spared : handle.index ∉ collector.heap.unmarked.take collector.budget := by
      intro condemned
      exact standing ((lawful.mem_unmarked_iff resolved).mp (List.mem_of_mem_take condemned))
    refine ⟨proxy, ?_, standing, ?_⟩
    · show (collector.heap.disposeSome collector.budget).2.2.proxy? handle = _
      rw [Heap.proxy?_disposeSome, if_neg spared, resolved]
    · simp [complete, nextCycle, phase, Phase.next]

/-- Every step keeps the collector safe. -/
theorem Safe.step (safe : collector.Safe roots.scope unheld) :
    (collector.step roots).2.Safe roots.scope unheld :=
  safe.stepped (collector.stepped roots)

/-- Giving a collection up keeps the collector safe. -/
theorem Safe.reset {scope : Scope} {held : Handle → Prop} (safe : collector.Safe scope held) :
    collector.reset.Safe scope held := by
  refine ⟨safe.orderly.reset, .of_idle rfl, ?_⟩
  intro handle reached
  have known : collector.Reaches scope held handle := by
    apply reaches_of_proxies _ reached
    intro _ proxy named
    exact ⟨proxy, named, rfl, id⟩
  obtain ⟨proxy, resolved, standing, _⟩ := safe.secure handle known
  exact ⟨proxy, resolved, standing, fun phase => by simp [Collector.reset] at phase⟩

end Steps

end Collector

/-- A collector with what counts as roots and what is held for the moment. -/
structure View where
  /-- The collector. -/
  collector : Collector
  /-- What counts as roots. -/
  scope : Scope
  /-- What is held. -/
  held : Handle → Prop

/-- The kind of the value in a cell. -/
def Cell.kind? : Cell → Option Kind
  | .value content => some content.kind
  | .object _ => none

namespace View

/-- What is reached in a view. -/
def Reaches (view : View) : Handle → Prop := view.collector.Reaches view.scope view.held

/-- A safe view. -/
def Safe (view : View) : Prop := view.collector.Safe view.scope view.held

/-- What the embedding program and scripts do between steps. Cells keep their kinds. -/
inductive Move : View → View → Prop where
  /-- Roots and held references are forgotten, or reached ones are taken in their place. A new root
  has been shaded. -/
  | weaken {view : View} {scope : Scope} {held : Handle → Prop}
    (roots : ∀ category handle, scope category handle → view.scope category handle ∨
      view.Reaches handle ∧ (view.collector.cycle.marking = true →
        view.collector.heap.Covered view.collector.cycle.worklist handle))
    (holds : ∀ handle, held handle → view.Reaches handle) :
    Move view { view with scope, held }
  /-- A reached handle is shaded. -/
  | shade {view : View} (handle : Handle) (reached : view.Reaches handle) :
    Move view { view with collector := view.collector.shade handle }
  /-- A proxy is allocated, and its handle is held. -/
  | allocate {view : View} {cell : Cell} {pinned : Bool}
    (children : ∀ child ∈ cell.children, view.Reaches child) :
    Move view { view with
      collector := (view.collector.allocate cell pinned).2
      held := holding view.held (view.collector.allocate cell pinned).1 }
  /-- A reached handle is stored into a cell, and it is shaded. -/
  | rewrite {view : View} {target stored : Handle} {proxy : Proxy} {cell : Cell}
    (resolved : view.collector.heap.proxy? target = some proxy)
    (proper : proxy.cell ≠ .value .null)
    (children : ∀ child ∈ cell.children, child ∈ proxy.cell.children ∨ child = stored)
    (reached : view.Reaches stored) (kind : cell.kind? = proxy.cell.kind?) :
    Move view { view with
      collector := { view.collector with
        heap := view.collector.heap.setCell target cell }.shade stored }

/-- A move keeps the view safe. -/
theorem Move.safe {view after : View} (move : Move view after) (safe : view.Safe) :
    after.Safe := by
  cases move with
  | weaken roots holds => exact Collector.Safe.weaken safe roots holds
  | shade handle => exact Collector.Safe.shade safe handle
  | allocate children => exact Collector.Safe.allocate safe _ children
  | rewrite resolved proper children reached kind =>
    exact Collector.Safe.rewrite safe resolved proper children reached

/-- A move keeps the collector orderly. -/
theorem Move.orderly {view after : View} (move : Move view after)
    (orderly : view.collector.Orderly) : after.collector.Orderly := by
  cases move with
  | weaken => exact orderly
  | shade handle => exact orderly.shade handle
  | allocate children => exact orderly.allocate _ _
  | rewrite resolved proper children reached kind =>
    exact (orderly.setCell resolved proper _).shade _

/-- Moves one after the other. -/
abbrev Moves : View → View → Prop := Relation.ReflTransGen Move

/-- Moves keep the view safe. -/
theorem Moves.safe {view after : View} (moves : Moves view after) (safe : view.Safe) :
    after.Safe := by
  induction moves with
  | refl => exact safe
  | tail _ move hypothesis => exact move.safe hypothesis

/-- Moves keep the collector orderly. -/
theorem Moves.orderly {view after : View} (moves : Moves view after)
    (orderly : view.collector.Orderly) : after.collector.Orderly := by
  induction moves with
  | refl => exact orderly
  | tail _ move hypothesis => exact move.orderly hypothesis

end View

end ScriptVm
