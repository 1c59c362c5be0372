import ScriptVm.Proofs.Collector.Fading

/-!
# Reclamation of what is out of reach

What is unreached when a collection begins stays so, whatever happens between its steps, and the
collection disposes of it. Besides roots and pinned proxies, marking begins at what is on the
worklist and at proxies that were allocated since the collection began; neither leads to anything
that was out of reach before. So such a proxy fades up to the end of marking, is doomed from then
on, and at last its slot is at another generation, where a later proxy may take the place but not
the handle.
-/
namespace ScriptVm

namespace Heap

variable {heap : Heap} {handle : Handle}

/-- The slot of a handle is at another generation, so that the handle names nothing, whatever the
slot holds. -/
def Outdates (heap : Heap) (handle : Handle) : Prop :=
  ∃ slot, heap.slots[handle.index]? = some slot ∧ slot.generation ≠ handle.generation

/-- An outdated handle names nothing. -/
theorem Outdates.contains (outdates : heap.Outdates handle) : heap.contains handle = false := by
  obtain ⟨slot, within, differs⟩ := outdates
  simp [Heap.contains, proxy?, within, differs]

/-- Changing a proxy leaves outdated handles so. -/
theorem Outdates.updateAt (outdates : heap.Outdates handle) (index : Nat)
    (change : Proxy → Proxy) : (heap.updateAt index change).Outdates handle := by
  obtain ⟨slot, within, differs⟩ := outdates
  unfold Outdates
  rw [slots_updateAt, within]
  split
  · exact ⟨_, rfl, differs⟩
  · exact ⟨slot, rfl, differs⟩

/-- Marking leaves outdated handles so. -/
theorem Outdates.markAll (outdates : heap.Outdates handle) (worklist : List Handle) :
    (heap.markAll worklist).Outdates handle := by
  refine markAll_keeps (motive := fun heap _ => heap.Outdates handle) ?_ outdates
  intro heap next rest outdates
  rcases heap.markOne_cases next with ⟨same, _⟩ | ⟨_, _, _, marks⟩
  · rwa [same]
  · rw [marks]
    exact outdates.updateAt _ _

/-- Allocating leaves outdated handles so: a slot that is taken keeps its generation. -/
theorem Outdates.allocate (outdates : heap.Outdates handle) (cell : Cell) (pinned : Bool) :
    (heap.allocate cell pinned).2.Outdates handle := by
  obtain ⟨slot, within, differs⟩ := outdates
  unfold Heap.allocate
  split
  · rename_i index free empties
    by_cases here : index = handle.index
    · exact ⟨{ slot with proxy := some (freshProxy cell pinned) },
        by simp [Array.getElem?_modify, here, within, freshProxy], differs⟩
    · exact ⟨slot, by simp [Array.getElem?_modify, here, within], differs⟩
  · obtain ⟨inside, here⟩ := Array.getElem?_eq_some_iff.mp within
    refine ⟨slot, ?_, differs⟩
    simp [Array.getElem?_push, Nat.ne_of_lt inside, within]

/-- Disposing of other slots leaves outdated handles so. -/
theorem Outdates.disposeSome (outdates : heap.Outdates handle) {budget : Nat}
    (outside : handle.index ∉ heap.unmarked.take budget) :
    (heap.disposeSome budget).2.2.Outdates handle := by
  obtain ⟨slot, within, differs⟩ := outdates
  have same := (slots_foldl_vacate (heap.unmarked.take budget) heap.slots handle.index).1 outside
  exact ⟨slot, same.trans within, differs⟩

/-- Emptying slots takes one that is listed once to the next generation. -/
theorem generation_foldl_vacate {batch : List Nat} (slots : Array Slot) {position : Nat}
    {slot : Slot} (within : slots[position]? = some slot) (once : batch.count position = 1) :
    (batch.foldl vacate slots)[position]? = some ⟨slot.generation + 1, none⟩ := by
  induction batch generalizing slots with
  | nil => simp at once
  | cons index rest hypothesis =>
    rw [List.foldl_cons]
    by_cases here : index = position
    · have apart : position ∉ rest := by
        rw [← List.count_eq_zero]
        simpa [here] using once
      rw [(slots_foldl_vacate rest _ position).1 apart, slots_vacate, if_pos here, within]
      rfl
    · refine hypothesis _ ?_ ?_
      · rw [slots_vacate, if_neg here, within]
      · simpa [List.count_cons, here] using once

/-- A condemned slot is listed once, so that it is not both in a batch and left for later. -/
theorem Lawful.count_take_unmarked (lawful : heap.Lawful) {budget index : Nat}
    (inside : index ∈ heap.unmarked.take budget) :
    (heap.unmarked.take budget).count index = 1 ∧ (heap.unmarked.drop budget).count index = 0 := by
  have all := lawful.unmarked index
  have parts := count_take_add_count_drop budget heap.unmarked index
  have listed := List.count_pos_iff.mpr inside
  split at all <;> omega

/-- Disposing of a proxy outdates its handle, and its slot is not listed again. -/
theorem Lawful.outdates_disposeSome (lawful : heap.Lawful) {budget : Nat} {proxy : Proxy}
    (resolved : heap.proxy? handle = some proxy)
    (inside : handle.index ∈ heap.unmarked.take budget) :
    (heap.disposeSome budget).2.2.Outdates handle ∧
      handle.index ∉ (heap.disposeSome budget).2.2.unmarked := by
  have within := proxy?_eq_some_iff.mp resolved
  obtain ⟨once, never⟩ := lawful.count_take_unmarked inside
  refine ⟨⟨_, generation_foldl_vacate heap.slots within once, ?_⟩, List.count_eq_zero.mp never⟩
  intro same
  simp at same

end Heap

namespace Collector

variable {collector after : Collector} {scope : Scope} {held : Handle → Prop} {handle : Handle}
  {roots : RootSet}

/-- What is held for the moment, what is on the worklist, and what was allocated since pending
proxies were last made active. -/
def InPlay (collector : Collector) (held : Handle → Prop) (handle : Handle) : Prop :=
  held handle ∨ handle ∈ collector.cycle.worklist ∨
    collector.cycle.phase ≠ .linkPending ∧
      ∃ proxy, collector.heap.proxy? handle = some proxy ∧ proxy.residence = .pending

/-- What marking may come to. -/
def Attains (collector : Collector) (scope : Scope) (held : Handle → Prop) : Handle → Prop :=
  collector.Reaches scope (collector.InPlay held)

/-- What is reached may be marked. -/
theorem Attains.of_reaches (reached : collector.Reaches scope held handle) :
    collector.Attains scope held handle := by
  apply reached.of_origins
  rintro start (root | pins | holding)
  · exact .start (.inl root)
  · exact .start (.inr (.inl pins))
  · exact .start (.inr (.inr (.inl holding)))

/-- When a collection is about to begin, nothing but what is reached may be marked. -/
theorem Attains.reaches (attained : collector.Attains scope held handle)
    (orderly : collector.Orderly) (idle : collector.cycle.phase = .linkPending) :
    collector.Reaches scope held handle := by
  apply attained.of_origins
  rintro start (root | pins | holding | listed | ⟨busy, _⟩)
  · exact .start (.inl root)
  · exact .start (.inr (.inl pins))
  · exact .start (.inr (.inr holding))
  · rw [orderly.worklist (by simp [idle, Phase.gathers])] at listed
    simp at listed
  · exact absurd idle busy

/-- With more handles held, more is reached. -/
theorem Reaches.mono {more : Handle → Prop} (reached : collector.Reaches scope held handle)
    (holds : ∀ other, held other → more other) : collector.Reaches scope more handle := by
  apply Heap.Reaches.of_origins reached
  rintro start (root | pins | holding)
  · exact .start (.inl root)
  · exact .start (.inr (.inl pins))
  · exact .start (.inr (.inr (holds start holding)))

/-- A collection at the same point has nothing else in play, unless proxies stand elsewhere. -/
theorem InPlay.of_proxies (inPlay : after.InPlay held handle)
    (cycle : after.cycle = collector.cycle)
    (proxies : ∀ proxy, after.heap.proxy? handle = some proxy →
      ∃ old, collector.heap.proxy? handle = some old ∧ old.residence = proxy.residence) :
    collector.InPlay held handle := by
  unfold InPlay at inPlay ⊢
  rw [cycle] at inPlay
  refine inPlay.imp id (Or.imp id ?_)
  rintro ⟨busy, proxy, named, pending⟩
  obtain ⟨old, resolved, same⟩ := proxies proxy named
  exact ⟨busy, old, resolved, same.trans pending⟩

/-- Shading brings nothing into play. -/
theorem InPlay.of_shade {stored : Handle}
    (inPlay : (collector.shade stored).InPlay held handle) : collector.InPlay held handle := by
  refine inPlay.of_proxies (collector.cycle_shade stored) fun proxy named => ?_
  obtain ⟨_, _, old⟩ := (collector.darkens_shade stored).origin named
  exact ⟨_, old, rfl⟩

/-- Of the pending proxies, an allocation brings the new one alone into play. -/
theorem InPlay.of_allocate {cell : Cell} {pinned : Bool} (orderly : collector.Orderly)
    (inPlay : (collector.allocate cell pinned).2.InPlay
      (holding held (collector.allocate cell pinned).1) handle) :
    holding (collector.InPlay held) (collector.allocate cell pinned).1 handle := by
  by_cases same : handle = (collector.allocate cell pinned).1
  · exact .inr same
  · have still : collector.InPlay (holding held (collector.allocate cell pinned).1) handle := by
      refine inPlay.of_proxies (collector.cycle_allocate cell pinned) fun proxy named => ?_
      obtain ⟨_, ⟨here, _⟩ | before⟩ := orderly.cases_allocate cell pinned named
      · exact absurd here same
      · exact ⟨_, before, rfl⟩
    exact .inl (Or.imp (Or.resolve_right · same) id still)

/-- Marking passes on to children. -/
theorem Attains.child {parent : Handle} {proxy : Proxy}
    (attained : collector.Attains scope held parent)
    (resolved : collector.heap.proxy? parent = some proxy) :
    ∀ child ∈ proxy.cell.children, collector.Attains scope held child :=
  fun _ listed => Heap.Reaches.child attained resolved listed

/-- What a mark phase takes onto the worklist may be marked. -/
theorem attains_openWorklist (lawful : collector.heap.Lawful) {category : RootCategory}
    (phase : collector.cycle.phase = .mark category) :
    ∀ other ∈ collector.openWorklist roots category,
      collector.Attains roots.scope unheld other := by
  have waits : ∀ other ∈ collector.cycle.worklist, collector.Attains roots.scope unheld other :=
    fun other listed => .start (.inr (.inr (.inr (.inl listed))))
  have takes : ∀ category, ∀ other ∈ (roots category).reverse,
      collector.Attains roots.scope unheld other :=
    fun category other listed => .start (.inl ⟨category, List.mem_reverse.mp listed⟩)
  have pending : ∀ other ∈ collector.heap.pending.map collector.heap.handleAt,
      collector.Attains roots.scope unheld other := by
    intro other listed
    obtain ⟨index, member, rfl⟩ := List.mem_map.mp listed
    obtain ⟨proxy, occupied, standing⟩ :=
      Option.map_eq_some_iff.mp (lawful.mem_pending.mp member)
    exact .start (.inr (.inr (.inr (.inr
      ⟨by simp [phase], proxy, Heap.proxy?_handleAt occupied, standing⟩))))
  intro other listed
  unfold openWorklist at listed
  split at listed
  · exact waits other listed
  · rcases List.mem_append.mp listed with waiting | taken
    · exact waits other waiting
    · cases category with
      | constants | globals | functions => exact takes _ other taken
      | executions => exact (List.mem_append.mp taken).elim (pending other) (takes _ other)

/-- A step leaves nothing on the worklist but what may be marked. -/
theorem Stepped.attains_worklist {completed : Bool}
    (stepped : Stepped collector roots completed after) (lawful : collector.heap.Lawful) :
    ∀ other ∈ after.cycle.worklist, collector.Attains roots.scope unheld other := by
  have waits : ∀ other ∈ collector.cycle.worklist, collector.Attains roots.scope unheld other :=
    fun other listed => .start (.inr (.inr (.inr (.inl listed))))
  cases stepped with
  | linking | linkedAll | sifting | siftedAll | disposing | disposedAll => exact waits
  | clearing | clearedAll =>
    intro other listed
    rcases List.mem_append.mp listed with pinned | waiting
    · exact .start (.inr (.inl (Heap.pins_of_mem_pinnedBatch pinned)))
    · exact waits other waiting
  | marking category phase heap rest marked =>
    have opens : ∀ other ∈ collector.openWorklist roots category,
        collector.Attains roots.scope unheld other := attains_openWorklist lawful phase
    have marks := Heap.Marks.markSome collector.budget opens fun _ _ => Attains.child
    rw [marked] at marks
    exact marks.listed
  | markedAll => simp [nextCycle]

/-- A pending proxy in play after a step was so before. -/
theorem Stepped.pending {completed : Bool} (stepped : Stepped collector roots completed after)
    (lawful : collector.heap.Lawful) {proxy : Proxy} (busy : after.cycle.phase ≠ .linkPending)
    (named : after.heap.proxy? handle = some proxy) (pending : proxy.residence = .pending) :
    collector.cycle.phase ≠ .linkPending ∧
      ∃ old, collector.heap.proxy? handle = some old ∧ old.residence = .pending := by
  cases stepped with
  | linking phase => exact absurd phase busy
  | linkedAll phase all =>
    have listed := ((lawful.linked collector.budget).mem_pending_iff named).mpr pending
    simp [(collector.heap.linked_lists collector.budget).2.2.1, all] at listed
  | clearing phase | clearedAll phase =>
    refine ⟨by simp [phase], ?_⟩
    replace named : (collector.heap.cleared collector.budget).proxy? handle = some proxy := named
    rw [Heap.proxy?_cleared] at named
    split at named
    · obtain ⟨old, known, rfl⟩ := Option.map_eq_some_iff.mp named
      exact ⟨old, known, pending⟩
    · exact ⟨proxy, named, pending⟩
  | marking _ phase _ _ marked | markedAll _ phase _ marked =>
    obtain ⟨_, _, known⟩ := (Heap.darkens_of_markSome marked).origin named
    exact ⟨by simp [phase], _, known, pending⟩
  | sifting phase | siftedAll phase =>
    refine ⟨by simp [phase], ?_⟩
    replace named : (collector.heap.sifted collector.budget).proxy? handle = some proxy := named
    rw [Heap.proxy?_sifted] at named
    split at named
    · obtain ⟨old, _, rfl⟩ := Option.map_eq_some_iff.mp named
      simp at pending
    · exact ⟨proxy, named, pending⟩
  | disposing phase =>
    refine ⟨by simp [phase], ?_⟩
    replace named :
        (collector.heap.disposeSome collector.budget).2.2.proxy? handle = some proxy := named
    exact ⟨proxy, (Heap.proxy?_of_disposeSome named).2, pending⟩
  | disposedAll phase => simp [complete, nextCycle, phase, Phase.next] at busy

/-- A step lets marking come to nothing that it could not come to before. -/
theorem Stepped.attains {completed : Bool} (stepped : Stepped collector roots completed after)
    (lawful : collector.heap.Lawful) (attained : after.Attains roots.scope unheld handle) :
    collector.Attains roots.scope unheld handle := by
  apply Heap.Reaches.of_origins (stepped.reaches attained)
  rintro start (root | pins | none | listed | ⟨busy, proxy, named, pending⟩)
  · exact .start (.inl root)
  · exact .start (.inr (.inl pins))
  · exact none.elim
  · exact stepped.attains_worklist lawful start listed
  · exact .start (.inr (.inr (.inr (.inr (stepped.pending lawful busy named pending)))))

/-- The slot of the handle has been disposed of by the collection under way. -/
structure Retires (collector : Collector) (handle : Handle) : Prop where
  /-- The collection is in its last phase. -/
  phase : collector.cycle.phase = .dispose
  /-- The slot is not to be disposed of again. -/
  unlisted : handle.index ∉ collector.heap.unmarked
  /-- The slot is at another generation. -/
  outdates : collector.heap.Outdates handle

/-- The collection under way disposes of the handle's proxy, or it has done so: marking does not
come to the proxy, or it is doomed, or its slot is at another generation. -/
def Forsakes (collector : Collector) (scope : Scope) (held : Handle → Prop) (handle : Handle) :
    Prop :=
  (collector.Fading handle ∧ ¬ collector.Attains scope held handle) ∨
    collector.Doomed handle ∨ collector.Retires handle

/-- What is not reached when no collection is under way is forsaken by the next one. -/
theorem forsakes_of_idle (orderly : collector.Orderly)
    (idle : collector.cycle.phase = .linkPending)
    (resolves : collector.heap.contains handle = true)
    (unreached : ¬ collector.Reaches scope held handle) :
    collector.Forsakes scope held handle := by
  obtain ⟨proxy, resolved⟩ := Heap.contains_iff.mp resolves
  by_cases condemned : proxy.residence = .unmarked
  · exact .inr (.inl ⟨proxy, resolved, .inl condemned⟩)
  · have unpinned : proxy.pinned = false := by
      by_contra pinned
      exact unreached (.start (.inr (.inl ⟨proxy, resolved, by simpa using pinned⟩)))
    have mortal : proxy.residence ≠ .immortal := by
      intro immortal
      rw [orderly.lawful.eq_null_of_immortal resolved immortal] at unreached
      exact unreached (reaches_null orderly.lawful scope held)
    have standing : proxy.residence = .pending ∨ proxy.residence = .active := by
      cases here : proxy.residence <;> simp_all
    refine .inl ⟨⟨?_, proxy, resolved, ?_⟩,
      fun attained => unreached (attained.reaches orderly idle)⟩
    · rw [orderly.worklist (by simp [idle, Phase.gathers])]
      simp
    · simpa only [idle] using And.intro unpinned standing

/-- Disposing of what is doomed retires its handle. -/
theorem Doomed.retires (doomed : collector.Doomed handle) (lawful : collector.heap.Lawful)
    (stepped : Stepped collector roots false after) :
    after.Doomed handle ∨ after.Retires handle := by
  refine (doomed.stepped lawful stepped).imp id fun gone => ?_
  obtain ⟨proxy, resolved, _⟩ := doomed
  have last : collector.cycle.phase = .dispose := by
    by_contra earlier
    have kept := stepped.keeps lawful resolved fun phase => absurd phase earlier
    simp [Heap.contains_iff.mpr kept] at gone
  cases stepped with
  | disposing phase more =>
    have inside : handle.index ∈ collector.heap.unmarked.take collector.budget := by
      by_contra outside
      simp [Heap.contains, Heap.proxy?_disposeSome, outside, resolved] at gone
    obtain ⟨outdates, unlisted⟩ := lawful.outdates_disposeSome resolved inside
    exact ⟨phase, unlisted, outdates⟩
  | linking phase | linkedAll phase | clearing phase | clearedAll phase | marking _ phase
  | markedAll _ phase | sifting phase | siftedAll phase => simp [phase] at last

/-- A slot that has been disposed of stays so to the end of the collection. -/
theorem Retires.stepped (retires : collector.Retires handle)
    (stepped : Stepped collector roots false after) : after.Retires handle := by
  obtain ⟨last, unlisted, outdates⟩ := retires
  cases stepped with
  | disposing phase more =>
    have outside : handle.index ∉ collector.heap.unmarked.take collector.budget :=
      fun inside => unlisted (List.mem_of_mem_take inside)
    exact ⟨phase, fun later => unlisted (List.mem_of_mem_drop later),
      outdates.disposeSome outside⟩
  | linking phase | linkedAll phase | clearing phase | clearedAll phase | marking _ phase
  | markedAll _ phase | sifting phase | siftedAll phase => simp [phase] at last

/-- A step that does not complete the collection leaves forsaken what is so. -/
theorem Forsakes.stepped (forsakes : collector.Forsakes roots.scope unheld handle)
    (orderly : collector.Orderly) (stepped : Stepped collector roots false after) :
    after.Forsakes roots.scope unheld handle := by
  have lawful := orderly.lawful
  rcases forsakes with ⟨fading, unattained⟩ | doomed | retires
  · have next := fading.stepped orderly _ unattained
      (fun _ phase => attains_openWorklist lawful phase) (fun _ _ => Attains.child) stepped
    refine next.imp (fun still => ⟨still, fun attained => ?_⟩) .inl
    exact unattained (stepped.attains lawful attained)
  · exact .inr (doomed.retires lawful stepped)
  · exact .inr (.inr (retires.stepped stepped))

/-- The end of a collection leaves nothing of what it has forsaken. -/
theorem Forsakes.completed (forsakes : collector.Forsakes scope held handle)
    (orderly : collector.Orderly) (stepped : Stepped collector roots true after) :
    after.heap.contains handle = false := by
  rcases forsakes with ⟨fading, _⟩ | doomed | retires
  · exact (fading.unfinished stepped).elim
  · exact doomed.completed orderly.lawful stepped
  · exact stepped.gone retires.outdates.contains

/-- A run of the collector disposes of what is forsaken. -/
theorem Forsakes.run (forsakes : collector.Forsakes roots.scope unheld handle)
    (orderly : collector.Orderly) : (collector.run roots).heap.contains handle = false := by
  obtain ⟨last, proceeds, finish⟩ := run_completes orderly roots
  have late : last.Orderly ∧ last.Forsakes roots.scope unheld handle := by
    clear finish
    induction proceeds with
    | refl => exact ⟨orderly, forsakes⟩
    | tail _ stepped hypothesis =>
      exact ⟨hypothesis.1.stepped stepped, hypothesis.2.stepped hypothesis.1 stepped⟩
  exact late.2.completed late.1 finish

/-- Unpinning leaves forsaken what is so. -/
theorem Forsakes.unpin (forsakes : collector.Forsakes scope held handle) {other : Handle}
    {heap : Heap} (done : collector.heap.setPinned other false = some heap) :
    { collector with heap }.Forsakes scope held handle := by
  rcases forsakes with ⟨fading, unattained⟩ | doomed | retires
  · refine .inl ⟨fading.unpin done, fun attained => unattained ?_⟩
    have before : collector.Reaches scope ({ collector with heap }.InPlay held) handle := by
      refine reaches_of_proxies (fun other proxy named => ?_) attained
      obtain ⟨old, known, cell, _, _, pins⟩ := Heap.origin_setPinned done named
      exact ⟨old, known, cell, pins rfl⟩
    refine before.mono fun other inPlay => inPlay.of_proxies rfl fun proxy named => ?_
    obtain ⟨old, known, _, residence, _⟩ := Heap.origin_setPinned done named
    exact ⟨old, known, residence⟩
  · exact .inr (.inl (doomed.setPinned done))
  · obtain ⟨phase, unlisted, outdates⟩ := retires
    refine .inr (.inr ?_)
    rcases Heap.setPinned_cases done with rfl | ⟨_, _, _, rfl⟩
    · exact ⟨phase, unlisted, outdates⟩
    · exact ⟨phase, unlisted, outdates.updateAt _ _⟩

end Collector

namespace View

variable {view after : View} {handle : Handle}

/-- What marking may come to in a view. -/
def Attains (view : View) : Handle → Prop := view.collector.Attains view.scope view.held

/-- What is reached in a view may be marked. -/
theorem attains_of_reaches (reached : view.Reaches handle) : view.Attains handle :=
  Collector.Attains.of_reaches reached

/-- A move lets marking come to nothing that it could not come to before, apart from what is new. -/
theorem Move.attains (move : Move view after) (orderly : view.collector.Orderly)
    (resolves : view.collector.heap.contains handle = true) (attained : after.Attains handle) :
    view.Attains handle := by
  cases move with
  | weaken roots holds =>
    apply Heap.Reaches.of_origins attained
    rintro start (⟨category, root⟩ | pins | holding | inPlay)
    · rcases roots category start root with known | ⟨known, _⟩
      · exact .start (.inl ⟨category, known⟩)
      · exact attains_of_reaches known
    · exact .start (.inr (.inl pins))
    · exact attains_of_reaches (holds start holding)
    · exact .start (.inr (.inr (.inr inPlay)))
  | shade stored reached =>
    have before := Collector.Safe.reaches_of_darkens (view.collector.darkens_shade stored) attained
    exact before.mono fun _ inPlay => inPlay.of_shade
  | @allocate cell pinned children =>
    have known : handle = (view.collector.allocate cell pinned).1 ∨ view.Attains handle := by
      refine Collector.Safe.reaches_of_allocate orderly
        (fun child listed => attains_of_reaches (children child listed))
        (Collector.Reaches.mono attained ?_)
      exact fun other inPlay => inPlay.of_allocate orderly
    refine known.resolve_left ?_
    rintro rfl
    simp [Heap.contains, orderly.fresh_allocate cell pinned] at resolves
  | @rewrite target stored proxy cell resolved proper children reached kind =>
    refine Collector.Safe.reaches_of_rewrite resolved children (attains_of_reaches reached)
      (Collector.Reaches.mono attained ?_)
    intro other inPlay
    refine inPlay.of_shade.of_proxies rfl fun found named => ?_
    obtain ⟨old, before, residence, _⟩ := Heap.origin_setCell resolved children named
    exact ⟨old, before, residence.symm⟩

/-- A move condemns nothing and disposes of nothing. -/
theorem Move.unmarked (move : Move view after) (orderly : view.collector.Orderly) :
    after.collector.heap.unmarked = view.collector.heap.unmarked := by
  cases move with
  | weaken => rfl
  | shade stored => exact (view.collector.darkens_shade stored).lists.2.2.2.2
  | @allocate cell pinned children => exact (orderly.lists_allocate cell pinned).2.2
  | @rewrite target stored proxy cell =>
    exact (Collector.darkens_shade { view.collector with
      heap := view.collector.heap.setCell target cell } stored).lists.2.2.2.2

/-- A move leaves outdated handles so. -/
theorem Move.outdates (move : Move view after)
    (outdates : view.collector.heap.Outdates handle) :
    after.collector.heap.Outdates handle := by
  have shades : ∀ {collector : Collector} (stored : Handle), collector.heap.Outdates handle →
      (collector.shade stored).heap.Outdates handle := by
    intro collector stored before
    rcases collector.shade_eq stored with ⟨_, same⟩ | ⟨_, marks⟩
    · rw [same]
      exact before
    · rw [marks]
      exact before.markAll [stored]
  cases move with
  | weaken => exact outdates
  | shade stored => exact shades stored outdates
  | allocate children => exact shades _ (outdates.allocate _ _)
  | rewrite => exact shades _ (outdates.updateAt _ _)

/-- A move leaves forsaken what is so. -/
theorem Move.forsakes (move : Move view after) (orderly : view.collector.Orderly)
    (forsakes : view.collector.Forsakes view.scope view.held handle) :
    after.collector.Forsakes after.scope after.held handle := by
  rcases forsakes with ⟨fading, unattained⟩ | doomed | ⟨phase, unlisted, outdates⟩
  · obtain ⟨_, proxy, resolved, _⟩ := id fading
    have resolves := Heap.contains_iff.mpr ⟨proxy, resolved⟩
    have unreached : ¬ view.Reaches handle := fun reached => unattained (.of_reaches reached)
    exact .inl ⟨move.fading orderly unreached fading,
      fun attained => unattained (move.attains orderly resolves attained)⟩
  · exact .inr (.inl (move.doomed orderly doomed))
  · have continues := Collector.continues_of_move move orderly
    exact .inr (.inr ⟨continues.cycle ▸ phase, move.unmarked orderly ▸ unlisted,
      move.outdates outdates⟩)

/-- Moves leave forsaken what is so. -/
theorem Moves.forsakes (moves : Moves view after) (orderly : view.collector.Orderly)
    (forsakes : view.collector.Forsakes view.scope view.held handle) :
    after.collector.Forsakes after.scope after.held handle := by
  induction moves with
  | refl => exact forsakes
  | tail earlier move hypothesis => exact move.forsakes (Moves.orderly earlier orderly) hypothesis

end View

end ScriptVm
