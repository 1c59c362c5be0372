import ScriptVm.Proofs.Collector.Fading

/-!
# Pins that come during a collection

Pins are looked at only while marks are cleared. A proxy that is pinned later in a collection is
kept all the same if it is pending, or if the collection keeps it anyway: marks are still to be
cleared for it, or it is marked or to be marked, or the sifting pass has let it through. In all
other cases the pin comes too late for the collection under way.
-/
namespace ScriptVm

namespace Collector

variable {collector after : Collector} {roots : RootSet} {handle : Handle}

/-- The collection under way keeps an active proxy if it is pinned: marks are still to be cleared
for it, or it is marked or to be marked, or it has passed. -/
def Spares (collector : Collector) (handle : Handle) (proxy : Proxy) : Prop :=
  match collector.cycle.phase with
  | .resetState => handle.index ∈ collector.heap.active ∨ proxy.marked = true ∨
      handle ∈ collector.cycle.worklist
  | .mark _ => proxy.marked = true ∨ handle ∈ collector.cycle.worklist
  | .collect => handle.index ∉ collector.heap.active ∨ proxy.marked = true
  | .linkPending | .dispose => True

/-- The collection under way does not dispose of the proxy if it is pinned. -/
def Heeds (collector : Collector) (handle : Handle) : Prop :=
  ∃ proxy, collector.heap.proxy? handle = some proxy ∧ proxy.residence ≠ .unmarked ∧
    (proxy.residence = .active → collector.Spares handle proxy)

/-- A pinned proxy that the collection under way does not dispose of. -/
structure Shelters (collector : Collector) (handle : Handle) : Prop where
  /-- It is pinned. -/
  pins : collector.heap.Pins handle
  /-- The pin came in time, or it is not needed. -/
  heeds : collector.Heeds handle

/-- What is heeded resolves. -/
theorem Heeds.resolves (heeds : collector.Heeds handle) :
    collector.heap.contains handle = true := by
  obtain ⟨proxy, resolved, _⟩ := heeds
  exact Heap.contains_iff.mpr ⟨proxy, resolved⟩

/-- Linking a batch leaves a heeded proxy in place. -/
theorem Heeds.linked (heeds : collector.Heeds handle) :
    ∃ proxy, (collector.heap.linked collector.budget).proxy? handle = some proxy ∧
      proxy.residence ≠ .unmarked := by
  obtain ⟨proxy, resolved, standing, _⟩ := heeds
  rw [Heap.proxy?_linked, resolved]
  split
  · exact ⟨_, rfl, by simp⟩
  · exact ⟨proxy, rfl, standing⟩

/-- Clearing a batch gathers a sheltered proxy, unless it is still ahead. -/
theorem Shelters.cleared (shelters : collector.Shelters handle)
    (phase : collector.cycle.phase = .resetState) :
    ∃ proxy, (collector.heap.cleared collector.budget).proxy? handle = some proxy ∧
      proxy.residence ≠ .unmarked ∧ (proxy.residence = .active →
        handle.index ∈ collector.heap.active.drop collector.budget ∨ proxy.marked = true ∨
          handle ∈ collector.heap.pinnedBatch collector.budget ++ collector.cycle.worklist) := by
  obtain ⟨⟨pinned, known, pins⟩, proxy, resolved, standing, secured⟩ := shelters
  obtain rfl := Option.some.inj (known.symm.trans resolved)
  simp only [Spares, phase] at secured
  rw [Heap.proxy?_cleared, resolved]
  by_cases inside : handle.index ∈ collector.heap.active.take collector.budget
  · rw [if_pos inside]
    refine ⟨_, rfl, standing, fun _ => .inr (.inr ?_)⟩
    exact List.mem_append_left _ (Heap.mem_pinnedBatch resolved pins inside)
  · rw [if_neg inside]
    refine ⟨pinned, rfl, standing, fun active => ?_⟩
    rcases secured active with ahead | marked | listed
    · rw [← List.take_append_drop collector.budget collector.heap.active] at ahead
      exact .inl ((List.mem_append.mp ahead).resolve_left inside)
    · exact .inr (.inl marked)
    · exact .inr (.inr (List.mem_append_right _ listed))

/-- Marking a part of the worklist keeps a heeded proxy marked or to be marked. -/
theorem Heeds.marked (heeds : collector.Heeds handle) {category : RootCategory}
    (phase : collector.cycle.phase = .mark category) {done : Bool} {heap : Heap}
    {rest : List Handle}
    (marked : collector.heap.markSome collector.budget (collector.openWorklist roots category) =
      (done, heap, rest)) :
    ∃ proxy, heap.proxy? handle = some proxy ∧ proxy.residence ≠ .unmarked ∧
      (proxy.residence = .active → proxy.marked = true ∨ handle ∈ rest) := by
  obtain ⟨proxy, resolved, standing, secured⟩ := heeds
  simp only [Spares, phase] at secured
  obtain ⟨dark, _, named⟩ := (Heap.darkens_of_markSome marked).proxies handle proxy resolved
  refine ⟨_, named, standing, fun active => ?_⟩
  have longer := collector.worklist_subset_openWorklist roots category
  have covered : collector.heap.Covered (collector.openWorklist roots category) handle := by
    intro found known
    obtain rfl := Option.some.inj (resolved.symm.trans known)
    exact (secured active).imp id fun listed => longer listed
  have after := covered.markSome collector.budget
  rw [marked] at after
  exact after _ named

/-- A sifted batch does not condemn a heeded proxy. -/
theorem Heeds.sifted (heeds : collector.Heeds handle) (lawful : collector.heap.Lawful)
    (phase : collector.cycle.phase = .collect) :
    ∃ proxy, (collector.heap.sifted collector.budget).proxy? handle = some proxy ∧
      proxy.residence ≠ .unmarked ∧ (proxy.residence = .active →
        handle.index ∉ collector.heap.active.drop collector.budget ∨ proxy.marked = true) := by
  obtain ⟨proxy, resolved, standing, secured⟩ := heeds
  simp only [Spares, phase] at secured
  have spared : handle.index ∉ collector.heap.condemnedBatch collector.budget := by
    intro condemned
    obtain ⟨active, light⟩ := lawful.of_mem_condemnedBatch resolved condemned
    rcases secured active with behind | marked
    · exact behind (Heap.mem_active_of_mem_condemnedBatch collector.budget condemned)
    · simp [marked] at light
  refine ⟨proxy, by rw [Heap.proxy?_sifted, if_neg spared, resolved], standing, fun active => ?_⟩
  exact (secured active).imp (fun behind later => behind (List.mem_of_mem_drop later)) id

/-- A step heeds a sheltered proxy. -/
theorem Shelters.heeds_stepped (shelters : collector.Shelters handle) (orderly : collector.Orderly)
    {completed : Bool} (stepped : Stepped collector roots completed after) :
    after.Heeds handle := by
  have lawful := orderly.lawful
  have heeds := shelters.heeds
  obtain ⟨proxy, resolved, standing, _⟩ := id heeds
  cases stepped with
  | linking phase =>
    obtain ⟨kept, named, spared⟩ := heeds.linked
    exact ⟨kept, named, spared, by simp [Spares, phase]⟩
  | linkedAll phase =>
    obtain ⟨kept, named, spared⟩ := heeds.linked
    refine ⟨kept, named, spared, fun active => ?_⟩
    have listed := ((lawful.linked collector.budget).rewind.mem_active_iff named).mpr active
    simp only [Spares, nextCycle, phase, Phase.next]
    exact .inl (listed.resolve_right (by simp [Heap.rewind]))
  | clearing phase more =>
    obtain ⟨kept, named, spared, secured⟩ := shelters.cleared phase
    refine ⟨kept, named, spared, ?_⟩
    have lists := collector.heap.cleared_lists collector.budget
    simpa only [Spares, phase, lists.2.2.2.1] using secured
  | clearedAll phase all =>
    obtain ⟨kept, named, spared, secured⟩ := shelters.cleared phase
    refine ⟨kept, named, spared, ?_⟩
    simpa [Spares, nextCycle, phase, Phase.next, all] using secured
  | marking category phase heap rest marked =>
    obtain ⟨kept, named, spared, secured⟩ := heeds.marked phase marked
    exact ⟨kept, named, spared, by simpa only [Spares, phase] using secured⟩
  | markedAll category phase heap marked =>
    obtain ⟨kept, named, spared, secured⟩ := heeds.marked phase marked
    refine ⟨kept, named, spared, fun active => ?_⟩
    have dark : kept.marked = true := by simpa using secured active
    cases category <;> simp [Spares, nextCycle, phase, Phase.next, dark]
  | sifting phase more =>
    obtain ⟨kept, named, spared, secured⟩ := heeds.sifted lawful phase
    refine ⟨kept, named, spared, ?_⟩
    have lists := collector.heap.sifted_lists collector.budget
    simpa only [Spares, phase, lists.2.2.2.1] using secured
  | siftedAll phase all =>
    obtain ⟨kept, named, spared, _⟩ := heeds.sifted lawful phase
    exact ⟨kept, named, spared, by simp [Spares, nextCycle, phase, Phase.next]⟩
  | disposing phase | disposedAll phase =>
    have outside : handle.index ∉ collector.heap.unmarked.take collector.budget := by
      intro condemned
      exact standing ((lawful.mem_unmarked_iff resolved).mp (List.mem_of_mem_take condemned))
    refine ⟨proxy, ?_, standing, by simp [Spares, complete, nextCycle, phase, Phase.next]⟩
    show (collector.heap.disposeSome collector.budget).2.2.proxy? handle = _
    rw [Heap.proxy?_disposeSome, if_neg outside, resolved]

/-- A step shelters a sheltered proxy. -/
theorem Shelters.stepped (shelters : collector.Shelters handle) (orderly : collector.Orderly)
    {completed : Bool} (stepped : Stepped collector roots completed after) :
    after.Shelters handle := by
  have heeds := shelters.heeds_stepped orderly stepped
  obtain ⟨proxy, named, _⟩ := id heeds
  obtain ⟨old, known, _, pinned⟩ := stepped.proxies named
  obtain ⟨found, resolved, pins⟩ := shelters.pins
  obtain rfl := Option.some.inj (known.symm.trans resolved)
  exact ⟨⟨proxy, named, pinned.symm.trans pins⟩, heeds⟩

/-- A sheltered proxy stays so when a collection is given up. -/
theorem Shelters.reset (shelters : collector.Shelters handle) :
    collector.reset.Shelters handle := by
  obtain ⟨pins, proxy, resolved, standing, _⟩ := shelters
  exact ⟨pins, proxy, resolved, standing, by simp [Spares, Collector.reset]⟩

/-- What is heeded stays so without steps. -/
theorem Heeds.continues (heeds : collector.Heeds handle) (continues : Continues collector after) :
    after.Heeds handle := by
  obtain ⟨proxy, resolved, standing, secured⟩ := heeds
  obtain ⟨changed, named, residence, marked, _⟩ := continues.proxies handle proxy resolved
  refine ⟨changed, named, residence ▸ standing, fun active => ?_⟩
  have before := secured (residence.symm.trans active)
  unfold Spares at before ⊢
  rw [continues.cycle, continues.active]
  cases phase : collector.cycle.phase with
  | linkPending | dispose => trivial
  | resetState =>
    simp only [phase] at before ⊢
    exact before.imp id (Or.imp marked id)
  | mark =>
    simp only [phase] at before ⊢
    exact before.imp marked id
  | collect =>
    simp only [phase] at before ⊢
    exact before.imp id marked

/-- Pinning and unpinning do not change what is heeded. -/
theorem heeds_setPinned_iff {other : Handle} {flag : Bool} {heap : Heap}
    (done : collector.heap.setPinned other flag = some heap) :
    { collector with heap }.Heeds handle ↔ collector.Heeds handle := by
  refine ⟨?_, fun heeds => heeds.continues (.setPinned done)⟩
  rintro ⟨changed, named, standing, secured⟩
  obtain ⟨old, known, _, residence, marked, _⟩ := Heap.origin_setPinned done named
  refine ⟨old, known, residence ▸ standing, fun active => ?_⟩
  have spared := secured (residence.symm.trans active)
  unfold Spares at spared ⊢
  rw [marked, ← active_of_setPinned done]
  exact spared

/-- A sheltered proxy stays so when another one is pinned or unpinned, or when it is pinned
again. -/
theorem Shelters.setPinned (shelters : collector.Shelters handle) {other : Handle} {flag : Bool}
    {heap : Heap} (done : collector.heap.setPinned other flag = some heap)
    (spared : other = handle → flag = true) : { collector with heap }.Shelters handle := by
  refine ⟨?_, (heeds_setPinned_iff done).mpr shelters.heeds⟩
  obtain ⟨proxy, resolved, pins⟩ := shelters.pins
  rcases proxy_of_setPinned done resolved with named | ⟨same, named⟩
  · exact ⟨proxy, named, pins⟩
  · exact ⟨_, named, spared same⟩

/-- What is not heeded is doomed, or marking is not going to come to it by itself. -/
theorem doomed_or_fading_of_not_heeds (resolves : collector.heap.contains handle = true)
    (unheeded : ¬ collector.Heeds handle) :
    collector.Doomed handle ∨ collector.Fading handle := by
  obtain ⟨proxy, resolved⟩ := Heap.contains_iff.mp resolves
  by_cases condemned : proxy.residence = .unmarked
  · exact .inl ⟨proxy, resolved, .inl condemned⟩
  · have late : proxy.residence = .active ∧ ¬ collector.Spares handle proxy := by
      by_contra early
      refine unheeded ⟨proxy, resolved, condemned, fun active => ?_⟩
      exact not_not.mp fun lost => early ⟨active, lost⟩
    obtain ⟨active, lost⟩ := late
    unfold Spares at lost
    cases phase : collector.cycle.phase with
    | linkPending | dispose => simp [phase] at lost
    | resetState =>
      simp only [phase, not_or, Bool.not_eq_true] at lost
      refine .inr ⟨lost.2.2, proxy, resolved, ?_⟩
      simp only [phase]
      exact ⟨active, fun ahead => absurd ahead lost.1, fun _ => lost.2.1⟩
    | mark =>
      simp only [phase, not_or, Bool.not_eq_true] at lost
      refine .inr ⟨lost.2, proxy, resolved, ?_⟩
      simp only [phase]
      exact ⟨active, lost.1⟩
    | collect =>
      simp only [phase, not_or, not_not, Bool.not_eq_true] at lost
      exact .inl ⟨proxy, resolved, .inr ⟨phase, lost.2, lost.1⟩⟩

/-- A fading proxy is not among what a mark phase takes, unless it is a root. -/
theorem Fading.not_mem_openWorklist (fading : collector.Fading handle)
    (lawful : collector.heap.Lawful) (unrooted : ∀ category, handle ∉ roots category)
    {category : RootCategory} (phase : collector.cycle.phase = .mark category) :
    handle ∉ collector.openWorklist roots category := by
  obtain ⟨unlisted, proxy, resolved, holds⟩ := fading
  simp only [phase] at holds
  have linked : handle ∉ collector.heap.pending.map collector.heap.handleAt := by
    intro listed
    obtain ⟨index, member, rfl⟩ := List.mem_map.mp listed
    have pending := (lawful.mem_pending_iff resolved).mp (by simpa using member)
    simp [holds.1] at pending
  have untaken : ∀ category, handle ∉ (roots category).reverse := fun category =>
    mt List.mem_reverse.mp (unrooted category)
  unfold openWorklist
  split
  · exact unlisted
  · rw [List.mem_append, not_or]
    refine ⟨unlisted, ?_⟩
    cases category with
    | constants | globals | functions => exact untaken _
    | executions =>
      rw [takeRoots, List.mem_append, not_or]
      exact ⟨linked, untaken _⟩

/-- Nothing refers to the handle's proxy, except itself. -/
def Alone (collector : Collector) (handle : Handle) : Prop :=
  ∀ other proxy, collector.heap.proxy? other = some proxy → handle ∈ proxy.cell.children →
    other = handle

/-- A step makes no reference. -/
theorem Alone.stepped (alone : collector.Alone handle) {completed : Bool}
    (stepped : Stepped collector roots completed after) : after.Alone handle := by
  intro other proxy named listed
  obtain ⟨old, known, cell, _⟩ := stepped.proxies named
  exact alone other old known (cell ▸ listed)

/-- Pinning and unpinning make no reference. -/
theorem Alone.setPinned (alone : collector.Alone handle) {target : Handle} {flag : Bool}
    {heap : Heap} (done : collector.heap.setPinned target flag = some heap) :
    { collector with heap }.Alone handle := by
  intro other proxy named listed
  obtain ⟨old, known, cell, _⟩ := Heap.origin_setPinned done named
  exact alone other old known (cell ▸ listed)

/-- A run disposes of a proxy that is not heeded, when neither a root nor another proxy refers to
it. -/
theorem gone_of_not_heeds (orderly : collector.Orderly)
    (resolves : collector.heap.contains handle = true) (unheeded : ¬ collector.Heeds handle)
    (unrooted : ∀ category, handle ∉ roots category) (alone : collector.Alone handle) :
    (collector.run roots).heap.contains handle = false := by
  obtain ⟨last, proceeds, finish⟩ := run_completes orderly roots
  have late : last.Orderly ∧ last.Alone handle ∧
      (last.Doomed handle ∨ last.Fading handle ∨ last.heap.contains handle = false) := by
    clear finish
    induction proceeds with
    | refl =>
      exact ⟨orderly, alone, (doomed_or_fading_of_not_heeds resolves unheeded).imp id .inl⟩
    | tail _ stepped hypothesis =>
      obtain ⟨orderly, alone, fate⟩ := hypothesis
      refine ⟨orderly.stepped stepped, alone.stepped stepped, ?_⟩
      rcases fate with doomed | fading | gone
      · exact (doomed.stepped orderly.lawful stepped).imp id .inr
      · have next := fading.stepped orderly (· ≠ handle) (fun apart => apart rfl)
          (fun category phase other listed same =>
            fading.not_mem_openWorklist orderly.lawful unrooted phase (same ▸ listed))
          (fun other proxy apart resolved child listed same =>
            apart (alone other proxy resolved (same ▸ listed))) stepped
        exact next.symm.imp id .inl
      · exact .inr (.inr (stepped.gone gone))
  obtain ⟨orderly, _, doomed | fading | gone⟩ := late
  · exact doomed.completed orderly.lawful finish
  · exact (fading.unfinished finish).elim
  · exact finish.gone gone

end Collector

/-- A sheltered proxy stays so in a move. -/
theorem View.Move.shelters {view after : View} (move : Move view after)
    (orderly : view.collector.Orderly) {handle : Handle}
    (shelters : view.collector.Shelters handle) : after.collector.Shelters handle := by
  obtain ⟨proxy, resolved, pins⟩ := shelters.pins
  obtain ⟨changed, named, _, pinned, _⟩ := move.proxies orderly resolved
  exact ⟨⟨changed, named, pinned.trans pins⟩,
    shelters.heeds.continues (Collector.continues_of_move move orderly)⟩

/-- A sheltered proxy stays so in moves. -/
theorem View.Moves.shelters {view after : View} (moves : Moves view after)
    (orderly : view.collector.Orderly) {handle : Handle}
    (shelters : view.collector.Shelters handle) : after.collector.Shelters handle := by
  induction moves with
  | refl => exact shelters
  | tail earlier move hypothesis => exact move.shelters (Moves.orderly earlier orderly) hypothesis

end ScriptVm
