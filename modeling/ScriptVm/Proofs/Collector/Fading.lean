import ScriptVm.Proofs.Collector.Retention

/-!
# How a proxy fades

A proxy that marking does not come to is condemned by the sifting pass. What makes this happen is
stated phase by phase and for one proxy alone: it is not going to be gathered as a pinned one, it
has no mark, and it is not on the worklist. Steps keep this up to the end of marking, where the
proxy is doomed, as long as nothing that is still to be marked leads to it.
-/
namespace ScriptVm

namespace Collector

variable {collector after : Collector} {roots : RootSet} {handle : Handle}

/-- The pass that clears marks leaves a proxy without one, and does not gather it: it is ahead and
not pinned, or it has been passed. -/
def Cleared (collector : Collector) (handle : Handle) (proxy : Proxy) : Prop :=
  (handle.index ∈ collector.heap.active → proxy.pinned = false) ∧
    (handle.index ∉ collector.heap.active → proxy.marked = false)

/-- The handle names a proxy that marking is not going to come to by itself. -/
def Fading (collector : Collector) (handle : Handle) : Prop :=
  handle ∉ collector.cycle.worklist ∧
    ∃ proxy, collector.heap.proxy? handle = some proxy ∧
      match collector.cycle.phase with
      | .linkPending => proxy.pinned = false ∧
          (proxy.residence = .pending ∨ proxy.residence = .active)
      | .resetState => proxy.residence = .active ∧ collector.Cleared handle proxy
      | .mark _ => proxy.residence = .active ∧ proxy.marked = false
      | .collect | .dispose => False

/-- Linking a batch leaves the proxy among the pending or the active ones. -/
theorem Fading.linked (fading : collector.Fading handle)
    (phase : collector.cycle.phase = .linkPending) :
    ∃ proxy, (collector.heap.linked collector.budget).proxy? handle = some proxy ∧
      proxy.pinned = false ∧ (proxy.residence = .pending ∨ proxy.residence = .active) := by
  obtain ⟨_, proxy, resolved, holds⟩ := fading
  simp only [phase] at holds
  rw [Heap.proxy?_linked, resolved]
  split
  · exact ⟨_, rfl, holds.1, .inr rfl⟩
  · exact ⟨proxy, rfl, holds⟩

/-- Clearing a batch leaves the proxy active, and it is cleared relative to the rest of the pass;
it is not among the pinned ones of the batch. -/
theorem Fading.cleared (fading : collector.Fading handle)
    (phase : collector.cycle.phase = .resetState) :
    handle ∉ collector.heap.pinnedBatch collector.budget ++ collector.cycle.worklist ∧
      ∃ proxy, (collector.heap.cleared collector.budget).proxy? handle = some proxy ∧
        proxy.residence = .active ∧
        (handle.index ∈ collector.heap.active.drop collector.budget → proxy.pinned = false) ∧
        (handle.index ∉ collector.heap.active.drop collector.budget → proxy.marked = false) := by
  obtain ⟨unlisted, proxy, resolved, holds⟩ := fading
  simp only [phase] at holds
  obtain ⟨standing, ahead, passed⟩ := holds
  constructor
  · intro member
    rcases List.mem_append.mp member with pinned | listed
    · have inside := Heap.index_mem_of_mem_pinnedBatch pinned
      obtain ⟨found, named, pins⟩ := Heap.pins_of_mem_pinnedBatch pinned
      obtain rfl := Option.some.inj (resolved.symm.trans named)
      simp [ahead (List.mem_of_mem_take inside)] at pins
    · exact unlisted listed
  · rw [Heap.proxy?_cleared, resolved]
    split
    · refine ⟨_, rfl, standing, fun later => ?_, fun _ => rfl⟩
      exact ahead (List.mem_of_mem_drop later)
    · rename_i outside
      refine ⟨proxy, rfl, standing, fun later => ahead (List.mem_of_mem_drop later), ?_⟩
      intro past
      apply passed
      intro inside
      rw [← List.take_append_drop collector.budget collector.heap.active] at inside
      exact (List.mem_append.mp inside).elim outside past

/-- Marking a part of the worklist leaves the proxy without a mark, and off the worklist. -/
theorem Fading.marked (fading : collector.Fading handle) {category : RootCategory}
    (phase : collector.cycle.phase = .mark category) {allowed : Handle → Prop}
    (apart : ¬ allowed handle)
    (opens : ∀ other ∈ collector.openWorklist roots category, allowed other)
    (passes : ∀ other proxy, allowed other → collector.heap.proxy? other = some proxy →
      ∀ child ∈ proxy.cell.children, allowed child) {done : Bool} {heap : Heap}
    {rest : List Handle}
    (marked : collector.heap.markSome collector.budget (collector.openWorklist roots category) =
      (done, heap, rest)) :
    handle ∉ rest ∧ ∃ proxy, heap.proxy? handle = some proxy ∧
      proxy.residence = .active ∧ proxy.marked = false := by
  obtain ⟨_, proxy, resolved, holds⟩ := fading
  simp only [phase] at holds
  have marks := Heap.Marks.markSome collector.budget opens passes
  have darkens := Heap.darkens_of_markSome marked
  rw [marked] at marks
  obtain ⟨dark, _, named⟩ := darkens.proxies handle proxy resolved
  refine ⟨fun listed => apart (marks.listed handle listed), _, named, holds.1, ?_⟩
  cases dark with
  | false => rfl
  | true =>
    rcases marks.newly handle proxy _ resolved named rfl with earlier | holds'
    · simp [holds.2] at earlier
    · exact absurd holds' apart

/-- A step keeps a proxy fading, up to the end of marking; then it is doomed. -/
theorem Fading.stepped (fading : collector.Fading handle) (orderly : collector.Orderly)
    (allowed : Handle → Prop) (apart : ¬ allowed handle)
    (opens : ∀ category, collector.cycle.phase = .mark category →
      ∀ other ∈ collector.openWorklist roots category, allowed other)
    (passes : ∀ other proxy, allowed other → collector.heap.proxy? other = some proxy →
      ∀ child ∈ proxy.cell.children, allowed child)
    {completed : Bool} (stepped : Stepped collector roots completed after) :
    after.Fading handle ∨ after.Doomed handle := by
  have lawful := orderly.lawful
  have unlisted := fading.1
  cases stepped with
  | linking phase more =>
    obtain ⟨proxy, named, holds⟩ := fading.linked phase
    exact .inl ⟨unlisted, proxy, named, by simpa only [phase] using holds⟩
  | linkedAll phase all =>
    obtain ⟨proxy, named, loose, standing⟩ := fading.linked phase
    have lawful' := lawful.linked collector.budget
    have active : proxy.residence = .active := by
      refine standing.resolve_left fun pending => ?_
      have listed := (lawful'.mem_pending_iff named).mpr pending
      simp [(Heap.linked_lists collector.budget collector.heap).2.2.1, all] at listed
    have ahead : handle.index ∈ (collector.heap.linked collector.budget).rewind.active := by
      have listed := (lawful'.rewind.mem_active_iff named).mpr active
      simpa [Heap.rewind] using listed
    refine .inl ⟨unlisted, proxy, named, ?_⟩
    simp only [nextCycle, phase, Phase.next]
    exact ⟨active, fun _ => loose, absurd ahead⟩
  | clearing phase more =>
    obtain ⟨unlisted', proxy, named, active, cleared⟩ := fading.cleared phase
    refine .inl ⟨unlisted', proxy, named, ?_⟩
    simp only [phase, Cleared, (Heap.cleared_lists collector.budget collector.heap).2.2.2.1]
    exact ⟨active, cleared⟩
  | clearedAll phase all =>
    obtain ⟨unlisted', proxy, named, active, _, passed⟩ := fading.cleared phase
    refine .inl ⟨unlisted', proxy, named, ?_⟩
    simp only [nextCycle, phase, Phase.next]
    exact ⟨active, passed (by simp [all])⟩
  | marking category phase heap rest marked =>
    obtain ⟨unlisted', proxy, named, holds⟩ :=
      fading.marked phase apart (opens category phase) passes marked
    exact .inl ⟨unlisted', proxy, named, by simpa only [phase] using holds⟩
  | markedAll category phase heap marked =>
    obtain ⟨unlisted', proxy, named, active, light⟩ :=
      fading.marked phase apart (opens category phase) passes marked
    by_cases last : category = .executions
    · subst last
      have darkens := Heap.darkens_of_markSome marked
      have empty : heap.kept = [] :=
        darkens.lists.2.2.2.1.trans (orderly.kept (by simp [phase, Phase.passes]))
      have listed := ((darkens.lawful lawful).mem_active_iff named).mpr active
      refine .inr ⟨proxy, named, .inr ⟨?_, light, by simpa [empty] using listed⟩⟩
      simp [nextCycle, phase, Phase.next]
    · refine .inl ⟨unlisted', proxy, named, ?_⟩
      cases category <;> simp_all [nextCycle, Phase.next]
  | sifting phase | siftedAll phase | disposing phase | disposedAll phase =>
    obtain ⟨_, _, _, holds⟩ := fading
    simp only [phase] at holds

/-- No collection is completed while a proxy fades. -/
theorem Fading.unfinished (fading : collector.Fading handle)
    (finish : Stepped collector roots true after) : False := by
  obtain ⟨_, _, _, holds⟩ := fading
  cases finish with
  | disposedAll phase => simp only [phase] at holds

/-- Shading marks nothing but what the shaded handle leads to, and only while roots are marked. -/
theorem marked_of_shade (collector : Collector) {stored : Handle} (allowed : Handle → Prop)
    (begins : allowed stored)
    (passes : ∀ other proxy, allowed other → collector.heap.proxy? other = some proxy →
      ∀ child ∈ proxy.cell.children, allowed child) {proxy changed : Proxy}
    (resolved : collector.heap.proxy? handle = some proxy)
    (named : (collector.shade stored).heap.proxy? handle = some changed)
    (dark : changed.marked = true) :
    proxy.marked = true ∨ collector.cycle.marking = true ∧ allowed handle := by
  rcases collector.shade_eq stored with ⟨_, same⟩ | ⟨begun, marks⟩
  · rw [same] at named
    obtain rfl := Option.some.inj (resolved.symm.trans named)
    exact .inl dark
  · rw [marks] at named
    have listed : ∀ other ∈ [stored], allowed other := by simpa using begins
    exact ((Heap.Marks.markAll listed passes).newly handle proxy changed resolved named dark).imp
      id fun holds => ⟨begun, holds⟩

/-- Pinning and unpinning change one flag of a proxy at most. -/
theorem proxy_of_setPinned {other : Handle} {flag : Bool} {heap : Heap}
    (done : collector.heap.setPinned other flag = some heap) {proxy : Proxy}
    (resolved : collector.heap.proxy? handle = some proxy) :
    heap.proxy? handle = some proxy ∨
      other = handle ∧ heap.proxy? handle = some { proxy with pinned := flag } := by
  rcases Heap.setPinned_cases done with rfl | ⟨found, known, _, rfl⟩
  · exact .inl resolved
  · rw [Heap.proxy?_updateAt, resolved]
    split
    · rename_i here
      exact .inr ⟨Heap.handle_eq_of_index_eq known resolved here, rfl⟩
    · exact .inl rfl

/-- Pinning and unpinning leave the lists as they are. -/
theorem active_of_setPinned {other : Handle} {flag : Bool} {heap : Heap}
    (done : collector.heap.setPinned other flag = some heap) :
    heap.active = collector.heap.active := by
  rcases Heap.setPinned_cases done with rfl | ⟨_, _, _, rfl⟩ <;> rfl

/-- Unpinning keeps a proxy fading. -/
theorem Fading.unpin (fading : collector.Fading handle) {other : Handle} {heap : Heap}
    (done : collector.heap.setPinned other false = some heap) :
    { collector with heap }.Fading handle := by
  obtain ⟨unlisted, proxy, resolved, holds⟩ := fading
  have active := active_of_setPinned done
  rcases proxy_of_setPinned done resolved with named | ⟨_, named⟩
  · refine ⟨unlisted, proxy, named, ?_⟩
    dsimp only [Cleared]
    rw [active]
    exact holds
  · refine ⟨unlisted, _, named, ?_⟩
    dsimp only [Cleared]
    rw [active]
    cases phase : collector.cycle.phase with
    | linkPending | mark => simp_all
    | resetState =>
      simp only [phase, Cleared] at holds ⊢
      exact ⟨holds.1, fun _ => trivial, holds.2.2⟩
    | collect | dispose => simp only [phase] at holds

/-- Pinning and unpinning do not save what is doomed. -/
theorem Doomed.setPinned (doomed : collector.Doomed handle) {other : Handle} {flag : Bool}
    {heap : Heap} (done : collector.heap.setPinned other flag = some heap) :
    { collector with heap }.Doomed handle := by
  obtain ⟨proxy, resolved, reason⟩ := doomed
  rw [← active_of_setPinned done] at reason
  rcases proxy_of_setPinned done resolved with named | ⟨_, named⟩
  · exact ⟨proxy, named, reason⟩
  · exact ⟨_, named, reason⟩

end Collector

namespace View

variable {view after : View} {handle : Handle}

/-- A move leaves a proxy where it stands and with its pin. It gets no mark unless roots are being
marked and it is reached. -/
theorem Move.proxies (move : Move view after) (orderly : view.collector.Orderly) {proxy : Proxy}
    (resolved : view.collector.heap.proxy? handle = some proxy) :
    ∃ changed, after.collector.heap.proxy? handle = some changed ∧
      changed.residence = proxy.residence ∧ changed.pinned = proxy.pinned ∧
      (changed.marked = true → proxy.marked = true ∨
        view.collector.cycle.marking = true ∧ view.Reaches handle) := by
  cases move with
  | weaken => exact ⟨proxy, resolved, rfl, rfl, .inl⟩
  | shade stored reached =>
    obtain ⟨_, _, named⟩ :=
      (view.collector.darkens_shade stored).proxies handle proxy resolved
    refine ⟨_, named, rfl, rfl, fun dark => ?_⟩
    exact view.collector.marked_of_shade view.Reaches reached
      (fun _ _ above found _ => .child above found) resolved named dark
  | @allocate cell pinned children =>
    have allocates := view.collector.heap.allocates cell pinned orderly.lawful.vacant
    rw [Collector.allocate_eq]
    generalize (view.collector.heap.allocate cell pinned).1 = fresh at allocates ⊢
    generalize (view.collector.heap.allocate cell pinned).2 = heap at allocates ⊢
    have apart : handle ≠ fresh := by
      rintro rfl
      simp [allocates.fresh] at resolved
    have still : heap.proxy? handle = some proxy := by
      rw [allocates.proxies, if_neg apart, resolved]
    obtain ⟨_, _, named⟩ :=
      (Collector.darkens_shade { view.collector with heap } fresh).proxies handle proxy still
    refine ⟨_, named, rfl, rfl, fun dark => ?_⟩
    have marks := Collector.marked_of_shade { view.collector with heap }
      (fun other => other = fresh ∨ view.Reaches other) (.inl rfl) ?_ still named dark
    · exact marks.imp id (And.imp id (Or.resolve_left · apart))
    · intro other found holds known child listed
      right
      dsimp only at known
      rw [allocates.proxies] at known
      split at known
      · obtain rfl := Option.some.inj known
        exact children child listed
      · rename_i old
        exact .child (holds.resolve_left old) known listed
  | @rewrite target stored written cell known proper children reached kind =>
    have still : (view.collector.heap.setCell target cell).proxy? handle =
        some (if target.index = handle.index then { proxy with cell } else proxy) := by
      rw [Heap.setCell, Heap.proxy?_updateAt, resolved]
      split <;> rfl
    obtain ⟨_, _, named⟩ := (Collector.darkens_shade { view.collector with
      heap := view.collector.heap.setCell target cell } stored).proxies handle _ still
    refine ⟨_, named, by dsimp only; split <;> rfl, by dsimp only; split <;> rfl, fun dark => ?_⟩
    have marks := Collector.marked_of_shade { view.collector with
      heap := view.collector.heap.setCell target cell } view.Reaches reached ?_ still named dark
    · refine marks.imp (fun earlier => ?_) id
      split at earlier <;> exact earlier
    · intro other found above named child listed
      obtain ⟨old, before, _, _, _, more⟩ := Heap.origin_setCell known children named
      rcases more child listed with earlier | rfl
      · exact .child above before earlier
      · exact reached

/-- A move keeps a proxy fading that is not reached. -/
theorem Move.fading (move : Move view after) (orderly : view.collector.Orderly)
    (unreached : ¬ view.Reaches handle) (fading : view.collector.Fading handle) :
    after.collector.Fading handle := by
  have continues := Collector.continues_of_move move orderly
  obtain ⟨unlisted, proxy, resolved, holds⟩ := fading
  obtain ⟨changed, named, residence, pinned, marked⟩ := move.proxies orderly resolved
  have light : proxy.marked = false → changed.marked = false := by
    intro before
    by_contra dark
    rcases marked (by simpa using dark) with earlier | ⟨_, reached⟩
    · simp [before] at earlier
    · exact unreached reached
  refine ⟨continues.cycle ▸ unlisted, changed, named, ?_⟩
  rw [continues.cycle]
  cases phase : view.collector.cycle.phase with
  | linkPending =>
    simp only [phase] at holds ⊢
    rw [residence, pinned]
    exact holds
  | resetState =>
    simp only [phase, Collector.Cleared] at holds ⊢
    rw [residence, pinned, continues.active]
    exact ⟨holds.1, holds.2.1, fun passed => light (holds.2.2 passed)⟩
  | mark =>
    simp only [phase] at holds ⊢
    rw [residence]
    exact ⟨holds.1, light holds.2⟩
  | collect | dispose => simp only [phase] at holds

/-- A move does not save what is doomed. -/
theorem Move.doomed (move : Move view after) (orderly : view.collector.Orderly)
    (doomed : view.collector.Doomed handle) : after.collector.Doomed handle := by
  have continues := Collector.continues_of_move move orderly
  obtain ⟨proxy, resolved, reason⟩ := doomed
  obtain ⟨changed, named, residence, _, marked⟩ := move.proxies orderly resolved
  refine ⟨changed, named, ?_⟩
  rw [residence, continues.cycle, continues.active]
  refine reason.imp id ?_
  rintro ⟨phase, light, ahead⟩
  refine ⟨phase, ?_, ahead⟩
  by_contra dark
  rcases marked (by simpa using dark) with earlier | ⟨begun, _⟩
  · simp [light] at earlier
  · simp [Cycle.marking, phase] at begun

end View

end ScriptVm
