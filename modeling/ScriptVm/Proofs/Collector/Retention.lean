import ScriptVm.Proofs.Collector.Exactness

/-!
# Retention of a single proxy

A handle that is accepted while it still names a proxy may come too late: the proxy is condemned, or
the sifting pass has it ahead and it has no mark. Then the collection under way, or the next one
after it has been given up, disposes of it, whatever refers to it. Otherwise a global that holds the
handle keeps it: from the scan of the globals on, the proxy is marked or on the worklist. This needs
nothing of other handles, so it holds after all calls, those that store stale references included.
-/
namespace ScriptVm

namespace Collector

/-- The handle names a proxy that is condemned or about to be. -/
def Doomed (collector : Collector) (handle : Handle) : Prop :=
  ∃ proxy, collector.heap.proxy? handle = some proxy ∧ (proxy.residence = .unmarked ∨
    collector.cycle.phase = .collect ∧ proxy.marked = false ∧
      handle.index ∈ collector.heap.active)

/-- The handle names a proxy that lives as long as a global holds the handle. -/
structure Retains (collector : Collector) (handle : Handle) : Prop where
  /-- It names a proxy. -/
  resolves : collector.heap.contains handle = true
  /-- The proxy is not doomed. -/
  spared : ¬ collector.Doomed handle
  /-- Once the globals are scanned, the proxy is marked or to be marked. -/
  covered : collector.cycle.Scanned .globals →
    collector.heap.Covered collector.cycle.worklist handle

/-- A collector comes from another without steps: proxies stay where they are, they may get marks,
and their cells keep their kinds. -/
structure Continues (before after : Collector) : Prop where
  /-- The collection under way is at the same point. -/
  cycle : after.cycle = before.cycle
  /-- The pass has the same proxies ahead. -/
  active : after.heap.active = before.heap.active
  /-- No proxy is lost. -/
  proxies : ∀ handle proxy, before.heap.proxy? handle = some proxy →
    ∃ changed, after.heap.proxy? handle = some changed ∧ changed.residence = proxy.residence ∧
      (proxy.marked = true → changed.marked = true) ∧ changed.cell.kind? = proxy.cell.kind?

namespace Continues

variable {before middle after : Collector}

/-- Nothing happens. -/
theorem refl (collector : Collector) : Continues collector collector :=
  ⟨rfl, rfl, fun _ proxy resolved => ⟨proxy, resolved, rfl, id, rfl⟩⟩

/-- One thing happens after the other. -/
theorem trans (first : Continues before middle) (second : Continues middle after) :
    Continues before after := by
  refine ⟨second.cycle.trans first.cycle, second.active.trans first.active, ?_⟩
  intro handle proxy resolved
  obtain ⟨between, named, residence, marked, kind⟩ := first.proxies handle proxy resolved
  obtain ⟨last, named', residence', marked', kind'⟩ := second.proxies handle between named
  exact ⟨last, named', residence'.trans residence, marked' ∘ marked, kind'.trans kind⟩

/-- Marks are set. -/
theorem of_darkens {heap : Heap} (darkens : before.heap.Darkens heap) :
    Continues before { before with heap } := by
  refine ⟨rfl, darkens.lists.2.2.1, ?_⟩
  intro handle proxy resolved
  obtain ⟨marked, grows, named⟩ := darkens.proxies handle proxy resolved
  exact ⟨_, named, rfl, grows, rfl⟩

/-- A handle is shaded. -/
theorem shade (collector : Collector) (handle : Handle) :
    Continues collector (collector.shade handle) := by
  have darkens := collector.darkens_shade handle
  refine ⟨collector.cycle_shade handle, darkens.lists.2.2.1, ?_⟩
  exact (of_darkens darkens).proxies

/-- A proxy is allocated. -/
theorem allocate (orderly : before.Orderly) (cell : Cell) (pinned : Bool) :
    Continues before (before.allocate cell pinned).2 := by
  refine ⟨before.cycle_allocate cell pinned, (orderly.lists_allocate cell pinned).1, ?_⟩
  intro handle proxy resolved
  obtain ⟨_, grows, named⟩ := orderly.kept_allocate cell pinned resolved
  exact ⟨_, named, rfl, grows, rfl⟩

/-- The proxy in a slot is changed, but not where it stands, nor its mark or its kind. -/
theorem updateAt (index : Nat) {change : Proxy → Proxy}
    (keeps : ∀ proxy, before.heap.occupant? index = some proxy →
      (change proxy).residence = proxy.residence ∧ (change proxy).marked = proxy.marked ∧
        (change proxy).cell.kind? = proxy.cell.kind?) :
    Continues before { before with heap := before.heap.updateAt index change } := by
  refine ⟨rfl, rfl, ?_⟩
  intro handle proxy resolved
  by_cases here : index = handle.index
  · obtain ⟨residence, marked, kind⟩ := keeps proxy (here ▸ Heap.occupant?_of_proxy? resolved)
    refine ⟨change proxy, ?_, residence, fun dark => marked.trans dark, kind⟩
    rw [Heap.proxy?_updateAt, if_pos here, resolved]
    rfl
  · refine ⟨proxy, ?_, rfl, id, rfl⟩
    rw [Heap.proxy?_updateAt, if_neg here, resolved]

/-- A proxy is pinned or unpinned. -/
theorem setPinned {handle : Handle} {pinned : Bool} {heap : Heap}
    (done : before.heap.setPinned handle pinned = some heap) :
    Continues before { before with heap } := by
  rcases Heap.setPinned_cases done with rfl | ⟨_, _, _, rfl⟩
  · exact refl before
  · exact updateAt handle.index fun _ _ => ⟨rfl, rfl, rfl⟩

end Continues

/-- A move is no step. -/
theorem continues_of_move {view after : View} (move : View.Move view after)
    (orderly : view.collector.Orderly) : Continues view.collector after.collector := by
  cases move with
  | weaken => exact .refl _
  | shade handle => exact .shade _ handle
  | allocate children => exact .allocate orderly _ _
  | @rewrite target stored proxy cell resolved proper children reached kind =>
    have changed : Continues view.collector { view.collector with
        heap := view.collector.heap.setCell target cell } := by
      refine .updateAt target.index ?_
      intro other occupied
      obtain rfl := Option.some.inj ((Heap.occupant?_of_proxy? resolved).symm.trans occupied)
      exact ⟨rfl, rfl, kind⟩
    exact changed.trans (.shade _ stored)

/-- Moves are no steps. -/
theorem continues_of_moves {view after : View} (moves : View.Moves view after)
    (orderly : view.collector.Orderly) : Continues view.collector after.collector := by
  induction moves with
  | refl => exact .refl _
  | tail before move hypothesis =>
    exact hypothesis.trans (continues_of_move move (View.Moves.orderly before orderly))

variable {collector after : Collector} {roots : RootSet} {handle : Handle}

/-- What is not doomed gets doomed by steps alone. -/
theorem Continues.spared (continues : Continues collector after)
    (resolves : collector.heap.contains handle = true) (spared : ¬ collector.Doomed handle) :
    ¬ after.Doomed handle := by
  obtain ⟨proxy, resolved⟩ := Heap.contains_iff.mp resolves
  obtain ⟨changed, named, residence, marked, _⟩ := continues.proxies handle proxy resolved
  rintro ⟨found, named', doomed⟩
  obtain rfl := Option.some.inj (named.symm.trans named')
  rw [continues.cycle, continues.active, residence] at doomed
  refine spared ⟨proxy, resolved, doomed.imp id fun ⟨phase, light, ahead⟩ => ⟨phase, ?_, ahead⟩⟩
  cases dark : proxy.marked with
  | false => rfl
  | true => simp [marked dark] at light

/-- What resolves still does without steps. -/
theorem Continues.resolves (continues : Continues collector after)
    (resolves : collector.heap.contains handle = true) : after.heap.contains handle = true := by
  obtain ⟨proxy, resolved⟩ := Heap.contains_iff.mp resolves
  obtain ⟨changed, named, _⟩ := continues.proxies handle proxy resolved
  exact Heap.contains_iff.mpr ⟨changed, named⟩

/-- What is retained stays so without steps. -/
theorem Retains.continues (retains : collector.Retains handle)
    (continues : Continues collector after) : after.Retains handle := by
  refine ⟨continues.resolves retains.resolves, continues.spared retains.resolves retains.spared, ?_⟩
  intro scanned changed named
  obtain ⟨proxy, resolved⟩ := Heap.contains_iff.mp retains.resolves
  obtain ⟨found, named', _, marked, _⟩ := continues.proxies handle proxy resolved
  obtain rfl := Option.some.inj (named'.symm.trans named)
  rw [continues.cycle] at scanned ⊢
  exact (retains.covered scanned proxy resolved).imp marked id

/-- Shading retains what is not doomed. -/
theorem retains_shade (resolves : collector.heap.contains handle = true)
    (spared : ¬ collector.Doomed handle) : (collector.shade handle).Retains handle := by
  have continues := Continues.shade collector handle
  refine ⟨continues.resolves resolves, continues.spared resolves spared, ?_⟩
  rw [cycle_shade]
  exact fun scanned => collector.covered_shade handle scanned.marking _

/-- Shading does not save what is doomed. -/
theorem Doomed.shade (doomed : collector.Doomed handle) :
    (collector.shade handle).Doomed handle := by
  rcases collector.shade_eq handle with ⟨_, same⟩ | ⟨begun, _⟩
  · rw [same]
    exact doomed
  · obtain ⟨proxy, resolved, reason⟩ := doomed
    obtain ⟨category, phase, _⟩ := Cycle.marking_iff.mp begun
    have condemned : proxy.residence = .unmarked := by simpa [phase] using reason
    obtain ⟨changed, named, residence, _⟩ :=
      (Continues.shade collector handle).proxies handle proxy resolved
    exact ⟨changed, named, .inl (residence.trans condemned)⟩

/-- In a mark phase after the first, what is retained and held by a global is marked or to be
marked once the phase begins. -/
theorem Retains.covered_openWorklist (retains : collector.Retains handle)
    (root : handle ∈ roots .globals) {category : RootCategory}
    (phase : collector.cycle.phase = .mark category) (late : 0 < category.rank) :
    collector.heap.Covered (collector.openWorklist roots category) handle := by
  unfold openWorklist
  cases taken : collector.cycle.rootsTaken with
  | true =>
    have scanned : collector.cycle.Scanned .globals := by
      cases category <;> simp_all [Cycle.Scanned, RootCategory.rank]
    simpa using retains.covered scanned
  | false =>
    by_cases here : category = .globals
    · subst here
      intro proxy _
      right
      simp [takeRoots, root]
    · have scanned : collector.cycle.Scanned .globals := by
        cases category <;> simp_all [Cycle.Scanned, RootCategory.rank]
      exact (retains.covered scanned).mono (by simp)

/-- A sifted batch does not condemn what is retained. -/
theorem Retains.spared_sifted (retains : collector.Retains handle)
    (phase : collector.cycle.phase = .collect) {proxy : Proxy}
    (resolved : (collector.heap.sifted collector.budget).proxy? handle = some proxy) :
    collector.heap.proxy? handle = some proxy ∧ proxy.residence ≠ .unmarked := by
  rw [Heap.proxy?_sifted] at resolved
  split at resolved
  · rename_i inside
    obtain ⟨old, known, rfl⟩ := Option.map_eq_some_iff.mp resolved
    have light := (List.mem_filter.mp inside).2
    rw [Heap.isMarkedAt_of_proxy? known] at light
    have ahead := Heap.mem_active_of_mem_condemnedBatch collector.budget inside
    exact (retains.spared ⟨old, known, .inr ⟨phase, by simpa using light, ahead⟩⟩).elim
  · exact ⟨resolved, fun condemned => retains.spared ⟨proxy, resolved, .inl condemned⟩⟩

/-- What is retained and held by a global stays so in every step. -/
theorem Retains.stepped (retains : collector.Retains handle) (lawful : collector.heap.Lawful)
    (root : handle ∈ roots .globals) {completed : Bool}
    (stepped : Stepped collector roots completed after) : after.Retains handle := by
  obtain ⟨proxy, resolved⟩ := Heap.contains_iff.mp retains.resolves
  have standing : proxy.residence ≠ .unmarked := fun condemned =>
    retains.spared ⟨proxy, resolved, .inl condemned⟩
  have resolves := Heap.contains_iff.mpr (stepped.keeps lawful resolved fun _ => standing)
  cases stepped with
  | linking phase | linkedAll phase =>
    refine ⟨resolves, ?_, by simp [Cycle.Scanned, nextCycle, phase, Phase.next]⟩
    rintro ⟨found, named, condemned | ⟨sifts, _⟩⟩
    · replace named : (collector.heap.linked collector.budget).proxy? handle = some found := named
      rw [Heap.proxy?_linked, resolved] at named
      split at named
      · obtain rfl := Option.some.inj named
        simp at condemned
      · obtain rfl := Option.some.inj named
        exact standing condemned
    · simp [nextCycle, phase, Phase.next] at sifts
  | clearing phase | clearedAll phase =>
    refine ⟨resolves, ?_, by simp [Cycle.Scanned, nextCycle, phase, Phase.next, RootCategory.rank]⟩
    rintro ⟨found, named, condemned | ⟨sifts, _⟩⟩
    · replace named : (collector.heap.cleared collector.budget).proxy? handle = some found := named
      rw [Heap.proxy?_cleared, resolved] at named
      split at named
      · obtain rfl := Option.some.inj named
        exact standing condemned
      · obtain rfl := Option.some.inj named
        exact standing condemned
    · simp [nextCycle, phase, Phase.next] at sifts
  | marking category phase heap worklist marked =>
    have darkens := Heap.darkens_of_markSome marked
    obtain ⟨dark, _, shaded⟩ := darkens.proxies handle proxy resolved
    refine ⟨resolves, ?_, ?_⟩
    · rintro ⟨found, named, condemned | ⟨sifts, _⟩⟩
      · obtain rfl := Option.some.inj (shaded.symm.trans named)
        exact standing condemned
      · simp [phase] at sifts
    · intro scanned
      have late : 0 < category.rank := by
        cases category <;> simp_all [Cycle.Scanned, RootCategory.rank]
      have result := (retains.covered_openWorklist root phase late).markSome collector.budget
      rwa [marked] at result
  | markedAll category phase heap marked =>
    have darkens := Heap.darkens_of_markSome marked
    obtain ⟨dark, _, shaded⟩ := darkens.proxies handle proxy resolved
    have listed : 0 < category.rank → heap.Covered [] handle := by
      intro late
      have result := (retains.covered_openWorklist root phase late).markSome collector.budget
      rwa [marked] at result
    refine ⟨resolves, ?_, ?_⟩
    · rintro ⟨found, named, condemned | ⟨sifts, light, _⟩⟩
      · obtain rfl := Option.some.inj (shaded.symm.trans named)
        exact standing condemned
      · have late : 0 < category.rank := by
          cases category <;> simp_all [nextCycle, Phase.next, RootCategory.rank]
        have marked := listed late found named
        simp [light] at marked
    · intro scanned
      have late : 0 < category.rank := by
        cases category <;> simp_all [nextCycle, Phase.next, Cycle.Scanned, RootCategory.rank]
      exact listed late
  | sifting phase more =>
    refine ⟨resolves, ?_, by simp [Cycle.Scanned, phase]⟩
    rintro ⟨found, named, doomed⟩
    obtain ⟨before, spared⟩ := retains.spared_sifted phase named
    rcases doomed with condemned | ⟨_, light, ahead⟩
    · exact spared condemned
    · have active := (Heap.sifted_lists collector.budget collector.heap).2.2.2.1
      have earlier : handle.index ∈ collector.heap.active :=
        List.mem_of_mem_drop (active ▸ ahead)
      exact retains.spared ⟨found, before, .inr ⟨phase, light, earlier⟩⟩
  | siftedAll phase all =>
    refine ⟨resolves, ?_, by simp [Cycle.Scanned, nextCycle, phase, Phase.next]⟩
    rintro ⟨found, named, condemned | ⟨sifts, _⟩⟩
    · exact (retains.spared_sifted phase named).2 condemned
    · simp [nextCycle, phase, Phase.next] at sifts
  | disposing phase | disposedAll phase =>
    refine ⟨resolves, ?_, by simp [complete, Cycle.Scanned, nextCycle, phase, Phase.next]⟩
    rintro ⟨found, named, condemned | ⟨sifts, _⟩⟩
    · replace named : (collector.heap.disposeSome collector.budget).2.2.proxy? handle =
        some found := named
      rw [Heap.proxy?_disposeSome, resolved] at named
      split at named
      · simp at named
      · obtain rfl := Option.some.inj named
        exact standing condemned
    · simp [complete, nextCycle, phase, Phase.next] at sifts

/-- What is retained stays so when a collection is given up. -/
theorem Retains.reset (retains : collector.Retains handle) : collector.reset.Retains handle := by
  refine ⟨retains.resolves, ?_, by simp [Collector.reset, Cycle.Scanned]⟩
  rintro ⟨proxy, resolved, condemned | ⟨sifts, _⟩⟩
  · exact retains.spared ⟨proxy, resolved, .inl condemned⟩
  · simp [Collector.reset] at sifts

/-- What does not resolve before a step does not resolve after it. -/
theorem Stepped.gone {completed : Bool} (stepped : Stepped collector roots completed after)
    (gone : collector.heap.contains handle = false) : after.heap.contains handle = false := by
  by_contra contained
  obtain ⟨proxy, resolved⟩ := Heap.contains_iff.mp (by simpa using contained)
  obtain ⟨old, known, _⟩ := stepped.proxies resolved
  simp [Heap.contains, known] at gone

/-- A sifted batch condemns what is doomed, or leaves it ahead. -/
theorem sifted_of_doomed {heap : Heap} {proxy : Proxy}
    (resolved : heap.proxy? handle = some proxy) {phase : Prop}
    (reason : proxy.residence = .unmarked ∨
      phase ∧ proxy.marked = false ∧ handle.index ∈ heap.active) (budget : Nat) :
    (∃ condemned, (heap.sifted budget).proxy? handle = some condemned ∧
        condemned.residence = .unmarked) ∨
      (heap.sifted budget).proxy? handle = some proxy ∧ proxy.marked = false ∧
        handle.index ∈ heap.active.drop budget := by
  by_cases inside : handle.index ∈ heap.condemnedBatch budget
  · refine .inl ⟨{ proxy with residence := .unmarked }, ?_, rfl⟩
    rw [Heap.proxy?_sifted, if_pos inside, resolved]
    rfl
  · have left : (heap.sifted budget).proxy? handle = some proxy := by
      rw [Heap.proxy?_sifted, if_neg inside, resolved]
    rcases reason with condemned | ⟨_, light, ahead⟩
    · exact .inl ⟨proxy, left, condemned⟩
    · refine .inr ⟨left, light, ?_⟩
      rw [← List.take_append_drop budget heap.active, List.mem_append] at ahead
      refine ahead.resolve_left fun batch => inside (List.mem_filter.mpr ⟨batch, ?_⟩)
      rw [Heap.isMarkedAt_of_proxy? resolved, light]
      rfl

/-- What is doomed stays so until it is gone. -/
theorem Doomed.stepped (doomed : collector.Doomed handle) (lawful : collector.heap.Lawful)
    (stepped : Stepped collector roots false after) :
    after.Doomed handle ∨ after.heap.contains handle = false := by
  obtain ⟨proxy, resolved, reason⟩ := doomed
  have residence := Heap.residenceAt?_of_proxy? resolved
  cases stepped with
  | linking phase | linkedAll phase =>
    have condemned : proxy.residence = .unmarked := by simpa [phase] using reason
    have outside : handle.index ∉ collector.heap.pending.take collector.budget := by
      intro inside
      have pending := lawful.mem_pending.mp (List.mem_of_mem_take inside)
      simp [residence, condemned] at pending
    refine .inl ⟨proxy, ?_, .inl condemned⟩
    show (collector.heap.linked collector.budget).proxy? handle = some proxy
    rw [Heap.proxy?_linked, if_neg outside, resolved]
  | clearing phase | clearedAll phase =>
    have condemned : proxy.residence = .unmarked := by simpa [phase] using reason
    have outside : handle.index ∉ collector.heap.active.take collector.budget := by
      intro inside
      have active := lawful.mem_active.mp (.inl (List.mem_of_mem_take inside))
      simp [residence, condemned] at active
    refine .inl ⟨proxy, ?_, .inl condemned⟩
    show (collector.heap.cleared collector.budget).proxy? handle = some proxy
    rw [Heap.proxy?_cleared, if_neg outside, resolved]
  | marking category phase heap worklist marked | markedAll category phase heap marked =>
    have condemned : proxy.residence = .unmarked := by simpa [phase] using reason
    obtain ⟨dark, _, shaded⟩ :=
      (Heap.darkens_of_markSome marked).proxies handle proxy resolved
    exact .inl ⟨_, shaded, .inl condemned⟩
  | sifting phase more =>
    rcases sifted_of_doomed resolved reason collector.budget with condemned | ⟨left, rest⟩
    · obtain ⟨found, named, unmarked⟩ := condemned
      exact .inl ⟨found, named, .inl unmarked⟩
    · refine .inl ⟨proxy, left, .inr ⟨phase, rest.1, ?_⟩⟩
      show handle.index ∈ (collector.heap.sifted collector.budget).active
      rw [(collector.heap.sifted_lists collector.budget).2.2.2.1]
      exact rest.2
  | siftedAll phase all =>
    rcases sifted_of_doomed resolved reason collector.budget with condemned | ⟨_, _, rest⟩
    · obtain ⟨found, named, unmarked⟩ := condemned
      exact .inl ⟨found, named, .inl unmarked⟩
    · simp [all] at rest
  | disposing phase more =>
    have condemned : proxy.residence = .unmarked := by simpa [phase] using reason
    by_cases inside : handle.index ∈ collector.heap.unmarked.take collector.budget
    · right
      simp [Heap.contains, Heap.proxy?_disposeSome, inside]
    · refine .inl ⟨proxy, ?_, .inl condemned⟩
      show (collector.heap.disposeSome collector.budget).2.2.proxy? handle = some proxy
      rw [Heap.proxy?_disposeSome, if_neg inside, resolved]

/-- The end of a collection disposes of what is doomed. -/
theorem Doomed.completed (doomed : collector.Doomed handle) (lawful : collector.heap.Lawful)
    (stepped : Stepped collector roots true after) : after.heap.contains handle = false := by
  obtain ⟨proxy, resolved, reason⟩ := doomed
  cases stepped with
  | disposedAll phase all =>
    have condemned : proxy.residence = .unmarked := by simpa [phase] using reason
    have listed := (lawful.mem_unmarked_iff resolved).mpr condemned
    rw [← List.take_append_drop collector.budget collector.heap.unmarked, all,
      List.append_nil] at listed
    show (collector.heap.disposeSome collector.budget).2.2.contains handle = false
    simp [Heap.contains, Heap.proxy?_disposeSome, listed]

/-- A run of the collector disposes of what is doomed. -/
theorem Doomed.run (doomed : collector.Doomed handle) (orderly : collector.Orderly)
    (roots : RootSet) : (collector.run roots).heap.contains handle = false := by
  obtain ⟨last, proceeds, finish⟩ := run_completes orderly roots
  have late : last.Orderly ∧ (last.Doomed handle ∨ last.heap.contains handle = false) := by
    clear finish
    induction proceeds with
    | refl => exact ⟨orderly, .inl doomed⟩
    | tail _ stepped hypothesis =>
      obtain ⟨before, doomed | gone⟩ := hypothesis
      · exact ⟨before.stepped stepped, doomed.stepped before.lawful stepped⟩
      · exact ⟨before.stepped stepped, .inr (stepped.gone gone)⟩
  rcases late.2 with doomed | gone
  · exact doomed.completed late.1.lawful finish
  · exact finish.gone gone

end Collector

end ScriptVm
