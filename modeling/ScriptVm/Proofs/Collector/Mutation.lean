import ScriptVm.Proofs.Collector.Tending

/-!
# Mutation between steps

The embedding program and scripts change the heap between the steps of a collection: they allocate
proxies, store references into cells and unpin proxies. Every store and every allocation is shaded,
which is what keeps the collection tended.
-/
namespace ScriptVm

namespace Heap

/-- A heap differs from another by one allocation or by one stored reference: every proxy is an old
one with no further child but the stored handle, or it is the new one under that handle. -/
structure Mutates (before after : Heap) (stored : Handle) : Prop where
  /-- The pass goes on as it was. -/
  kept : after.kept = before.kept
  /-- Every proxy is an old one, or it is new. -/
  proxies : ∀ handle proxy, after.proxy? handle = some proxy →
    (∃ old, before.proxy? handle = some old ∧ proxy.residence = old.residence ∧
      proxy.marked = old.marked ∧ (proxy.pinned = true → old.pinned = true) ∧
      ∀ child ∈ proxy.cell.children, child ∈ old.cell.children ∨ child = stored) ∨
    handle = stored ∧ proxy.marked = false ∧ proxy.residence = .pending ∧
      handle.index ∉ before.kept

namespace Mutates

variable {before after : Heap} {stored : Handle} {worklist : List Handle}

/-- What was covered is covered once the stored handle is on the worklist. -/
theorem covered (mutates : before.Mutates after stored) {handle : Handle}
    (covered : before.Covered worklist handle) : after.Covered (stored :: worklist) handle := by
  intro proxy resolved
  rcases mutates.proxies handle proxy resolved with ⟨old, named, _, same, _⟩ | ⟨rfl, _⟩
  · rcases covered old named with marked | listed
    · exact .inl (same.trans marked)
    · exact .inr (List.mem_cons_of_mem _ listed)
  · exact .inr List.mem_cons_self

/-- What was closed is closed once the stored handle is on the worklist. -/
theorem closed (mutates : before.Mutates after stored) (closed : before.Closed worklist) :
    after.Closed (stored :: worklist) := by
  intro handle proxy resolved marked standing child listed
  rcases mutates.proxies handle proxy resolved with
    ⟨old, named, residence, same, _, children⟩ | ⟨_, unmarked, _⟩
  · rcases children child listed with earlier | rfl
    · apply mutates.covered
      exact closed handle old named (same ▸ marked) (residence ▸ standing) child earlier
    · intro _ _
      exact .inr List.mem_cons_self
  · simp [marked] at unmarked

end Mutates

/-- An allocation is a mutation that stores the new handle. -/
theorem Allocates.mutates {before after : Heap} {cell : Cell} {pinned : Bool} {handle : Handle}
    (allocates : before.Allocates cell pinned handle after) (lawful : before.Lawful) :
    before.Mutates after handle := by
  refine ⟨allocates.others.2.1, ?_⟩
  intro other proxy resolved
  rw [allocates.proxies] at resolved
  split at resolved
  · rename_i same
    obtain rfl := Option.some.inj resolved
    refine .inr ⟨same, rfl, rfl, ?_⟩
    intro kept
    have standing := lawful.mem_active.mp (.inr kept)
    rw [same, residenceAt?, allocates.vacant] at standing
    simp at standing
  · exact .inl ⟨proxy, resolved, rfl, rfl, id, fun _ listed => .inl listed⟩

/-- After a cell is replaced, every proxy is an old one apart from its cell, which has no further
child but the stored handle. -/
theorem origin_setCell {heap : Heap} {target stored : Handle} {proxy : Proxy} {cell : Cell}
    (resolved : heap.proxy? target = some proxy)
    (children : ∀ child ∈ cell.children, child ∈ proxy.cell.children ∨ child = stored)
    {handle : Handle} {after : Proxy}
    (named : (heap.setCell target cell).proxy? handle = some after) :
    ∃ old, heap.proxy? handle = some old ∧ after.residence = old.residence ∧
      after.marked = old.marked ∧ after.pinned = old.pinned ∧
      ∀ child ∈ after.cell.children, child ∈ old.cell.children ∨ child = stored := by
  rw [setCell, proxy?_updateAt] at named
  split at named
  · rename_i here
    obtain ⟨old, found, rfl⟩ := Option.map_eq_some_iff.mp named
    obtain rfl := handle_eq_of_index_eq resolved found here
    obtain rfl := Option.some.inj (resolved.symm.trans found)
    exact ⟨proxy, resolved, rfl, rfl, rfl, children⟩
  · exact ⟨after, named, rfl, rfl, rfl, fun _ listed => .inl listed⟩

/-- Replacing a cell is a mutation, provided that the new cell has no further child but the stored
handle. -/
theorem mutates_setCell {heap : Heap} {target stored : Handle} {proxy : Proxy} {cell : Cell}
    (resolved : heap.proxy? target = some proxy)
    (children : ∀ child ∈ cell.children, child ∈ proxy.cell.children ∨ child = stored) :
    heap.Mutates (heap.setCell target cell) stored := by
  refine ⟨rfl, fun handle after named => .inl ?_⟩
  obtain ⟨old, found, residence, marked, pinned, more⟩ := origin_setCell resolved children named
  exact ⟨old, found, residence, marked, pinned.symm.trans, more⟩

/-- Putting a reference into an element is replacing the cell. -/
theorem setElement_eq_setCell {heap : Heap} {target : Handle} {proxy : Proxy} {index : Nat}
    {value : Ref} (resolved : heap.proxy? target = some proxy) :
    heap.setElement target index value =
      heap.setCell target (proxy.cell.setElement index value) := by
  have within := proxy?_eq_some_iff.mp resolved
  have same : (heap.setElement target index value).slots =
      (heap.setCell target (proxy.cell.setElement index value)).slots := by
    apply Array.ext_getElem?
    intro position
    rw [setElement, setCell, slots_updateAt, slots_updateAt]
    by_cases here : target.index = position
    · subst here
      simp [within]
    · simp [here]
  simp only [setElement, setCell, updateAt] at same ⊢
  rw [same]

/-- Putting a reference into an element adds no further child. -/
theorem children_setElement (cell : Cell) (index : Nat) (value : Ref) :
    ∀ child ∈ (cell.setElement index value).children,
      child ∈ cell.children ∨ child = value.handle := by
  intro child listed
  match cell with
  | .value (.array items) =>
    simp only [Cell.setElement, Cell.children, List.mem_map, Array.mem_toList_iff] at listed ⊢
    obtain ⟨reference, member, rfl⟩ := listed
    rcases Array.mem_or_eq_of_mem_setIfInBounds member with earlier | rfl
    · exact .inl ⟨reference, earlier, rfl⟩
    · exact .inr rfl
  | .value .null | .value (.bool _) | .value (.integer _ _) | .value (.binary _ _)
  | .value (.string _) | .value (.object _) | .value (.function _) | .value (.native _)
  | .object _ => exact .inl listed

/-- Putting a reference into a member adds no further child. -/
theorem children_set {object changed : Object} {index : Nat} {value : Ref}
    (done : object.set index value = .ok changed) :
    ∀ child ∈ (Cell.object changed).children,
      child ∈ (Cell.object object).children ∨ child = value.handle := by
  intro child listed
  unfold Object.set at done
  split at done
  · obtain rfl := Except.ok.inj done
    simp only [Cell.children, List.mem_map, Array.mem_toList_iff] at listed ⊢
    obtain ⟨reference, member, rfl⟩ := listed
    rcases Array.mem_or_eq_of_mem_setIfInBounds member with earlier | rfl
    · exact .inl ⟨reference, earlier, rfl⟩
    · exact .inr rfl
  · simp at done

/-- Unpinning is a mutation, whatever counts as stored. -/
theorem mutates_unpin (heap : Heap) (target stored : Handle) :
    heap.Mutates (heap.updateAt target.index ({ · with pinned := false })) stored := by
  refine ⟨rfl, ?_⟩
  intro handle after named
  rw [proxy?_updateAt] at named
  left
  split at named
  · obtain ⟨old, found, rfl⟩ := Option.map_eq_some_iff.mp named
    exact ⟨old, found, rfl, rfl, by simp, fun _ listed => .inl listed⟩
  · exact ⟨after, named, rfl, rfl, id, fun _ listed => .inl listed⟩

/-- A proxy whose cell is not null is not in the first slot. -/
theorem Lawful.index_ne_zero {heap : Heap} (lawful : heap.Lawful) {handle : Handle}
    {proxy : Proxy} (resolved : heap.proxy? handle = some proxy)
    (proper : proxy.cell ≠ .value .null) : handle.index ≠ 0 := by
  intro zero
  obtain rfl := lawful.eq_null_of_index resolved zero
  obtain rfl := Option.some.inj (lawful.proxy?_null.symm.trans resolved)
  exact proper rfl

/-- Replacing a cell that is not null keeps the heap lawful. -/
theorem Lawful.setCell {heap : Heap} (lawful : heap.Lawful) {target : Handle} {proxy : Proxy}
    (resolved : heap.proxy? target = some proxy) (proper : proxy.cell ≠ .value .null)
    (cell : Cell) : (heap.setCell target cell).Lawful :=
  lawful.updateAt (lawful.index_ne_zero resolved proper) fun _ => rfl

/-- Pinning does nothing to an immortal proxy, and changes one flag of any other. -/
theorem setPinned_cases {heap after : Heap} {handle : Handle} {pinned : Bool}
    (done : heap.setPinned handle pinned = some after) :
    after = heap ∨ ∃ proxy, heap.proxy? handle = some proxy ∧ proxy.residence ≠ .immortal ∧
      after = heap.updateAt handle.index ({ · with pinned }) := by
  unfold setPinned at done
  split at done
  · simp at done
  · rename_i proxy resolved
    split at done
    · exact .inl (Option.some.inj done).symm
    · rename_i mortal
      exact .inr ⟨proxy, resolved, mortal, (Option.some.inj done).symm⟩

/-- After pinning or unpinning every proxy is an old one apart from its pin, and unpinning adds
none. -/
theorem origin_setPinned {heap after : Heap} {target : Handle} {flag : Bool}
    (done : heap.setPinned target flag = some after) {handle : Handle} {proxy : Proxy}
    (named : after.proxy? handle = some proxy) :
    ∃ old, heap.proxy? handle = some old ∧ old.cell = proxy.cell ∧
      old.residence = proxy.residence ∧ old.marked = proxy.marked ∧
      (flag = false → proxy.pinned = true → old.pinned = true) := by
  rcases setPinned_cases done with rfl | ⟨_, _, _, rfl⟩
  · exact ⟨proxy, named, rfl, rfl, rfl, fun _ => id⟩
  · rw [proxy?_updateAt] at named
    split at named
    · obtain ⟨old, before, rfl⟩ := Option.map_eq_some_iff.mp named
      refine ⟨old, before, rfl, rfl, rfl, ?_⟩
      rintro rfl pinned
      simp at pinned
    · exact ⟨proxy, named, rfl, rfl, rfl, fun _ => id⟩

/-- Pinning and unpinning keep the heap lawful. -/
theorem Lawful.setPinned {heap after : Heap} (lawful : heap.Lawful) {handle : Handle}
    {pinned : Bool} (done : heap.setPinned handle pinned = some after) :
    after.Lawful ∧ after.kept = heap.kept := by
  rcases setPinned_cases done with rfl | ⟨proxy, resolved, mortal, rfl⟩
  · exact ⟨lawful, rfl⟩
  · have inner : handle.index ≠ 0 := by
      intro zero
      obtain rfl := lawful.eq_null_of_index resolved zero
      obtain rfl := Option.some.inj (lawful.proxy?_null.symm.trans resolved)
      exact mortal rfl
    exact ⟨lawful.updateAt inner fun _ => rfl, rfl⟩

end Heap

namespace Collector

variable {collector : Collector} {scope : Scope}

/-- Shading changes marks alone. -/
theorem shade_eq (collector : Collector) (handle : Handle) :
    (collector.cycle.marking = false ∧ collector.shade handle = collector) ∨
      (collector.cycle.marking = true ∧
        collector.shade handle = { collector with heap := collector.heap.markAll [handle] }) := by
  cases begun : collector.cycle.marking with
  | false => exact .inl ⟨rfl, by simp [shade, marking, begun]⟩
  | true => exact .inr ⟨rfl, by simp [shade, marking, begun]⟩

/-- The heap after shading has additional marks alone. -/
theorem darkens_shade (collector : Collector) (handle : Handle) :
    collector.heap.Darkens (collector.shade handle).heap := by
  rcases collector.shade_eq handle with ⟨_, same⟩ | ⟨_, marks⟩
  · rw [same]
    exact .refl _
  · rw [marks]
    exact collector.heap.darkens_markAll _

/-- Shading does not touch the collection's own state. -/
@[simp] theorem cycle_shade (collector : Collector) (handle : Handle) :
    (collector.shade handle).cycle = collector.cycle := by
  rcases collector.shade_eq handle with ⟨_, same⟩ | ⟨_, marks⟩
  · rw [same]
  · rw [marks]

/-- While roots are marked, what has been shaded is marked. -/
theorem covered_shade (collector : Collector) (handle : Handle)
    (begun : collector.cycle.marking = true) (worklist : List Handle) :
    (collector.shade handle).heap.Covered worklist handle := by
  rcases collector.shade_eq handle with ⟨idle, _⟩ | ⟨_, marks⟩
  · simp [begun] at idle
  · have listed : collector.heap.Covered ([handle] ++ worklist) handle :=
      fun _ _ => .inr List.mem_cons_self
    rw [marks]
    exact listed.markAll

/-- The null value is marked anyway. -/
theorem shade_null (lawful : collector.heap.Lawful) : collector.shade Handle.null = collector := by
  rcases collector.shade_eq Handle.null with ⟨_, same⟩ | ⟨_, marks⟩
  · exact same
  · have dark : collector.heap.unmarked? Handle.null = none := by
      simp [Heap.unmarked?, lawful.proxy?_null, Proxy.null]
    rw [marks, Heap.markAll_cons]
    simp [Heap.markOne, dark, Heap.markAll]

/-- An allocation places the proxy and shades it. -/
theorem allocate_eq (collector : Collector) (cell : Cell) (pinned : Bool) :
    collector.allocate cell pinned = ((collector.heap.allocate cell pinned).1,
      { collector with heap := (collector.heap.allocate cell pinned).2 }.shade
        (collector.heap.allocate cell pinned).1) := rfl

/-- While roots are marked, what has been allocated is marked. -/
theorem covered_allocate (collector : Collector) (cell : Cell) (pinned : Bool)
    (begun : collector.cycle.marking = true) (worklist : List Handle) :
    (collector.allocate cell pinned).2.heap.Covered worklist
      (collector.allocate cell pinned).1 := by
  rw [allocate_eq]
  exact covered_shade { collector with heap := (collector.heap.allocate cell pinned).2 } _ begun
    worklist

/-- Allocating does not touch the collection's own state. -/
@[simp] theorem cycle_allocate (collector : Collector) (cell : Cell) (pinned : Bool) :
    (collector.allocate cell pinned).2.cycle = collector.cycle := by
  rw [allocate_eq, cycle_shade]

namespace Orderly

/-- Shading keeps the collector orderly. -/
theorem shade (orderly : collector.Orderly) (handle : Handle) :
    (collector.shade handle).Orderly := by
  rcases collector.shade_eq handle with ⟨_, same⟩ | ⟨_, marks⟩
  · rw [same]
    exact orderly
  · have darkens := collector.heap.darkens_markAll [handle]
    rw [marks]
    exact orderly.withHeap (darkens.lawful orderly.lawful) darkens.lists.2.2.2.1

/-- Allocating keeps the collector orderly. -/
theorem allocate (orderly : collector.Orderly) (cell : Cell) (pinned : Bool) :
    (collector.allocate cell pinned).2.Orderly := by
  have allocates := collector.heap.allocates cell pinned orderly.lawful.vacant
  rw [allocate_eq]
  exact (orderly.withHeap (orderly.lawful.allocate cell pinned) allocates.others.2.1).shade _

/-- Replacing a cell that is not null keeps the collector orderly. -/
theorem setCell (orderly : collector.Orderly) {target : Handle} {proxy : Proxy}
    (resolved : collector.heap.proxy? target = some proxy) (proper : proxy.cell ≠ .value .null)
    (cell : Cell) : { collector with heap := collector.heap.setCell target cell }.Orderly :=
  orderly.withHeap (orderly.lawful.setCell resolved proper cell) rfl

/-- Pinning and unpinning keep the collector orderly. -/
theorem setPinned (orderly : collector.Orderly) {heap : Heap} {handle : Handle} {pinned : Bool}
    (done : collector.heap.setPinned handle pinned = some heap) :
    { collector with heap }.Orderly := by
  obtain ⟨lawful, kept⟩ := orderly.lawful.setPinned done
  exact orderly.withHeap lawful kept

end Orderly

namespace Orderly

variable (orderly : collector.Orderly) (cell : Cell) (pinned : Bool)
include orderly

/-- The heap after an allocation has further marks than the one with the new proxy alone. -/
theorem darkens_allocate : ∃ heap, collector.heap.Allocates cell pinned
      (collector.allocate cell pinned).1 heap ∧
    heap.Darkens (collector.allocate cell pinned).2.heap :=
  ⟨_, collector.heap.allocates cell pinned orderly.lawful.vacant,
    darkens_shade { collector with heap := (collector.heap.allocate cell pinned).2 } _⟩

/-- The new handle named nothing before. -/
theorem fresh_allocate : collector.heap.proxy? (collector.allocate cell pinned).1 = none := by
  obtain ⟨_, allocates, _⟩ := orderly.darkens_allocate cell pinned
  exact allocates.fresh

/-- An allocation leaves the lists of active and of condemned slots. -/
theorem lists_allocate :
    (collector.allocate cell pinned).2.heap.active = collector.heap.active ∧
      (collector.allocate cell pinned).2.heap.kept = collector.heap.kept ∧
      (collector.allocate cell pinned).2.heap.unmarked = collector.heap.unmarked := by
  obtain ⟨_, allocates, darkens⟩ := orderly.darkens_allocate cell pinned
  obtain ⟨_, _, active, kept, unmarked⟩ := darkens.lists
  obtain ⟨active', kept', unmarked'⟩ := allocates.others
  exact ⟨active.trans active', kept.trans kept', unmarked.trans unmarked'⟩

/-- The new proxy is behind the new handle, apart from its mark. -/
theorem placed_allocate : ∃ marked,
    (collector.allocate cell pinned).2.heap.proxy? (collector.allocate cell pinned).1 =
      some { Heap.freshProxy cell pinned with marked } := by
  obtain ⟨_, allocates, darkens⟩ := orderly.darkens_allocate cell pinned
  obtain ⟨marked, _, named⟩ :=
    darkens.proxies _ _ ((allocates.proxies _).trans (if_pos rfl))
  exact ⟨marked, named⟩

/-- An allocation leaves what handles name, apart from marks. -/
theorem kept_allocate {handle : Handle} {proxy : Proxy}
    (resolved : collector.heap.proxy? handle = some proxy) :
    ∃ marked, (proxy.marked = true → marked = true) ∧
      (collector.allocate cell pinned).2.heap.proxy? handle = some { proxy with marked } := by
  obtain ⟨_, allocates, darkens⟩ := orderly.darkens_allocate cell pinned
  have apart : handle ≠ (collector.allocate cell pinned).1 := by
    rintro rfl
    simp [orderly.fresh_allocate cell pinned] at resolved
  exact darkens.proxies _ _ (((allocates.proxies handle).trans (if_neg apart)).trans resolved)

/-- After an allocation a handle names the new proxy or what it named before, apart from marks. -/
theorem cases_allocate {handle : Handle} {proxy : Proxy}
    (resolved : (collector.allocate cell pinned).2.heap.proxy? handle = some proxy) :
    ∃ marked, (handle = (collector.allocate cell pinned).1 ∧
        { proxy with marked } = Heap.freshProxy cell pinned) ∨
      collector.heap.proxy? handle = some { proxy with marked } := by
  obtain ⟨_, allocates, darkens⟩ := orderly.darkens_allocate cell pinned
  obtain ⟨marked, _, before⟩ := darkens.origin resolved
  rw [allocates.proxies] at before
  split at before
  · rename_i here
    exact ⟨marked, .inl ⟨here, (Option.some.inj before).symm⟩⟩
  · exact ⟨marked, .inr before⟩

/-- After an allocation a handle names the new cell, or what it named before. -/
theorem origin_allocate {handle : Handle} {proxy : Proxy}
    (resolved : (collector.allocate cell pinned).2.heap.proxy? handle = some proxy) :
    (handle = (collector.allocate cell pinned).1 ∧ proxy.cell = cell) ∨
      ∃ old, collector.heap.proxy? handle = some old ∧ proxy.cell = old.cell := by
  obtain ⟨_, ⟨here, fresh⟩ | before⟩ := orderly.cases_allocate cell pinned resolved
  · exact .inl ⟨here, congrArg Proxy.cell fresh⟩
  · exact .inr ⟨_, before, rfl⟩

end Orderly

/-- After a cell has been replaced, a handle names the new cell, or what it named before. -/
theorem origin_rewrite {heap : Heap} {target handle : Handle} {proxy found : Proxy} {cell : Cell}
    (resolved : heap.proxy? target = some proxy)
    (named : (heap.setCell target cell).proxy? handle = some found) :
    (handle = target ∧ found.cell = cell) ∨
      ∃ old, heap.proxy? handle = some old ∧ found.cell = old.cell := by
  rw [Heap.setCell, Heap.proxy?_updateAt] at named
  split at named
  · rename_i here
    obtain ⟨old, known, rfl⟩ := Option.map_eq_some_iff.mp named
    exact .inl ⟨(Heap.handle_eq_of_index_eq resolved known here).symm, rfl⟩
  · exact .inr ⟨found, named, rfl⟩

/-- What shading leaves was there before. -/
theorem origin_shade {handle target : Handle} {proxy : Proxy}
    (resolved : (collector.shade target).heap.proxy? handle = some proxy) :
    ∃ old, collector.heap.proxy? handle = some old ∧ proxy.cell = old.cell := by
  obtain ⟨_, _, before⟩ := (collector.darkens_shade target).origin resolved
  exact ⟨_, before, rfl⟩

/-- A mutation that is shaded leaves the collection tended. Between collections nothing is marked,
so that the stored handle needs no mark. -/
theorem Tended.mutate (tended : collector.Tended scope) {heap : Heap} {stored : Handle}
    (mutates : collector.heap.Mutates heap stored) :
    ({ collector with heap }.shade stored).Tended scope := by
  rcases shade_eq { collector with heap } stored with ⟨idle, same⟩ | ⟨begun, marks⟩
  · rw [same]
    have idle' : collector.cycle.marking = false := idle
    refine ⟨?_, ?_, ?_, ?_, ?_, ?_, ?_⟩
    · intro phase handle proxy resolved standing
      rcases mutates.proxies handle proxy resolved with
        ⟨old, named, residence, marked, _⟩ | ⟨_, unmarked, _⟩
      · rw [marked]
        apply tended.passed phase handle old named
        rwa [← residence, ← mutates.kept]
      · exact unmarked
    · intro phase handle proxy resolved kept pinned
      have kept' : handle.index ∈ collector.heap.kept := mutates.kept ▸ kept
      rcases mutates.proxies handle proxy resolved with
        ⟨old, named, _, _, pins, _⟩ | ⟨_, _, _, apart⟩
      · exact tended.gathered phase handle old named kept' (pins pinned)
      · exact absurd kept' apart
    · intro phase untaken handle proxy resolved standing
      rcases mutates.proxies handle proxy resolved with
        ⟨old, named, residence, marked, _⟩ | ⟨_, unmarked, _⟩
      · rw [marked]
        apply tended.blank phase untaken handle old named
        rwa [← residence]
      · exact unmarked
    · intro inMark handle proxy resolved pinned active
      rcases mutates.proxies handle proxy resolved with
        ⟨old, named, residence, _, pins, _⟩ | ⟨_, _, pending, _⟩
      · have covered := tended.pinned inMark handle old named (pins pinned) (residence ▸ active)
        intro found resolved'
        obtain rfl := Option.some.inj (resolved.symm.trans resolved')
        rcases mutates.proxies handle proxy resolved with
          ⟨old', named', _, marked, _⟩ | ⟨_, _, pending, _⟩
        · exact (covered old' named').imp marked.trans id
        · simp [active] at pending
      · simp [active] at pending
    · intro begun
      simp [idle'] at begun
    · intro category scanned
      have begun := scanned.marking
      simp [idle'] at begun
    · intro scanned
      have begun := scanned.marking
      simp [idle'] at begun
  · rw [marks]
    have begun' : collector.cycle.marking = true := begun
    obtain ⟨category, phase, first⟩ := Cycle.marking_iff.mp begun'
    have darkens := heap.darkens_markAll [stored]
    have covers : ∀ handle, collector.heap.Covered collector.cycle.worklist handle →
        (heap.markAll [stored]).Covered collector.cycle.worklist handle := by
      intro handle covered
      have longer : heap.Covered ([stored] ++ collector.cycle.worklist) handle :=
        mutates.covered covered
      exact longer.markAll
    refine ⟨fun other => ?_, fun other => ?_, fun other untaken => ?_, ?_, ?_, ?_, ?_⟩
    · simp [phase] at other
    · simp [phase] at other
    · have constants : category = .constants := by simpa [phase] using other
      simp [first constants] at untaken
    · intro inMark handle proxy resolved pinned active
      obtain ⟨marked, _, named⟩ := darkens.origin resolved
      rcases mutates.proxies handle _ named with
        ⟨old, found, residence, _, pins, _⟩ | ⟨_, _, pending, _⟩
      · exact covers handle
          (tended.pinned inMark handle old found (pins pinned) (residence ▸ active))
      · simp [active] at pending
    · intro _
      have longer : heap.Closed ([stored] ++ collector.cycle.worklist) :=
        mutates.closed (tended.closed begun')
      exact longer.markAll
    · intro category scanned handle root
      exact covers handle (tended.scanned category scanned handle root)
    · intro scanned handle proxy resolved standing
      obtain ⟨marked, _, named⟩ := darkens.origin resolved
      rcases mutates.proxies handle _ named with ⟨old, found, residence, _⟩ | ⟨rfl, _⟩
      · exact covers handle (tended.pending scanned handle old found (residence ▸ standing))
      · have covered := covered_shade { collector with heap } handle begun collector.cycle.worklist
        rwa [marks] at covered

/-- Shading leaves the collection tended. -/
theorem Tended.shade (tended : collector.Tended scope) (handle : Handle) :
    (collector.shade handle).Tended scope :=
  tended.mutate ⟨rfl, fun _ proxy resolved =>
    .inl ⟨proxy, resolved, rfl, rfl, id, fun _ listed => .inl listed⟩⟩

end Collector

end ScriptVm
