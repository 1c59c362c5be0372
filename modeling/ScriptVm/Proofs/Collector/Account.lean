import ScriptVm.Proofs.Collector.Reclamation
import ScriptVm.Proofs.Heap.Issue

/-!
# References that are accounted for

A view is accounted for when every root, every held handle and every child of a proxy has been
handed out. Moves between steps keep it so, and steps do, unless a generation starts over. Then
whatever is reached has been handed out, although it need not resolve any more.
-/
namespace ScriptVm

/-- Disposing of condemned proxies takes their slots to the next generation. -/
theorem Heap.Lawful.ages_disposeSome {heap : Heap} (lawful : heap.Lawful) (budget : Nat) :
    heap.Ages (heap.disposeSome budget).2.2 := by
  intro index generation occupied stamped
  obtain ⟨slot, within, stamp⟩ := Option.map_eq_some_iff.mp stamped
  by_cases inside : index ∈ heap.unmarked.take budget
  · have once := (lawful.count_take_unmarked inside).1
    have emptied := generation_foldl_vacate heap.slots within once
    have condemned := lawful.mem_unmarked.mp (List.mem_of_mem_take inside)
    obtain ⟨rfl, rfl⟩ := Prod.mk.inj stamp
    refine .inr ⟨?_, ?_⟩
    · simp only [residenceAt?, occupant?, within, Option.bind_some] at condemned
      obtain ⟨proxy, filled, _⟩ := Option.map_eq_some_iff.mp condemned
      simp [filled]
    · have here : (heap.disposeSome budget).2.2.slots[index]? = some ⟨slot.generation + 1, none⟩ :=
        emptied
      simp [stamp?, here, Slot.stamp]
  · left
    have same := (slots_foldl_vacate (heap.unmarked.take budget) heap.slots index).1 inside
    have here : (heap.disposeSome budget).2.2.slots[index]? = some slot := same.trans within
    rw [stamp?, here]
    exact congrArg some stamp

namespace Collector

variable {collector after : Collector} {roots : RootSet} {completed : Bool}

/-- A step empties condemned slots, if any. -/
theorem Stepped.ages (stepped : Stepped collector roots completed after)
    (lawful : collector.heap.Lawful) : collector.heap.Ages after.heap := by
  cases stepped with
  | linking | linkedAll => exact .of_stamps fun index => Heap.stamp?_updateAll _ _ _ index
  | clearing | clearedAll => exact .of_stamps fun index => Heap.stamp?_updateAll _ _ _ index
  | marking category _ heap _ marked | markedAll category _ heap marked =>
    refine .of_stamps fun index => ?_
    have same := Heap.stamp?_markSome collector.budget collector.heap
      (collector.openWorklist roots category) index
    rwa [marked] at same
  | sifting | siftedAll => exact .of_stamps fun index => Heap.stamp?_updateAll _ _ _ index
  | disposing | disposedAll => exact lawful.ages_disposeSome collector.budget

/-- Shading keeps stamps. -/
theorem stamp?_shade (collector : Collector) (handle : Handle) (index : Nat) :
    (collector.shade handle).heap.stamp? index = collector.heap.stamp? index := by
  rcases collector.shade_eq handle with ⟨_, same⟩ | ⟨_, marks⟩
  · rw [same]
  · rw [marks]
    exact collector.heap.stamp?_markAll [handle] index

/-- Allocating hands out one more handle, and it takes none back. -/
theorem Orderly.issued_allocate (orderly : collector.Orderly) (cell : Cell) (pinned : Bool)
    {handle : Handle} (known : handle = (collector.allocate cell pinned).1 ∨
      collector.heap.Issued handle) : (collector.allocate cell pinned).2.heap.Issued handle := by
  rcases known with rfl | earlier
  · obtain ⟨_, named⟩ := orderly.placed_allocate cell pinned
    exact Heap.issued_of_proxy? named
  · refine (earlier.allocate cell pinned).of_stamps ?_
    rw [allocate_eq]
    exact stamp?_shade _ _ _

end Collector

namespace View

variable {view after : View}

/-- Every reference has been handed out. -/
structure Accounted (view : View) : Prop where
  /-- Roots have been handed out. -/
  roots : ∀ category handle, view.scope category handle → view.collector.heap.Issued handle
  /-- Held handles have been handed out. -/
  held : ∀ handle, view.held handle → view.collector.heap.Issued handle
  /-- What proxies refer to has been handed out. -/
  children : ∀ handle proxy, view.collector.heap.proxy? handle = some proxy →
    ∀ child ∈ proxy.cell.children, view.collector.heap.Issued child

/-- Whatever is reached has been handed out. -/
theorem Accounted.issued (accounted : view.Accounted) {handle : Handle}
    (reached : view.Reaches handle) : view.collector.heap.Issued handle := by
  cases reached with
  | start begins =>
    rcases begins with ⟨category, root⟩ | ⟨proxy, resolved, _⟩ | holding
    · exact accounted.roots category handle root
    · exact Heap.issued_of_proxy? resolved
    · exact accounted.held handle holding
  | child _ resolved listed => exact accounted.children _ _ resolved _ listed

/-- References stay accounted for when no handle is taken back and no proxy gets a child that has
not been handed out. -/
theorem Accounted.of_issued (accounted : view.Accounted)
    (issued : ∀ handle, view.collector.heap.Issued handle → after.collector.heap.Issued handle)
    (scope : ∀ category handle, after.scope category handle →
      view.scope category handle ∨ after.collector.heap.Issued handle)
    (held : ∀ handle, after.held handle →
      view.held handle ∨ after.collector.heap.Issued handle)
    (proxies : ∀ handle proxy, after.collector.heap.proxy? handle = some proxy →
      ∀ child ∈ proxy.cell.children,
        (∃ old, view.collector.heap.proxy? handle = some old ∧ child ∈ old.cell.children) ∨
          after.collector.heap.Issued child) : after.Accounted := by
  refine ⟨?_, ?_, ?_⟩
  · intro category handle root
    exact (scope category handle root).elim
      (fun known => issued handle (accounted.roots category handle known)) id
  · intro handle holding
    exact (held handle holding).elim (fun known => issued handle (accounted.held handle known)) id
  · intro handle proxy resolved child listed
    rcases proxies handle proxy resolved child listed with ⟨old, known, earlier⟩ | fine
    · exact issued child (accounted.children handle old known child earlier)
    · exact fine

/-- A move keeps references accounted for. -/
theorem Move.accounted (move : Move view after) (orderly : view.collector.Orderly)
    (accounted : view.Accounted) : after.Accounted := by
  cases move with
  | weaken roots holds =>
    refine accounted.of_issued (fun _ => id) ?_ ?_ ?_
    · intro category handle root
      exact (roots category handle root).imp id fun both => accounted.issued both.1
    · intro handle holding
      exact .inr (accounted.issued (holds handle holding))
    · intro handle proxy resolved child listed
      exact .inl ⟨proxy, resolved, listed⟩
  | shade stored reached =>
    refine accounted.of_issued ?_ (fun _ _ root => .inl root) (fun _ holding => .inl holding) ?_
    · intro handle known
      exact known.of_stamps (view.collector.stamp?_shade stored _)
    · intro handle proxy resolved child listed
      obtain ⟨old, before, same⟩ := Collector.origin_shade resolved
      exact .inl ⟨old, before, same ▸ listed⟩
  | @allocate cell pinned children =>
    refine accounted.of_issued (fun _ known => orderly.issued_allocate cell pinned (.inr known))
      (fun _ _ root => .inl root) ?_ ?_
    · rintro handle (holding | same)
      · exact .inl holding
      · exact .inr (orderly.issued_allocate cell pinned (.inl same))
    · intro handle proxy resolved child listed
      rcases orderly.origin_allocate cell pinned resolved with ⟨-, new⟩ | ⟨old, before, same⟩
      · have known := accounted.issued (children child (new ▸ listed))
        exact .inr (orderly.issued_allocate cell pinned (.inr known))
      · exact .inl ⟨old, before, same ▸ listed⟩
  | @rewrite target stored proxy cell resolved proper children reached kind =>
    have issued : ∀ handle, view.collector.heap.Issued handle →
        ({ view.collector with heap := view.collector.heap.setCell target cell }.shade
          stored).heap.Issued handle := by
      intro handle known
      refine known.of_stamps ?_
      rw [Collector.stamp?_shade]
      exact Heap.stamp?_updateAt _ _ _ _
    refine accounted.of_issued issued (fun _ _ root => .inl root)
      (fun _ holding => .inl holding) ?_
    intro handle found named child listed
    obtain ⟨_, _, before⟩ := (Collector.darkens_shade { view.collector with
      heap := view.collector.heap.setCell target cell } stored).origin named
    obtain ⟨old, known, _, _, _, more⟩ := Heap.origin_setCell resolved children before
    rcases more child listed with earlier | rfl
    · exact .inl ⟨old, known, earlier⟩
    · exact .inr (issued _ (accounted.issued reached))

/-- Moves keep references accounted for. -/
theorem Moves.accounted (moves : Moves view after) (orderly : view.collector.Orderly)
    (accounted : view.Accounted) : after.Accounted := by
  induction moves with
  | refl => exact accounted
  | tail earlier move hypothesis => exact move.accounted (Moves.orderly earlier orderly) hypothesis

end View

end ScriptVm
