import ScriptVm.Proofs.Collector.Chronicle

/-!
# The worklist as two piles

In memory the handles to be marked lie on two piles, and the one put down last is taken first.
Pinned proxies and children go to the scratch pile. The roots of a phase wait on a pile of their
own: one of them goes to the scratch pile only when that is empty, which is no unit of work. The
scratch pile and the roots below it always make up the worklist, and a mark phase ends when both
are found empty.
-/
namespace ScriptVm

/-- The handles to be marked, on two piles. -/
structure MarkPiles where
  /-- Handles that have been come upon, the next one first. -/
  scratch : List Handle := []
  /-- Roots that are still to be looked at, the next one first. -/
  roots : List Handle := []
  deriving DecidableEq, Repr

namespace MarkPiles

/-- Marks at most a number of handles. A root goes to the empty scratch pile for free. True when
both piles are found empty before that number is used up. -/
def markSome (budget : Nat) (heap : Heap) (scratch roots : List Handle) :
    Bool × Heap × MarkPiles :=
  match budget, scratch, roots with
  | 0, scratch, roots => (false, heap, ⟨scratch, roots⟩)
  | _ + 1, [], [] => (true, heap, {})
  | budget + 1, [], root :: roots => markSome (budget + 1) heap [root] roots
  | budget + 1, handle :: rest, roots =>
    markSome budget (heap.markOne handle).1 ((heap.markOne handle).2 ++ rest) roots
termination_by (budget, roots.length)

/-- The roots that wait when a step of a mark phase begins: what is left of those that have been
taken, or all of the phase. -/
def waiting (piles : MarkPiles) (collector : Collector) (roots : RootSet)
    (category : RootCategory) : List Handle :=
  if collector.cycle.rootsTaken then piles.roots
  else Collector.takeRoots collector.heap roots category

/-- What a step of the collector does to the piles. -/
def step (piles : MarkPiles) (collector : Collector) (roots : RootSet) : MarkPiles :=
  match collector.cycle.phase with
  | .resetState =>
    { piles with scratch := (collector.heap.resetMarks collector.budget).2.2 ++ piles.scratch }
  | .mark category =>
    (markSome collector.budget collector.heap piles.scratch
      (piles.waiting collector roots category)).2.2
  | .linkPending | .collect | .dispose => piles

/-- What steps up to the end of a collection do to the piles. -/
def runSteps (roots : RootSet) : Nat → Collector → MarkPiles → MarkPiles
  | 0, _, piles => piles
  | fuel + 1, collector, piles =>
    if (collector.step roots).1 then piles.step collector roots
    else runSteps roots fuel (collector.step roots).2 (piles.step collector roots)

end MarkPiles

/-- Something that happens to a collector. -/
inductive Activity where
  /-- The collector is operated. -/
  | operation (operation : Operation)
  /-- The embedding program or a script puts something else into a cell. A handle that names nothing
  is refused, and so is the one of the null value. -/
  | store (target : Handle) (cell : Cell)

/-- What an activity does to a collector. -/
def Collector.undergo (collector : Collector) : Activity → Collector
  | .operation operation => collector.operate operation
  | .store target cell =>
    if target ≠ Handle.null ∧ collector.heap.contains target = true then
      { collector with heap := collector.heap.setCell target cell }
    else collector

namespace MarkPiles

/-- What an activity does to the piles. -/
def follow (piles : MarkPiles) (collector : Collector) : Activity → MarkPiles
  | .operation (.step roots) => piles.step collector roots
  | .operation (.run roots) => piles.runSteps roots (collector.stepBound roots) collector
  | .operation .reset => {}
  | .operation (.allocate ..) | .operation (.setPinned ..) | .operation (.shade _)
  | .store .. => piles

/-- What a sequence of activities does to the piles. -/
def followAll : List Activity → Collector → MarkPiles → MarkPiles
  | [], _, piles => piles
  | activity :: activities, collector, piles =>
    followAll activities (collector.undergo activity) (piles.follow collector activity)

/-- Marking from two piles is marking the scratch pile and then the roots. -/
theorem markSome_eq (budget : Nat) (heap : Heap) (scratch roots : List Handle) :
    heap.markSome budget (scratch ++ roots) =
      ((markSome budget heap scratch roots).1, (markSome budget heap scratch roots).2.1,
        (markSome budget heap scratch roots).2.2.scratch ++
          (markSome budget heap scratch roots).2.2.roots) := by
  induction budget, heap, scratch, roots using markSome.induct with
  | case1 heap scratch roots => simp [markSome, Heap.markSome]
  | case2 heap budget => simp [markSome, Heap.markSome]
  | case3 heap budget root roots hypothesis =>
    rw [markSome]
    exact hypothesis
  | case4 heap budget handle rest roots hypothesis =>
    rw [markSome, List.cons_append, Heap.markSome_cons, ← List.append_assoc]
    exact hypothesis

/-- Marking that is done has emptied both piles. -/
theorem markSome_done (budget : Nat) (heap : Heap) (scratch roots : List Handle)
    (done : (markSome budget heap scratch roots).1 = true) :
    (markSome budget heap scratch roots).2.2 = {} := by
  induction budget, heap, scratch, roots using markSome.induct with
  | case1 heap scratch roots => simp [markSome] at done
  | case2 heap budget => simp [markSome]
  | case3 heap budget root roots hypothesis =>
    rw [markSome] at done ⊢
    exact hypothesis done
  | case4 heap budget handle rest roots hypothesis =>
    rw [markSome] at done ⊢
    exact hypothesis done

/-- The piles show the worklist of a collector. -/
structure Shows (piles : MarkPiles) (collector : Collector) : Prop where
  /-- The scratch pile and the roots below it make up the worklist. -/
  worklist : collector.cycle.worklist = piles.scratch ++ piles.roots
  /-- Roots wait only in a mark phase that has taken its roots. -/
  roots : piles.roots = [] ∨
    (∃ category, collector.cycle.phase = .mark category) ∧ collector.cycle.rootsTaken = true

variable {piles : MarkPiles} {collector after : Collector} {roots : RootSet}

/-- What a step of a mark phase does to the piles. -/
theorem step_mark {category : RootCategory} (phase : collector.cycle.phase = .mark category) :
    piles.step collector roots = (markSome collector.budget collector.heap piles.scratch
      (piles.waiting collector roots category)).2.2 := by
  simp only [step, phase]

/-- Empty piles show the worklist of a fresh collector. -/
theorem shows_create (budget : Nat) : ({} : MarkPiles).Shows (.create budget) := ⟨rfl, .inl rfl⟩

namespace Shows

/-- Only the cycle matters. -/
theorem congr (shows : piles.Shows collector) (same : after.cycle = collector.cycle) :
    piles.Shows after :=
  ⟨same ▸ shows.worklist, same ▸ shows.roots⟩

/-- No roots wait outside the mark phases. -/
theorem roots_eq_nil (shows : piles.Shows collector)
    (apart : ∀ category, collector.cycle.phase ≠ .mark category) : piles.roots = [] := by
  rcases shows.roots with none | ⟨⟨category, phase⟩, _⟩
  · exact none
  · exact absurd phase (apart category)

/-- A step of a mark phase begins with the scratch pile and the waiting roots. -/
theorem openWorklist (shows : piles.Shows collector) (roots : RootSet)
    (category : RootCategory) :
    collector.openWorklist roots category =
      piles.scratch ++ piles.waiting collector roots category := by
  unfold Collector.openWorklist waiting
  split
  · exact shows.worklist
  · rename_i untaken
    rcases shows.roots with none | ⟨_, taken⟩
    · rw [shows.worklist, none, List.append_nil]
    · exact absurd taken untaken

/-- A step of a mark phase marks from the two piles what it marks from the worklist. -/
theorem markSome (shows : piles.Shows collector) (roots : RootSet) (category : RootCategory) :
    collector.heap.markSome collector.budget (collector.openWorklist roots category) =
      let marked := MarkPiles.markSome collector.budget collector.heap piles.scratch
        (piles.waiting collector roots category)
      (marked.1, marked.2.1, marked.2.2.scratch ++ marked.2.2.roots) := by
  rw [shows.openWorklist roots category]
  exact markSome_eq _ _ _ _

/-- The piles follow a step. -/
theorem stepped (shows : piles.Shows collector) {completed : Bool}
    (stepped : Collector.Stepped collector roots completed after) :
    (piles.step collector roots).Shows after := by
  cases stepped with
  | linking phase | linkedAll phase | sifting phase | siftedAll phase | disposing phase
  | disposedAll phase =>
    have none := shows.roots_eq_nil (by simp [phase])
    have same : piles.step collector roots = piles := by simp [step, phase]
    rw [same]
    exact ⟨shows.worklist, .inl none⟩
  | clearing phase | clearedAll phase =>
    have none := shows.roots_eq_nil (by simp [phase])
    have pinned : piles.step collector roots =
        { piles with scratch := collector.heap.pinnedBatch collector.budget ++ piles.scratch } := by
      simp [step, phase, Heap.resetMarks_eq_endPass]
    rw [pinned]
    refine ⟨?_, .inl none⟩
    simp [Collector.nextCycle, shows.worklist]
  | marking category phase heap rest marked =>
    rw [shows.markSome roots category] at marked
    obtain ⟨_, both⟩ := Prod.mk.inj marked
    obtain ⟨_, left⟩ := Prod.mk.inj both
    rw [step_mark phase]
    exact ⟨left.symm, .inr ⟨⟨category, phase⟩, rfl⟩⟩
  | markedAll category phase heap marked =>
    rw [shows.markSome roots category] at marked
    obtain ⟨done, _⟩ := Prod.mk.inj marked
    rw [step_mark phase, markSome_done _ _ _ _ done]
    exact ⟨rfl, .inl rfl⟩

/-- A step of a mark phase does to the heap what marking from the piles does, and ends the phase
when that is done. -/
theorem work_eq (shows : piles.Shows collector) {category : RootCategory}
    (phase : collector.cycle.phase = .mark category) :
    let marked := MarkPiles.markSome collector.budget collector.heap piles.scratch
      (piles.waiting collector roots category)
    (collector.work roots).1 = marked.1 ∧ (collector.work roots).2.heap = marked.2.1 := by
  have same : ((collector.work roots).1, (collector.work roots).2.heap,
      (collector.work roots).2.cycle.worklist) =
        collector.heap.markSome collector.budget (collector.openWorklist roots category) := by
    simp only [Collector.work, phase, Collector.openWorklist]
  rw [shows.markSome roots category] at same
  obtain ⟨done, both⟩ := Prod.mk.inj same
  exact ⟨done, (Prod.mk.inj both).1⟩

/-- Both piles are empty at the end of a mark phase. -/
theorem step_eq_of_done (shows : piles.Shows collector) {category : RootCategory}
    (phase : collector.cycle.phase = .mark category) (done : (collector.work roots).1 = true) :
    piles.step collector roots = {} := by
  rw [(shows.work_eq phase).1] at done
  rw [step_mark phase]
  exact markSome_done _ _ _ _ done

/-- The piles follow steps up to the end of a collection. -/
theorem runSteps (shows : piles.Shows collector) (roots : RootSet) (fuel : Nat) :
    (MarkPiles.runSteps roots fuel collector piles).Shows
      (Collector.runSteps roots fuel collector) := by
  induction fuel generalizing piles collector with
  | zero => exact shows
  | succ fuel hypothesis =>
    have next := shows.stepped (collector.stepped roots)
    rw [MarkPiles.runSteps, Collector.runSteps]
    dsimp only
    split
    · exact next
    · exact hypothesis next

/-- The piles follow an activity. -/
theorem follow (shows : piles.Shows collector) (activity : Activity) :
    (piles.follow collector activity).Shows (collector.undergo activity) := by
  cases activity with
  | store target cell =>
    refine shows.congr ?_
    rw [Collector.undergo]
    split <;> rfl
  | operation operation =>
    cases operation with
    | allocate cell pinned =>
      refine shows.congr ?_
      rw [Collector.undergo, Collector.operate]
      split
      · exact Collector.cycle_allocate _ _ _
      · rfl
    | setPinned handle pinned => exact shows.congr rfl
    | shade handle => exact shows.congr (Collector.cycle_shade _ _)
    | step roots => exact shows.stepped (collector.stepped roots)
    | run roots => exact shows.runSteps roots _
    | reset => exact ⟨rfl, .inl rfl⟩

/-- The piles follow a sequence of activities. -/
theorem followAll (activities : List Activity) (shows : piles.Shows collector) :
    (MarkPiles.followAll activities collector piles).Shows
      (activities.foldl Collector.undergo collector) := by
  induction activities generalizing piles collector with
  | nil => exact shows
  | cons activity activities hypothesis =>
    rw [MarkPiles.followAll, List.foldl_cons]
    exact hypothesis (shows.follow activity)

end Shows

end MarkPiles

namespace Collector

/-- Every activity keeps the collector orderly. -/
theorem Orderly.undergo {collector : Collector} (orderly : collector.Orderly)
    (activity : Activity) : (collector.undergo activity).Orderly := by
  cases activity with
  | operation operation => exact orderly.operate operation
  | store target cell =>
    rw [Collector.undergo]
    split
    · rename_i accepted
      obtain ⟨apart, resolves⟩ := accepted
      obtain ⟨proxy, resolved⟩ := Heap.contains_iff.mp resolves
      have inner : target.index ≠ 0 := fun zero =>
        apart (orderly.lawful.eq_null_of_index resolved zero)
      exact orderly.withHeap (orderly.lawful.updateAt inner fun _ => rfl) rfl
    · exact orderly

/-- Every sequence of activities keeps the collector orderly. -/
theorem Orderly.activities {collector : Collector} (orderly : collector.Orderly)
    (activities : List Activity) : (activities.foldl Collector.undergo collector).Orderly := by
  induction activities generalizing collector with
  | nil => exact orderly
  | cons activity activities hypothesis => exact hypothesis (orderly.undergo activity)

end Collector

end ScriptVm
