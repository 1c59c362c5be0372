import ScriptVm.Proofs.Heap.Lawful

/-!
# Reachability and marking

A handle is reached from some origins when it is one of them, or a child of a proxy that is named
by a reached handle. Marking changes nothing but marks. It keeps what makes an interrupted marking
sound: everything a marked proxy refers to is marked or still on the worklist.
-/
namespace ScriptVm

namespace Heap

/-- The handles reached from some origins through the proxies of a heap. -/
inductive Reaches (heap : Heap) (origin : Handle → Prop) : Handle → Prop where
  | start {handle : Handle} (begins : origin handle) : Reaches heap origin handle
  | child {parent : Handle} {proxy : Proxy} {handle : Handle} (reached : Reaches heap origin parent)
    (resolved : heap.proxy? parent = some proxy) (listed : handle ∈ proxy.cell.children) :
    Reaches heap origin handle

/-- What is reached from reached handles is reached. -/
theorem Reaches.of_origins {heap : Heap} {origin other : Handle → Prop} {handle : Handle}
    (reached : heap.Reaches other handle)
    (origins : ∀ start, other start → heap.Reaches origin start) :
    heap.Reaches origin handle := by
  induction reached with
  | start begins => exact origins _ begins
  | child _ resolved listed hypothesis => exact .child hypothesis resolved listed

/-- What is reached in one heap is reached in another whose proxies have the same cells. -/
theorem Reaches.of_cells {before after : Heap} {origin : Handle → Prop} {handle : Handle}
    (reached : after.Reaches origin handle)
    (cells : ∀ handle proxy, after.proxy? handle = some proxy →
      ∃ old, before.proxy? handle = some old ∧ old.cell = proxy.cell) :
    before.Reaches origin handle := by
  induction reached with
  | start begins => exact .start begins
  | child _ resolved listed hypothesis =>
    obtain ⟨old, named, same⟩ := cells _ _ resolved
    exact .child hypothesis named (same ▸ listed)

/-- A handle names a pinned proxy. -/
def Pins (heap : Heap) (handle : Handle) : Prop :=
  ∃ proxy, heap.proxy? handle = some proxy ∧ proxy.pinned = true

/-- A heap differs from another only by additional marks. -/
structure Darkens (before after : Heap) : Prop where
  /-- There are as many slots. -/
  size : after.slots.size = before.slots.size
  /-- The lists stay. -/
  lists : after.free = before.free ∧ after.pending = before.pending ∧
    after.active = before.active ∧ after.kept = before.kept ∧ after.unmarked = before.unmarked
  /-- Every proxy stays, apart from its mark, which is not taken away. -/
  proxies : ∀ handle proxy, before.proxy? handle = some proxy →
    ∃ marked, (proxy.marked = true → marked = true) ∧
      after.proxy? handle = some { proxy with marked }
  /-- Nothing else is named. -/
  absent : ∀ handle, before.proxy? handle = none → after.proxy? handle = none

namespace Darkens

variable {before middle after : Heap}

/-- No mark is set at all. -/
theorem refl (heap : Heap) : heap.Darkens heap :=
  ⟨rfl, ⟨rfl, rfl, rfl, rfl, rfl⟩, fun _ proxy resolved => ⟨proxy.marked, id, resolved⟩,
    fun _ absent => absent⟩

/-- Marks are set in two rounds. -/
theorem trans (first : before.Darkens middle) (second : middle.Darkens after) :
    before.Darkens after := by
  obtain ⟨free, pending, active, kept, unmarked⟩ := first.lists
  obtain ⟨free', pending', active', kept', unmarked'⟩ := second.lists
  refine ⟨second.size.trans first.size, ⟨free'.trans free, pending'.trans pending,
    active'.trans active, kept'.trans kept, unmarked'.trans unmarked⟩, ?_, ?_⟩
  · intro handle proxy resolved
    obtain ⟨marked, grows, named⟩ := first.proxies handle proxy resolved
    obtain ⟨darker, grows', named'⟩ := second.proxies handle _ named
    exact ⟨darker, grows' ∘ grows, named'⟩
  · intro handle absent
    exact second.absent handle (first.absent handle absent)

/-- Every proxy after marking was there before, apart from its mark. -/
theorem origin (darkens : before.Darkens after) {handle : Handle} {proxy : Proxy}
    (resolved : after.proxy? handle = some proxy) :
    ∃ marked, (marked = true → proxy.marked = true) ∧
      before.proxy? handle = some { proxy with marked } := by
  cases named : before.proxy? handle with
  | none =>
    rw [darkens.absent handle named] at resolved
    contradiction
  | some old =>
    obtain ⟨marked, grows, found⟩ := darkens.proxies handle old named
    rw [resolved] at found
    obtain rfl := Option.some.inj found
    exact ⟨old.marked, grows, rfl⟩

/-- A condition that passes from a proxy to its children still does so after marking. -/
theorem passes {allowed : Handle → Prop} (darkens : before.Darkens after)
    (passes : ∀ handle proxy, allowed handle → before.proxy? handle = some proxy →
      ∀ child ∈ proxy.cell.children, allowed child) :
    ∀ handle proxy, allowed handle → after.proxy? handle = some proxy →
      ∀ child ∈ proxy.cell.children, allowed child := by
  intro handle proxy holds resolved child listed
  obtain ⟨marked, _, named⟩ := darkens.origin resolved
  exact passes handle _ holds named child listed

/-- Marking changes no value. -/
theorem value? (darkens : before.Darkens after) (reference : Ref) :
    after.value? reference = before.value? reference := by
  unfold Heap.value?
  cases known : before.proxy? reference.handle with
  | none => rw [darkens.absent _ known]
  | some proxy =>
    obtain ⟨marked, _, named⟩ := darkens.proxies _ _ known
    rw [named]
    obtain ⟨_, _, _, cell⟩ := proxy
    cases cell <;> rfl

/-- Marking changes no object. -/
theorem object? (darkens : before.Darkens after) (reference : ObjectRef) :
    after.object? reference = before.object? reference := by
  unfold Heap.object?
  cases known : before.proxy? reference.handle with
  | none => rw [darkens.absent _ known]
  | some proxy =>
    obtain ⟨marked, _, named⟩ := darkens.proxies _ _ known
    rw [named]
    obtain ⟨_, _, _, cell⟩ := proxy
    cases cell <;> rfl

/-- Marking moves no slot's occupant. -/
theorem residenceAt? (darkens : before.Darkens after) (index : Nat) :
    after.residenceAt? index = before.residenceAt? index := by
  cases occupied : after.occupant? index with
  | some proxy =>
    obtain ⟨marked, _, named⟩ := darkens.origin (proxy?_handleAt occupied)
    have old := occupant?_of_proxy? named
    rw [handleAt_index] at old
    simp [Heap.residenceAt?, occupied, old]
  | none =>
    cases vacant : before.occupant? index with
    | none => simp [Heap.residenceAt?, occupied, vacant]
    | some proxy =>
      obtain ⟨marked, _, named⟩ := darkens.proxies _ _ (proxy?_handleAt vacant)
      have new := occupant?_of_proxy? named
      rw [handleAt_index, occupied] at new
      contradiction

/-- Marking keeps a heap lawful. -/
theorem lawful (darkens : before.Darkens after) (lawful : before.Lawful) : after.Lawful := by
  obtain ⟨marked, grows, named⟩ := darkens.proxies _ _ lawful.proxy?_null
  have dark : marked = true := grows rfl
  subst dark
  exact lawful.of_same_standing (proxy?_eq_some_iff.mp named) darkens.size darkens.residenceAt?
    darkens.lists

/-- Marking changes nothing that is reached. -/
theorem reaches_iff (darkens : before.Darkens after) {origin : Handle → Prop} {handle : Handle} :
    after.Reaches origin handle ↔ before.Reaches origin handle := by
  constructor
  · intro reached
    apply reached.of_cells
    intro handle proxy resolved
    obtain ⟨marked, _, named⟩ := darkens.origin resolved
    exact ⟨_, named, rfl⟩
  · intro reached
    apply reached.of_cells
    intro handle proxy resolved
    obtain ⟨marked, _, named⟩ := darkens.proxies handle proxy resolved
    exact ⟨_, named, rfl⟩

/-- Marking pins nothing and unpins nothing. -/
theorem pins_iff (darkens : before.Darkens after) {handle : Handle} :
    after.Pins handle ↔ before.Pins handle := by
  constructor
  · rintro ⟨proxy, resolved, pinned⟩
    obtain ⟨marked, _, named⟩ := darkens.origin resolved
    exact ⟨_, named, pinned⟩
  · rintro ⟨proxy, resolved, pinned⟩
    obtain ⟨marked, _, named⟩ := darkens.proxies handle proxy resolved
    exact ⟨_, named, pinned⟩

end Darkens

section One

variable (heap : Heap) (handle : Handle)

/-- What handles name after a mark is set. -/
theorem proxy?_setMarked (other : Handle) :
    (heap.setMarked handle).proxy? other =
      if handle.index = other.index then (heap.proxy? other).map ({ · with marked := true })
      else heap.proxy? other :=
  proxy?_updateAt _ _ _ _

/-- Setting a mark changes that mark alone. -/
theorem darkens_setMarked : heap.Darkens (heap.setMarked handle) := by
  refine ⟨size_updateAt _ _ _, ⟨rfl, rfl, rfl, rfl, rfl⟩, ?_, ?_⟩
  · intro other proxy resolved
    rw [proxy?_setMarked, resolved]
    split
    · exact ⟨true, fun _ => rfl, rfl⟩
    · exact ⟨proxy.marked, id, rfl⟩
  · intro other absent
    rw [proxy?_setMarked, absent]
    split <;> rfl

/-- Marking one handle does nothing when nothing unmarked is named, or it marks the proxy and hands
out its children. -/
theorem markOne_cases :
    (heap.markOne handle = (heap, []) ∧
        ∀ proxy, heap.proxy? handle = some proxy → proxy.marked = true) ∨
      ∃ proxy, heap.proxy? handle = some proxy ∧ proxy.marked = false ∧
        heap.markOne handle = (heap.setMarked handle, proxy.cell.children.reverse) := by
  cases found : heap.unmarked? handle with
  | none =>
    refine .inl ⟨by simp [markOne, found], ?_⟩
    intro proxy resolved
    simpa [unmarked?, resolved] using found
  | some proxy =>
    obtain ⟨resolved, unmarked⟩ := Option.filter_eq_some_iff.mp found
    exact .inr ⟨proxy, resolved, by simpa using unmarked, by simp [markOne, found]⟩

/-- Marking one handle changes marks alone. -/
theorem darkens_markOne : heap.Darkens (heap.markOne handle).1 := by
  rcases heap.markOne_cases handle with ⟨same, _⟩ | ⟨proxy, _, _, marks⟩
  · rw [same]
    exact .refl heap
  · rw [marks]
    exact heap.darkens_setMarked handle

/-- Marking a worklist is marking its first handle, and then what comes out of it before the
rest. -/
theorem markAll_cons (rest : List Handle) :
    heap.markAll (handle :: rest) =
      (heap.markOne handle).1.markAll ((heap.markOne handle).2 ++ rest) := by
  rw [markAll]
  split
  · rename_i found
    simp [markOne, found]
  · rename_i proxy found
    simp [markOne, found]

end One

/-- What a handle names is marked, or it will be. -/
def Covered (heap : Heap) (worklist : List Handle) (handle : Handle) : Prop :=
  ∀ proxy, heap.proxy? handle = some proxy → proxy.marked = true ∨ handle ∈ worklist

/-- The null value is marked. -/
theorem Lawful.covered_null {heap : Heap} (lawful : heap.Lawful) (worklist : List Handle) :
    heap.Covered worklist Handle.null := by
  intro proxy resolved
  obtain rfl := Option.some.inj (lawful.proxy?_null.symm.trans resolved)
  exact .inl rfl

/-- The children of marked proxies are marked, or they will be. Condemned proxies are left out. -/
def Closed (heap : Heap) (worklist : List Handle) : Prop :=
  ∀ handle proxy, heap.proxy? handle = some proxy → proxy.marked = true →
    proxy.residence ≠ .unmarked → ∀ child ∈ proxy.cell.children, heap.Covered worklist child

/-- Everything marked, or to be marked, satisfies a condition. -/
def Within (heap : Heap) (worklist : List Handle) (allowed : Handle → Prop) : Prop :=
  (∀ handle proxy, heap.proxy? handle = some proxy → proxy.marked = true → allowed handle) ∧
    ∀ handle ∈ worklist, allowed handle

/-- A longer worklist covers more. -/
theorem Covered.mono {heap : Heap} {worklist longer : List Handle} {handle : Handle}
    (covered : heap.Covered worklist handle) (included : worklist ⊆ longer) :
    heap.Covered longer handle := by
  intro proxy resolved
  exact (covered proxy resolved).imp id fun listed => included listed

/-- A longer worklist closes what a shorter one closes. -/
theorem Closed.mono {heap : Heap} {worklist longer : List Handle}
    (closed : heap.Closed worklist) (included : worklist ⊆ longer) : heap.Closed longer :=
  fun handle proxy resolved marked standing child listed =>
    (closed handle proxy resolved marked standing child listed).mono included

section One

variable {heap : Heap} {handle : Handle} {rest : List Handle}

/-- What was covered stays covered when the first handle of the worklist is marked. -/
theorem Covered.markOne {other : Handle} (covered : heap.Covered (handle :: rest) other) :
    (heap.markOne handle).1.Covered ((heap.markOne handle).2 ++ rest) other := by
  rcases heap.markOne_cases handle with ⟨same, dark⟩ | ⟨found, named, _, marks⟩
  · rw [same]
    intro proxy resolved
    rcases covered proxy resolved with marked | listed
    · exact .inl marked
    · rcases List.mem_cons.mp listed with rfl | later
      · exact .inl (dark proxy resolved)
      · exact .inr (by simpa using later)
  · rw [marks]
    intro proxy resolved
    rw [proxy?_setMarked] at resolved
    split at resolved
    · obtain ⟨old, _, rfl⟩ := Option.map_eq_some_iff.mp resolved
      exact .inl rfl
    · rename_i apart
      rcases covered proxy resolved with marked | listed
      · exact .inl marked
      · rcases List.mem_cons.mp listed with rfl | later
        · exact absurd rfl apart
        · exact .inr (List.mem_append_right _ later)

/-- Marked proxies stay closed when the first handle of the worklist is marked, since the children
of that handle's proxy come before the rest. -/
theorem Closed.markOne (closed : heap.Closed (handle :: rest)) :
    (heap.markOne handle).1.Closed ((heap.markOne handle).2 ++ rest) := by
  intro other proxy resolved marked standing child listed
  rcases heap.markOne_cases handle with ⟨same, dark⟩ | ⟨found, named, _, marks⟩
  · have before : heap.proxy? other = some proxy := by rwa [same] at resolved
    exact (closed other proxy before marked standing child listed).markOne
  · by_cases here : handle.index = other.index
    · have before := resolved
      rw [marks, proxy?_setMarked, if_pos here] at before
      obtain ⟨old, oldNamed, rfl⟩ := Option.map_eq_some_iff.mp before
      obtain rfl := handle_eq_of_index_eq named oldNamed here
      obtain rfl := Option.some.inj (named.symm.trans oldNamed)
      intro _ _
      rw [marks]
      exact .inr (List.mem_append_left _ (List.mem_reverse.mpr listed))
    · have before := resolved
      rw [marks, proxy?_setMarked, if_neg here] at before
      exact (closed other proxy before marked standing child listed).markOne

/-- Marking stays within a condition that passes from a proxy to its children. -/
theorem Within.markOne {allowed : Handle → Prop} (within : heap.Within (handle :: rest) allowed)
    (passes : ∀ handle proxy, allowed handle → heap.proxy? handle = some proxy →
      ∀ child ∈ proxy.cell.children, allowed child) :
    (heap.markOne handle).1.Within ((heap.markOne handle).2 ++ rest) allowed := by
  obtain ⟨dark, listed⟩ := within
  have first := listed handle List.mem_cons_self
  rcases heap.markOne_cases handle with ⟨same, _⟩ | ⟨found, named, _, marks⟩
  · rw [same]
    exact ⟨dark, fun other later => listed other (List.mem_cons_of_mem _ (by simpa using later))⟩
  · rw [marks]
    constructor
    · intro other proxy resolved marked
      rw [proxy?_setMarked] at resolved
      split at resolved
      · rename_i here
        obtain ⟨old, oldNamed, rfl⟩ := Option.map_eq_some_iff.mp resolved
        exact handle_eq_of_index_eq named oldNamed here ▸ first
      · exact dark other proxy resolved marked
    · intro other later
      rcases List.mem_append.mp later with child | later
      · exact passes handle found first named other (List.mem_reverse.mp child)
      · exact listed other (List.mem_cons_of_mem _ later)

end One

/-- The first handle of a worklist is passed on in one step, whether it marks anything or not, so
that marking a worklist keeps what marking one handle keeps. -/
theorem markAll_induction {motive : Heap → List Handle → Prop} (nil : ∀ heap, motive heap [])
    (cons : ∀ heap first rest, motive (heap.markOne first).1 ((heap.markOne first).2 ++ rest) →
      motive heap (first :: rest)) (heap : Heap) (worklist : List Handle) :
    motive heap worklist := by
  induction heap, worklist using markAll.induct with
  | case1 heap => exact nil heap
  | case2 heap first rest found hypothesis =>
    refine cons heap first rest ?_
    simpa [Heap.markOne, found] using hypothesis
  | case3 heap first rest proxy found hypothesis =>
    refine cons heap first rest ?_
    simpa [Heap.markOne, found] using hypothesis

/-- One unit of bounded marking. -/
theorem markSome_cons (budget : Nat) (heap : Heap) (handle : Handle) (rest : List Handle) :
    heap.markSome (budget + 1) (handle :: rest) =
      (heap.markOne handle).1.markSome budget ((heap.markOne handle).2 ++ rest) := rfl

section Keeping

variable {heap : Heap} {worklist : List Handle} {motive : Heap → List Handle → Prop}
  (one : ∀ heap handle rest, motive heap (handle :: rest) →
    motive (heap.markOne handle).1 ((heap.markOne handle).2 ++ rest))

include one

/-- What marking one handle keeps, marking the whole worklist keeps. -/
theorem markAll_keeps (start : motive heap worklist) : motive (heap.markAll worklist) [] := by
  induction heap, worklist using markAll_induction with
  | nil heap =>
    rw [markAll]
    exact start
  | cons heap handle rest hypothesis =>
    rw [markAll_cons]
    exact hypothesis (one heap handle rest start)

/-- What marking one handle keeps, bounded marking keeps. -/
theorem markSome_keeps (budget : Nat) (start : motive heap worklist) :
    motive (heap.markSome budget worklist).2.1 (heap.markSome budget worklist).2.2 := by
  induction budget generalizing heap worklist with
  | zero => exact start
  | succ budget hypothesis =>
    cases worklist with
    | nil => exact start
    | cons handle rest =>
      rw [markSome_cons]
      exact hypothesis (one heap handle rest start)

end Keeping

/-- Marking a worklist changes marks alone. -/
theorem darkens_markAll (heap : Heap) (worklist : List Handle) :
    heap.Darkens (heap.markAll worklist) :=
  markAll_keeps (motive := fun after _ => heap.Darkens after)
    (fun after handle _ darkens => darkens.trans (after.darkens_markOne handle)) (.refl heap)

/-- What is covered by a worklist and some more handles is covered by those handles alone once the
worklist is marked. -/
theorem Covered.markAll {heap : Heap} {worklist more : List Handle} {other : Handle}
    (covered : heap.Covered (worklist ++ more) other) :
    (heap.markAll worklist).Covered more other := by
  refine markAll_keeps (motive := fun heap rest => heap.Covered (rest ++ more) other) ?_ covered
  intro heap handle rest covered
  have front : heap.Covered (handle :: (rest ++ more)) other := covered
  rw [List.append_assoc]
  exact front.markOne

/-- Marked proxies closed by a worklist and some more handles are closed by those handles alone
once the worklist is marked. -/
theorem Closed.markAll {heap : Heap} {worklist more : List Handle}
    (closed : heap.Closed (worklist ++ more)) : (heap.markAll worklist).Closed more := by
  refine markAll_keeps (motive := fun heap rest => heap.Closed (rest ++ more)) ?_ closed
  intro heap handle rest closed
  have front : heap.Closed (handle :: (rest ++ more)) := closed
  rw [List.append_assoc]
  exact front.markOne

section Some

variable {heap : Heap} {worklist : List Handle} (budget : Nat)

/-- Bounded marking changes marks alone. -/
theorem darkens_markSome (heap : Heap) (worklist : List Handle) :
    heap.Darkens (heap.markSome budget worklist).2.1 :=
  markSome_keeps (motive := fun after _ => heap.Darkens after)
    (fun after handle _ darkens => darkens.trans (after.darkens_markOne handle)) budget (.refl heap)

/-- The result of bounded marking differs by marks alone. -/
theorem darkens_of_markSome {budget : Nat} {heap after : Heap} {worklist rest : List Handle}
    {done : Bool} (marked : heap.markSome budget worklist = (done, after, rest)) :
    heap.Darkens after := by
  have darkens := darkens_markSome budget heap worklist
  rwa [marked] at darkens

/-- What was covered stays covered by what bounded marking leaves on the worklist. -/
theorem Covered.markSome {other : Handle} (covered : heap.Covered worklist other) :
    (heap.markSome budget worklist).2.1.Covered (heap.markSome budget worklist).2.2 other :=
  markSome_keeps (motive := fun heap rest => heap.Covered rest other)
    (fun _ _ _ covered => covered.markOne) budget covered

/-- Marked proxies stay closed by what bounded marking leaves on the worklist. -/
theorem Closed.markSome (closed : heap.Closed worklist) :
    (heap.markSome budget worklist).2.1.Closed (heap.markSome budget worklist).2.2 :=
  markSome_keeps (motive := fun heap rest => heap.Closed rest)
    (fun _ _ _ closed => closed.markOne) budget closed

/-- Bounded marking stays within a condition that passes from a proxy to its children. -/
theorem Within.markSome {allowed : Handle → Prop} (within : heap.Within worklist allowed)
    (passes : ∀ handle proxy, allowed handle → heap.proxy? handle = some proxy →
      ∀ child ∈ proxy.cell.children, allowed child) :
    (heap.markSome budget worklist).2.1.Within (heap.markSome budget worklist).2.2 allowed := by
  refine (markSome_keeps (motive := fun after rest => after.Within rest allowed ∧
    heap.Darkens after) ?_ budget ⟨within, .refl heap⟩).1
  rintro after handle rest ⟨within, darkens⟩
  exact ⟨within.markOne (darkens.passes passes), darkens.trans (after.darkens_markOne handle)⟩

/-- Bounded marking that is done has emptied the worklist. -/
theorem markSome_done (heap : Heap) (worklist : List Handle)
    (done : (heap.markSome budget worklist).1 = true) :
    (heap.markSome budget worklist).2.2 = [] := by
  induction budget generalizing heap worklist with
  | zero => simp [Heap.markSome] at done
  | succ budget hypothesis =>
    cases worklist with
    | nil => rfl
    | cons handle rest => exact hypothesis _ _ done

end Some

/-- Between two heaps marks are set on nothing but what satisfies a condition, and nothing else is
left on the worklist. Proxies with a mark may have any children. -/
structure Marks (before after : Heap) (rest : List Handle) (allowed : Handle → Prop) : Prop where
  /-- What gets a mark satisfies the condition. -/
  newly : ∀ handle proxy changed, before.proxy? handle = some proxy →
    after.proxy? handle = some changed → changed.marked = true →
    proxy.marked = true ∨ allowed handle
  /-- What is left to be marked satisfies it. -/
  listed : ∀ handle ∈ rest, allowed handle

namespace Marks

variable {heap : Heap} {allowed : Handle → Prop}

/-- No mark is set at all. -/
theorem refl {worklist : List Handle} (listed : ∀ handle ∈ worklist, allowed handle) :
    heap.Marks heap worklist allowed := by
  refine ⟨?_, listed⟩
  intro handle proxy changed resolved named dark
  obtain rfl := Option.some.inj (resolved.symm.trans named)
  exact .inl dark

/-- Marks are set in two rounds. -/
theorem trans {middle after : Heap} {between rest : List Handle}
    (first : heap.Marks middle between allowed) (darkens : heap.Darkens middle)
    (second : middle.Marks after rest allowed) : heap.Marks after rest allowed := by
  refine ⟨?_, second.listed⟩
  intro handle proxy changed resolved named dark
  obtain ⟨marked, _, found⟩ := darkens.proxies handle proxy resolved
  rcases second.newly handle _ changed found named dark with earlier | holds
  · exact first.newly handle proxy _ resolved found earlier
  · exact .inr holds

/-- One handle is marked: its proxy gets the mark, and its children are left. -/
theorem markOne {handle : Handle} {rest : List Handle}
    (listed : ∀ other ∈ handle :: rest, allowed other)
    (passes : ∀ handle proxy, allowed handle → heap.proxy? handle = some proxy →
      ∀ child ∈ proxy.cell.children, allowed child) :
    heap.Marks (heap.markOne handle).1 ((heap.markOne handle).2 ++ rest) allowed := by
  have first := listed handle List.mem_cons_self
  have later : ∀ other ∈ rest, allowed other := fun other member =>
    listed other (List.mem_cons_of_mem _ member)
  rcases heap.markOne_cases handle with ⟨same, _⟩ | ⟨found, named, _, marks⟩
  · rw [same]
    exact refl later
  · rw [marks]
    constructor
    · intro other proxy changed resolved after dark
      rw [proxy?_setMarked, resolved] at after
      split at after
      · rename_i here
        exact .inr (handle_eq_of_index_eq named resolved here ▸ first)
      · obtain rfl := Option.some.inj after
        exact .inl dark
    · intro other member
      rcases List.mem_append.mp member with child | member
      · exact passes handle found first named other (List.mem_reverse.mp child)
      · exact later other member

/-- What was left to be marked is marked in a second round, handle by handle. -/
theorem step {after : Heap} {handle : Handle} {rest : List Handle}
    (marks : heap.Marks after (handle :: rest) allowed) (darkens : heap.Darkens after)
    (passes : ∀ handle proxy, allowed handle → heap.proxy? handle = some proxy →
      ∀ child ∈ proxy.cell.children, allowed child) :
    heap.Marks (after.markOne handle).1 ((after.markOne handle).2 ++ rest) allowed ∧
      heap.Darkens (after.markOne handle).1 :=
  ⟨marks.trans darkens (markOne marks.listed (darkens.passes passes)),
    darkens.trans (after.darkens_markOne handle)⟩

/-- Bounded marking marks what the worklist leads to. -/
theorem markSome {worklist : List Handle} (budget : Nat)
    (listed : ∀ handle ∈ worklist, allowed handle)
    (passes : ∀ handle proxy, allowed handle → heap.proxy? handle = some proxy →
      ∀ child ∈ proxy.cell.children, allowed child) :
    heap.Marks (heap.markSome budget worklist).2.1 (heap.markSome budget worklist).2.2
      allowed :=
  (markSome_keeps (motive := fun after rest => heap.Marks after rest allowed ∧ heap.Darkens after)
    (fun _ _ _ marked => marked.1.step marked.2 passes) budget ⟨refl listed, .refl heap⟩).1

/-- Marking a whole worklist marks what it leads to. -/
theorem markAll {worklist : List Handle} (listed : ∀ handle ∈ worklist, allowed handle)
    (passes : ∀ handle proxy, allowed handle → heap.proxy? handle = some proxy →
      ∀ child ∈ proxy.cell.children, allowed child) :
    heap.Marks (heap.markAll worklist) [] allowed :=
  (markAll_keeps (motive := fun after rest => heap.Marks after rest allowed ∧ heap.Darkens after)
    (fun _ _ _ marked => marked.1.step marked.2 passes) ⟨refl listed, .refl heap⟩).1

end Marks

end Heap

end ScriptVm
