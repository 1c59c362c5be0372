import ScriptVm.Proofs.Heap.Issue

/-!
# What a worklist marks

Marking a worklist marks what it exposes: the handles on it, and the children of unmarked proxies
that it exposes. That is a matter of which handles are on the worklist and not of their order, and
marking the worklist part by part comes to the same.
-/
namespace ScriptVm

namespace Heap

variable {heap : Heap} {worklist : List Handle}

/-- A worklist exposes its handles, and the children of the unmarked proxies that it exposes. -/
inductive Exposes (heap : Heap) (worklist : List Handle) : Handle → Prop where
  | listed {handle : Handle} (member : handle ∈ worklist) : Exposes heap worklist handle
  | child {parent handle : Handle} {proxy : Proxy} (exposed : Exposes heap worklist parent)
    (resolved : heap.proxy? parent = some proxy) (light : proxy.marked = false)
    (listed : handle ∈ proxy.cell.children) : Exposes heap worklist handle

/-- The same handles expose the same ones. -/
theorem Exposes.of_mem {other : List Handle} {handle : Handle}
    (exposed : heap.Exposes worklist handle)
    (same : ∀ listed, listed ∈ worklist ↔ listed ∈ other) : heap.Exposes other handle := by
  induction exposed with
  | listed member => exact .listed ((same _).mp member)
  | child _ resolved light listed hypothesis => exact .child hypothesis resolved light listed

section One

variable {first : Handle} {rest : List Handle}

/-- What is exposed once the first handle of a worklist is marked was exposed before. -/
theorem Exposes.of_markOne {handle : Handle}
    (exposed : (heap.markOne first).1.Exposes ((heap.markOne first).2 ++ rest) handle) :
    heap.Exposes (first :: rest) handle := by
  have darkens := heap.darkens_markOne first
  induction exposed with
  | listed member =>
    rcases List.mem_append.mp member with child | later
    · rcases heap.markOne_cases first with ⟨same, _⟩ | ⟨proxy, resolved, light, marks⟩
      · simp [same] at child
      · rw [marks] at child
        exact .child (.listed List.mem_cons_self) resolved light (List.mem_reverse.mp child)
    · exact .listed (List.mem_cons_of_mem _ later)
  | child _ resolved light listed hypothesis =>
    obtain ⟨marked, grows, named⟩ := darkens.origin resolved
    have unmarked : marked = false := by
      cases marked with
      | false => rfl
      | true => exact absurd (grows rfl) (by simp [light])
    exact .child hypothesis named unmarked listed

/-- What is exposed stays exposed once the first handle of the worklist is marked and hands its
children to the worklist, except what that handle itself names. -/
theorem Exposes.markOne {handle : Handle} (exposed : heap.Exposes (first :: rest) handle) :
    (∀ proxy, heap.proxy? handle = some proxy → proxy.marked = false → handle = first) ∨
      (heap.markOne first).1.Exposes ((heap.markOne first).2 ++ rest) handle := by
  induction exposed with
  | listed member =>
    rcases List.mem_cons.mp member with rfl | later
    · exact .inl fun _ _ _ => rfl
    · exact .inr (.listed (List.mem_append_right _ later))
  | @child parent handle proxy _ resolved light listed hypothesis =>
    right
    rcases heap.markOne_cases first with ⟨same, dark⟩ | ⟨found, named, _, marks⟩
    · rcases hypothesis with only | exposed
      · obtain rfl := only proxy resolved light
        exact absurd (dark proxy resolved) (by simp [light])
      · have still : (heap.markOne first).1.proxy? parent = some proxy := by rwa [same]
        exact .child exposed still light listed
    · by_cases here : first.index = parent.index
      · obtain rfl := handle_eq_of_index_eq named resolved here
        obtain rfl := Option.some.inj (named.symm.trans resolved)
        rw [marks]
        exact .listed (List.mem_append_left _ (List.mem_reverse.mpr listed))
      · have apart : parent ≠ first := fun equal => here (by rw [equal])
        have exposed := hypothesis.resolve_left fun only => apart (only proxy resolved light)
        have still : (heap.markOne first).1.proxy? parent = some proxy := by
          rw [marks, proxy?_setMarked, if_neg here, resolved]
        exact .child exposed still light listed

end One

/-- What is exposed by nothing is nothing. -/
theorem not_exposes_nil (heap : Heap) (handle : Handle) : ¬heap.Exposes [] handle := by
  intro exposed
  induction exposed with
  | listed member => simp at member
  | child _ _ _ _ hypothesis => exact hypothesis

/-- Marking the first handle of a worklist marks what it names. -/
theorem proxy?_markOne_self {first : Handle} {proxy : Proxy}
    (resolved : heap.proxy? first = some proxy) :
    (heap.markOne first).1.proxy? first = some { proxy with marked := true } := by
  rcases heap.markOne_cases first with ⟨same, dark⟩ | ⟨found, named, _, marks⟩
  · rw [same, resolved, ← dark proxy resolved]
  · rw [marks, proxy?_setMarked, if_pos rfl, resolved]
    rfl

/-- A mark that the first handle of a worklist sets belongs to what that handle names. -/
theorem proxy?_markOne_of_ne {first handle : Handle} {proxy : Proxy}
    (resolved : heap.proxy? handle = some proxy) (apart : handle ≠ first) :
    (heap.markOne first).1.proxy? handle = some proxy := by
  rcases heap.markOne_cases first with ⟨same, _⟩ | ⟨found, named, _, marks⟩
  · rwa [same]
  · have elsewhere : first.index ≠ handle.index := fun here =>
      apart (handle_eq_of_index_eq named resolved here).symm
    rw [marks, proxy?_setMarked, if_neg elsewhere, resolved]

/-- Marking a worklist marks exactly what it exposes. -/
theorem marked_markAll_iff {handle : Handle} {proxy changed : Proxy}
    (resolved : heap.proxy? handle = some proxy)
    (after : (heap.markAll worklist).proxy? handle = some changed) :
    changed.marked = true ↔ proxy.marked = true ∨ heap.Exposes worklist handle := by
  induction heap, worklist using markAll_induction generalizing proxy with
  | nil heap =>
    rw [markAll, resolved] at after
    obtain rfl := Option.some.inj after
    simp [heap.not_exposes_nil handle]
  | cons heap first rest hypothesis =>
    rw [markAll_cons] at after
    by_cases here : handle = first
    · subst here
      rw [hypothesis (proxy?_markOne_self resolved) after]
      exact iff_of_true (.inl rfl) (.inr (.listed List.mem_cons_self))
    · rw [hypothesis (proxy?_markOne_of_ne resolved here) after]
      refine or_congr_right' fun light => ⟨Exposes.of_markOne, fun exposed => ?_⟩
      refine exposed.markOne.resolve_left fun only => here (only proxy resolved ?_)
      simpa using light

/-- What a handle names occupies its slot, in every heap that names it so. -/
theorem occupant?_of_proxies {left right : Heap}
    (proxies : ∀ handle, left.proxy? handle = right.proxy? handle) {index : Nat} {proxy : Proxy}
    (occupied : left.occupant? index = some proxy) : right.occupant? index = some proxy := by
  have named := proxy?_handleAt occupied
  rw [proxies] at named
  simpa using occupant?_of_proxy? named

/-- Heaps with the same lists and generations are the same when handles name the same proxies in
both. -/
theorem eq_of_proxies {left right : Heap}
    (lists : left.free = right.free ∧ left.pending = right.pending ∧
      left.active = right.active ∧ left.kept = right.kept ∧ left.unmarked = right.unmarked)
    (stamps : ∀ index, left.stamp? index = right.stamp? index)
    (proxies : ∀ handle, left.proxy? handle = right.proxy? handle) : left = right := by
  have occupants : ∀ index, left.occupant? index = right.occupant? index := fun index =>
    Option.ext fun _ =>
      ⟨occupant?_of_proxies proxies, occupant?_of_proxies fun handle => (proxies handle).symm⟩
  obtain ⟨slots, free, pending, active, kept, unmarked⟩ := left
  obtain ⟨others, _, _, _, _, _⟩ := right
  obtain ⟨rfl, rfl, rfl, rfl, rfl⟩ := lists
  suffices same : slots = others by rw [same]
  refine Array.ext_getElem? fun index => ?_
  have stamp := stamps index
  have occupant := occupants index
  simp only [stamp?, occupant?] at stamp occupant
  cases here : slots[index]? with
  | none => cases there : others[index]? <;> simp_all
  | some slot =>
    cases there : others[index]? with
    | none => simp [here, there] at stamp
    | some other =>
      obtain ⟨generation, proxy⟩ := slot
      obtain ⟨_, _⟩ := other
      simp_all [Slot.stamp]

/-- The same handles in any order, and any number of times, mark the same. -/
theorem markAll_congr {other : List Handle}
    (same : ∀ handle, handle ∈ worklist ↔ handle ∈ other) :
    heap.markAll worklist = heap.markAll other := by
  have left := heap.darkens_markAll worklist
  have right := heap.darkens_markAll other
  obtain ⟨free, pending, active, kept, unmarked⟩ := left.lists
  obtain ⟨free', pending', active', kept', unmarked'⟩ := right.lists
  refine eq_of_proxies ⟨free.trans free'.symm, pending.trans pending'.symm,
    active.trans active'.symm, kept.trans kept'.symm, unmarked.trans unmarked'.symm⟩ ?_ ?_
  · intro index
    rw [stamp?_markAll, stamp?_markAll]
  · intro handle
    cases resolved : heap.proxy? handle with
    | none => rw [left.absent handle resolved, right.absent handle resolved]
    | some proxy =>
      obtain ⟨dark, _, named⟩ := left.proxies handle proxy resolved
      obtain ⟨dark', _, named'⟩ := right.proxies handle proxy resolved
      have exposes : heap.Exposes worklist handle ↔ heap.Exposes other handle :=
        ⟨fun exposed => exposed.of_mem same, fun exposed => exposed.of_mem fun _ => (same _).symm⟩
      have marks : dark = true ↔ dark' = true :=
        (marked_markAll_iff resolved named).trans
          ((or_congr_right exposes).trans (marked_markAll_iff resolved named').symm)
      rw [named, named', Bool.eq_iff_iff.mpr marks]

/-- Bounded marking leaves on the worklist what is still to be marked. -/
theorem markAll_markSome (budget : Nat) (heap : Heap) (worklist : List Handle) :
    (heap.markSome budget worklist).2.1.markAll (heap.markSome budget worklist).2.2 =
      heap.markAll worklist := by
  induction budget generalizing heap worklist with
  | zero => rfl
  | succ budget hypothesis =>
    cases worklist with
    | nil => rfl
    | cons first rest => rw [markSome_cons, hypothesis, markAll_cons]

end Heap

end ScriptVm
