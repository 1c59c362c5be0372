import ScriptVm.Proofs.Collector.Lockstep

/-!
# What shading marks

Shading marks a handle and what is found from it. The search goes from a proxy to its children as
long as it meets proxies without a mark; a mark that was there before cuts it, and so does a handle
that names nothing. So what gets a mark is what an open path leads to. Where the children of marked
proxies are marked, nothing is cut off that is not marked anyway, and shading adds all that is
reached. Apart from marks the heap stays as it is.
-/
namespace ScriptVm

/-- The slot with no mark on its occupant. -/
def Slot.bleached (slot : Slot) : Slot :=
  { slot with proxy := slot.proxy.map ({ · with marked := false }) }

namespace Heap

variable {heap : Heap} {handle other : Handle} {worklist : List Handle}

/-- The heap with no mark on anything. -/
def bleached (heap : Heap) : Heap := { heap with slots := heap.slots.map Slot.bleached }

/-- The handle names a proxy that is marked. -/
def IsMarked (heap : Heap) (handle : Handle) : Prop :=
  ∃ proxy, heap.proxy? handle = some proxy ∧ proxy.marked = true

/-- The handle names a proxy that is not marked. -/
def IsOpen (heap : Heap) (handle : Handle) : Prop :=
  ∃ proxy, heap.proxy? handle = some proxy ∧ proxy.marked = false

/-- A path leads from a handle to another, each of whose handles names a proxy that is not marked,
the first and the last one included. -/
inductive OpenPath (heap : Heap) (first : Handle) : Handle → Prop where
  | start (light : heap.IsOpen first) : OpenPath heap first first
  | child {parent handle : Handle} {proxy : Proxy} (path : OpenPath heap first parent)
    (resolved : heap.proxy? parent = some proxy) (listed : handle ∈ proxy.cell.children)
    (light : heap.IsOpen handle) : OpenPath heap first handle

/-- Whatever a marked proxy refers to is marked, unless it does not resolve. -/
def ClosedMarks (heap : Heap) : Prop :=
  ∀ parent proxy, heap.proxy? parent = some proxy → proxy.marked = true →
    ∀ child ∈ proxy.cell.children, ∀ found, heap.proxy? child = some found → found.marked = true

/-- What a path leads to is not marked. -/
theorem OpenPath.isOpen (path : heap.OpenPath handle other) : heap.IsOpen other := by
  cases path with
  | start light => exact light
  | child _ _ _ light => exact light

/-- A path exposes what it leads to. -/
theorem OpenPath.exposes (path : heap.OpenPath handle other) : heap.Exposes [handle] other := by
  induction path with
  | start => exact .listed List.mem_cons_self
  | child above resolved listed _ hypothesis =>
    obtain ⟨proxy, named, light⟩ := above.isOpen
    obtain rfl := Option.some.inj (named.symm.trans resolved)
    exact .child hypothesis named light listed

/-- A path leads to what is exposed and not marked. -/
theorem Exposes.openPath (exposed : heap.Exposes [handle] other) (light : heap.IsOpen other) :
    heap.OpenPath handle other := by
  induction exposed with
  | listed member =>
    obtain rfl := List.mem_singleton.mp member
    exact .start light
  | child _ resolved unmarked listed hypothesis =>
    exact .child (hypothesis ⟨_, resolved, unmarked⟩) resolved listed light

/-- A path leads to what is reached. -/
theorem OpenPath.reaches (path : heap.OpenPath handle other) : heap.Reaches (· = handle) other := by
  induction path with
  | start => exact .start rfl
  | child _ resolved listed _ hypothesis => exact .child hypothesis resolved listed

/-- Where the children of marked proxies are marked, a path leads to what is reached and not
marked. -/
theorem ClosedMarks.openPath (closed : heap.ClosedMarks)
    (reached : heap.Reaches (· = handle) other) (light : heap.IsOpen other) :
    heap.OpenPath handle other := by
  induction reached with
  | start begins =>
    subst begins
    exact .start light
  | @child parent proxy _ _ resolved listed hypothesis =>
    cases dark : proxy.marked with
    | false => exact .child (hypothesis ⟨proxy, resolved, dark⟩) resolved listed light
    | true =>
      obtain ⟨found, named, unmarked⟩ := light
      have passed := closed parent proxy resolved dark _ listed found named
      simp [unmarked] at passed

/-- What is marked or at the end of a path is marked or found, whenever paths lead to what is found
and not marked, and to nothing else. -/
theorem isMarked_or_openPath_iff {found : Handle → Prop}
    (sound : heap.OpenPath handle other → found other)
    (complete : found other → heap.IsOpen other → heap.OpenPath handle other) :
    heap.IsMarked other ∨ heap.OpenPath handle other ↔
      heap.IsMarked other ∨ heap.contains other = true ∧ found other := by
  constructor
  · rintro (marked | path)
    · exact .inl marked
    · obtain ⟨proxy, resolved, _⟩ := path.isOpen
      exact .inr ⟨contains_iff.mpr ⟨proxy, resolved⟩, sound path⟩
  · rintro (marked | ⟨resolves, isFound⟩)
    · exact .inl marked
    · obtain ⟨proxy, resolved⟩ := contains_iff.mp resolves
      cases dark : proxy.marked with
      | true => exact .inl ⟨proxy, resolved, dark⟩
      | false => exact .inr (complete isFound ⟨proxy, resolved, dark⟩)

/-- Marks change nothing else. -/
theorem bleached_setMarked (heap : Heap) (handle : Handle) :
    (heap.setMarked handle).bleached = heap.bleached := by
  suffices same : (heap.setMarked handle).slots.map Slot.bleached =
      heap.slots.map Slot.bleached by
    unfold bleached
    rw [same]
    rfl
  refine Array.ext_getElem? fun index => ?_
  rw [Array.getElem?_map, Array.getElem?_map, setMarked, slots_updateAt]
  split
  · cases heap.slots[index]? with
    | none => rfl
    | some slot =>
      obtain ⟨generation, proxy⟩ := slot
      cases proxy <;> rfl
  · rfl

/-- Marking a worklist changes marks alone. -/
theorem bleached_markAll (heap : Heap) (worklist : List Handle) :
    (heap.markAll worklist).bleached = heap.bleached := by
  induction heap, worklist using markAll_induction with
  | nil heap => rw [markAll]
  | cons heap first rest hypothesis =>
    rw [markAll_cons, hypothesis]
    rcases heap.markOne_cases first with ⟨same, _⟩ | ⟨_, _, _, marks⟩
    · rw [same]
    · rw [marks]
      exact heap.bleached_setMarked first

/-- Marking a handle again marks nothing more. -/
theorem markAll_markAll (heap : Heap) (handle : Handle) :
    (heap.markAll [handle]).markAll [handle] = heap.markAll [handle] := by
  have listed : heap.Covered ([handle] ++ []) handle := fun _ _ => .inr List.mem_cons_self
  have covered : (heap.markAll [handle]).Covered [] handle := listed.markAll
  rw [markAll_cons]
  rcases (heap.markAll [handle]).markOne_cases handle with ⟨same, _⟩ | ⟨proxy, named, light, _⟩
  · rw [same, List.append_nil, markAll]
  · rcases covered proxy named with marked | none
    · simp [light] at marked
    · simp at none

/-- Marking a worklist marks what it exposes. -/
theorem isMarked_markAll_iff :
    (heap.markAll worklist).IsMarked other ↔
      heap.IsMarked other ∨ heap.contains other = true ∧ heap.Exposes worklist other := by
  have darkens := heap.darkens_markAll worklist
  cases resolved : heap.proxy? other with
  | none => simp [IsMarked, contains, resolved, darkens.absent other resolved]
  | some proxy =>
    obtain ⟨marked, _, named⟩ := darkens.proxies other proxy resolved
    simpa [IsMarked, contains, resolved, named] using marked_markAll_iff resolved named

/-- Marking a worklist takes no more turns than it has handles and unmarked proxies have
references. -/
theorem markSome_of_lt {budget : Nat}
    (enough : worklist.length + heap.openReferences < budget) :
    heap.markSome budget worklist = (true, heap.markAll worklist, []) := by
  have done : (heap.markSome budget worklist).1 = true :=
    (markSome_done_iff budget heap worklist).mpr (by omega)
  have all := markSome_all budget heap worklist done
  have empty := markSome_done budget heap worklist done
  exact Prod.ext done (Prod.ext all empty)

/-- What marking from a handle comes to. -/
structure Shaded (heap : Heap) (handle : Handle) (after : Heap) : Prop where
  /-- The worklist gets empty. One turn of marking takes one handle off it, and there are no more
  turns than references of unmarked proxies, and one for the handle itself. -/
  ends : ∀ budget, 1 + heap.openReferences < budget →
    heap.markSome budget [handle] = (true, after, [])
  /-- What open paths lead to gets a mark. -/
  marks : ∀ other, after.IsMarked other ↔ heap.IsMarked other ∨ heap.OpenPath handle other
  /-- Cells, pins, residences, generations and lists stay as they are. -/
  rest : after.bleached = heap.bleached
  /-- Where the children of marked proxies are marked, all that is reached gets a mark. -/
  union : heap.ClosedMarks → ∀ other, after.IsMarked other ↔
    heap.IsMarked other ∨ heap.contains other = true ∧ heap.Reaches (· = handle) other
  /-- A second time marks nothing more. -/
  again : after.markAll [handle] = after

/-- Marking from a handle ends in every heap. It marks exactly what open paths from the handle lead
to, changes nothing but marks, and done twice it is the same as done once. -/
theorem shaded_markAll (heap : Heap) (handle : Handle) :
    heap.Shaded handle (heap.markAll [handle]) := by
  have marks : ∀ other, (heap.markAll [handle]).IsMarked other ↔
      heap.IsMarked other ∨ heap.OpenPath handle other := fun _ =>
    isMarked_markAll_iff.trans
      (isMarked_or_openPath_iff OpenPath.exposes Exposes.openPath).symm
  exact {
    ends := fun budget enough => markSome_of_lt enough
    marks := marks
    rest := heap.bleached_markAll [handle]
    union := fun closed other =>
      (marks other).trans (isMarked_or_openPath_iff OpenPath.reaches closed.openPath)
    again := heap.markAll_markAll handle }

/-- Three arrays form a ring, and the second one is marked already. Marking from the first one does
not get past it, so that the third one stays without a mark. -/
example :
    let array (index : Nat) : Cell := .value (.array #[⟨⟨index, 0⟩⟩])
    let ring := (((empty.allocate (array 2) false).2.allocate (array 3) false).2.allocate (array 1)
      false).2
    let after := (ring.setMarked ⟨2, 0⟩).markAll [⟨1, 0⟩]
    (after.isMarkedAt 1, after.isMarkedAt 2, after.isMarkedAt 3) = (true, true, false) := by
  cbv

end Heap

end ScriptVm
