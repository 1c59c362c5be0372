import ScriptVm.Heap.Basic

/-!
# Marking

Marking follows references from a worklist of handles. A proxy met for the first time is marked and
its children go to the front of the worklist; everything else on the worklist is passed over.
Each marked proxy leaves one unmarked proxy less, so marking a whole worklist ends.
-/
namespace ScriptVm

/-- A slot with a proxy that is not marked. -/
def Slot.isUnmarked (slot : Slot) : Bool :=
  match slot.proxy with
  | some proxy => !proxy.marked
  | none => false

namespace Heap

/-- The count of proxies that are not marked. -/
def unmarkedCount (heap : Heap) : Nat := heap.slots.countP Slot.isUnmarked

/-- The proxy that a handle names, when it is not marked. -/
def unmarked? (heap : Heap) (handle : Handle) : Option Proxy :=
  (heap.proxy? handle).filter fun proxy => !proxy.marked

/-- Marks the proxy in a slot. -/
def setMarked (heap : Heap) (handle : Handle) : Heap :=
  heap.updateAt handle.index fun proxy => { proxy with marked := true }

/-- Marking an unmarked proxy lowers the count of unmarked ones. -/
theorem unmarkedCount_setMarked_lt {heap : Heap} {handle : Handle} {proxy : Proxy}
    (found : heap.unmarked? handle = some proxy) :
    (heap.setMarked handle).unmarkedCount < heap.unmarkedCount := by
  obtain ⟨resolved, unmarked⟩ := Option.filter_eq_some_iff.mp found
  cases within : heap.slots[handle.index]? with
  | none => simp [proxy?, within] at resolved
  | some slot =>
    obtain ⟨inside, here⟩ := Array.getElem?_eq_some_iff.mp within
    have occupied : slot.proxy = some proxy := by
      by_cases same : slot.generation = handle.generation
      · simpa [proxy?, within, same] using resolved
      · simp [proxy?, within, same] at resolved
    have positive : 0 < heap.slots.countP Slot.isUnmarked :=
      Array.countP_pos_iff.mpr ⟨slot, here ▸ Array.getElem_mem inside, by
        simpa [Slot.isUnmarked, occupied] using unmarked⟩
    have changed : heap.slots.modify handle.index
        (fun slot => { slot with
          proxy := slot.proxy.map fun proxy => { proxy with marked := true } }) =
        heap.slots.set handle.index { slot with
          proxy := slot.proxy.map fun proxy => { proxy with marked := true } } inside := by
      apply Array.ext
      · simp
      · intro index _ _
        by_cases same : handle.index = index
        · subst same
          simp [Array.getElem_modify, here]
        · simp [Array.getElem_modify, Array.getElem_set, same]
    have old : Slot.isUnmarked heap.slots[handle.index] = true := by
      rw [here]
      simpa [Slot.isUnmarked, occupied] using unmarked
    have new : Slot.isUnmarked { slot with
        proxy := slot.proxy.map fun proxy => { proxy with marked := true } } = false := by
      simp [Slot.isUnmarked, occupied]
    simp only [unmarkedCount, setMarked, updateAt, changed, Array.countP_set, old, new, if_true]
    simp only [Bool.false_eq_true, if_false, Nat.add_zero]
    omega

/-- Marks one handle of a worklist: the heap after it, and what it puts before the rest. -/
def markOne (heap : Heap) (handle : Handle) : Heap × List Handle :=
  match heap.unmarked? handle with
  | none => (heap, [])
  | some proxy => (heap.setMarked handle, proxy.cell.children.reverse)

/-- Marks a worklist and all that is reached from it through unmarked proxies. -/
def markAll (heap : Heap) (worklist : List Handle) : Heap :=
  match worklist with
  | [] => heap
  | handle :: rest =>
    match _ : heap.unmarked? handle with
    | none => markAll heap rest
    | some proxy => markAll (heap.setMarked handle) (proxy.cell.children.reverse ++ rest)
termination_by (heap.unmarkedCount, worklist.length)
decreasing_by
  · exact Prod.Lex.right _ (Nat.lt_succ_self _)
  · exact Prod.Lex.left _ _ (unmarkedCount_setMarked_lt (by assumption))

/-- Marks at most a number of handles of a worklist. True when the worklist is found empty before
that number is used up; the rest of the worklist is returned. -/
def markSome : Nat → Heap → List Handle → Bool × Heap × List Handle
  | 0, heap, worklist => (false, heap, worklist)
  | _ + 1, heap, [] => (true, heap, [])
  | budget + 1, heap, handle :: rest =>
    let (heap, children) := heap.markOne handle
    markSome budget heap (children ++ rest)

end Heap

end ScriptVm
