import ScriptVm.Heap.Object
import ScriptVm.Heap.Value

/-!
# The heap

Slots hold proxies, and a proxy holds a value or an object. A slot is in exactly one place: it is
free, or its proxy is pending (allocated since the last collection began), active, or unmarked
(condemned). The collector passes over the active proxies in order; those it has passed and kept
wait in a list of their own, so the active proxies are the kept ones followed by those still ahead.
-/
namespace ScriptVm

/-- Where a proxy stands. -/
inductive Residence where
  /-- Never collected. -/
  | immortal
  | pending
  | active
  | unmarked
  deriving DecidableEq, Repr, Inhabited

/-- The name of a residence. -/
def Residence.name : Residence → String
  | .immortal => "Immortal"
  | .pending => "Pending"
  | .active => "Active"
  | .unmarked => "Unmarked"

/-- What a proxy holds. -/
inductive Cell where
  | value (value : Value)
  | object (object : Object)
  deriving DecidableEq, Repr, Inhabited

/-- The handles that a cell refers to, in order. -/
def Cell.children : Cell → List Handle
  | .value (.array items) => items.toList.map Ref.handle
  | .value (.object reference) => [reference.handle]
  | .value _ => []
  | .object content => content.members.toList.map Ref.handle

/-- Puts a reference into an element of an array; any other cell stays as it is. -/
def Cell.setElement (cell : Cell) (index : Nat) (value : Ref) : Cell :=
  match cell with
  | .value (.array items) => .value (.array (items.setIfInBounds index value))
  | cell => cell

/-- An occupant of a slot. -/
structure Proxy where
  /-- Where it stands. -/
  residence : Residence
  /-- Found reachable by the collection under way. -/
  marked : Bool
  /-- Kept by every collection. -/
  pinned : Bool
  /-- What it holds. -/
  cell : Cell
  deriving DecidableEq, Repr, Inhabited

/-- A place in the heap. -/
structure Slot where
  /-- How often its proxies have been disposed of, as a 32-bit word. -/
  generation : UInt32
  /-- Its occupant. -/
  proxy : Option Proxy
  deriving DecidableEq, Repr, Inhabited

/-- The slots, and where they stand. -/
structure Heap where
  /-- All slots. -/
  slots : Array Slot
  /-- Empty slots, last emptied first. -/
  free : List Nat
  /-- Slots of pending proxies, last allocated first. -/
  pending : List Nat
  /-- Slots of active proxies still ahead of the collector's pass. -/
  active : List Nat
  /-- Slots of active proxies that the pass has kept, last kept first. -/
  kept : List Nat
  /-- Slots of unmarked proxies, last condemned first. -/
  unmarked : List Nat
  deriving DecidableEq, Repr, Inhabited

namespace Heap

/-- The greatest count of slots. -/
def limit : Nat := UInt32.size

/-- A heap with the null value alone. -/
def empty : Heap where
  slots := #[⟨0, some ⟨.immortal, true, true, .value .null⟩⟩]
  free := []
  pending := []
  active := []
  kept := []
  unmarked := []

/-- The proxy that a handle names, unless its slot has been disposed of since. -/
def proxy? (heap : Heap) (handle : Handle) : Option Proxy := do
  let slot ← heap.slots[handle.index]?
  if slot.generation = handle.generation then slot.proxy else none

/-- A handle names a proxy. -/
def contains (heap : Heap) (handle : Handle) : Bool := (heap.proxy? handle).isSome

/-- The current handle of a slot. -/
def handleAt (heap : Heap) (index : Nat) : Handle :=
  match heap.slots[index]? with
  | some slot => ⟨index, slot.generation⟩
  | none => ⟨index, 0⟩

/-- Changes the proxy in a slot. -/
def updateAt (heap : Heap) (index : Nat) (change : Proxy → Proxy) : Heap :=
  { heap with
    slots := heap.slots.modify index fun slot => { slot with proxy := slot.proxy.map change } }

/-- Changes the proxies in some slots. -/
def updateAll (heap : Heap) (indices : List Nat) (change : Proxy → Proxy) : Heap :=
  indices.foldl (fun heap index => heap.updateAt index change) heap

/-- There is room for a number of further proxies. The empty slots are counted only when the heap
cannot grow by that number. -/
def hasRoom (heap : Heap) (count : Nat) : Bool :=
  heap.slots.size + count ≤ limit || heap.slots.size + count ≤ limit + heap.free.length

/-- Places a new pending proxy in the slot emptied last, or in a new slot. The caller has checked
that there is room. -/
def allocate (heap : Heap) (cell : Cell) (pinned : Bool) : Handle × Heap :=
  let proxy : Proxy := ⟨.pending, false, pinned, cell⟩
  match heap.free with
  | index :: free =>
    let heap := { heap with
      free
      slots := heap.slots.modify index fun slot => { slot with proxy := some proxy }
      pending := index :: heap.pending }
    (heap.handleAt index, heap)
  | [] =>
    let index := heap.slots.size
    (⟨index, 0⟩, { heap with
      slots := heap.slots.push ⟨0, some proxy⟩, pending := index :: heap.pending })

/-- The value behind a reference. -/
def value? (heap : Heap) (reference : Ref) : Option Value :=
  match heap.proxy? reference.handle with
  | some ⟨_, _, _, .value value⟩ => some value
  | _ => none

/-- The object behind a reference. -/
def object? (heap : Heap) (reference : ObjectRef) : Option Object :=
  match heap.proxy? reference.handle with
  | some ⟨_, _, _, .object object⟩ => some object
  | _ => none

/-- Replaces what a live handle's proxy holds. -/
def setCell (heap : Heap) (handle : Handle) (cell : Cell) : Heap :=
  heap.updateAt handle.index fun proxy => { proxy with cell }

/-- Puts a reference into an element of a live handle's array. -/
def setElement (heap : Heap) (handle : Handle) (index : Nat) (value : Ref) : Heap :=
  heap.updateAt handle.index fun proxy => { proxy with cell := proxy.cell.setElement index value }

/-- Pins or unpins a proxy; the null value stays pinned. -/
def setPinned (heap : Heap) (handle : Handle) (pinned : Bool) : Option Heap :=
  match heap.proxy? handle with
  | none => none
  | some proxy =>
    if proxy.residence = .immortal then some heap
    else some (heap.updateAt handle.index fun proxy => { proxy with pinned })

/-- The active proxies: those kept by the pass, then those ahead of it. -/
def activeSlots (heap : Heap) : List Nat := heap.kept.reverse ++ heap.active

/-- The count of proxies, the null value apart. -/
def liveCount (heap : Heap) : Nat := heap.slots.size - 1 - heap.free.length

end Heap

end ScriptVm
