import ScriptVm.Proofs.Collector.Representation
import ScriptVm.Proofs.Collector.Typing

/-!
# The chronicle of a heap

A chronicle lists, in order, the handles that allocations hand out and the slots whose proxies are
disposed of. It is read off the heap: a step disposes of the proxy in a slot when the slot is
occupied before the step and empty after it. The chronicle explains the generation of every slot,
which is the count of its disposals as a 32-bit word, and from that alone which handles resolve.
-/
namespace ScriptVm

/-- Something that happens to a slot. -/
inductive Occurrence where
  /-- A handle is handed out for a new proxy in its slot. -/
  | issued (handle : Handle)
  /-- The proxy in a slot is disposed of. -/
  | disposed (index : Nat)
  deriving DecidableEq, Repr

namespace Occurrence

/-- The handle that is handed out. -/
def handle? : Occurrence → Option Handle
  | issued handle => some handle
  | disposed _ => none

/-- The slot whose proxy is disposed of. -/
def slot? : Occurrence → Option Nat
  | issued _ => none
  | disposed index => some index

end Occurrence

/-- The handles that have been handed out, in order. -/
def issuedHandles (occurrences : List Occurrence) : List Handle :=
  occurrences.filterMap Occurrence.handle?

/-- The slots whose proxies have been disposed of, in order. -/
def disposedSlots (occurrences : List Occurrence) : List Nat :=
  occurrences.filterMap Occurrence.slot?

/-- How often the proxy in a slot has been disposed of. -/
def disposals (occurrences : List Occurrence) (index : Nat) : Nat :=
  (disposedSlots occurrences).count index

/-- The slots that are occupied before and empty after. -/
def Heap.emptied (before after : Heap) : List Nat :=
  (List.range before.slots.size).filter fun index =>
    (before.occupant? index).isSome && !(after.occupant? index).isSome

namespace Collector

/-- What happens in a step. -/
def stepOccurrences (collector : Collector) (roots : RootSet) : List Occurrence :=
  (collector.heap.emptied (collector.step roots).2.heap).map .disposed

/-- What happens in steps up to the end of a collection. -/
def runOccurrences (roots : RootSet) : Nat → Collector → List Occurrence
  | 0, _ => []
  | fuel + 1, collector =>
    collector.stepOccurrences roots ++
      if (collector.step roots).1 then []
      else runOccurrences roots fuel (collector.step roots).2

/-- What happens in an operation. -/
def occurrences (collector : Collector) : Operation → List Occurrence
  | .allocate cell pinned =>
    if collector.heap.hasRoom 1 then [.issued (collector.allocate cell pinned).1] else []
  | .setPinned _ _ | .shade _ | .reset => []
  | .step roots => collector.stepOccurrences roots
  | .run roots => runOccurrences roots (collector.stepBound roots) collector

/-- What happens in a sequence of operations. -/
def chronicle : List Operation → Collector → List Occurrence
  | [], _ => []
  | operation :: operations, collector =>
    collector.occurrences operation ++ chronicle operations (collector.operate operation)

end Collector

/-! ## Counting -/

section Counting

variable (first second : List Occurrence)

/-- Handles are handed out in the first part, then in the second. -/
@[simp] theorem issuedHandles_append :
    issuedHandles (first ++ second) = issuedHandles first ++ issuedHandles second :=
  List.filterMap_append

/-- Proxies are disposed of in the first part, then in the second. -/
@[simp] theorem disposedSlots_append :
    disposedSlots (first ++ second) = disposedSlots first ++ disposedSlots second :=
  List.filterMap_append

/-- The disposals of a slot are those in the first part and those in the second. -/
@[simp] theorem disposals_append (index : Nat) :
    disposals (first ++ second) index = disposals first index + disposals second index := by
  simp [disposals]

/-- Handing out a handle is no disposal. -/
@[simp] theorem disposals_cons_issued (handle : Handle) (index : Nat) :
    disposals (.issued handle :: first) index = disposals first index := rfl

/-- Disposals hand out no handle. -/
@[simp] theorem issuedHandles_disposed (slots : List Nat) :
    issuedHandles (slots.map .disposed) = [] := by
  induction slots with
  | nil => rfl
  | cons index slots hypothesis => exact hypothesis

/-- The slots of disposals are the ones disposed of. -/
@[simp] theorem disposedSlots_disposed (slots : List Nat) :
    disposedSlots (slots.map .disposed) = slots := by
  induction slots with
  | nil => rfl
  | cons index slots hypothesis => exact congrArg (index :: ·) hypothesis

end Counting

/-- An element of a list with a tail that does not hold it stands before that tail. -/
theorem exists_of_append_eq {α : Type} {past tail before after : List α} {element : α}
    (same : past ++ tail = before ++ element :: after) (absent : element ∉ tail) :
    ∃ rest, past = before ++ element :: rest ∧ after = rest ++ tail := by
  rcases List.append_eq_append_iff.mp same with ⟨more, _, parts⟩ | ⟨more, parts, rest⟩
  · exact absurd (by simp [parts]) absent
  · cases more with
    | nil =>
      rw [List.nil_append] at rest
      exact absurd (rest ▸ List.mem_cons_self) absent
    | cons head more =>
      obtain ⟨rfl, behind⟩ := List.cons_eq_cons.mp rest
      exact ⟨more, parts, behind⟩

/-- An element of a list with one element behind it is that one, or it stands before it. -/
theorem last_or_exists_of_append_eq {α : Type} {past before after : List α} {last element : α}
    (same : past ++ [last] = before ++ element :: after) :
    (past = before ∧ last = element) ∨
      ∃ rest, past = before ++ element :: rest ∧ after = rest ++ [last] := by
  rcases List.eq_nil_or_concat after with rfl | ⟨rest, final, rfl⟩
  · obtain ⟨front, ends⟩ := List.append_inj' same rfl
    exact .inl ⟨front, List.head_eq_of_cons_eq ends⟩
  · rw [List.concat_eq_append, ← List.cons_append, ← List.append_assoc] at same
    obtain ⟨front, ends⟩ := List.append_inj' same rfl
    obtain rfl : last = final := List.head_eq_of_cons_eq ends
    exact .inr ⟨rest, front, List.concat_eq_append⟩

/-- A slot is among the emptied ones exactly when it was occupied and is not any more. -/
theorem Heap.mem_emptied {before after : Heap} {index : Nat} :
    index ∈ before.emptied after ↔
      (before.occupant? index).isSome = true ∧ after.occupant? index = none := by
  simp only [emptied, List.mem_filter, List.mem_range, Bool.and_eq_true, Bool.not_eq_true',
    Option.isSome_eq_false_iff, Option.isNone_iff_eq_none]
  refine ⟨And.right, fun both => ⟨?_, both⟩⟩
  obtain ⟨proxy, occupied⟩ := Option.isSome_iff_exists.mp both.1
  exact index_lt_of_occupant? occupied

/-- A slot is emptied once. -/
theorem Heap.count_emptied (before after : Heap) (index : Nat) :
    (before.emptied after).count index = if index ∈ before.emptied after then 1 else 0 :=
  (List.nodup_range.filter _).count

/-- The disposals of emptied slots are one for each of them. -/
theorem Heap.disposals_emptied (before after : Heap) (index : Nat) :
    disposals ((before.emptied after).map .disposed) index =
      if index ∈ before.emptied after then 1 else 0 := by
  rw [disposals, disposedSlots_disposed, count_emptied]

/-! ## Stamps -/

namespace Heap

variable {heap before after : Heap} {index : Nat} {generation : UInt32} {occupied : Bool}

/-- A stamp tells whether the slot is occupied. -/
theorem isSome_occupant? (stamped : heap.stamp? index = some (generation, occupied)) :
    (heap.occupant? index).isSome = occupied := by
  obtain ⟨slot, within, stamp⟩ := Option.map_eq_some_iff.mp stamped
  rw [occupant?, within]
  exact (Prod.mk.inj stamp).2

/-- A handle resolves exactly when its slot is stamped with its generation as an occupied one. -/
theorem contains_iff_stamp? {handle : Handle} :
    heap.contains handle = true ↔ heap.stamp? handle.index = some (handle.generation, true) := by
  cases within : heap.slots[handle.index]? with
  | none => simp [contains, proxy?, stamp?, within]
  | some slot =>
    by_cases same : slot.generation = handle.generation
    · simp [contains, proxy?, stamp?, within, same, Slot.stamp]
    · simp [contains, proxy?, stamp?, within, same, Slot.stamp]

/-- A slot has no stamp exactly when it does not exist. -/
theorem stamp?_eq_none_iff : heap.stamp? index = none ↔ heap.slots.size ≤ index := by
  simp [stamp?]

/-- Emptied slots are empty at their next generation, and the others keep their stamps. -/
theorem Ages.stamp? (ages : before.Ages after)
    (stamped : before.stamp? index = some (generation, occupied)) :
    after.stamp? index =
      if index ∈ before.emptied after then some (generation + 1, false)
      else some (generation, occupied) := by
  have filled := isSome_occupant? stamped
  rcases ages index generation occupied stamped with same | ⟨rfl, next⟩
  · have still := isSome_occupant? same
    have outside : index ∉ before.emptied after := by
      rintro inside
      obtain ⟨was, is⟩ := mem_emptied.mp inside
      rw [is, ← filled, was] at still
      contradiction
    rw [if_neg outside, same]
  · have empty := isSome_occupant? next
    have inside : index ∈ before.emptied after :=
      mem_emptied.mpr ⟨filled, by simpa using empty⟩
    rw [if_pos inside, next]

/-- An allocation stamps the slot of the new handle as occupied at the handle's generation. -/
theorem stamp?_allocate (heap : Heap) (cell : Cell) (pinned : Bool)
    (vacant : ∀ index ∈ heap.free, index < heap.slots.size ∧ heap.occupant? index = none)
    (index : Nat) :
    (heap.allocate cell pinned).2.stamp? index =
      if index = (heap.allocate cell pinned).1.index then
        some ((heap.allocate cell pinned).1.generation, true)
      else heap.stamp? index := by
  unfold allocate
  split
  · rename_i slot free empties
    obtain ⟨inside, _⟩ := vacant slot (by simp [empties])
    by_cases here : index = slot
    · simp [Heap.stamp?, Array.getElem_modify, here, handleAt, inside, Slot.stamp]
    · have apart : ¬slot = index := fun equal => here equal.symm
      simp [Heap.stamp?, Array.getElem?_modify, here, apart]
  · by_cases here : index = heap.slots.size
    · simp [Heap.stamp?, here, Slot.stamp]
    · simp [Heap.stamp?, Array.getElem?_push, here]

/-- Before an allocation the slot of the new handle is empty at the handle's generation, or it does
not exist and the generation is the first one. -/
theorem stamp?_index_allocate (heap : Heap) (cell : Cell) (pinned : Bool)
    (vacant : ∀ index ∈ heap.free, index < heap.slots.size ∧ heap.occupant? index = none) :
    heap.stamp? (heap.allocate cell pinned).1.index =
        some ((heap.allocate cell pinned).1.generation, false) ∨
      heap.stamp? (heap.allocate cell pinned).1.index = none ∧
        (heap.allocate cell pinned).1.generation = 0 := by
  unfold allocate
  split
  · rename_i slot free empties
    obtain ⟨inside, hollow⟩ := vacant slot (by simp [empties])
    left
    have empty : heap.slots[slot].proxy = none := by simpa [occupant?, inside] using hollow
    simp [Heap.stamp?, Array.getElem_modify, handleAt, inside, Slot.stamp, empty]
  · exact .inr ⟨by simp [Heap.stamp?], rfl⟩

/-! ## What a chronicle explains -/

/-- A chronicle explains the stamps of a heap. -/
structure Recorded (heap : Heap) (past : List Occurrence) : Prop where
  /-- The generation of a slot counts its disposals. -/
  dated : ∀ index generation occupied, heap.stamp? index = some (generation, occupied) →
    generation = UInt32.ofNat (disposals past index)
  /-- Slots that do not exist have never been disposed of. -/
  absent : ∀ index, heap.stamp? index = none → disposals past index = 0
  /-- A handle carries the count of disposals of its slot when it is handed out, and the slot is
  occupied until the next disposal. -/
  issued : ∀ before handle after, past = before ++ .issued handle :: after →
    handle.index ≠ 0 ∧ handle.generation = UInt32.ofNat (disposals before handle.index) ∧
      ∃ generation occupied, heap.stamp? handle.index = some (generation, occupied) ∧
        (disposals after handle.index = 0 → occupied = true)
  /-- Between two handles of one slot the slot is disposed of. -/
  apart : ∀ before first between second after,
    past = before ++ .issued first :: (between ++ .issued second :: after) →
    first.index = second.index → 0 < disposals between first.index

namespace Recorded

variable {past : List Occurrence}

/-- Nothing has happened to the heap with the null value alone. -/
theorem start : empty.Recorded [] := by
  refine ⟨?_, fun _ _ => rfl, ?_, ?_⟩
  · intro index generation occupied stamped
    cases index with
    | zero => exact (Prod.mk.inj (Option.some.inj stamped)).1.symm
    | succ index => simp [Heap.stamp?, empty] at stamped
  · intro before handle after none
    simp at none
  · intro before first between second after none
    simp at none

/-- The same stamps have the same explanation. -/
theorem of_stamps (recorded : before.Recorded past)
    (same : ∀ index, after.stamp? index = before.stamp? index) : after.Recorded past := by
  constructor
  · simpa only [same] using recorded.dated
  · simpa only [same] using recorded.absent
  · simpa only [same] using recorded.issued
  · exact recorded.apart

/-- Emptied slots are explained by their disposals. -/
theorem ages (recorded : before.Recorded past) (ages : before.Ages after)
    (size : after.slots.size = before.slots.size) :
    after.Recorded (past ++ (before.emptied after).map .disposed) := by
  have known : ∀ index, after.stamp? index = none → before.stamp? index = none := by
    intro index
    rw [stamp?_eq_none_iff, stamp?_eq_none_iff, size]
    exact id
  have only : ∀ handle, Occurrence.issued handle ∉ (before.emptied after).map .disposed := by simp
  constructor
  · intro index generation occupied stamped
    cases earlier : before.stamp? index with
    | none =>
      rw [stamp?_eq_none_iff, ← size, ← stamp?_eq_none_iff, stamped] at earlier
      contradiction
    | some stamp =>
      have counted := recorded.dated index stamp.1 stamp.2 earlier
      rw [ages.stamp? earlier] at stamped
      rw [disposals_append, disposals_emptied]
      split at stamped
      · rename_i inside
        obtain ⟨rfl, -⟩ := Prod.mk.inj (Option.some.inj stamped)
        rw [counted, if_pos inside, UInt32.ofNat_add]
        rfl
      · rename_i outside
        obtain ⟨rfl, -⟩ := Prod.mk.inj (Option.some.inj stamped)
        rwa [if_neg outside]
  · intro index missing
    have earlier := known index missing
    have outside : index ∉ before.emptied after := by
      intro inside
      obtain ⟨proxy, occupied⟩ := Option.isSome_iff_exists.mp (mem_emptied.mp inside).1
      have here := index_lt_of_occupant? occupied
      rw [stamp?_eq_none_iff] at earlier
      omega
    rw [disposals_append, disposals_emptied, if_neg outside, recorded.absent index earlier]
  · intro first handle rest parts
    obtain ⟨between, before, rfl⟩ := exists_of_append_eq parts (only handle)
    obtain ⟨inner, current, generation, occupied, stamped, filled⟩ :=
      recorded.issued first handle between before
    have next := ages.stamp? stamped
    refine ⟨inner, current, ?_⟩
    rw [disposals_append, disposals_emptied]
    split at next
    · rename_i inside
      refine ⟨_, _, next, fun none => ?_⟩
      rw [if_pos inside] at none
      omega
    · rename_i outside
      refine ⟨_, _, next, fun none => filled ?_⟩
      rwa [if_neg outside] at none
  · intro start first between second rest parts
    obtain ⟨rest, parts, tail⟩ := exists_of_append_eq parts (only first)
    obtain ⟨last, rest, -⟩ := exists_of_append_eq tail.symm (only second)
    exact recorded.apart start first between second last (by rw [parts, rest])

/-- A new handle is not the null handle, and it carries the count of disposals of its slot. -/
theorem of_allocate (recorded : heap.Recorded past) (lawful : heap.Lawful) (cell : Cell)
    (pinned : Bool) :
    (heap.allocate cell pinned).1.index ≠ 0 ∧
      (heap.allocate cell pinned).1.generation =
        UInt32.ofNat (disposals past (heap.allocate cell pinned).1.index) := by
  constructor
  · intro zero
    have vacant := (heap.allocates cell pinned lawful.vacant).vacant
    rw [zero, lawful.occupant?_zero] at vacant
    contradiction
  · rcases heap.stamp?_index_allocate cell pinned lawful.vacant with empty | ⟨missing, first⟩
    · exact recorded.dated _ _ _ empty
    · rw [first, recorded.absent _ missing]
      rfl

/-- A new handle is explained by its being handed out. Its slot is empty, so that an earlier handle
to the slot has been disposed of. -/
theorem allocate (recorded : heap.Recorded past) (lawful : heap.Lawful) (cell : Cell)
    (pinned : Bool) :
    (heap.allocate cell pinned).2.Recorded
      (past ++ [.issued (heap.allocate cell pinned).1]) := by
  obtain ⟨inner, current⟩ := recorded.of_allocate lawful cell pinned
  have stamps := heap.stamp?_allocate cell pinned lawful.vacant
  have earlier := heap.stamp?_index_allocate cell pinned lawful.vacant
  generalize (heap.allocate cell pinned).1 = new at *
  generalize (heap.allocate cell pinned).2 = after at *
  have same : ∀ index, disposals (past ++ [.issued new]) index = disposals past index := by
    intro index
    rw [disposals_append]
    rfl
  constructor
  · intro index generation occupied stamped
    rw [same]
    rw [stamps] at stamped
    split at stamped
    · rename_i here
      obtain ⟨rfl, -⟩ := Prod.mk.inj (Option.some.inj stamped)
      rwa [here]
    · exact recorded.dated index generation occupied stamped
  · intro index missing
    rw [same]
    rw [stamps] at missing
    split at missing
    · contradiction
    · exact recorded.absent index missing
  · intro first handle rest parts
    rcases last_or_exists_of_append_eq parts with ⟨rfl, itself⟩ | ⟨more, known, rfl⟩
    · obtain rfl := Occurrence.issued.inj itself
      exact ⟨inner, current, _, _, (stamps _).trans (if_pos rfl), fun _ => rfl⟩
    · obtain ⟨apart, dated, generation, occupied, stamped, filled⟩ :=
        recorded.issued first handle more known
      refine ⟨apart, dated, ?_⟩
      rw [stamps]
      split
      · exact ⟨_, _, rfl, fun _ => rfl⟩
      · refine ⟨_, _, stamped, fun none => filled ?_⟩
        rw [disposals_append] at none
        omega
  · intro start first between second rest parts index
    rw [← List.cons_append, ← List.append_assoc] at parts
    rcases last_or_exists_of_append_eq parts with ⟨known, itself⟩ | ⟨more, known, -⟩
    · obtain rfl := Occurrence.issued.inj itself
      obtain ⟨_, _, generation, occupied, stamped, filled⟩ :=
        recorded.issued start first between known
      rw [index] at stamped filled ⊢
      refine Nat.pos_of_ne_zero fun none => ?_
      rcases earlier with empty | ⟨missing, _⟩
      · obtain ⟨-, rfl⟩ := Prod.mk.inj (Option.some.inj (stamped.symm.trans empty))
        exact absurd (filled none) Bool.false_ne_true
      · rw [missing] at stamped
        contradiction
    · rw [List.append_assoc, List.cons_append] at known
      exact recorded.apart start first between second more known index

end Recorded

/-! ## Which handles resolve -/

/-- Which handles resolve, from what has happened to the slots of a heap. -/
structure Unaliased (heap : Heap) (happened : List Occurrence) : Prop where
  /-- The generation of a slot is the count of its disposals as a 32-bit word. -/
  generation : ∀ index slot, heap.slots[index]? = some slot →
    slot.generation.toNat = disposals happened index % UInt32.size
  /-- A handle resolves until its proxy is disposed of. -/
  held : ∀ before handle after, happened = before ++ .issued handle :: after →
    disposals after handle.index = 0 → heap.contains handle = true
  /-- A handle whose proxy has been disposed of resolves again exactly when the disposals of its
  slot since it was handed out have taken the generation all the way round and the slot is
  occupied. -/
  again : ∀ before handle after, happened = before ++ .issued handle :: after →
    0 < disposals after handle.index →
    (heap.contains handle = true ↔
      UInt32.size ∣ disposals after handle.index ∧
        (heap.occupant? handle.index).isSome = true)
  /-- While no generation has gone all the way round, no two handles are the same, none is the null
  handle, and none resolves once its proxy has been disposed of. -/
  distinct : (∀ index, disposals happened index < UInt32.size) →
    (issuedHandles happened).Nodup ∧ Handle.null ∉ issuedHandles happened ∧
      ∀ before handle after, happened = before ++ .issued handle :: after →
        0 < disposals after handle.index → heap.contains handle = false

/-- Two counts have the same generation exactly when their difference goes all the way round. -/
theorem ofNat_eq_ofNat_add_iff (start more : Nat) :
    UInt32.ofNat start = UInt32.ofNat (start + more) ↔ UInt32.size ∣ more := by
  rw [← UInt32.toNat_inj, UInt32.toNat_ofNat', UInt32.toNat_ofNat',
    show UInt32.size = 4294967296 from rfl]
  omega

namespace Recorded

variable {happened : List Occurrence}

/-- A handle that has been handed out resolves exactly when its slot is occupied and the disposals
since then have taken the generation all the way round, or there were none. -/
theorem contains_iff (recorded : heap.Recorded happened) {past rest : List Occurrence}
    {handle : Handle} (parts : happened = past ++ .issued handle :: rest) :
    heap.contains handle = true ↔
      UInt32.size ∣ disposals rest handle.index ∧
        (heap.occupant? handle.index).isSome = true := by
  obtain ⟨_, current, generation, occupied, stamped, _⟩ := recorded.issued past handle rest parts
  have dated := recorded.dated _ _ _ stamped
  rw [parts, disposals_append, disposals_cons_issued] at dated
  rw [contains_iff_stamp?, stamped, isSome_occupant? stamped,
    ← ofNat_eq_ofNat_add_iff (disposals past handle.index), ← dated, ← current]
  simp [eq_comm]

/-- Two handles handed out at different moments are the same only when the disposals between them
have taken the generation all the way round. -/
theorem dvd_of_same (recorded : heap.Recorded happened) {past between rest : List Occurrence}
    {handle : Handle}
    (parts : happened = past ++ .issued handle :: (between ++ .issued handle :: rest)) :
    UInt32.size ∣ disposals between handle.index := by
  have first := (recorded.issued past handle _ parts).2.1
  have second := (recorded.issued (past ++ .issued handle :: between) handle rest
    (by simp [parts])).2.1
  rw [disposals_append, disposals_cons_issued] at second
  exact (ofNat_eq_ofNat_add_iff _ _).mp (first.symm.trans second)

/-- While no generation has gone all the way round, no two handles are the same. -/
theorem nodup_issuedHandles (recorded : heap.Recorded happened)
    (young : ∀ index, disposals happened index < UInt32.size) : (issuedHandles happened).Nodup := by
  refine List.Pairwise.filterMap (R := fun first second => ∀ handle,
    first = .issued handle → second ≠ .issued handle) _ ?_ ?_
  · rintro first second differ handle known _ known' rfl
    cases first with
    | disposed index => simp [Occurrence.handle?] at known
    | issued handle' =>
      cases second with
      | disposed index => simp [Occurrence.handle?] at known'
      | issued handle'' =>
        obtain rfl := Option.some.inj known
        obtain rfl := Option.some.inj known'
        exact differ _ rfl rfl
  · refine List.pairwise_iff_forall_sublist.mpr ?_
    rintro _ _ both handle rfl rfl
    obtain ⟨past, later, parts, head, tail⟩ := List.cons_sublist_iff.mp both
    obtain ⟨past, front, rfl⟩ := List.append_of_mem head
    obtain ⟨between, rest, rfl⟩ := List.append_of_mem (List.singleton_sublist.mp tail)
    have split : happened =
        past ++ .issued handle :: ((front ++ between) ++ .issued handle :: rest) := by
      simp [parts]
    have positive := recorded.apart _ _ _ _ _ split rfl
    have round := Nat.le_of_dvd positive (recorded.dvd_of_same split)
    have bound := young handle.index
    rw [split, disposals_append, disposals_cons_issued, disposals_append] at bound
    omega

/-- A chronicle that explains the stamps of a heap tells which handles resolve. -/
theorem unaliased (recorded : heap.Recorded happened) : heap.Unaliased happened := by
  refine ⟨?_, ?_, ?_, ?_⟩
  · intro index slot within
    have stamped : heap.stamp? index = some slot.stamp := by rw [Heap.stamp?, within]; rfl
    rw [recorded.dated _ _ _ stamped, UInt32.toNat_ofNat']
  · intro past handle rest parts none
    obtain ⟨_, _, generation, occupied, stamped, filled⟩ := recorded.issued past handle rest parts
    rw [recorded.contains_iff parts, none, isSome_occupant? stamped]
    exact ⟨Nat.dvd_zero _, filled none⟩
  · intro past handle rest parts _
    exact recorded.contains_iff parts
  · intro young
    refine ⟨recorded.nodup_issuedHandles young, ?_, ?_⟩
    · intro member
      obtain ⟨occurrence, listed, names⟩ := List.mem_filterMap.mp member
      cases occurrence with
      | disposed index => simp [Occurrence.handle?] at names
      | issued handle =>
        obtain rfl := Option.some.inj names
        obtain ⟨past, rest, parts⟩ := List.append_of_mem listed
        exact (recorded.issued past _ rest parts).1 rfl
    · intro past handle rest parts positive
      rw [← Bool.not_eq_true, recorded.contains_iff parts]
      rintro ⟨round, _⟩
      have bound := young handle.index
      rw [parts, disposals_append, disposals_cons_issued] at bound
      have least := Nat.le_of_dvd positive round
      omega

end Recorded

end Heap

/-! ## Sequences of operations -/

namespace Collector

/-- Steps up to the end of a collection keep the collector orderly. -/
theorem Orderly.runSteps {collector : Collector} (orderly : collector.Orderly) (roots : RootSet)
    (fuel : Nat) : (Collector.runSteps roots fuel collector).Orderly := by
  induction fuel generalizing collector with
  | zero => exact orderly
  | succ fuel hypothesis =>
    rw [Collector.runSteps]
    dsimp only
    split
    · exact orderly.step
    · exact hypothesis orderly.step

/-- Every operation keeps the collector orderly. -/
theorem Orderly.operate {collector : Collector} (orderly : collector.Orderly)
    (operation : Operation) : (collector.operate operation).Orderly := by
  cases operation with
  | allocate cell pinned =>
    rw [Collector.operate]
    split
    · exact orderly.allocate cell pinned
    · exact orderly
  | setPinned handle pinned =>
    rw [Collector.operate]
    cases done : collector.heap.setPinned handle pinned with
    | none => exact orderly
    | some heap => exact orderly.setPinned done
  | shade handle => exact orderly.shade handle
  | step roots => exact orderly.step
  | run roots => exact orderly.runSteps roots _
  | reset => exact orderly.reset

/-- The collector is in order, and a chronicle explains the stamps of its heap. -/
structure Chronicled (collector : Collector) (past : List Occurrence) : Prop where
  /-- The bookkeeping is orderly. -/
  orderly : collector.Orderly
  /-- The chronicle explains the stamps. -/
  recorded : collector.heap.Recorded past

/-- Nothing has happened to a fresh collector. -/
theorem chronicled_create (budget : Nat) : (create budget).Chronicled [] :=
  ⟨orderly_create budget, .start⟩

namespace Chronicled

variable {collector : Collector} {past : List Occurrence}

/-- A step is explained by what happens in it. -/
theorem step (chronicled : collector.Chronicled past) (roots : RootSet) :
    (collector.step roots).2.Chronicled (past ++ collector.stepOccurrences roots) := by
  have stepped := collector.stepped roots
  have ages := stepped.ages chronicled.orderly.lawful
  exact ⟨chronicled.orderly.step, chronicled.recorded.ages ages stepped.size⟩

/-- Steps up to the end of a collection are explained by what happens in them. -/
theorem runSteps (chronicled : collector.Chronicled past) (roots : RootSet) (fuel : Nat) :
    (Collector.runSteps roots fuel collector).Chronicled
      (past ++ runOccurrences roots fuel collector) := by
  induction fuel generalizing collector past with
  | zero => simpa [Collector.runSteps, runOccurrences] using chronicled
  | succ fuel hypothesis =>
    have after := chronicled.step roots
    rw [Collector.runSteps, runOccurrences]
    dsimp only
    split
    · simpa using after
    · rw [← List.append_assoc]
      exact hypothesis after

/-- An operation is explained by what happens in it. -/
theorem operate (chronicled : collector.Chronicled past) (operation : Operation) :
    (collector.operate operation).Chronicled (past ++ collector.occurrences operation) := by
  refine ⟨chronicled.orderly.operate operation, ?_⟩
  obtain ⟨orderly, recorded⟩ := chronicled
  cases operation with
  | allocate cell pinned =>
    rw [Collector.operate, occurrences]
    split
    · refine (recorded.allocate orderly.lawful cell pinned).of_stamps fun index => ?_
      rw [allocate_eq]
      exact stamp?_shade _ _ index
    · rwa [List.append_nil]
  | setPinned handle pinned =>
    rw [Collector.operate, occurrences, List.append_nil]
    cases done : collector.heap.setPinned handle pinned with
    | none => exact recorded
    | some heap => exact recorded.of_stamps (stamp?_setPinned done)
  | shade handle =>
    rw [occurrences, List.append_nil]
    exact recorded.of_stamps (collector.stamp?_shade handle)
  | step roots => exact (step ⟨orderly, recorded⟩ roots).recorded
  | run roots => exact (runSteps ⟨orderly, recorded⟩ roots _).recorded
  | reset =>
    rw [occurrences, List.append_nil]
    exact recorded.of_stamps fun _ => rfl

/-- A sequence of operations is explained by what happens in it. -/
theorem operations (chronicled : collector.Chronicled past) (operations : List Operation) :
    (operations.foldl Collector.operate collector).Chronicled
      (past ++ chronicle operations collector) := by
  induction operations generalizing collector past with
  | nil => simpa [chronicle] using chronicled
  | cons operation operations hypothesis =>
    rw [List.foldl_cons, chronicle, ← List.append_assoc]
    exact hypothesis (chronicled.operate operation)

end Chronicled

/-- After every sequence of operations the generations count the disposals, and with that it is
settled which handles resolve. -/
theorem unaliased_of_operations (budget : Nat) (operations : List Operation) :
    (operations.foldl operate (create budget)).heap.Unaliased
      (chronicle operations (create budget)) :=
  ((chronicled_create budget).operations operations).recorded.unaliased

/-- A slot is used again for a second text after the first one has been disposed of: the two handles
differ, and the first one does not resolve any more. -/
theorem unaliased_of_operations_reused :
    let text : Cell := .value (.string "text")
    let operations : List Operation :=
      [.allocate text false, .run fun _ => [], .allocate text true]
    let happened := chronicle operations (create 32)
    happened = [.issued ⟨1, 0⟩, .disposed 1, .issued ⟨1, 1⟩] ∧
      (∀ index, disposals happened index < UInt32.size) ∧
      (issuedHandles happened).Nodup ∧
      (operations.foldl operate (create 32)).heap.contains ⟨1, 0⟩ = false ∧
      (operations.foldl operate (create 32)).heap.contains ⟨1, 1⟩ = true := by
  intro text operations happened
  have listed : happened = [.issued ⟨1, 0⟩, .disposed 1, .issued ⟨1, 1⟩] := by decide +kernel
  have young : ∀ index, disposals happened index < UInt32.size := by
    intro index
    have few := List.count_le_length (a := index) (l := disposedSlots happened)
    rw [listed] at few ⊢
    exact Nat.lt_of_le_of_lt few (by decide)
  have unaliased := unaliased_of_operations 32 operations
  obtain ⟨nodup, _, gone⟩ := unaliased.distinct young
  refine ⟨listed, young, nodup, ?_, ?_⟩
  · exact gone [] ⟨1, 0⟩ [.disposed 1, .issued ⟨1, 1⟩] listed (by decide)
  · exact unaliased.held [.issued ⟨1, 0⟩, .disposed 1] ⟨1, 1⟩ [] listed rfl

end Collector

end ScriptVm
