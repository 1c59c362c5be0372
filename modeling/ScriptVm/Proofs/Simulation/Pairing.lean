import Mathlib.Data.List.Forall2
import ScriptVm.Proofs.Collector.Population
import ScriptVm.Machine.Basic

/-!
# Pairings of handles

Two heaps that differ by garbage and by the choice of slots are compared through a pairing of their
handles. Paired handles name cells with the same payload, whose references are paired in turn. A
pairing is one-to-one, and it grows with every allocation on both sides. Marks, pins and residences
are not compared.
-/
namespace ScriptVm

/-- What a handle is expected to name. -/
inductive Target where
  | value
  | object
  deriving DecidableEq

/-- Which handles of two heaps stand for each other. -/
abbrev Pairing := Target → Handle → Handle → Prop

namespace Pairing

/-- A pairing has all pairs of another. -/
def Grows (pairing more : Pairing) : Prop :=
  ∀ target left right, pairing target left right → more target left right

/-- Paired references to values. -/
def Refs (pairing : Pairing) (left right : Ref) : Prop := pairing .value left.handle right.handle

/-- Lists of paired references. -/
def Lists (pairing : Pairing) : List Ref → List Ref → Prop := List.Forall₂ pairing.Refs

/-- Entries with the same names and paired references. -/
def Tables (pairing : Pairing) (left right : Table Ref) : Prop :=
  List.Forall₂ (fun entry other => entry.1 = other.1 ∧ pairing.Refs entry.2 other.2)
    left.entries right.entries

/-- A further pair. -/
def extend (pairing : Pairing) (target : Target) (left right : Handle) : Pairing :=
  fun other first second =>
    pairing other first second ∨ other = target ∧ first = left ∧ second = right

variable {pairing more : Pairing}

/-- A pairing has its own pairs. -/
theorem Grows.refl (pairing : Pairing) : pairing.Grows pairing := fun _ _ _ => id

/-- Pairings grow one after the other. -/
theorem Grows.trans {most : Pairing} (first : pairing.Grows more) (second : more.Grows most) :
    pairing.Grows most :=
  fun target left right paired => second target left right (first target left right paired)

/-- A further pair leaves the others. -/
theorem grows_extend (pairing : Pairing) (target : Target) (left right : Handle) :
    pairing.Grows (pairing.extend target left right) :=
  fun _ _ _ => .inl

/-- The further pair is one. -/
theorem extend_self (pairing : Pairing) (target : Target) (left right : Handle) :
    pairing.extend target left right target left right :=
  .inr ⟨rfl, rfl, rfl⟩

/-- Paired references stay paired. -/
theorem Refs.mono {left right : Ref} (paired : pairing.Refs left right)
    (grows : pairing.Grows more) : more.Refs left right :=
  grows _ _ _ paired

/-- Lists of paired references stay so. -/
theorem Lists.mono {left right : List Ref} (paired : pairing.Lists left right)
    (grows : pairing.Grows more) : more.Lists left right :=
  List.Forall₂.imp (fun _ _ pair => Refs.mono pair grows) paired

/-- Entries with paired references stay so. -/
theorem Tables.mono {left right : Table Ref} (paired : pairing.Tables left right)
    (grows : pairing.Grows more) : more.Tables left right :=
  List.Forall₂.imp (fun _ _ pair => ⟨pair.1, Refs.mono pair.2 grows⟩) paired

variable {left right : List Ref} {first second : Ref}

/-- Positions of lists of paired references are paired. -/
theorem Lists.getElem? (paired : pairing.Lists left right) (index : Nat) :
    (left[index]? = none ∧ right[index]? = none) ∨
      ∃ first second, left[index]? = some first ∧ right[index]? = some second ∧
        pairing.Refs first second := by
  induction paired generalizing index with
  | nil => exact .inl ⟨rfl, rfl⟩
  | @cons first second rest others pair _ hypothesis =>
    cases index with
    | zero => exact .inr ⟨first, second, rfl, rfl, pair⟩
    | succ index => exact hypothesis index

/-- Paired references are put at the same position. -/
theorem Lists.set (paired : pairing.Lists left right) (pair : pairing.Refs first second)
    (index : Nat) : pairing.Lists (left.set index first) (right.set index second) := by
  induction paired generalizing index with
  | nil => exact .nil
  | cons head tail hypothesis =>
    cases index with
    | zero => exact .cons pair tail
    | succ index => exact .cons head (hypothesis index)

/-- One paired reference repeated. -/
theorem lists_replicate (pair : pairing.Refs first second) (count : Nat) :
    pairing.Lists (List.replicate count first) (List.replicate count second) := by
  induction count with
  | zero => exact .nil
  | succ count hypothesis => exact .cons pair hypothesis

variable {table other : Table Ref} {name : String}

/-- Names are found in both tables or in none, with paired references. -/
theorem Tables.find? (paired : pairing.Tables table other) (name : String) :
    (table.find? name = none ∧ other.find? name = none) ∨
      ∃ first second, table.find? name = some first ∧ other.find? name = some second ∧
        pairing.Refs first second := by
  obtain ⟨entries⟩ := table
  obtain ⟨others⟩ := other
  simp only [Tables, Table.find?] at paired ⊢
  induction paired with
  | nil => exact .inl ⟨rfl, rfl⟩
  | @cons entry entry' rest rest' pair _ hypothesis =>
    obtain ⟨key, value⟩ := entry
    obtain ⟨key', value'⟩ := entry'
    obtain ⟨rfl, references⟩ : key = key' ∧ pairing.Refs value value' := pair
    by_cases here : name = key
    · subst here
      exact .inr ⟨value, value', by simp, by simp, references⟩
    · have apart : (name == key) = false := by simpa using here
      simpa only [List.lookup_cons, apart] using hypothesis

/-- A name has entries in both tables or in none. -/
theorem Tables.contains (paired : pairing.Tables table other) (name : String) :
    other.contains name = table.contains name := by
  unfold Table.contains
  rcases paired.find? name with ⟨left, right⟩ | ⟨_, _, left, right, _⟩
  · rw [left, right]
  · rw [left, right]
    rfl

/-- Paired references are put under the same name. -/
theorem Tables.replace (paired : pairing.Tables table other) (pair : pairing.Refs first second)
    (name : String) : pairing.Tables (table.replace name first) (other.replace name second) := by
  obtain ⟨entries⟩ := table
  obtain ⟨others⟩ := other
  simp only [Tables, Table.replace] at paired ⊢
  induction paired with
  | nil => exact .nil
  | @cons entry entry' rest rest' head _ hypothesis =>
    obtain ⟨key, value⟩ := entry
    obtain ⟨key', value'⟩ := entry'
    obtain ⟨rfl, references⟩ : key = key' ∧ pairing.Refs value value' := head
    refine .cons ?_ hypothesis
    dsimp only
    split
    · exact ⟨rfl, pair⟩
    · exact ⟨rfl, references⟩

end Pairing

/-- A value without references. -/
def Value.Leaf : Value → Prop
  | .array _ | .object _ => False
  | _ => True

/-- Values with the same payload, whose references are paired. -/
inductive Value.Agrees (pairing : Pairing) : Value → Value → Prop where
  | array {left right : Array Ref} (items : pairing.Lists left.toList right.toList) :
    Agrees pairing (.array left) (.array right)
  | object {left right : ObjectRef} (paired : pairing .object left.handle right.handle) :
    Agrees pairing (.object left) (.object right)
  | leaf {value : Value} (leaf : value.Leaf) : Agrees pairing value value

/-- Objects of one type, whose members are paired. -/
structure Object.Agrees (pairing : Pairing) (left right : Object) : Prop where
  /-- The type. -/
  schema : right.schema = left.schema
  /-- The members. -/
  members : pairing.Lists left.members.toList right.members.toList

/-- Cells with the same payload, whose references are paired. -/
inductive Cell.Agrees (pairing : Pairing) : Target → Cell → Cell → Prop where
  | value {left right : Value} (agrees : left.Agrees pairing right) :
    Agrees pairing .value (.value left) (.value right)
  | object {left right : Object} (agrees : left.Agrees pairing right) :
    Agrees pairing .object (.object left) (.object right)

section Cells

variable {pairing more : Pairing} {target other : Target}

/-- Agreeing values agree under more pairs. -/
theorem Value.Agrees.mono {left right : Value} (agrees : left.Agrees pairing right)
    (grows : pairing.Grows more) : left.Agrees more right := by
  cases agrees with
  | array items => exact .array (items.mono grows)
  | object paired => exact .object (grows _ _ _ paired)
  | leaf leaf => exact .leaf leaf

/-- Agreeing values have the same kind. -/
theorem Value.Agrees.kind {left right : Value} (agrees : left.Agrees pairing right) :
    right.kind = left.kind := by
  cases agrees <;> rfl

/-- Agreeing objects agree under more pairs. -/
theorem Object.Agrees.mono {left right : Object} (agrees : left.Agrees pairing right)
    (grows : pairing.Grows more) : left.Agrees more right :=
  ⟨agrees.schema, agrees.members.mono grows⟩

/-- Agreeing cells agree under more pairs. -/
theorem Cell.Agrees.mono {left right : Cell} (agrees : left.Agrees pairing target right)
    (grows : pairing.Grows more) : left.Agrees more target right := by
  cases agrees with
  | value agrees => exact .value (agrees.mono grows)
  | object agrees => exact .object (agrees.mono grows)

/-- A cell tells what its handle is expected to name. -/
theorem Cell.Agrees.target_eq {cell left right : Cell} (first : cell.Agrees pairing target left)
    (second : cell.Agrees pairing other right) : target = other := by
  cases first <;> cases second <;> rfl

/-- A cell tells what the handle on the other side is expected to name. -/
theorem Cell.Agrees.target_eq_right {cell left right : Cell}
    (first : left.Agrees pairing target cell) (second : right.Agrees pairing other cell) :
    target = other := by
  cases first <;> cases second <;> rfl

end Cells

/-- Two collectors with agreeing cells. The left one has no more proxies, and up to a number of
further proxies there is room for them on both sides or on neither. -/
structure Collector.Agrees (pairing : Pairing) (room : Nat) (left right : Collector) : Prop where
  /-- The left bookkeeping is orderly. -/
  orderly : left.Orderly
  /-- The right bookkeeping is orderly. -/
  orderly' : right.Orderly
  /-- The null values stand for each other. -/
  null : pairing .value Handle.null Handle.null
  /-- A handle on the left has one partner at most. -/
  functional : ∀ {target first second second'}, pairing target first second →
    pairing target first second' → second = second'
  /-- A handle on the right has one partner at most. -/
  injective : ∀ {target first first' second}, pairing target first second →
    pairing target first' second → first = first'
  /-- Paired handles name agreeing cells. -/
  cells : ∀ {target first second}, pairing target first second → ∃ proxy proxy',
    left.heap.proxy? first = some proxy ∧ right.heap.proxy? second = some proxy' ∧
      proxy.cell.Agrees pairing target proxy'.cell
  /-- The left heap has no more proxies. -/
  fewer : left.heap.population ≤ right.heap.population
  /-- There is room on both sides or on neither. -/
  room : ∀ count ≤ room, left.heap.hasRoom count = right.heap.hasRoom count

namespace Collector.Agrees

variable {pairing : Pairing} {room : Nat} {left right : Collector}

/-- Less room is looked at. -/
theorem less (agrees : left.Agrees pairing room right) {less : Nat} (bound : less ≤ room) :
    left.Agrees pairing less right :=
  { agrees with room := fun count small => agrees.room count (Nat.le_trans small bound) }

/-- Paired references to values. -/
theorem value? (agrees : left.Agrees pairing room right) {first second : Ref}
    (paired : pairing.Refs first second) :
    ∃ value value', left.heap.value? first = some value ∧ right.heap.value? second = some value' ∧
      value.Agrees pairing value' := by
  obtain ⟨⟨_, _, _, cell⟩, ⟨_, _, _, cell'⟩, named, named', cells⟩ := agrees.cells paired
  cases cells with
  | value agrees =>
    exact ⟨_, _, by simp [Heap.value?, named], by simp [Heap.value?, named'], agrees⟩

/-- Paired references to objects. -/
theorem object? (agrees : left.Agrees pairing room right) {first second : ObjectRef}
    (paired : pairing .object first.handle second.handle) :
    ∃ object object', left.heap.object? first = some object ∧
      right.heap.object? second = some object' ∧ object.Agrees pairing object' := by
  obtain ⟨⟨_, _, _, cell⟩, ⟨_, _, _, cell'⟩, named, named', cells⟩ := agrees.cells paired
  cases cells with
  | object agrees =>
    exact ⟨_, _, by simp [Heap.object?, named], by simp [Heap.object?, named'], agrees⟩

/-- Handles are equal on the left exactly if they are on the right. -/
theorem eq_iff (agrees : left.Agrees pairing room right) {target target' : Target}
    {first first' second second' : Handle} (pair : pairing target first second)
    (pair' : pairing target' first' second') : first = first' ↔ second = second' := by
  obtain ⟨proxy, other, named, named', cells⟩ := agrees.cells pair
  obtain ⟨proxy', other', known, known', cells'⟩ := agrees.cells pair'
  constructor
  · rintro rfl
    obtain rfl := Option.some.inj (named.symm.trans known)
    obtain rfl := cells.target_eq cells'
    exact agrees.functional pair pair'
  · rintro rfl
    obtain rfl := Option.some.inj (named'.symm.trans known')
    obtain rfl := cells.target_eq_right cells'
    exact agrees.injective pair pair'

/-- As many proxies leave as much room. -/
theorem counts (agrees : left.Agrees pairing room right) {heap heap' : Heap} (lawful : heap.Lawful)
    (lawful' : heap'.Lawful) (population : heap.population = left.heap.population)
    (population' : heap'.population = right.heap.population) :
    heap.population ≤ heap'.population ∧
      ∀ count ≤ room, heap.hasRoom count = heap'.hasRoom count := by
  constructor
  · rw [population, population']
    exact agrees.fewer
  · intro count small
    have same := agrees.room count small
    rw [Bool.eq_iff_iff, agrees.orderly.lawful.hasRoom_iff,
      agrees.orderly'.lawful.hasRoom_iff] at same
    rw [Bool.eq_iff_iff, lawful.hasRoom_iff, lawful'.hasRoom_iff, population, population']
    exact same

/-- Collectors with the same cells and as many proxies agree, too. -/
theorem transfer (agrees : left.Agrees pairing room right) {left' right' : Collector}
    (orderly : left'.Orderly) (orderly' : right'.Orderly)
    (proxies : ∀ handle proxy, left.heap.proxy? handle = some proxy →
      ∃ kept, left'.heap.proxy? handle = some kept ∧ kept.cell = proxy.cell)
    (proxies' : ∀ handle proxy, right.heap.proxy? handle = some proxy →
      ∃ kept, right'.heap.proxy? handle = some kept ∧ kept.cell = proxy.cell)
    (population : left'.heap.population = left.heap.population)
    (population' : right'.heap.population = right.heap.population) :
    left'.Agrees pairing room right' := by
  obtain ⟨fewer, enough⟩ := agrees.counts orderly.lawful orderly'.lawful population population'
  refine ⟨orderly, orderly', agrees.null, agrees.functional, agrees.injective, ?_, fewer, enough⟩
  intro target first second paired
  obtain ⟨proxy, proxy', named, named', cells⟩ := agrees.cells paired
  obtain ⟨kept, known, cell⟩ := proxies first proxy named
  obtain ⟨kept', known', cell'⟩ := proxies' second proxy' named'
  exact ⟨kept, kept', known, known', by rw [cell, cell']; exact cells⟩

/-- Any handles are shaded. -/
theorem shade (agrees : left.Agrees pairing room right) (first second : Handle) :
    (left.shade first).Agrees pairing room (right.shade second) := by
  have kept : ∀ (collector : Collector) (shaded handle : Handle) (proxy : Proxy),
      collector.heap.proxy? handle = some proxy →
      ∃ kept, (collector.shade shaded).heap.proxy? handle = some kept ∧
        kept.cell = proxy.cell := by
    intro collector shaded handle proxy resolved
    obtain ⟨_, _, named⟩ := (collector.darkens_shade shaded).proxies handle proxy resolved
    exact ⟨_, named, rfl⟩
  exact agrees.transfer (agrees.orderly.shade first) (agrees.orderly'.shade second) (kept _ _)
    (kept _ _) (agrees.orderly.population_shade first) (agrees.orderly'.population_shade second)

end Collector.Agrees

namespace Collector.Agrees

variable {pairing : Pairing} {room : Nat} {left right : Collector} {target : Target}
  {cell cell' : Cell}

/-- Agreeing cells are allocated on both sides, and the new handles are paired. They named nothing
before, so that no old pair has one of them. -/
theorem allocate (agrees : left.Agrees pairing (room + 1) right)
    (cells : cell.Agrees pairing target cell') (pinned pinned' : Bool) :
    (left.allocate cell pinned).2.Agrees
      (pairing.extend target (left.allocate cell pinned).1 (right.allocate cell' pinned').1) room
      (right.allocate cell' pinned').2 := by
  have lawful := agrees.orderly.lawful
  have lawful' := agrees.orderly'.lawful
  have allocates := left.heap.allocates cell pinned lawful.vacant
  have allocates' := right.heap.allocates cell' pinned' lawful'.vacant
  have orderly : Collector.Orderly { left with heap := (left.heap.allocate cell pinned).2 } :=
    agrees.orderly.withHeap (lawful.allocate cell pinned) allocates.others.2.1
  have orderly' : Collector.Orderly { right with heap := (right.heap.allocate cell' pinned').2 } :=
    agrees.orderly'.withHeap (lawful'.allocate cell' pinned') allocates'.others.2.1
  have population := allocates.population lawful orderly.lawful
  have population' := allocates'.population lawful' orderly'.lawful
  have fresh : ∀ {other first second}, pairing other first second →
      first ≠ (left.heap.allocate cell pinned).1 ∧
        second ≠ (right.heap.allocate cell' pinned').1 := by
    intro other first second paired
    obtain ⟨_, _, named, named', _⟩ := agrees.cells paired
    constructor
    · rintro rfl
      simp [allocates.fresh] at named
    · rintro rfl
      simp [allocates'.fresh] at named'
  have both : Collector.Agrees (pairing.extend target (left.heap.allocate cell pinned).1
      (right.heap.allocate cell' pinned').1) room
      { left with heap := (left.heap.allocate cell pinned).2 }
      { right with heap := (right.heap.allocate cell' pinned').2 } := by
    refine ⟨orderly, orderly', .inl agrees.null, ?_, ?_, ?_, ?_, ?_⟩
    · rintro other first second second' (paired | ⟨rfl, rfl, rfl⟩) (paired' | ⟨same, equal, rfl⟩)
      · exact agrees.functional paired paired'
      · exact absurd equal (fresh paired).1
      · exact absurd rfl (fresh paired').1
      · rfl
    · rintro other first first' second (paired | ⟨rfl, rfl, rfl⟩) (paired' | ⟨same, rfl, equal⟩)
      · exact agrees.injective paired paired'
      · exact absurd equal (fresh paired).2
      · exact absurd rfl (fresh paired').2
      · rfl
    · rintro other first second (paired | ⟨rfl, rfl, rfl⟩)
      · obtain ⟨proxy, proxy', named, named', agree⟩ := agrees.cells paired
        refine ⟨proxy, proxy', ?_, ?_, agree.mono (pairing.grows_extend _ _ _)⟩
        · rw [allocates.proxies, if_neg (fresh paired).1, named]
        · rw [allocates'.proxies, if_neg (fresh paired).2, named']
      · refine ⟨Heap.freshProxy cell pinned, Heap.freshProxy cell' pinned', ?_, ?_,
          cells.mono (pairing.grows_extend _ _ _)⟩
        · rw [allocates.proxies, if_pos rfl]
        · rw [allocates'.proxies, if_pos rfl]
    · have fewer := agrees.fewer
      dsimp only
      omega
    · intro count small
      have same := agrees.room (count + 1) (by omega)
      rw [Bool.eq_iff_iff] at same ⊢
      rw [lawful.hasRoom_iff, lawful'.hasRoom_iff] at same
      rw [orderly.lawful.hasRoom_iff, orderly'.lawful.hasRoom_iff]
      dsimp only
      omega
  exact both.shade _ _

/-- Agreeing cells are put behind paired handles. -/
theorem setCell (agrees : left.Agrees pairing room right) {first second : Handle}
    (paired : pairing target first second) (cells : cell.Agrees pairing target cell')
    {proxy proxy' : Proxy} (named : left.heap.proxy? first = some proxy)
    (named' : right.heap.proxy? second = some proxy') (proper : proxy.cell ≠ .value .null)
    (proper' : proxy'.cell ≠ .value .null) :
    Collector.Agrees pairing room { left with heap := left.heap.setCell first cell }
      { right with heap := right.heap.setCell second cell' } := by
  have orderly := agrees.orderly.setCell named proper cell
  have orderly' := agrees.orderly'.setCell named' proper' cell'
  have changed : ∀ (heap : Heap) (cell : Cell) (handle other : Handle) (proxy found : Proxy),
      heap.proxy? handle = some proxy → heap.proxy? other = some found →
      (heap.setCell handle cell).proxy? other =
        some (if handle = other then { found with cell } else found) := by
    intro heap cell handle other proxy found here there
    rw [Heap.setCell, Heap.proxy?_updateAt, there]
    by_cases same : handle.index = other.index
    · obtain rfl := Heap.handle_eq_of_index_eq here there same
      simp
    · have apart : handle ≠ other := fun equal => same (congrArg Handle.index equal)
      rw [if_neg same, if_neg apart]
  have population := agrees.orderly.population_setCell named proper cell
  have population' := agrees.orderly'.population_setCell named' proper' cell'
  obtain ⟨fewer, enough⟩ := agrees.counts orderly.lawful orderly'.lawful population population'
  refine ⟨orderly, orderly', agrees.null, agrees.functional, agrees.injective, ?_, fewer, enough⟩
  intro other first' second' paired'
  obtain ⟨found, found', known, known', agree⟩ := agrees.cells paired'
  refine ⟨_, _, changed _ _ _ _ _ _ named known, changed _ _ _ _ _ _ named' known', ?_⟩
  have same := agrees.eq_iff paired paired'
  by_cases here : first = first'
  · obtain rfl := here
    obtain rfl := same.mp rfl
    obtain ⟨before, _, known'', _, cells'⟩ := agrees.cells paired
    obtain rfl := Option.some.inj (known.symm.trans known'')
    obtain rfl := cells'.target_eq agree
    rw [if_pos rfl, if_pos rfl]
    exact cells
  · rw [if_neg here, if_neg fun there => here (same.mpr there)]
    exact agree

end Collector.Agrees

end ScriptVm
