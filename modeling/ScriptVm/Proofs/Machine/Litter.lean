import ScriptVm.Proofs.Collector.Account
import ScriptVm.Proofs.Machine.Loading

/-!
# What failed work leaves on the heap

The text and the object of an exception for which there is no room stay behind, and so do the
strings of a module that is refused. They refer to what marking has been at already, so that
allocating them changes no other proxy, not even its mark. After any number of such allocations the
old proxies are as they were, and the new ones are pending and have no pins.
-/
namespace ScriptVm

/-- Marking nothing but marked proxies changes nothing. -/
theorem Heap.markAll_marked {heap : Heap} {worklist : List Handle}
    (marked : ∀ handle ∈ worklist, ∃ proxy, heap.proxy? handle = some proxy ∧
      proxy.marked = true) : heap.markAll worklist = heap := by
  induction worklist with
  | nil => rw [markAll]
  | cons handle rest hypothesis =>
    obtain ⟨proxy, resolved, dark⟩ := marked handle List.mem_cons_self
    rw [markAll_cons]
    rcases heap.markOne_cases handle with ⟨same, _⟩ | ⟨found, named, pale, _⟩
    · rw [same]
      exact hypothesis fun other listed => marked other (List.mem_cons_of_mem _ listed)
    · obtain rfl := Option.some.inj (resolved.symm.trans named)
      rw [dark] at pale
      cases pale

/-- Marking a proxy that refers to nothing but marked ones marks nothing else. Another handle to its
slot is of another generation and names nothing. -/
theorem Heap.proxy?_markAll_of_marked {heap : Heap} {handle other : Handle} {proxy : Proxy}
    (resolved : heap.proxy? handle = some proxy)
    (marked : ∀ child ∈ proxy.cell.children, ∃ inner, heap.proxy? child = some inner ∧
      inner.marked = true) (apart : other ≠ handle) :
    (heap.markAll [handle]).proxy? other = heap.proxy? other := by
  rw [markAll_cons]
  rcases heap.markOne_cases handle with ⟨same, _⟩ | ⟨found, named, _, marks⟩
  · simp [same, markAll]
  · obtain rfl := Option.some.inj (resolved.symm.trans named)
    have still : ∀ child ∈ proxy.cell.children.reverse ++ [], ∃ inner,
        (heap.setMarked handle).proxy? child = some inner ∧ inner.marked = true := by
      intro child listed
      obtain ⟨inner, known, dark⟩ := marked child (by simpa using listed)
      obtain ⟨darker, kept, named⟩ := (heap.darkens_setMarked handle).proxies child inner known
      exact ⟨_, named, kept dark⟩
    rw [marks, markAll_marked still, setMarked, proxy?_updateAt]
    split
    · rename_i here
      have absent : heap.proxy? other = none := by
        cases known : heap.proxy? other with
        | none => rfl
        | some neighbour => exact absurd (handle_eq_of_index_eq known resolved here.symm) apart
      rw [absent]
      rfl
    · rfl

/-- A handle names a proxy, which is marked if roots are being marked. -/
def Collector.Shows (collector : Collector) (handle : Handle) : Prop :=
  ∃ proxy, collector.heap.proxy? handle = some proxy ∧
    (collector.cycle.marking = true → proxy.marked = true)

/-- What placing a proxy does to a heap when it refers to nothing that is to be marked: the proxy is
new and pending, and nothing else changes. -/
structure Heap.Places (heap : Heap) (cell : Cell) (pinned : Bool) (handle : Handle)
    (after : Heap) : Prop where
  /-- The handle named nothing. -/
  fresh : heap.proxy? handle = none
  /-- It had not been handed out. -/
  unissued : ¬heap.Issued handle
  /-- It names the new proxy. -/
  placed : ∃ marked, after.proxy? handle = some ⟨.pending, marked, pinned, cell⟩
  /-- Other handles name what they did. -/
  others : ∀ other, other ≠ handle → after.proxy? other = heap.proxy? other
  /-- The slot is pending. -/
  pending : after.pending = handle.index :: heap.pending
  /-- The other proxies stay on their lists. -/
  lists : after.active = heap.active ∧ after.kept = heap.kept ∧ after.unmarked = heap.unmarked

/-- Allocating a cell places its proxy, also while roots are being marked. -/
theorem Collector.Orderly.places_allocate {collector : Collector} (orderly : collector.Orderly)
    {cell : Cell} (shows : ∀ child ∈ cell.children, collector.Shows child) (pinned : Bool) :
    collector.heap.Places cell pinned (collector.allocate cell pinned).1
      (collector.allocate cell pinned).2.heap := by
  have allocates := collector.heap.allocates cell pinned orderly.lawful.vacant
  have unissued := collector.heap.not_issued_allocate cell pinned orderly.lawful.vacant
  rw [allocate_eq]
  generalize (collector.heap.allocate cell pinned).1 = handle at allocates unissued ⊢
  generalize (collector.heap.allocate cell pinned).2 = heap at allocates ⊢
  have here : heap.proxy? handle = some (Heap.freshProxy cell pinned) := by
    rw [allocates.proxies, if_pos rfl]
  have darkens := darkens_shade { collector with heap } handle
  obtain ⟨marked, _, named⟩ := darkens.proxies handle _ here
  obtain ⟨_, pending, active, kept, unmarked⟩ := darkens.lists
  obtain ⟨active', kept', unmarked'⟩ := allocates.others
  refine ⟨allocates.fresh, unissued, ⟨marked, named⟩, ?_, pending.trans allocates.pending,
    active.trans active', kept.trans kept', unmarked.trans unmarked'⟩
  intro other apart
  have before : heap.proxy? other = collector.heap.proxy? other := by
    rw [allocates.proxies, if_neg apart]
  rcases shade_eq { collector with heap } handle with ⟨_, same⟩ | ⟨begun, marks⟩
  · rw [same]
    exact before
  · have marked : ∀ child ∈ cell.children, ∃ inner, heap.proxy? child = some inner ∧
        inner.marked = true := by
      intro child listed
      obtain ⟨inner, known, dark⟩ := shows child listed
      have old : child ≠ handle := by
        rintro rfl
        simp [allocates.fresh] at known
      exact ⟨inner, by rw [allocates.proxies, if_neg old, known], dark begun⟩
    rw [marks]
    exact (Heap.proxy?_markAll_of_marked here marked apart).trans before

/-- Allocating changes nothing but the heap. -/
theorem Collector.rest_allocate (collector : Collector) (cell : Cell) (pinned : Bool) :
    { (collector.allocate cell pinned).2 with heap := collector.heap } = collector := by
  rw [allocate_eq]
  rcases shade_eq { collector with heap := (collector.heap.allocate cell pinned).2 }
    (collector.heap.allocate cell pinned).1 with ⟨_, same⟩ | ⟨_, marks⟩
  · rw [same]
  · rw [marks]

namespace Machine

variable {machine after : Machine}

/-- A machine with its heap and its journal as they were earlier. -/
def reverted (machine earlier : Machine) : Machine :=
  { machine with
    collector := { machine.collector with heap := earlier.heap }, journal := earlier.journal }

/-- A machine differs from another by pending litter without pins, and by its journal. -/
structure Strews (litter : Cell → Prop) (machine after : Machine) : Prop where
  /-- All but the heap and the journal stays: what is known by name, the collection under way. -/
  rest : after.reverted machine = machine
  /-- Old proxies stay as they are. -/
  proxies : ∀ handle proxy, machine.heap.proxy? handle = some proxy →
    after.heap.proxy? handle = some proxy
  /-- New proxies are litter. -/
  fresh : ∀ handle proxy, machine.heap.proxy? handle = none →
    after.heap.proxy? handle = some proxy →
    proxy.residence = .pending ∧ proxy.pinned = false ∧ litter proxy.cell
  /-- No handle is taken back. -/
  issued : ∀ handle, machine.heap.Issued handle → after.heap.Issued handle
  /-- A handle that had been handed out and named nothing still names nothing. -/
  gone : ∀ handle, machine.heap.Issued handle → machine.heap.proxy? handle = none →
    after.heap.proxy? handle = none
  /-- New proxies are listed as pending before the old ones. -/
  pending : machine.heap.pending <:+ after.heap.pending
  /-- The other proxies stay on their lists. -/
  lists : after.heap.active = machine.heap.active ∧ after.heap.kept = machine.heap.kept ∧
    after.heap.unmarked = machine.heap.unmarked

namespace Strews

variable {litter : Cell → Prop}

/-- Nothing is left. -/
theorem refl (machine : Machine) : machine.Strews litter machine :=
  ⟨rfl, fun _ _ resolved => resolved,
    fun _ _ absent resolved => by simp [absent] at resolved, fun _ issued => issued,
    fun _ _ absent => absent, List.suffix_rfl, rfl, rfl, rfl⟩

/-- More litter is left. -/
theorem trans {middle : Machine} (first : machine.Strews litter middle)
    (second : middle.Strews litter after) : machine.Strews litter after := by
  obtain ⟨active, kept, unmarked⟩ := first.lists
  obtain ⟨active', kept', unmarked'⟩ := second.lists
  have rest : after.reverted machine = machine :=
    (congrArg (fun between : Machine => between.reverted machine) second.rest).trans first.rest
  refine ⟨rest, ?_, ?_, fun handle issued => second.issued handle (first.issued handle issued), ?_,
    first.pending.trans second.pending, active'.trans active, kept'.trans kept,
    unmarked'.trans unmarked⟩
  · intro handle proxy resolved
    exact second.proxies handle proxy (first.proxies handle proxy resolved)
  · intro handle proxy absent resolved
    cases between : middle.heap.proxy? handle with
    | none => exact second.fresh handle proxy between resolved
    | some old =>
      obtain rfl := Option.some.inj (resolved.symm.trans (second.proxies handle old between))
      exact first.fresh handle proxy absent between
  · intro handle issued absent
    exact second.gone handle (first.issued handle issued) (first.gone handle issued absent)

/-- What is known by name stays. -/
theorem registry (strews : machine.Strews litter after) : after.registry = machine.registry := by
  have same : (after.reverted machine).registry = machine.registry := by rw [strews.rest]
  exact same

/-- The collection under way stays. -/
theorem cycle (strews : machine.Strews litter after) :
    after.collector.cycle = machine.collector.cycle := by
  have same : (after.reverted machine).collector.cycle = machine.collector.cycle := by
    rw [strews.rest]
  exact same

/-- A marked proxy stays marked. -/
theorem shows (strews : machine.Strews litter after) {handle : Handle}
    (shows : machine.collector.Shows handle) : after.collector.Shows handle := by
  obtain ⟨proxy, resolved, dark⟩ := shows
  exact ⟨proxy, strews.proxies handle proxy resolved, strews.cycle ▸ dark⟩

/-- A proxy is an old one, or it is new litter. -/
theorem origin (strews : machine.Strews litter after) {handle : Handle} {proxy : Proxy}
    (resolved : after.heap.proxy? handle = some proxy) :
    machine.heap.proxy? handle = some proxy ∨ machine.heap.proxy? handle = none ∧
      proxy.pinned = false ∧ litter proxy.cell := by
  cases known : machine.heap.proxy? handle with
  | none => exact .inr ⟨rfl, (strews.fresh handle proxy known resolved).2⟩
  | some old =>
    have same := (strews.proxies handle old known).symm.trans resolved
    exact .inl same

/-- Old values stay. -/
theorem value? (strews : machine.Strews litter after) {reference : Ref} {value : Value}
    (found : machine.heap.value? reference = some value) :
    after.heap.value? reference = some value := by
  obtain ⟨proxy, resolved, cell⟩ := Heap.proxy?_of_value? found
  unfold Heap.value? at found ⊢
  rw [resolved] at found
  rw [strews.proxies _ proxy resolved]
  exact found

variable {scope : Scope} {handle : Handle}

/-- What was reached stays reached. -/
theorem reaches (strews : machine.Strews litter after)
    (reached : machine.collector.Reaches scope unheld handle) :
    after.collector.Reaches scope unheld handle := by
  refine Collector.reaches_of_proxies (fun other proxy resolved => ?_) reached
  exact ⟨proxy, strews.proxies other proxy resolved, rfl, id⟩

/-- Litter without pins adds nothing to what is reached, as long as no litter that is reached leads
further. -/
theorem reaches_iff (strews : machine.Strews litter after)
    (barren : ∀ parent proxy, machine.collector.Reaches scope unheld parent →
      machine.heap.proxy? parent = none → after.heap.proxy? parent = some proxy →
      ∀ child ∈ proxy.cell.children, machine.collector.Reaches scope unheld child) :
    after.collector.Reaches scope unheld handle ↔
      machine.collector.Reaches scope unheld handle := by
  refine ⟨fun reached => ?_, strews.reaches⟩
  induction reached with
  | start begins =>
    rcases begins with root | ⟨proxy, resolved, pinned⟩ | none
    · exact .start (.inl root)
    · rcases strews.origin resolved with known | ⟨_, loose, _⟩
      · exact .start (.inr (.inl ⟨proxy, known, pinned⟩))
      · simp [loose] at pinned
    · exact none.elim
  | child _ resolved listed hypothesis =>
    rcases strews.origin resolved with known | ⟨absent, _⟩
    · exact .child hypothesis known listed
    · exact barren _ _ hypothesis absent resolved _ listed

/-- Where whatever is reached has been handed out, litter is not reached, and it leads nowhere. -/
theorem reaches_iff_of_issued (strews : machine.Strews litter after)
    (accounted : ∀ handle, machine.collector.Reaches scope unheld handle →
      machine.heap.Issued handle) :
    after.collector.Reaches scope unheld handle ↔
      machine.collector.Reaches scope unheld handle := by
  refine strews.reaches_iff fun parent proxy reached absent resolved => ?_
  rw [strews.gone parent (accounted parent reached) absent] at resolved
  cases resolved

end Strews

/-- Allocating leaves litter behind. -/
theorem strews_allocate {litter : Cell → Prop} (orderly : machine.collector.Orderly) {cell : Cell}
    (shows : ∀ child ∈ cell.children, machine.collector.Shows child) (left : litter cell) :
    machine.Strews litter (machine.allocate cell false).2 := by
  have places : machine.heap.Places cell false (machine.allocate cell false).1
      (machine.allocate cell false).2.heap := orderly.places_allocate shows false
  obtain ⟨marked, named⟩ := places.placed
  refine ⟨?_, ?_, ?_, ?_, ?_, ?_, places.lists⟩
  · have collector := machine.collector.rest_allocate cell false
    exact congrArg (fun collector => { machine with collector }) collector
  · intro other proxy resolved
    have apart : other ≠ (machine.allocate cell false).1 := by
      rintro rfl
      simp [places.fresh] at resolved
    rw [places.others other apart]
    exact resolved
  · intro other proxy absent resolved
    by_cases here : other = (machine.allocate cell false).1
    · rw [here, named] at resolved
      obtain rfl := Option.some.inj resolved
      exact ⟨rfl, rfl, left⟩
    · simp [places.others other here, absent] at resolved
  · intro other issued
    exact orderly.issued_allocate _ false (.inr issued)
  · intro other issued absent
    have apart : other ≠ (machine.allocate cell false).1 := by
      rintro rfl
      exact places.unissued issued
    rw [places.others other apart]
    exact absent
  · rw [places.pending]
    exact List.suffix_cons _ _

/-- A string on the heap. -/
def Wording (cell : Cell) : Prop := ∃ text, cell = .value (.string text)

/-- Allocating a string leaves it behind. -/
theorem strews_string (orderly : machine.collector.Orderly) (text : String) :
    machine.Strews Wording (machine.allocate (.value (.string text)) false).2 ∧
      (machine.allocate (.value (.string text)) false).2.heap.value?
        ⟨(machine.allocate (.value (.string text)) false).1⟩ = some (.string text) := by
  have childless : ∀ child ∈ (Cell.value (.string text)).children,
      machine.collector.Shows child := fun child listed => absurd listed List.not_mem_nil
  refine ⟨strews_allocate orderly childless ⟨text, rfl⟩, ?_⟩
  have places : machine.heap.Places (.value (.string text)) false
      (machine.allocate (.value (.string text)) false).1
      (machine.allocate (.value (.string text)) false).2.heap :=
    orderly.places_allocate childless false
  obtain ⟨marked, named⟩ := places.placed
  unfold Heap.value?
  rw [named]

/-- Strings that are allocated are left behind. -/
theorem Litters.strews (litters : machine.Litters after) (orderly : machine.collector.Orderly) :
    machine.Strews Wording after ∧ after.collector.Orderly := by
  induction litters with
  | refl => exact ⟨.refl machine, orderly⟩
  | tail _ once hypothesis =>
    obtain ⟨text, rfl⟩ := once
    obtain ⟨strews, fine⟩ := hypothesis
    exact ⟨strews.trans (strews_string fine text).1, fine.allocate _ _⟩

/-- What is left of a standard exception: its message, or its object. -/
def Scrap (message : String) (cell : Cell) : Prop :=
  cell = .value (.string message) ∨ ∃ object, cell = .object object

/-- The constants of a module are its strings in order. -/
theorem texts_allocateConstants (orderly : machine.collector.Orderly) {texts : List String}
    {constants result : Array Ref}
    (done : machine.allocateConstants texts constants = (.ok result, after)) :
    ∃ added, result.toList = constants.toList ++ added ∧
      List.Forall₂ (fun text constant => after.heap.value? constant = some (.string text))
        texts added := by
  induction texts generalizing machine constants with
  | nil =>
    obtain ⟨same, _⟩ := Prod.mk.inj done
    exact ⟨[], by rw [← Except.ok.inj same, List.append_nil], .nil⟩
  | cons text texts hypothesis =>
    unfold allocateConstants at done
    split at done
    · obtain ⟨_, made⟩ := strews_string orderly text
      let allocated := machine.allocate (.value (.string text)) false
      have rest : allocated.2.allocateConstants texts (constants.push ⟨allocated.1⟩) =
        (.ok result, after) := done
      have fine : allocated.2.collector.Orderly := orderly.allocate (.value (.string text)) false
      obtain ⟨added, shape, others⟩ := hypothesis fine rest
      have litters := allocated.2.litters_allocateConstants texts (constants.push ⟨allocated.1⟩)
      rw [rest] at litters
      refine ⟨⟨allocated.1⟩ :: added, by simp [shape], .cons ?_ others⟩
      exact (litters.strews fine).1.value? made
    · simp at done

end Machine

end ScriptVm
