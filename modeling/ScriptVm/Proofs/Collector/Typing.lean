import ScriptVm.Proofs.Collector.Account

/-!
# Kinds of members

A member admits null, and handles that have been handed out and whose proxy, if they still resolve,
holds a value of the declared kind. A heap is typed when every proxy but that of null holds a cell
that fits: a value other than null, or an object whose members are all admitted. Handles that have
been handed out never come to resolve to a proxy of another kind, so what is admitted once stays
admitted.

Between collector steps the heap changes by edits: a reference is shaded, a cell that fits is
allocated, a cell is replaced by a fitting one of the same kind, or a proxy is pinned or unpinned.
Edits keep a heap typed.
-/
namespace ScriptVm

namespace Heap

variable {before middle after : Heap}

/-- A member of a kind may hold the reference: it is null, or it has been handed out and resolves,
if at all, to a value of the kind. -/
def Admits (heap : Heap) (kind : Kind) (held : Ref) : Prop :=
  held = Ref.null ∨ heap.Issued held.handle ∧
    ∀ proxy, heap.proxy? held.handle = some proxy → proxy.cell.kind? = some kind

end Heap

/-- Every member of an object holds a reference that its declared kind admits. -/
def Object.Fits (heap : Heap) (object : Object) : Prop :=
  ∀ (index : Nat) name kind, object.schema.members[index]? = some (name, kind) →
    ∃ held, object.members[index]? = some held ∧ heap.Admits kind held

/-- A cell may stand behind a handle other than that of null. -/
def Cell.Fits (heap : Heap) : Cell → Prop
  | .value content => content ≠ .null
  | .object content => content.Fits heap

/-- Every proxy but that of null holds a cell that fits. -/
def Heap.Typed (heap : Heap) : Prop :=
  ∀ handle proxy, heap.proxy? handle = some proxy → handle ≠ Handle.null → proxy.cell.Fits heap

namespace Heap

variable {before middle after : Heap}

/-- No handle is taken back, and one that has been handed out resolves only to what it resolved to
before, or to another value of the same kind. -/
structure Settles (before after : Heap) : Prop where
  /-- Handles stay handed out. -/
  issued : ∀ handle, before.Issued handle → after.Issued handle
  /-- Kinds stay. -/
  kinds : ∀ handle proxy, before.Issued handle → after.proxy? handle = some proxy →
    ∃ old, before.proxy? handle = some old ∧ proxy.cell.kind? = old.cell.kind?

namespace Settles

/-- Slots keep their stamps, and what resolves afterwards did so before with a cell of the kind. -/
theorem of_stamps (stamps : ∀ index, after.stamp? index = before.stamp? index)
    (origin : ∀ handle proxy, after.proxy? handle = some proxy →
      ∃ old, before.proxy? handle = some old ∧ proxy.cell.kind? = old.cell.kind?) :
    before.Settles after :=
  ⟨fun handle issued => issued.of_stamps (stamps handle.index),
    fun handle proxy _ resolved => origin handle proxy resolved⟩

/-- What is admitted stays so. -/
theorem admits (settles : before.Settles after) {kind : Kind} {held : Ref}
    (admits : before.Admits kind held) : after.Admits kind held := by
  rcases admits with null | ⟨issued, kinds⟩
  · exact .inl null
  · refine .inr ⟨settles.issued _ issued, ?_⟩
    intro proxy resolved
    obtain ⟨old, known, same⟩ := settles.kinds _ proxy issued resolved
    exact same.trans (kinds old known)

/-- A cell that fits goes on fitting. -/
theorem fits (settles : before.Settles after) {cell : Cell} (fits : cell.Fits before) :
    cell.Fits after := by
  cases cell with
  | value value => exact fits
  | object object =>
    intro index name kind declared
    obtain ⟨held, found, admits⟩ := fits index name kind declared
    exact ⟨held, found, settles.admits admits⟩

/-- A typed heap stays typed when every cell that is not new in it was there before. -/
theorem typed (settles : before.Settles after) (typed : before.Typed)
    (origin : ∀ handle proxy, after.proxy? handle = some proxy →
      (∃ old, before.proxy? handle = some old ∧ proxy.cell = old.cell) ∨
        proxy.cell.Fits before) : after.Typed := by
  intro handle proxy resolved proper
  rcases origin handle proxy resolved with ⟨old, known, same⟩ | fits
  · rw [same]
    exact settles.fits (typed handle old known proper)
  · exact settles.fits fits

end Settles

/-- In the heap with the null value alone nothing has to fit. -/
theorem typed_empty : empty.Typed := by
  intro handle proxy resolved proper
  exact absurd (eq_null_of_empty resolved).1 proper

/-- A value other than null stands behind every other handle. -/
theorem Typed.ne_null {heap : Heap} (typed : heap.Typed) {reference : Ref} {value : Value}
    (found : heap.value? reference = some value) (proper : reference ≠ Ref.null) :
    value ≠ .null := by
  obtain ⟨proxy, resolved, cell⟩ := proxy?_of_value? found
  have apart : reference.handle ≠ Handle.null := by
    intro same
    apply proper
    cases reference
    exact congrArg Ref.mk same
  have fits := typed reference.handle proxy resolved apart
  rwa [cell] at fits

/-- In a typed heap a reference to a value of a kind, or to null, is admitted. -/
theorem Typed.admits {heap : Heap} (typed : heap.Typed) {reference : Ref} {value : Value}
    {kind : Kind} (found : heap.value? reference = some value)
    (fitting : value.kind = .null ∨ value.kind = kind) : heap.Admits kind reference := by
  by_cases null : reference = Ref.null
  · exact .inl null
  · obtain ⟨proxy, resolved, cell⟩ := proxy?_of_value? found
    refine .inr ⟨issued_of_proxy? resolved, ?_⟩
    intro other same
    obtain rfl : proxy = other := Option.some.inj (resolved.symm.trans same)
    have proper := typed.ne_null found null
    rw [cell]
    refine congrArg some (fitting.resolve_left fun none => proper ?_)
    cases value <;> first | rfl | cases none

end Heap

/-- The first entry under a name stands at the position where the name is first found. -/
theorem getElem?_of_findIdx?_lookup {members : List (String × Kind)} {name : String} {index : Nat}
    {kind : Kind} (first : members.findIdx? (fun member => decide (member.1 = name)) = some index)
    (bound : members.lookup name = some kind) : members[index]? = some (name, kind) := by
  induction members generalizing index with
  | nil => simp at bound
  | cons head rest hypothesis =>
    obtain ⟨key, own⟩ := head
    rw [List.findIdx?_cons] at first
    rw [List.lookup_cons] at bound
    by_cases same : key = name
    · subst same
      simp only [decide_true, if_true, Option.some.injEq] at first
      simp only [beq_self_eq_true, Option.some.injEq] at bound
      rw [← first, ← bound]
      rfl
    · have apart : (name == key) = false := by simpa using Ne.symm same
      simp only [same, decide_false, Bool.false_eq_true, if_false] at first
      rw [apart] at bound
      obtain ⟨before, there, rfl⟩ := Option.map_eq_some_iff.mp first
      exact hypothesis there bound

/-- The declaration of a member stands at its position. -/
theorem Schema.getElem?_of_member {schema : Schema} {name : String} {member : Member}
    (found : schema.member name = .ok member) :
    schema.members[member.index]? = some (name, member.kind) := by
  unfold Schema.member at found
  split at found
  · rename_i index kind first bound
    obtain rfl := Except.ok.inj found
    exact getElem?_of_findIdx?_lookup first bound
  · cases found

namespace Object

variable {heap : Heap} {object changed : Object}

/-- A new object fits: all its members are null. -/
theorem fits_blank (heap : Heap) (schema : Schema) : (blank schema).Fits heap := by
  intro index name kind declared
  have inside : index < schema.members.length := (List.getElem?_eq_some_iff.mp declared).1
  refine ⟨Ref.null, ?_, .inl rfl⟩
  simp [blank, inside]

/-- An object goes on fitting when a member is set to a reference that its kind admits. -/
theorem Fits.set {position : Nat} {value : Ref} (fits : object.Fits heap)
    (admits : ∀ name kind, object.schema.members[position]? = some (name, kind) →
      heap.Admits kind value) :
    Fits heap { object with members := object.members.setIfInBounds position value } := by
  intro index name kind declared
  obtain ⟨held, found, admitted⟩ := fits index name kind declared
  obtain ⟨inside, -⟩ := Array.getElem?_eq_some_iff.mp found
  by_cases here : position = index
  · subst here
    exact ⟨value, by simp [inside], admits name kind declared⟩
  · exact ⟨held, by simpa [Array.getElem?_setIfInBounds, here] using found, admitted⟩

/-- Putting a reference into a member that admits it leaves a fitting object. -/
theorem Fits.set_eq_ok {name : String} {member : Member} {value : Ref} (fits : object.Fits heap)
    (declared : object.schema.member name = .ok member) (admits : heap.Admits member.kind value)
    (done : object.set member.index value = .ok changed) : changed.Fits heap := by
  unfold Object.set at done
  split at done
  · obtain rfl := Except.ok.inj done
    refine fits.set fun other kind stands => ?_
    obtain ⟨-, rfl⟩ := Prod.mk.inj
      (Option.some.inj ((Schema.getElem?_of_member declared).symm.trans stands))
    exact admits
  · cases done

end Object

namespace Collector

variable {collector middle after : Collector}

/-- One change of the heap between collector steps. -/
inductive Edit (collector : Collector) : Collector → Prop where
  /-- A reference is shaded. -/
  | shade (handle : Handle) : Edit collector (collector.shade handle)
  /-- A cell is allocated. -/
  | allocate {cell : Cell} (pinned : Bool)
    (fits : collector.heap.Typed → cell.Fits collector.heap) :
    Edit collector (collector.allocate cell pinned).2
  /-- A cell is replaced by one of the same kind. -/
  | rewrite {target : Handle} {proxy : Proxy} {cell : Cell}
    (resolved : collector.heap.proxy? target = some proxy) (proper : proxy.cell ≠ .value .null)
    (same : cell.kind? = proxy.cell.kind?)
    (fits : collector.heap.Typed → proxy.cell.Fits collector.heap →
      cell.Fits collector.heap) :
    Edit collector { collector with heap := collector.heap.setCell target cell }
  /-- A proxy is pinned or unpinned. -/
  | pin {handle : Handle} {pinned : Bool} {heap : Heap}
    (done : collector.heap.setPinned handle pinned = some heap) :
    Edit collector { collector with heap }

/-- Any number of changes. -/
abbrev Edits : Collector → Collector → Prop := Relation.ReflTransGen Edit

/-- An edit leaves the bookkeeping orderly. -/
theorem Edit.orderly (edit : collector.Edit after) (orderly : collector.Orderly) :
    after.Orderly := by
  cases edit with
  | shade handle => exact orderly.shade handle
  | allocate pinned fits => exact orderly.allocate _ pinned
  | rewrite resolved proper same fits => exact orderly.setCell resolved proper _
  | pin done => exact orderly.setPinned done

/-- Cells that were there before are of the kinds of before. -/
theorem kinds_of_cells {before after : Heap}
    (origin : ∀ handle proxy, after.proxy? handle = some proxy →
      ∃ old, before.proxy? handle = some old ∧ proxy.cell = old.cell)
    (handle : Handle) (proxy : Proxy) (resolved : after.proxy? handle = some proxy) :
    ∃ old, before.proxy? handle = some old ∧ proxy.cell.kind? = old.cell.kind? := by
  obtain ⟨old, known, same⟩ := origin handle proxy resolved
  exact ⟨old, known, congrArg Cell.kind? same⟩

/-- Pinning keeps stamps. -/
theorem stamp?_setPinned {heap pinnedHeap : Heap} {handle : Handle} {pinned : Bool}
    (done : heap.setPinned handle pinned = some pinnedHeap) (index : Nat) :
    pinnedHeap.stamp? index = heap.stamp? index := by
  rcases Heap.setPinned_cases done with rfl | ⟨_, _, _, rfl⟩
  · rfl
  · exact Heap.stamp?_updateAt heap _ _ index

/-- An edit takes no handle back and changes no kind. -/
theorem Edit.settles (edit : collector.Edit after) (orderly : collector.Orderly) :
    collector.heap.Settles after.heap := by
  cases edit with
  | shade handle =>
    exact .of_stamps (collector.stamp?_shade handle) (kinds_of_cells fun _ _ => origin_shade)
  | @allocate cell pinned fits =>
    refine ⟨fun _ known => orderly.issued_allocate cell pinned (.inr known), ?_⟩
    intro handle proxy issued resolved
    rcases orderly.origin_allocate cell pinned resolved with ⟨rfl, _⟩ | ⟨old, known, same⟩
    · have new := collector.heap.not_issued_allocate cell pinned orderly.lawful.vacant
      exact absurd issued new
    · exact ⟨old, known, congrArg Cell.kind? same⟩
  | @rewrite target proxy cell resolved proper same fits =>
    refine .of_stamps (fun index => Heap.stamp?_updateAt _ _ _ index) ?_
    intro handle found named
    rcases origin_rewrite resolved named with ⟨rfl, new⟩ | ⟨old, known, unchanged⟩
    · exact ⟨proxy, resolved, (congrArg Cell.kind? new).trans same⟩
    · exact ⟨old, known, congrArg Cell.kind? unchanged⟩
  | pin done =>
    refine .of_stamps (stamp?_setPinned done) (kinds_of_cells fun handle proxy named => ?_)
    obtain ⟨old, known, cell, _⟩ := Heap.origin_setPinned done named
    exact ⟨old, known, cell.symm⟩

/-- An edit keeps a heap typed. -/
theorem Edit.typed (edit : collector.Edit after) (orderly : collector.Orderly)
    (typed : collector.heap.Typed) : after.heap.Typed := by
  refine (edit.settles orderly).typed typed ?_
  intro handle proxy resolved
  cases edit with
  | shade target => exact .inl (origin_shade resolved)
  | @allocate cell pinned fits =>
    rcases orderly.origin_allocate cell pinned resolved with ⟨-, new⟩ | old
    · exact .inr (new ▸ fits typed)
    · exact .inl old
  | @rewrite target old cell known proper same fits =>
    rcases origin_rewrite known resolved with ⟨-, new⟩ | unchanged
    · have apart : target ≠ Handle.null := by
        rintro rfl
        rw [orderly.lawful.proxy?_null] at known
        exact proper (congrArg Proxy.cell (Option.some.inj known).symm)
      exact .inr (new ▸ fits typed (typed target old known apart))
    · exact .inl unchanged
  | pin done =>
    obtain ⟨old, known, cell, _⟩ := Heap.origin_setPinned done resolved
    exact .inl ⟨old, known, cell.symm⟩

/-- A member of its kind admits a new value. -/
theorem Orderly.admits_allocate (orderly : collector.Orderly) (value : Value) (pinned : Bool) :
    (collector.allocate (.value value) pinned).2.heap.Admits value.kind
      ⟨(collector.allocate (.value value) pinned).1⟩ := by
  refine .inr ⟨orderly.issued_allocate _ pinned (.inl rfl), ?_⟩
  intro proxy resolved
  rcases orderly.origin_allocate _ pinned resolved with ⟨-, cell⟩ | ⟨old, known, -⟩
  · rw [cell]
    rfl
  · have new := collector.heap.not_issued_allocate (.value value) pinned orderly.lawful.vacant
    exact absurd (Heap.issued_of_proxy? known) new

/-- Edits leave the bookkeeping orderly. -/
theorem Edits.orderly (edits : collector.Edits after) (orderly : collector.Orderly) :
    after.Orderly := by
  induction edits with
  | refl => exact orderly
  | tail _ edit hypothesis => exact edit.orderly hypothesis

/-- Edits keep a heap typed. -/
theorem Edits.typed (edits : collector.Edits after) (orderly : collector.Orderly)
    (typed : collector.heap.Typed) : after.heap.Typed := by
  induction edits with
  | refl => exact typed
  | tail earlier edit hypothesis => exact edit.typed (Edits.orderly earlier orderly) hypothesis

end Collector

end ScriptVm
