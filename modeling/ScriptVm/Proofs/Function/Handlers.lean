import Mathlib.Data.List.Pairwise
import ScriptVm.Function.Basic
import ScriptVm.Proofs.Execution.Code

/-!
# The search for a handler

Of the guarded blocks around an offset that have a handler for a raised value, the one that starts
last is asked, of those that start there the one that ends first, and of those the one declared
first. A block that was made has at most one handler for a value. Where blocks do not overlap but
by nesting, the block that is asked lies inside all the others.
-/
namespace ScriptVm

/-- A handler that was made: for a kind of values that are no objects, or for the objects of a
class. -/
inductive Handler.Made : Handler → Prop where
  | ofKind {kind : Kind} {offset : Nat} {handler : Handler}
    (made : Handler.ofKind kind offset = .ok handler) : Made handler
  | ofClass (className : String) (offset : Nat) : Made (Handler.ofClass className offset)

/-- A guarded block that was made, with handlers added to it one after the other. -/
inductive GuardedBlock.Made : GuardedBlock → Prop where
  | create {start length : Nat} {block : GuardedBlock}
    (made : GuardedBlock.create start length = .ok block) : Made block
  | addHandler {block after : GuardedBlock} {handler : Handler} (made : Made block)
    (handlerMade : handler.Made) (added : block.addHandler handler = .ok after) : Made after

/-- A body that was made from blocks that were made. -/
def Body.Made (body : Body) : Prop :=
  ∃ start length locals blocks, (∀ block ∈ blocks, GuardedBlock.Made block) ∧
    Body.create start length locals blocks = .ok body

/-- The blocks of a body that was made were made. -/
theorem Body.Made.blocks {body : Body} (made : body.Made) :
    ∀ block ∈ body.blocks, block.Made := by
  obtain ⟨start, length, locals, blocks, each, created⟩ := made
  obtain ⟨_, _, _, shape⟩ := Body.create_eq_ok created
  rw [shape]
  exact each

/-- What catches a raised value is determined by the value. -/
theorem Catch.eq_of_accepts {left right : Catch} {kind : Kind} {className : Option String}
    (first : left.accepts kind className = true) (second : right.accepts kind className = true) :
    left = right := by
  cases left <;> cases right <;> simp_all [Catch.accepts]

namespace GuardedBlock

variable {block other : GuardedBlock} {offset : Nat} {kind : Kind} {className : Option String}
  {handler : Handler}

/-- The handlers of a block catch different things. -/
theorem Made.pairwise (made : block.Made) :
    block.handlers.Pairwise fun left right => left.caught ≠ right.caught := by
  induction made with
  | create made =>
    obtain ⟨stop, _, last⟩ := Except.bind_eq_ok made
    obtain rfl := Except.ok.inj last
    exact List.Pairwise.nil
  | addHandler _ _ added hypothesis =>
    rename_i block _ handler _ _
    unfold GuardedBlock.addHandler at added
    split at added
    · cases added
    · rename_i new
      obtain rfl := Except.ok.inj added
      refine List.pairwise_append.mpr ⟨hypothesis, List.pairwise_singleton _ _, ?_⟩
      intro known member last listed same
      obtain rfl := List.mem_singleton.mp listed
      refine new (List.any_eq_true.mpr ⟨known, member, ?_⟩)
      simp [same]

/-- At most one handler of a block catches a raised value. -/
theorem Made.length_filter_le (made : block.Made) (kind : Kind) (className : Option String) :
    (block.handlers.filter (·.caught.accepts kind className)).length ≤ 1 := by
  have apart := made.pairwise.filter (·.caught.accepts kind className)
  cases accepted : block.handlers.filter (·.caught.accepts kind className) with
  | nil => exact Nat.zero_le 1
  | cons first rest =>
    cases rest with
    | nil => exact Nat.le_refl 1
    | cons second rest =>
      have catches : ∀ handler ∈ first :: second :: rest,
          handler.caught.accepts kind className = true := by
        intro handler member
        rw [← accepted] at member
        exact (List.mem_filter.mp member).2
      rw [accepted] at apart
      have differ := List.rel_of_pairwise_cons apart List.mem_cons_self
      exact absurd (Catch.eq_of_accepts (catches first (by simp)) (catches second (by simp))) differ

/-- A handler of the block catches a value raised at an offset that the block guards. -/
def Answers (block : GuardedBlock) (offset : Nat) (kind : Kind) (className : Option String)
    (handler : Handler) : Prop :=
  (block.start ≤ offset ∧ offset < block.stop) ∧ handler ∈ block.handlers ∧
    handler.caught.accepts kind className = true

/-- The block guards an offset. -/
theorem contains_iff :
    block.contains offset = true ↔ block.start ≤ offset ∧ offset < block.stop := by
  simp [contains]

/-- A handler that a block around an offset finds answers. -/
theorem answers_of_findHandler? (around : block.contains offset = true)
    (found : block.findHandler? kind className = some handler) :
    block.Answers offset kind className handler :=
  ⟨contains_iff.mp around, List.mem_of_find?_eq_some found, by simpa using List.find?_some found⟩

/-- A block of which a handler answers finds one. -/
theorem isSome_findHandler? (answers : block.Answers offset kind className handler) :
    (block.findHandler? kind className).isSome = true :=
  List.find?_isSome.mpr ⟨handler, answers.2.1, answers.2.2⟩

/-- The order of the search is transitive. -/
theorem isInner_trans (first second third : GuardedBlock) (left : first.isInner second = true)
    (right : second.isInner third = true) : first.isInner third = true := by
  simp only [isInner, Bool.or_eq_true, Bool.and_eq_true, decide_eq_true_eq] at left right ⊢
  omega

/-- Of two blocks one is asked first, or their ranges are the same. -/
theorem isInner_total (left right : GuardedBlock) :
    (left.isInner right || right.isInner left) = true := by
  simp only [isInner, Bool.or_eq_true, Bool.and_eq_true, decide_eq_true_eq]
  omega

/-- A block comes before another in the search for a handler, given where both are declared: it
starts later, or there and ends earlier, or its range is the same and it is declared no later. -/
def Precedes (block : GuardedBlock) (position : Nat) (other : GuardedBlock) (place : Nat) : Prop :=
  other.start < block.start ∨ other.start = block.start ∧
    (block.stop < other.stop ∨ block.stop = other.stop ∧ position ≤ place)

/-- One of two blocks lies inside the other, or they do not overlap. -/
def Nests (left right : GuardedBlock) : Prop :=
  (right.start ≤ left.start ∧ left.stop ≤ right.stop) ∨
    (left.start ≤ right.start ∧ right.stop ≤ left.stop) ∨
    left.stop ≤ right.start ∨ right.stop ≤ left.start

/-- Nesting is symmetric. -/
instance : Std.Symm Nests where
  symm left right nests := by
    unfold Nests at nests ⊢
    omega

/-- A block lies inside itself. -/
theorem nests_self (block : GuardedBlock) : block.Nests block :=
  .inl ⟨Nat.le_refl _, Nat.le_refl _⟩

/-- Of two nested blocks around an offset, the one that comes first lies inside the other. -/
theorem Precedes.inside {position place : Nat} (precedes : block.Precedes position other place)
    (nests : block.Nests other) (around : block.start ≤ offset ∧ offset < block.stop)
    (around' : other.start ≤ offset ∧ offset < other.stop) :
    other.start ≤ block.start ∧ block.stop ≤ other.stop := by
  unfold Precedes at precedes
  unfold Nests at nests
  omega

end GuardedBlock

/-- Sorting leaves elements that are tied with each other in the order they had. -/
theorem filter_mergeSort_of_ties {α : Type} {le : α → α → Bool} (tied : α → Bool)
    (trans : ∀ a b c, le a b = true → le b c = true → le a c = true)
    (total : ∀ a b, (le a b || le b a) = true)
    (ties : ∀ a b, tied a = true → tied b = true → le a b = true) (list : List α) :
    (list.mergeSort le).filter tied = list.filter tied := by
  have sorted : (list.filter tied).Pairwise fun a b => le a b = true := by
    refine List.pairwise_of_forall_mem_list fun a first b second => ?_
    exact ties a b (List.mem_filter.mp first).2 (List.mem_filter.mp second).2
  have below := (List.sublist_mergeSort trans total sorted List.filter_sublist).filter tied
  rw [List.filter_filter] at below
  simp only [Bool.and_self] at below
  have many := ((List.mergeSort_perm list le).filter tied).length_eq
  exact (below.eq_of_length many.symm).symm

/-- An element of a filtered list stands in the list itself, before every element that passes the
filter but for those left of it. -/
theorem exists_position_of_filter {α : Type} {list left right : List α} {first : α}
    {passes : α → Bool} (split : list.filter passes = left ++ first :: right) :
    ∃ position, list[position]? = some first ∧ ∀ (place : Nat) (other : α),
      list[place]? = some other → passes other = true → other ∉ left → position ≤ place := by
  obtain ⟨front, back, rfl, passed, rest⟩ := List.filter_eq_append_iff.mp split
  obtain ⟨skipped, tail, rfl, fails, -, -⟩ := List.filter_eq_cons_iff.mp rest
  refine ⟨front.length + skipped.length, by simp, ?_⟩
  intro place other found passing elsewhere
  by_contra earlier
  have early : place < (front ++ skipped).length := by
    rw [List.length_append]
    omega
  rw [← List.append_assoc, List.getElem?_append_left early] at found
  obtain inFront | inSkipped := List.mem_append.mp (List.mem_of_getElem? found)
  · exact elsewhere (passed ▸ List.mem_filter.mpr ⟨inFront, passing⟩)
  · exact fails other inSkipped passing

namespace Body

variable {body : Body} {offset target : Nat} {kind : Kind} {className : Option String}

/-- A block is the first of a body, in the order of the search, of which a handler catches a value
raised at an offset. -/
def Foremost (body : Body) (offset : Nat) (kind : Kind) (className : Option String)
    (position : Nat) (block : GuardedBlock) : Prop :=
  ∀ (place : Nat) (other : GuardedBlock) (handler : Handler), body.blocks[place]? = some other →
    other.Answers offset kind className handler → block.Precedes position other place

/-- A handler is found when one of a block answers. -/
theorem isSome_findHandler? : (body.findHandler? offset kind className).isSome = true ↔
    ∃ block ∈ body.blocks, ∃ handler, block.Answers offset kind className handler := by
  rw [findHandler?, Option.isSome_map, List.findSome?_isSome_iff]
  constructor
  · rintro ⟨block, member, found⟩
    obtain ⟨listed, around⟩ := List.mem_filter.mp (List.mem_mergeSort.mp member)
    obtain ⟨handler, found⟩ := Option.isSome_iff_exists.mp found
    exact ⟨block, listed, handler, GuardedBlock.answers_of_findHandler? around found⟩
  · rintro ⟨block, listed, handler, answers⟩
    have around := GuardedBlock.contains_iff.mpr answers.1
    exact ⟨block, List.mem_mergeSort.mpr (List.mem_filter.mpr ⟨listed, around⟩),
      GuardedBlock.isSome_findHandler? answers⟩

/-- The handler that is found is of the foremost block that has one. Blocks of the same range keep
their order in the search, so that the order of declaration decides between them. -/
theorem foremost_of_findHandler? (found : body.findHandler? offset kind className = some target) :
    ∃ position block handler, body.blocks[position]? = some block ∧
      block.Answers offset kind className handler ∧ handler.offset = target ∧
        body.Foremost offset kind className position block := by
  obtain ⟨handler, found, aim⟩ := Option.map_eq_some_iff.mp found
  obtain ⟨left, block, right, split, finds, refuses⟩ := List.findSome?_eq_some_iff.mp found
  have sorted := List.pairwise_mergeSort GuardedBlock.isInner_trans GuardedBlock.isInner_total
    (body.blocks.filter (·.contains offset))
  rw [split, List.pairwise_append, List.pairwise_cons] at sorted
  have member : block ∈ body.blocks.filter (·.contains offset) :=
    List.mem_mergeSort.mp (split ▸ List.mem_append_right left List.mem_cons_self)
  have around := (List.mem_filter.mp member).2
  have tied := filter_mergeSort_of_ties
    (fun other => other.start = block.start && other.stop = block.stop)
    GuardedBlock.isInner_trans GuardedBlock.isInner_total (by simp [GuardedBlock.isInner]; omega)
    (body.blocks.filter (·.contains offset))
  rw [split, List.filter_filter, List.filter_append, List.filter_cons_of_pos (by simp)] at tied
  obtain ⟨position, stands, earliest⟩ := exists_position_of_filter tied.symm
  refine ⟨position, block, handler, stands, GuardedBlock.answers_of_findHandler? around finds, aim,
    ?_⟩
  intro place other its there answers
  have around' := GuardedBlock.contains_iff.mpr answers.1
  have notLeft : other ∉ left := by
    intro asked
    have some := GuardedBlock.isSome_findHandler? answers
    rw [refuses other asked] at some
    cases some
  have listed : other ∈ left ++ block :: right := by
    rw [← split, List.mem_mergeSort]
    exact List.mem_filter.mpr ⟨List.mem_of_getElem? there, around'⟩
  have inner : other.start < block.start ∨ block.start = other.start ∧ block.stop ≤ other.stop := by
    rcases List.mem_append.mp listed with asked | later
    · exact absurd asked notLeft
    · rcases List.mem_cons.mp later with rfl | later
      · exact .inr ⟨rfl, Nat.le_refl _⟩
      · simpa [GuardedBlock.isInner] using sorted.2.1.1 other later
  have declared : block.start = other.start → block.stop = other.stop → position ≤ place := by
    intro starts stops
    refine earliest place other there (by simp [starts, stops, around']) ?_
    exact fun asked => notLeft (List.mem_filter.mp asked).1
  unfold GuardedBlock.Precedes
  omega

/-- Where blocks do not overlap but by nesting, the foremost one lies inside every other block that
has a handler. -/
theorem Foremost.inside {position place : Nat} {block other : GuardedBlock} {handler : Handler}
    (foremost : body.Foremost offset kind className position block)
    (nests : body.blocks.Pairwise GuardedBlock.Nests) (declared : block ∈ body.blocks)
    (around : block.start ≤ offset ∧ offset < block.stop)
    (there : body.blocks[place]? = some other)
    (answers : other.Answers offset kind className handler) :
    other.start ≤ block.start ∧ block.stop ≤ other.stop := by
  have nested := List.Pairwise.forall_of_forall (fun block _ => GuardedBlock.nests_self block)
    nests declared (List.mem_of_getElem? there)
  exact (foremost place other handler there answers).inside nested around answers.1

end Body

/-- The search for a handler in a script function that was made. A block has at most one handler
for a value. A handler is found if a block around the offset has one, and then it is the one of the
foremost such block; where blocks do not overlap but by nesting, that is the innermost. -/
theorem ScriptFunction.findHandler_of_made (function : ScriptFunction)
    (made : function.body.Made) (offset : Nat) (kind : Kind) (className : Option String) :
    (∀ block ∈ function.body.blocks,
      (block.handlers.filter (·.caught.accepts kind className)).length ≤ 1) ∧
    (((Function.script function).findHandler? offset kind className).isSome = true ↔
      ∃ block ∈ function.body.blocks, ∃ handler,
        block.Answers offset kind className handler) ∧
    ∀ target, (Function.script function).findHandler? offset kind className = some target →
      ∃ position block handler, function.body.blocks[position]? = some block ∧
        block.Answers offset kind className handler ∧ handler.offset = target ∧
        function.body.Foremost offset kind className position block ∧
        (function.body.blocks.Pairwise GuardedBlock.Nests →
          ∀ other ∈ function.body.blocks,
            (∃ handler, other.Answers offset kind className handler) →
              other.start ≤ block.start ∧ block.stop ≤ other.stop) := by
  refine ⟨?_, Body.isSome_findHandler?, ?_⟩
  · intro block member
    exact (made.blocks block member).length_filter_le kind className
  · intro target found
    obtain ⟨position, block, handler, stands, answers, aim, foremost⟩ :=
      Body.foremost_of_findHandler? found
    refine ⟨position, block, handler, stands, answers, aim, foremost, ?_⟩
    rintro nests other member ⟨handler, catches⟩
    obtain ⟨place, there⟩ := List.mem_iff_getElem?.mp member
    exact foremost.inside nests (List.mem_of_getElem? stands) answers.1 there catches

/-- A function with a guarded block and, inside it, two of the same range. -/
def twinGuards : ScriptFunction where
  signature := "main"
  parameters := 0
  returns := 0
  module := default
  body := ⟨0, 8, [], [⟨0, 8, [⟨.values .null, 4⟩]⟩, ⟨2, 4, [⟨.values .null, 6⟩]⟩,
    ⟨2, 4, [⟨.values .null, 5⟩, ⟨.objects "E", 7⟩]⟩]⟩

theorem ScriptFunction.findHandler_of_made_twinGuards : twinGuards.body.Made ∧
    (Function.script twinGuards).findHandler? 3 .null none = some 6 ∧
    ∃ position block handler, twinGuards.body.blocks[position]? = some block ∧
      block.Answers 3 .null none handler ∧ handler.offset = 6 ∧
      twinGuards.body.Foremost 3 .null none position block ∧
      ∀ other ∈ twinGuards.body.blocks, (∃ handler, other.Answers 3 .null none handler) →
        other.start ≤ block.start ∧ block.stop ≤ other.stop := by
  have outer : GuardedBlock.Made ⟨0, 8, [⟨.values .null, 4⟩]⟩ :=
    .addHandler (@GuardedBlock.Made.create 0 8 _ rfl) (@Handler.Made.ofKind .null 4 _ rfl) rfl
  have first : GuardedBlock.Made ⟨2, 4, [⟨.values .null, 6⟩]⟩ :=
    .addHandler (@GuardedBlock.Made.create 2 2 _ rfl) (@Handler.Made.ofKind .null 6 _ rfl) rfl
  have second : GuardedBlock.Made ⟨2, 4, [⟨.values .null, 5⟩, ⟨.objects "E", 7⟩]⟩ :=
    .addHandler (.addHandler (@GuardedBlock.Made.create 2 2 _ rfl)
      (@Handler.Made.ofKind .null 5 _ rfl) rfl) (.ofClass "E" 7) rfl
  have made : twinGuards.body.Made := by
    refine ⟨0, 8, [], twinGuards.body.blocks, ?_, rfl⟩
    simp [twinGuards, outer, first, second]
  have found : (Function.script twinGuards).findHandler? 3 .null none = some 6 := by
    simp [twinGuards, Function.findHandler?, Function.body?, Body.findHandler?,
      GuardedBlock.contains, GuardedBlock.isInner, GuardedBlock.findHandler?, Catch.accepts,
      List.mergeSort, List.MergeSort.Internal.splitInTwo]
  have nests : twinGuards.body.blocks.Pairwise GuardedBlock.Nests := by
    simp [twinGuards, GuardedBlock.Nests]
  obtain ⟨position, block, handler, stands, answers, aim, foremost, inside⟩ :=
    (ScriptFunction.findHandler_of_made twinGuards made 3 .null none).2.2 6 found
  exact ⟨made, found, position, block, handler, stands, answers, aim, foremost, inside nests⟩

end ScriptVm
