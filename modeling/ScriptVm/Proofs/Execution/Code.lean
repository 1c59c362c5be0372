import ScriptVm.Function.Basic
import ScriptVm.Proofs.Instruction.Layout
import ScriptVm.Proofs.Result

/-!
# The code of functions

The code of a script function that was made lies inside that of its module, and its guarded blocks
and handlers lie inside the function. Decoding moves forward in the code and never beyond its end.
-/
namespace ScriptVm

/-- A script function lies inside the code of its module, and its guarded blocks and handlers lie
inside the function. -/
structure ScriptFunction.Enclosed (function : ScriptFunction) : Prop where
  /-- Local names are distinct. -/
  locals : function.body.locals.Nodup
  /-- The function does not end before it starts. -/
  range : function.body.start ≤ function.body.stop
  /-- It ends inside the code. -/
  code : function.body.stop ≤ function.module.code.size
  /-- Its guarded blocks are inside it. -/
  blocks : ∀ block ∈ function.body.blocks,
    function.body.start ≤ block.start ∧ block.start ≤ block.stop ∧ block.stop ≤ function.body.stop
  /-- Its handlers are inside it. -/
  handlers : ∀ block ∈ function.body.blocks, ∀ handler ∈ block.handlers,
    function.body.start ≤ handler.offset ∧ handler.offset < function.body.stop

namespace Function

/-- A script function lies inside its module; a host function has no code. -/
def Enclosed : Function → Prop
  | .script function => function.Enclosed
  | .host _ => True

/-- A script function was made from a body that was made from blocks in order; host functions are
made freely. -/
def Made : Function → Prop
  | .script function => ∃ start length locals blocks signature parameters returns module body,
      (∀ block ∈ blocks, block.start ≤ block.stop) ∧
      Body.create start length locals blocks = .ok body ∧
      ScriptFunction.create signature parameters returns module body = .ok function
  | .host _ => True

end Function

/-- The end of a range is not before its start. -/
theorem le_rangeEnd {start length stop : Nat} (ends : rangeEnd start length = .ok stop) :
    start ≤ stop := by
  unfold rangeEnd at ends
  split at ends
  · have same := Except.ok.inj ends
    omega
  · simp at ends

/-- What is known of a body that was made. -/
theorem Body.create_eq_ok {start length : Nat} {locals : List String} {blocks : List GuardedBlock}
    {body : Body} (made : Body.create start length locals blocks = .ok body) :
    rangeEnd start length = .ok body.stop ∧ locals.Nodup ∧
      (∀ block ∈ blocks, encloses start body.stop block = true) ∧
      body = ⟨start, body.stop, locals, blocks⟩ := by
  obtain ⟨stop, ends, rest⟩ := Except.bind_eq_ok made
  by_cases distinct : locals.Nodup
  · by_cases inside : blocks.all (encloses start stop)
    · simp only [distinct, inside, not_true_eq_false, if_false] at rest
      obtain rfl := Except.ok.inj rest
      exact ⟨ends, distinct, List.all_eq_true.mp inside, rfl⟩
    · simp [distinct, inside, throw, throwThe, MonadExceptOf.throw, Functor.map, Except.map] at rest
  · simp [distinct, throw, throwThe, MonadExceptOf.throw, Bind.bind, Except.bind] at rest

/-- What is known of a script function that was made. -/
theorem ScriptFunction.create_eq_ok {signature : String} {parameters returns : UInt16}
    {module : Module} {body : Body} {function : ScriptFunction}
    (made : ScriptFunction.create signature parameters returns module body = .ok function) :
    body.stop ≤ module.code.size ∧
      function = ⟨signature, parameters, returns, module, body⟩ := by
  unfold ScriptFunction.create at made
  split at made
  · simp at made
  · rename_i inside
    exact ⟨Nat.not_lt.mp inside, (Except.ok.inj made).symm⟩

/-- A script function made from a body that was made lies inside its module. -/
theorem ScriptFunction.enclosed_create {start length : Nat} {locals : List String}
    {blocks : List GuardedBlock} {signature : String} {parameters returns : UInt16}
    {module : Module} {body : Body} {function : ScriptFunction}
    (ordered : ∀ block ∈ blocks, block.start ≤ block.stop)
    (bodyMade : Body.create start length locals blocks = .ok body)
    (made : ScriptFunction.create signature parameters returns module body = .ok function) :
    function.Enclosed := by
  obtain ⟨ends, distinct, inside, shape⟩ := Body.create_eq_ok bodyMade
  obtain ⟨code, rfl⟩ := ScriptFunction.create_eq_ok made
  have encloses : ∀ block ∈ blocks, start ≤ block.start ∧ block.stop ≤ body.stop ∧
      ∀ handler ∈ block.handlers, start ≤ handler.offset ∧ handler.offset < body.stop := by
    intro block member
    simpa [Body.encloses, and_assoc] using inside block member
  rw [shape]
  constructor
  · exact distinct
  · exact le_rangeEnd ends
  · exact code
  · intro block member
    obtain ⟨low, high, _⟩ := encloses block member
    exact ⟨low, ordered block member, high⟩
  · intro block member
    obtain ⟨_, _, handlers⟩ := encloses block member
    exact handlers

/-- A function that was made lies inside its module. -/
theorem Function.Made.enclosed {function : Function} (made : function.Made) :
    function.Enclosed := by
  cases function with
  | host function => trivial
  | script function =>
    obtain ⟨_, _, _, _, _, _, _, _, _, ordered, body, script⟩ := made
    exact ScriptFunction.enclosed_create ordered body script

/-- A handler that is found is inside the function. -/
theorem ScriptFunction.Enclosed.handler {function : ScriptFunction} (enclosed : function.Enclosed)
    {offset target : Nat} {kind : Kind} {className : Option String}
    (found : function.body.findHandler? offset kind className = some target) :
    function.body.start ≤ target ∧ target < function.body.stop := by
  unfold Body.findHandler? at found
  obtain ⟨handler, caught, rfl⟩ := Option.map_eq_some_iff.mp found
  obtain ⟨block, member, matched⟩ := List.exists_of_findSome?_eq_some caught
  have listed : block ∈ function.body.blocks :=
    (List.mem_filter.mp ((List.mergeSort_perm _ _).mem_iff.mp member)).1
  exact enclosed.handlers block listed handler (List.mem_of_find?_eq_some matched)

namespace Cursor

/-- A cursor has moved forward in the same code, not beyond its end. -/
structure Forward (cursor after : Cursor) : Prop where
  /-- The code is the same. -/
  code : after.code = cursor.code
  /-- It is not before. -/
  next : cursor.next ≤ after.next
  /-- It is not beyond the end unless it was before. -/
  inside : cursor.next ≤ cursor.code.size → after.next ≤ cursor.code.size

variable {cursor middle after : Cursor}

/-- A cursor that has not moved. -/
theorem Forward.refl (cursor : Cursor) : cursor.Forward cursor := ⟨rfl, Nat.le_refl _, id⟩

/-- A cursor that has moved twice. -/
theorem Forward.trans (first : cursor.Forward middle) (second : middle.Forward after) :
    cursor.Forward after := by
  refine ⟨second.code.trans first.code, Nat.le_trans first.next second.next, ?_⟩
  intro start
  have between := first.inside start
  rw [← first.code] at between ⊢
  exact second.inside between

/-- Taking bytes moves forward. -/
theorem forward_take? {count : Nat} {bytes : List UInt8}
    (taken : cursor.take? count = some (bytes, after)) : cursor.Forward after := by
  unfold take? at taken
  split at taken
  · rename_i inside
    obtain ⟨_, rfl⟩ := Prod.mk.inj (Option.some.inj taken)
    exact ⟨rfl, Nat.le_add_right _ _, fun _ => inside⟩
  · simp at taken

/-- Taking bytes and making something of them moves forward. -/
theorem forward_bind {α : Type} {count : Nat} {make : List UInt8 × Cursor → Option (α × Cursor)}
    {value : α} (taken : (cursor.take? count).bind make = some (value, after))
    (stays : ∀ bytes middle result last, make (bytes, middle) = some (result, last) →
      middle = last) : cursor.Forward after := by
  obtain ⟨⟨bytes, middle⟩, first, last⟩ := Option.bind_eq_some_iff.mp taken
  obtain rfl := stays bytes middle value after last
  exact forward_take? first

/-- Taking a byte moves forward. -/
theorem forward_byte? {byte : UInt8} (taken : cursor.byte? = some (byte, after)) :
    cursor.Forward after :=
  forward_bind taken fun _ _ _ _ made => (Prod.mk.inj (Option.some.inj made)).2

/-- Taking a word moves forward. -/
theorem forward_word? {word : UInt32} (taken : cursor.word? = some (word, after)) :
    cursor.Forward after :=
  forward_bind taken fun _ _ _ _ made => (Prod.mk.inj (Option.some.inj made)).2

/-- Taking an integer moves forward. -/
theorem forward_integer? {kind : IntegerKind} {value : Integer kind}
    (taken : cursor.integer? kind = some (value, after)) : cursor.Forward after :=
  forward_bind taken fun _ _ _ _ made => (Prod.mk.inj (Option.some.inj made)).2

/-- Taking a floating-point number moves forward. -/
theorem forward_binary? {kind : BinaryKind} {value : Binary kind}
    (taken : cursor.binary? kind = some (value, after)) : cursor.Forward after :=
  forward_bind taken fun _ _ _ _ made => (Prod.mk.inj (Option.some.inj made)).2

/-- Taking a truth value moves forward. -/
theorem forward_bool? {value : Bool} (taken : cursor.bool? = some (value, after)) :
    cursor.Forward after := by
  obtain ⟨⟨byte, middle⟩, first, last⟩ := Option.bind_eq_some_iff.mp taken
  obtain ⟨_, rfl⟩ := Prod.mk.inj (Option.some.inj last)
  exact forward_byte? first

/-- A byte is taken where there is one. -/
theorem byte?_eq_some {byte : UInt8} (found : cursor.code[cursor.next]? = some byte) :
    cursor.byte? = some (byte, cursor.moveTo (cursor.next + 1)) := by
  obtain ⟨inside, rfl⟩ := Array.getElem?_eq_some_iff.mp found
  have single : (cursor.code.extract cursor.next (cursor.next + 1)).toList =
      [cursor.code[cursor.next]] := by
    rw [Array.toList_extract, List.extract_eq_take_drop, Nat.add_sub_cancel_left,
      List.drop_eq_getElem_cons (by simpa using inside)]
    simp
  have taken : cursor.take? 1 =
      some ([cursor.code[cursor.next]], cursor.moveTo (cursor.next + 1)) := by
    rw [take?, if_pos (Nat.succ_le_of_lt inside), single]
  simp [byte?, taken, littleValue]

end Cursor

/-- Taking a payload moves forward. -/
theorem Constant.forward_payload? {kind : Kind} {cursor after : Cursor}
    {constant : Constant UInt32} (taken : payload? kind cursor = some (constant, after)) :
    cursor.Forward after := by
  unfold payload? at taken
  split at taken
  · obtain ⟨_, rfl⟩ := Prod.mk.inj (Option.some.inj taken)
    exact .refl _
  · obtain ⟨⟨truth, next⟩, first, same⟩ := Option.map_eq_some_iff.mp taken
    obtain ⟨_, rfl⟩ := Prod.mk.inj same
    exact Cursor.forward_bool? first
  · obtain ⟨⟨integer, next⟩, first, same⟩ := Option.map_eq_some_iff.mp taken
    obtain ⟨_, rfl⟩ := Prod.mk.inj same
    exact Cursor.forward_integer? first
  · obtain ⟨⟨binary, next⟩, first, same⟩ := Option.map_eq_some_iff.mp taken
    obtain ⟨_, rfl⟩ := Prod.mk.inj same
    exact Cursor.forward_binary? first
  · obtain ⟨⟨word, next⟩, first, same⟩ := Option.map_eq_some_iff.mp taken
    obtain ⟨_, rfl⟩ := Prod.mk.inj same
    exact Cursor.forward_word? first
  · cases taken

/-- Decoding an operand moves forward. -/
theorem Shape.forward_decode {cursor after : Cursor} {shape : Shape}
    {operand : shape.Carrier UInt32} (decoded : shape.decode cursor = .ok (operand, after)) :
    cursor.Forward after := by
  cases shape with
  | register | name | parameter | index =>
    exact Cursor.forward_word? (Reading.ofOption_eq_ok_iff.mp decoded)
  | offset =>
    have read : Reading.distance cursor = .ok (operand, after) := decoded
    exact Cursor.forward_integer? (Reading.ofOption_eq_ok_iff.mp read)
  | constant =>
    obtain ⟨byte, middle, kind, taken, -, paid⟩ := Reading.constant_eq_ok_iff.mp decoded
    exact (Cursor.forward_byte? taken).trans (Constant.forward_payload? paid)

/-- Decoding operands moves forward. -/
theorem Operands.forward_decode {shapes : List Shape} {cursor after : Cursor}
    {operands : Operands UInt32 shapes} (decoded : decode shapes cursor = .ok (operands, after)) :
    cursor.Forward after := by
  induction shapes generalizing cursor with
  | nil =>
    obtain ⟨_, rfl⟩ := Prod.mk.inj (Except.ok.inj decoded)
    exact .refl _
  | cons shape rest hypothesis =>
    obtain ⟨⟨operand, middle⟩, first, more⟩ := Except.bind_eq_ok decoded
    obtain ⟨⟨others, last⟩, second, done⟩ := Except.bind_eq_ok more
    obtain ⟨_, rfl⟩ := Prod.mk.inj (Except.ok.inj done)
    exact (Shape.forward_decode first).trans (hypothesis second)

end ScriptVm
