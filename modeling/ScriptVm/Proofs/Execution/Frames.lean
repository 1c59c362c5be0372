import Mathlib.Data.List.Infix
import ScriptVm.Proofs.Execution.Code
import ScriptVm.Proofs.Execution.Roots
import ScriptVm.Vm.Run

/-!
# Call stacks

A call keeps its position inside its function, the names of its local variables and a bounded
operand stack. A call stack is bounded, and the numbers of its frames grow from the bottom to the
top. As an execution goes on, frames leave the stack at the top and frames with new numbers come
onto it; no number comes back.
-/
namespace ScriptVm

namespace Activation

variable {activation middle after : Activation}

/-- A call is another one after part of an instruction: it goes on where it was or inside its
function. -/
structure Stays (activation after : Activation) : Prop where
  /-- The called function stays. -/
  function : after.function = activation.function
  /-- The instruction being executed stays. -/
  start : after.start = activation.start
  /-- The names of local variables stay. -/
  names : after.locals.names = activation.locals.names
  /-- The operand stack stays bounded. -/
  stack : activation.stack.length ≤ stackLimit → after.stack.length ≤ stackLimit
  /-- The position stays or is inside the function. -/
  next : after.next = activation.next ∨
    activation.function.body.start ≤ after.next ∧ after.next < activation.function.body.stop

/-- Nothing happens. -/
theorem Stays.refl (activation : Activation) : activation.Stays activation :=
  ⟨rfl, rfl, rfl, id, .inl rfl⟩

/-- One thing happens after the other. -/
theorem Stays.trans (first : activation.Stays middle) (second : middle.Stays after) :
    activation.Stays after := by
  refine ⟨second.function.trans first.function, second.start.trans first.start,
    second.names.trans first.names, fun bounded => second.stack (first.stack bounded), ?_⟩
  rcases second.next with same | inside
  · rw [same]
    exact first.next
  · rw [first.function] at inside
    exact .inr inside

/-- Writing a register. -/
theorem stays_setRegister {index : Nat} {value : Ref}
    (done : activation.setRegister index value = .ok after) : activation.Stays after := by
  unfold setRegister at done
  split at done
  · obtain rfl := Except.ok.inj done
    exact ⟨rfl, rfl, rfl, id, .inl rfl⟩
  · simp at done

/-- Writing a local variable. -/
theorem stays_setLocalValue {name : String} {value : Ref}
    (done : activation.setLocalValue name value = .ok after) : activation.Stays after := by
  unfold setLocalValue at done
  split at done
  · obtain rfl := Except.ok.inj done
    exact ⟨rfl, rfl, Table.names_replace _ _ _, id, .inl rfl⟩
  · simp at done

/-- Pushing an operand. -/
theorem stays_push {value : Ref} (done : activation.push value = .ok after) :
    activation.Stays after := by
  unfold push at done
  split at done
  · rename_i room
    obtain rfl := Except.ok.inj done
    exact ⟨rfl, rfl, rfl, fun _ => room, .inl rfl⟩
  · simp at done

/-- Popping an operand. -/
theorem stays_tail {value : Ref} {stack : List Ref} (top : activation.stack = value :: stack) :
    activation.Stays { activation with stack } := by
  refine ⟨rfl, rfl, rfl, ?_, .inl rfl⟩
  intro bounded
  rw [top, List.length_cons] at bounded
  exact Nat.le_of_succ_le bounded

/-- Popping an operand from outside. -/
theorem stays_pop {value : Ref} (done : activation.pop = .ok (value, after)) :
    activation.Stays after := by
  unfold pop at done
  split at done
  · simp at done
  · rename_i top stack operands
    obtain ⟨_, rfl⟩ := Prod.mk.inj (Except.ok.inj done)
    exact stays_tail operands

/-- Going on inside the function. -/
theorem stays_moveTo {offset : Nat} (low : activation.function.body.start ≤ offset)
    (high : offset < activation.function.body.stop) : activation.Stays (activation.moveTo offset) :=
  ⟨rfl, rfl, rfl, id, .inr ⟨low, high⟩⟩

/-- A call of an enclosed function is intact. -/
structure Intact (activation : Activation) : Prop where
  /-- The function lies inside its module. -/
  enclosed : activation.function.Enclosed
  /-- All registers are there. -/
  registers : activation.registers.toList.length = registerCount
  /-- The local variables are those of the function. -/
  locals : activation.locals.names = activation.function.body.locals
  /-- The operand stack is bounded. -/
  stack : activation.stack.length ≤ stackLimit
  /-- The next byte is not before the function and not beyond the code. -/
  next : activation.function.body.start ≤ activation.next ∧
    activation.next ≤ activation.function.module.code.size
  /-- The instruction is inside the function, unless the function is empty and its call has not
  begun. -/
  start : activation.function.body.start ≤ activation.start ∧
      activation.start < activation.function.body.stop ∨
    activation.function.body.start = activation.function.body.stop ∧
      activation.start = activation.function.body.start ∧
      activation.next = activation.function.body.start

/-- A new call is intact. -/
theorem intact_enter {function : ScriptFunction} (enclosed : function.Enclosed) :
    (enter function).Intact := by
  have range := enclosed.range
  refine ⟨enclosed, by simp, ?_, Nat.zero_le _, ⟨Nat.le_refl _, ?_⟩, ?_⟩
  · simp [enter, Table.names, Function.comp_def]
  · exact Nat.le_trans range enclosed.code
  · rcases Nat.eq_or_lt_of_le range with empty | proper
    · exact .inr ⟨empty, rfl, rfl⟩
    · exact .inl ⟨Nat.le_refl _, proper⟩

/-- A call stays intact. -/
theorem Intact.stays (intact : activation.Intact) (stays : activation.Stays after) :
    after.Intact := by
  have code := intact.enclosed.code
  refine ⟨?_, by simp, ?_, stays.stack intact.stack, ?_, ?_⟩
  · rw [stays.function]
    exact intact.enclosed
  · rw [stays.function, stays.names, intact.locals]
  · rw [stays.function]
    rcases stays.next with same | ⟨low, high⟩
    · rw [same]
      exact intact.next
    · exact ⟨low, by omega⟩
  · rw [stays.function, stays.start]
    rcases intact.start with inside | ⟨empty, first, here⟩
    · exact .inl inside
    · rcases stays.next with same | ⟨low, high⟩
      · exact .inr ⟨empty, first, same.trans here⟩
      · omega

/-- A call that goes on at a handler stays. -/
theorem Intact.stays_catch? (intact : activation.Intact) {kind : Kind} {className : Option String}
    (caught : activation.catch? kind className = some after) : activation.Stays after := by
  obtain ⟨target, found, rfl⟩ := Option.map_eq_some_iff.mp caught
  obtain ⟨low, high⟩ := intact.enclosed.handler found
  exact stays_moveTo low high

end Activation

namespace Frame

/-- A frame has no registers, no local variables, no operands and no position. -/
structure Bare (frame : Frame) : Prop where
  /-- There are no registers. -/
  registers : ∀ index, frame.register index = .error .indexOutOfRange
  /-- There are no local variables. -/
  locals : ∀ name, frame.localValue name = .error .keyDoesNotExist
  /-- There are no operands. -/
  stack : frame.stackLength = 0
  /-- There is no position in code. -/
  position : frame.activation? = none

/-- The call of a script function is intact; that of a host function is bare. -/
def Intact : Frame → Prop
  | .script _ activation => activation.Intact
  | .host id function => (Frame.host id function).Bare

/-- The call of a host function is intact. -/
theorem intact_host (id : Nat) (function : HostFunction) : (Frame.host id function).Intact :=
  ⟨fun _ => rfl, fun _ => rfl, rfl, rfl⟩

/-- A new frame is intact. -/
theorem intact_enter (id : Nat) {function : Function} (enclosed : function.Enclosed) :
    (enter id function).Intact := by
  cases function with
  | script function => exact Activation.intact_enter enclosed
  | host function => exact intact_host id function

/-- What identifies a frame: its number and its function. -/
def label (frame : Frame) : Nat × Function := (frame.id, frame.function)

/-- The label of a new frame. -/
@[simp] theorem label_enter (id : Nat) (function : Function) :
    (enter id function).label = (id, function) := by
  cases function <;> rfl

/-- A frame is another one after part of an instruction. -/
structure Stays (frame after : Frame) : Prop where
  /-- It is the same call. -/
  label : after.label = frame.label
  /-- It stays intact. -/
  intact : frame.Intact → after.Intact

/-- A change of a script call that leaves it where it was or inside its function. -/
theorem stays_script (id : Nat) {activation after : Activation}
    (stays : activation.Stays after) : (Frame.script id activation).Stays (.script id after) := by
  refine ⟨?_, fun intact => Activation.Intact.stays intact stays⟩
  simp only [label, Frame.id, Frame.function, stays.function]

/-- A change of a script call that may fail. -/
theorem stays_update {frame after : Frame} {otherwise : Error}
    {change : Activation → Except Error Activation}
    (stays : ∀ activation changed, change activation = .ok changed → activation.Stays changed)
    (done : frame.update otherwise change = .ok after) : frame.Stays after := by
  cases frame with
  | host id function => simp [update] at done
  | script id activation =>
    obtain ⟨changed, made, last⟩ := Except.bind_eq_ok done
    obtain rfl := Except.ok.inj last
    exact stays_script id (stays activation changed made)

/-- Popping an operand. -/
theorem stays_pop {frame after : Frame} {value : Ref} (done : frame.pop = .ok (value, after)) :
    frame.Stays after := by
  cases frame with
  | host id function => simp [pop] at done
  | script id activation =>
    obtain ⟨⟨operand, changed⟩, made, last⟩ := Except.bind_eq_ok done
    obtain ⟨_, rfl⟩ := Prod.mk.inj (Except.ok.inj last)
    exact stays_script id (Activation.stays_pop made)

/-- A frame that goes on at a handler stays. -/
theorem Intact.stays_catch? {frame after : Frame} (intact : frame.Intact) {kind : Kind}
    {className : Option String} (caught : frame.catch? kind className = some after) :
    frame.Stays after := by
  cases frame with
  | host id function => simp [catch?] at caught
  | script id activation =>
    obtain ⟨changed, made, rfl⟩ := Option.map_eq_some_iff.mp caught
    exact stays_script id (Activation.Intact.stays_catch? intact made)

end Frame

namespace Execution

variable {execution middle after : Execution}

/-- What identifies the calls of an execution, innermost first. -/
def labels (execution : Execution) : List (Nat × Function) := execution.frames.map Frame.label

/-- An execution is intact: it has all parameter registers, a bounded call stack of intact frames,
and frames are numbered upward from the bottom to the top. -/
structure Intact (execution : Execution) : Prop where
  /-- All parameter registers are there. -/
  parameters : execution.parameters.toList.length = parameterCount
  /-- The call stack is bounded. -/
  depth : execution.frames.length ≤ frameLimit
  /-- Its frames are intact. -/
  frames : ∀ frame ∈ execution.frames, frame.Intact
  /-- Inner frames have greater numbers than outer ones. -/
  ids : (execution.frames.map Frame.id).Pairwise fun inner outer => outer < inner
  /-- All numbers have been issued. -/
  issued : ∀ frame ∈ execution.frames, frame.id ≤ execution.issued

/-- An execution comes from another by dropping frames from the top and pushing frames with new
numbers. -/
structure Follows (execution after : Execution) : Prop where
  /-- Numbers are issued upward. -/
  issued : execution.issued ≤ after.issued
  /-- The call stack is made of new frames above some of the old ones. -/
  labels : ∃ fresh kept, after.labels = fresh ++ kept ∧
    (∀ label ∈ fresh, execution.issued < label.1) ∧ kept <:+ execution.labels

namespace Follows

/-- Nothing happens. -/
theorem refl (execution : Execution) : execution.Follows execution :=
  ⟨Nat.le_refl _, [], _, rfl, by simp, List.suffix_rfl⟩

/-- One thing happens after the other. What the second keeps either ends inside the frames of the
first or includes new ones. -/
theorem trans (first : execution.Follows middle) (second : middle.Follows after) :
    execution.Follows after := by
  obtain ⟨fresh, kept, shape, new, old⟩ := first.labels
  obtain ⟨fresh', kept', shape', new', old'⟩ := second.labels
  have newer : ∀ label ∈ fresh', execution.issued < label.1 :=
    fun label member => Nat.lt_of_le_of_lt first.issued (new' label member)
  refine ⟨Nat.le_trans first.issued second.issued, ?_⟩
  obtain ⟨dropped, whole⟩ := old'
  rw [shape] at whole
  rcases List.append_eq_append_iff.mp whole with ⟨part, rfl, rfl⟩ | ⟨part, -, rfl⟩
  · refine ⟨fresh' ++ part, kept, by rw [shape', List.append_assoc], ?_, old⟩
    intro label member
    rcases List.mem_append.mp member with later | earlier
    · exact newer label later
    · exact new label (List.mem_append_right _ earlier)
  · exact ⟨fresh', kept', shape', newer, (List.suffix_append part kept').trans old⟩

/-- The frames with old numbers are the kept ones. -/
theorem exists_kept (follows : execution.Follows after) : ∃ fresh kept,
    after.labels = fresh ++ kept ∧ kept <:+ execution.labels ∧
      ∀ frame ∈ after.frames, frame.id ≤ execution.issued → frame.label ∈ kept := by
  obtain ⟨fresh, kept, shape, new, suffix⟩ := follows.labels
  refine ⟨fresh, kept, shape, suffix, fun frame member known => ?_⟩
  have listed : frame.label ∈ fresh ++ kept := shape ▸ List.mem_map_of_mem member
  refine (List.mem_append.mp listed).resolve_left fun newer => ?_
  exact Nat.not_le_of_lt (new frame.label newer) known

end Follows

/-- An execution comes from another, and it is intact. -/
structure Continues (execution after : Execution) : Prop where
  /-- It is intact. -/
  intact : after.Intact
  /-- It comes from the other. -/
  follows : execution.Follows after

namespace Continues

/-- Nothing happens. -/
theorem refl (intact : execution.Intact) : execution.Continues execution :=
  ⟨intact, .refl execution⟩

/-- One thing happens after the other. -/
theorem trans (first : execution.Continues middle) (second : middle.Continues after) :
    execution.Continues after :=
  ⟨second.intact, first.follows.trans second.follows⟩

end Continues

namespace Intact

/-- Frames are dropped from the top, and the remaining ones stay intact. -/
theorem continues_dropped (intact : execution.Intact) (issued : after.issued = execution.issued)
    (labels : after.labels <:+ execution.labels) (frames : ∀ frame ∈ after.frames, frame.Intact) :
    execution.Continues after := by
  have ids : after.frames.map Frame.id <:+ execution.frames.map Frame.id := by
    have suffix := labels.map Prod.fst
    rwa [Execution.labels, Execution.labels, List.map_map, List.map_map] at suffix
  constructor
  · refine ⟨by simp, ?_, frames, intact.ids.sublist ids.sublist, ?_⟩
    · have fewer := ids.length_le
      rw [List.length_map, List.length_map] at fewer
      exact Nat.le_trans fewer intact.depth
    · intro frame member
      obtain ⟨old, inside, same⟩ := List.mem_map.mp (ids.subset (List.mem_map_of_mem member))
      rw [issued, ← same]
      exact intact.issued old inside
  · exact ⟨Nat.le_of_eq issued.symm, [], _, rfl, by simp, labels⟩

/-- The call stack stays, whatever happens to flags and parameters. -/
theorem continues_quiet (intact : execution.Intact) (frames : after.frames = execution.frames)
    (issued : after.issued = execution.issued) : execution.Continues after := by
  refine intact.continues_dropped issued ?_ ?_
  · rw [labels, frames]
    exact List.suffix_rfl
  · rw [frames]
    exact intact.frames

/-- Frames are dropped, and nothing else happens to the call stack. -/
theorem continues_suffix (intact : execution.Intact) (issued : after.issued = execution.issued)
    (suffix : after.frames <:+ execution.frames) : execution.Continues after :=
  intact.continues_dropped issued (suffix.map _)
    fun frame member => intact.frames frame (suffix.subset member)

/-- A frame changes in place. -/
theorem continues_setFrame (intact : execution.Intact) {depth : Nat} {frame changed : Frame}
    (found : execution.frame depth = .ok frame) (stays : frame.Stays changed) :
    execution.Continues (execution.setFrame depth changed) := by
  obtain ⟨inside, rfl⟩ := List.getElem?_eq_some_iff.mp (Error.orElse_eq_ok.mp found)
  refine intact.continues_dropped rfl ?_ ?_
  · have same : (execution.setFrame depth changed).labels = execution.labels := by
      have listed : depth < execution.labels.length := by simpa [labels] using inside
      have unchanged : execution.labels.set depth execution.labels[depth] = execution.labels :=
        List.set_getElem_self listed
      rw [labels, setFrame, List.map_set, stays.label]
      simpa [labels] using unchanged
    rw [same]
  · intro other member
    rcases List.mem_or_eq_of_mem_set member with earlier | rfl
    · exact intact.frames other earlier
    · exact stays.intact (intact.frames _ (List.getElem_mem inside))

/-- A call is pushed. -/
theorem continues_pushFrame (intact : execution.Intact) {function : Function} {id : Nat}
    (enclosed : function.Enclosed) (done : execution.pushFrame function = .ok (id, after)) :
    execution.Continues after ∧ id = execution.issued + 1 ∧
      after.labels = (id, function) :: execution.labels := by
  rw [pushFrame_eq] at done
  split at done
  · rename_i room
    obtain ⟨rfl, rfl⟩ := Prod.mk.inj (Except.ok.inj done)
    have top : Frame.id (Frame.enter (execution.issued + 1) function) = execution.issued + 1 := by
      cases function <;> rfl
    refine ⟨⟨⟨by simp, room, ?_, ?_, ?_⟩, Nat.le_succ _, [(execution.issued + 1, function)],
      execution.labels, by simp [labels], by simp, List.suffix_rfl⟩, rfl, by simp [labels]⟩
    · intro frame member
      rcases List.mem_cons.mp member with rfl | earlier
      · exact Frame.intact_enter _ enclosed
      · exact intact.frames frame earlier
    · rw [List.map_cons, List.pairwise_cons, top]
      refine ⟨?_, intact.ids⟩
      intro number member
      obtain ⟨frame, inside, rfl⟩ := List.mem_map.mp member
      exact Nat.lt_succ_of_le (intact.issued frame inside)
    · intro frame member
      rcases List.mem_cons.mp member with rfl | earlier
      · exact Nat.le_of_eq top
      · exact Nat.le_succ_of_le (intact.issued frame earlier)
  · simp at done

/-- The innermost call is popped. -/
theorem continues_popFrame (intact : execution.Intact) (done : execution.popFrame = .ok after) :
    execution.Continues after := by
  rw [popFrame_eq] at done
  split at done
  · simp at done
  · rename_i top frames stack
    obtain rfl := Except.ok.inj done
    exact intact.continues_suffix rfl ⟨[top], stack.symm⟩

/-- Everything but the count of frames is forgotten. -/
theorem continues_clear (intact : execution.Intact) : execution.Continues execution.clear :=
  intact.continues_suffix rfl List.nil_suffix

/-- An execution starts over. -/
theorem continues_restart (intact : execution.Intact) {entry : Function}
    (enclosed : entry.Enclosed) (done : execution.restart entry = .ok after) :
    execution.Continues after := by
  rw [restart_eq] at done
  obtain ⟨⟨id, pushed⟩, made, last⟩ := Except.bind_eq_ok done
  obtain rfl := Except.ok.inj last
  have cleared := intact.continues_clear
  exact cleared.trans (cleared.intact.continues_pushFrame enclosed made).1

/-- A finished execution is marked. -/
theorem continues_settle (intact : execution.Intact) : execution.Continues execution.settle := by
  unfold settle
  split
  · exact intact.continues_quiet rfl rfl
  · exact .refl intact

/-- Calls are dropped down to one that handles a raised value. -/
theorem unwind {kind : Kind} {className : Option String} {frames rest : List Frame}
    (intact : ∀ frame ∈ frames, frame.Intact)
    (caught : Execution.unwind kind className frames = some rest) :
    rest.map Frame.label <:+ frames.map Frame.label ∧ ∀ frame ∈ rest, frame.Intact := by
  induction frames with
  | nil => simp [Execution.unwind] at caught
  | cons first frames hypothesis =>
    have others : ∀ frame ∈ frames, frame.Intact :=
      fun frame member => intact frame (List.mem_cons_of_mem _ member)
    unfold Execution.unwind at caught
    split at caught
    · rename_i handling found
      obtain rfl := Option.some.inj caught
      have start := intact first List.mem_cons_self
      have stays := start.stays_catch? found
      refine ⟨?_, ?_⟩
      · rw [List.map_cons, List.map_cons, stays.label]
      · intro frame member
        rcases List.mem_cons.mp member with rfl | later
        · exact stays.intact start
        · exact others frame later
    · obtain ⟨labels, kept⟩ := hypothesis others caught
      exact ⟨labels.trans (List.suffix_cons _ _), kept⟩

/-- The call of a host function ends. -/
theorem continues_returnFrom (intact : execution.Intact) (id : Nat) :
    execution.Continues (execution.returnFrom id) := by
  unfold returnFrom
  split
  · rename_i top frames stack
    split
    · exact intact.continues_suffix rfl ⟨[top], stack.symm⟩
    · exact .refl intact
  · exact .refl intact

end Intact

/-- A new execution is intact. -/
theorem intact_new : ({} : Execution).Intact :=
  ⟨by simp, Nat.zero_le _, by simp, by simp, by simp⟩

/-- A frame that is on top again with its old number is the old frame, with all that was below: a
new frame would have a greater number, and a frame below a lower one. -/
theorem Follows.labels_eq (follows : execution.Follows after) (intact : execution.Intact)
    {old top : Frame} {below rest : List Frame} (before : execution.frames = old :: below)
    (stack : after.frames = top :: rest) (same : top.id = old.id) :
    after.labels = execution.labels := by
  obtain ⟨fresh, kept, shape, new, suffix⟩ := follows.labels
  have known : old.id ≤ execution.issued :=
    intact.issued old (before ▸ List.mem_cons_self)
  have head : after.labels = top.label :: rest.map Frame.label := by
    rw [Execution.labels, stack, List.map_cons]
  have none : fresh = [] := by
    cases fresh with
    | nil => rfl
    | cons first others =>
      rw [shape, List.cons_append] at head
      have greater := new first List.mem_cons_self
      rw [(List.cons.inj head).1] at greater
      have absurd : execution.issued < top.id := greater
      omega
  rw [none, List.nil_append] at shape
  rw [shape] at head ⊢
  have whole : execution.labels = old.label :: below.map Frame.label := by
    rw [Execution.labels, before, List.map_cons]
  rw [whole] at suffix ⊢
  rcases List.suffix_cons_iff.mp suffix with here | deeper
  · exact here
  · rw [head] at deeper
    obtain ⟨lower, member, label⟩ := List.mem_map.mp (deeper.subset List.mem_cons_self)
    have ids := intact.ids
    rw [before, List.map_cons, List.pairwise_cons] at ids
    have less := ids.1 lower.id (List.mem_map_of_mem member)
    have number : lower.id = top.id := congrArg Prod.fst label
    omega

/-- Ending a host call ends that very call: the frame that goes had its number and its function
when it was called, and below it is what was below it then. Otherwise nothing goes. -/
theorem returnFrom_cases (follows : execution.Follows after) (intact : execution.Intact) {id : Nat}
    {function : HostFunction} {below : List Frame}
    (called : execution.frames = .host id function :: below) :
    after.labels = execution.labels ∧
        after.returnFrom id = { after with frames := after.frames.tail } ∨
      (∀ frame ∈ after.frames.head?, frame.id ≠ id) ∧ after.returnFrom id = after := by
  cases stack : after.frames with
  | nil =>
    right
    simp [returnFrom, stack]
  | cons top rest =>
    by_cases same : top.id = id
    · left
      refine ⟨follows.labels_eq intact called stack same, ?_⟩
      simp [returnFrom, stack, same]
    · right
      simp [returnFrom, stack, same]

end Execution

end ScriptVm
