import ScriptVm.Proofs.Execution.Unwinding

/-!
# Operators as instructions and as built-in functions

An operator is applied by an instruction to registers of a call, or by a built-in function to
parameter registers, in a host call of its own. Both store a new value with the same payload, or
raise a new exception for the same fault, which the calls below them handle in the same way: a host
call has no handlers, and once it has been unwound no other call is taken for it.
-/
namespace ScriptVm

/-- A new value had not been handed out, and it stays what it is when it is marked. -/
theorem Machine.shown_allocate {machine : Machine} (orderly : machine.collector.Orderly)
    (result : Value) :
    let made := machine.allocate (.value result) false
    ¬machine.heap.Issued made.1 ∧
      (made.2.shade ⟨made.1⟩).heap.value? ⟨made.1⟩ = some result := by
  intro made
  have darkens := made.2.collector.darkens_shade made.1
  exact ⟨not_issued_allocate orderly (.value result) false,
    (darkens.value? _).trans (value?_allocate orderly result false)⟩

/-- The instruction for an operator stores a new value, or comes to the fault of the operator. -/
theorem Instruction.run_arithmetic {scene : Scene} {operator : Operator}
    {target left right : UInt32} {first second : Ref} {one two : Value}
    (inside : target.toNat < registerCount)
    (readLeft : scene.frame.register left.toNat = .ok first)
    (readRight : scene.frame.register right.toNat = .ok second)
    (shownLeft : scene.machine.heap.value? first = some one)
    (shownRight : scene.machine.heap.value? second = some two)
    (room : scene.machine.heap.hasRoom 1 = true) :
    (execute ⟨.arithmetic operator, target, left, right, ()⟩).run scene =
      match operator.apply one two with
      | .ok result =>
        .ok .proceed { scene with
          machine := (scene.machine.allocate (.value result) false).2.shade
            ⟨(scene.machine.allocate (.value result) false).1⟩
          frame := { scene.frame with
            registers := scene.frame.registers.setIfInBounds target.toNat
              ⟨(scene.machine.allocate (.value result) false).1⟩ } }
      | .error fault => .error fault scene := by
  have unfolded : (execute ⟨.arithmetic operator, target, left, right, ()⟩).run scene =
      (Step.register left >>= fun left => Step.register right >>= fun right =>
        Step.value left >>= fun one => Step.value right >>= fun two =>
          match operator.apply one two with
          | .ok result => Step.newValue result >>= fun value => Step.setRegister target value >>=
              fun _ => pure Outcome.proceed
          | .error fault => throw fault).run scene := rfl
  rw [unfolded, Step.run_bind, Step.run_register, Step.run_orFault, readLeft]
  dsimp only
  rw [Step.run_bind, Step.run_register, Step.run_orFault, readRight]
  dsimp only
  rw [Step.run_bind, Step.run_value, Step.run_found, shownLeft]
  dsimp only
  rw [Step.run_bind, Step.run_value, Step.run_found, shownRight]
  dsimp only
  cases operator.apply one two with
  | error fault => rfl
  | ok result =>
    dsimp only
    rw [Step.run_bind, Step.run_newValue, if_pos room]
    dsimp only
    rw [Step.run_bind, Step.run_setRegister, Activation.setRegister, if_pos inside]
    rfl

/-- The instruction for a call begins the call of the function that is registered under the
signature. -/
theorem Instruction.run_call {scene : Scene} {index : UInt32} {signature : String}
    {function : Function}
    (named : scene.frame.function.module.string index.toNat = .ok signature)
    (registered : scene.machine.registry.functions.find? signature = some function) :
    (execute ⟨.call, index, ()⟩).run scene = .ok (.call function) scene := by
  have unfolded : (execute ⟨.call, index, ()⟩).run scene =
      (Step.name index >>= fun name => Step.function name >>= fun function =>
        pure (Outcome.call function)).run scene := rfl
  rw [unfolded, Step.run_bind, Step.run_name, Step.run_orFault, named]
  dsimp only
  rw [Step.run_bind, Step.run_function, Step.run_found, registered]
  rfl

namespace Execution

variable {machine : Machine} {execution : Execution} {fault : Fault} {value : Ref}
  {kind : Kind} {className : Option String} {frames below : List Frame} {id number : Nat}
  {activation : Activation}

/-- An execution after a value has been raised, by the calls that unwinding leaves. -/
def landing (execution : Execution) (value : Ref) : Option (List Frame) → Execution
  | some frames => { execution.setResult value with frames }
  | none => { execution.setResult value with
      frames := [], flags := { execution.flags with exception := true } }

/-- A raised value unwinds the call stack by what handlers look at in it. -/
theorem raise_eq (thrown : machine.thrown value = (kind, className)) :
    (execution.raise machine value .normal).2 =
      execution.landing value (unwind kind className execution.frames) := by
  have asked : (machine.shade value).thrown value = (kind, className) :=
    (machine.thrown_shade value value).trans thrown
  have frames : (execution.setResult value).frames = execution.frames := rfl
  simp only [raise, asked, frames]
  cases unwind kind className execution.frames <;> rfl

/-- The exception of a fault unwinds the call stack by the class of the fault. -/
theorem Throws.execution_eq {state : Machine × Execution}
    (throws : execution.Throws machine fault value state) :
    state.2 = execution.landing value
      (unwind .object (some fault.exception.name) execution.frames) := by
  obtain ⟨thrown, rfl⟩ := throws.raised
  refine raise_eq ?_
  have shown := throws.excepts.thrown
  unfold Machine.thrown at shown
  rw [heap_raise] at shown
  exact (thrown.thrown_shade value value).symm.trans shown

/-- Unwinding does not leave an empty call stack. -/
theorem exists_cons_of_unwind {rest : List Frame}
    (unwound : unwind kind className frames = some rest) :
    ∃ top others, rest = top :: others := by
  induction frames with
  | nil => simp [unwind] at unwound
  | cons frame frames hypothesis =>
    unfold unwind at unwound
    split at unwound
    · exact ⟨_, _, (Option.some.inj unwound).symm⟩
    · exact hypothesis unwound

/-- A raised value leaves a settled execution. -/
theorem settle_landing (execution : Execution) (value : Ref) (kind : Kind)
    (className : Option String) (frames : List Frame) :
    (execution.landing value (unwind kind className frames)).settle =
      execution.landing value (unwind kind className frames) := by
  cases unwound : unwind kind className frames with
  | none => simp [landing, settle]
  | some rest =>
    obtain ⟨top, others, rfl⟩ := exists_cons_of_unwind unwound
    exact settle_of_cons rfl

/-- The raised value is in the first parameter register. -/
theorem parameter_landing (execution : Execution) (value : Ref) (rest : Option (List Frame)) :
    (execution.landing value rest).parameter 0 = .ok value := by
  cases rest <;> exact parameter_setResult execution value

/-- A host call that has been unwound ends no other call. -/
theorem returnFrom_landing (older : ∀ frame ∈ frames, frame.id < id) :
    (execution.landing value (unwind kind className frames)).returnFrom id =
      execution.landing value (unwind kind className frames) := by
  cases unwound : unwind kind className frames with
  | none => rfl
  | some rest =>
    obtain ⟨top, others, rfl⟩ := exists_cons_of_unwind unwound
    have known := (labels_unwind unwound).subset List.mem_cons_self
    obtain ⟨frame, member, same⟩ := List.mem_map.mp known
    have number : frame.id = top.id := congrArg Prod.fst same
    have other : top.id ≠ id := number ▸ (older frame member).ne
    simp only [landing, returnFrom, if_neg other]

/-- Two executions go on at the same handler for an exception of a class. They had different calls
on top, with the same number and at the same offset of the same function body, and the same calls
below. -/
inductive SameHandler (className : String) (number : Nat) (caller twin : Activation)
    (below : List Frame) (called computed : Execution) : Prop where
  /-- The handler is one of the calls on top. -/
  | here {offset : Nat}
    (handles : caller.function.body.findHandler? caller.start .object (some className) =
      some offset)
    (calls : called.frames = .script number (caller.moveTo offset) :: below)
    (computes : computed.frames = .script number (twin.moveTo offset) :: below)
  /-- The handler is one of the calls below, to which both are unwound. -/
  | under {rest : List Frame}
    (passes : caller.function.body.findHandler? caller.start .object (some className) = none)
    (unwound : unwind .object (some className) below = some rest)
    (calls : called.frames = rest) (computes : computed.frames = rest)
  /-- There is no handler, and the exception ends both. -/
  | nowhere
    (passes : caller.function.body.findHandler? caller.start .object (some className) = none)
    (unhandled : unwind .object (some className) below = none)
    (calls : called.frames = [] ∧ called.flags.exception = true)
    (computes : computed.frames = [] ∧ computed.flags.exception = true)

/-- A call with a handler around its instruction goes on at it, and otherwise the calls below are
unwound. -/
theorem unwind_script (number : Nat) (activation : Activation) (below : List Frame) (kind : Kind)
    (className : Option String) :
    unwind kind className (.script number activation :: below) =
      match activation.function.body.findHandler? activation.start kind className with
      | some offset => some (.script number (activation.moveTo offset) :: below)
      | none => unwind kind className below := by
  have caught : (Frame.script number activation).catch? kind className =
      (activation.function.body.findHandler? activation.start kind className).map
        fun offset => .script number (activation.moveTo offset) := by
    show ((activation.function.body.findHandler? activation.start kind className).map _).map _ = _
    rw [Option.map_map]
    rfl
  rw [unwind, caught]
  cases activation.function.body.findHandler? activation.start kind className <;> rfl

/-- Exceptions of one class are handled alike in calls with one body at one offset. -/
theorem sameHandler_landing {className : String} {caller twin : Activation}
    (body : twin.function.body = caller.function.body) (start : twin.start = caller.start)
    (called computed : Execution) (value other : Ref) :
    SameHandler className number caller twin below
      (called.landing value (unwind .object (some className) (.script number caller :: below)))
      (computed.landing other
        (unwind .object (some className) (.script number twin :: below))) := by
  rw [unwind_script, unwind_script, body, start]
  cases handles : caller.function.body.findHandler? caller.start .object (some className) with
  | some offset => exact .here handles rfl rfl
  | none =>
    cases unwound : unwind .object (some className) below with
    | some rest => exact .under handles unwound rfl rfl
    | none => exact .nowhere handles unwound ⟨rfl, rfl⟩ ⟨rfl, rfl⟩

/-- The turn of a call instruction pushes the call of the registered function. -/
theorem turned_call (stack : execution.frames = .script number activation :: below)
    (short : execution.frames.length < frameLimit) {index : UInt32} {following : Nat}
    (fetched : activation.fetch? = some (⟨.call, index, ()⟩, following)) {signature : String}
    (named : activation.function.module.string index.toNat = .ok signature) {function : Function}
    (registered : machine.registry.functions.find? signature = some function) :
    execution.turned machine = (machine.note (.dispatched activation.next .call), { execution with
      frames := Frame.enter (execution.issued + 1) function ::
        .script number (activation.begun.moveTo following) :: below
      issued := execution.issued + 1 }) := by
  have runs : (Instruction.execute ⟨.call, index, ()⟩).run
      (execution.scene (machine.note (.dispatched activation.next .call))
        (activation.begun.moveTo following)) = .ok (.call function) _ :=
    Instruction.run_call named registered
  have room : (execution.withScene number below (execution.scene
      (machine.note (.dispatched activation.next .call))
        (activation.begun.moveTo following))).frames.length < frameLimit := by
    rw [stack] at short
    exact short
  have attempted : execution.attempt machine = _ := attempt_of_fetch? stack fetched
  simp only [attemptInstruction, attemptEffect, runs, attemptOutcome, pushFrame_eq, if_pos room]
    at attempted
  rw [turned_of_attempt_ok stack attempted, settle_of_cons rfl]
  rfl

/-- What applying an operator comes to. A new value with the result is stored, or a new exception
for the fault of the operator is raised in an execution. -/
inductive Applies (earlier : Machine) (store : Ref → Execution) (raising : Execution) :
    Except Fault Value → Machine × Execution → Prop where
  /-- There is a result. -/
  | stores {result : Value} {value : Ref} {machine : Machine}
    (fresh : ¬earlier.heap.Issued value.handle)
    (shown : machine.heap.value? value = some result) :
    Applies earlier store raising (.ok result) (machine, store value)
  /-- There is a fault. -/
  | raises {fault : Fault} {value : Ref} {machine : Machine}
    (excepts : earlier.Excepts fault value machine) :
    Applies earlier store raising (.error fault) (machine, raising.landing value
      (unwind .object (some fault.exception.name) raising.frames))

/-- Applying an operator comes to the same whatever machine had the same heap before. -/
theorem Applies.of_heap {earlier other : Machine} (same : earlier.heap = other.heap)
    {store : Ref → Execution} {raising : Execution} {result : Except Fault Value}
    {state : Machine × Execution} (applies : Applies earlier store raising result state) :
    Applies other store raising result state := by
  cases applies with
  | stores fresh shown => exact .stores (same ▸ fresh) shown
  | raises excepts => exact .raises ⟨same ▸ excepts.fresh, same ▸ excepts.made⟩

variable {operator : Operator} {first second : Ref} {one two : Value}

/-- The value in a parameter register that holds one. -/
theorem operand_eq {index : Nat} {reference : Ref} {content : Value}
    (held : execution.parameter index = .ok reference)
    (shown : machine.heap.value? reference = some content) :
    execution.operand machine index = .ok content := by
  simp only [operand, held, shown]

/-- The turn of a host call of an operator applies it to the first parameter registers. The call
ends with it, or has been unwound. -/
theorem turned_operator {function : HostFunction} {waiting : Frame} {below : List Frame}
    (stack : execution.frames = .host id function :: waiting :: below)
    (older : ∀ frame ∈ waiting :: below, frame.id < id)
    (bound : machine.registry.routine? function = some (.operator operator))
    (held : execution.parameter 0 = .ok first) (held' : execution.parameter 1 = .ok second)
    (shown : machine.heap.value? first = some one) (shown' : machine.heap.value? second = some two)
    (standard : machine.Standard) (orderly : machine.collector.Orderly)
    (room : machine.heap.hasRoom (1 + Machine.instanceSize) = true) :
    Applies machine
      (fun value => { execution.setResult value with frames := waiting :: below })
      { execution with frames := waiting :: below } (operator.apply one two)
      (execution.turned machine) := by
  have result : execution.routineResult machine (.operator operator) = operator.apply one two := by
    simp only [routineResult, operand_eq held shown, operand_eq held' shown']
    rfl
  have enough : machine.heap.hasRoom 1 = true := Heap.hasRoom_of_le (by decide) room
  simp only [turned, stack, bound, result]
  cases operator.apply one two with
  | ok result =>
    have ended : ∀ value, ((execution.setResult value).returnFrom id).settle =
        { execution.setResult value with frames := waiting :: below } := by
      intro value
      simp [returnFrom, setResult, stack, Frame.id, settle]
    obtain ⟨fresh, stored⟩ := Machine.shown_allocate orderly result
    simp only [finishRoutine_eq, Machine.newValue, if_pos enough, ended]
    exact .stores fresh stored
  | error fault =>
    obtain ⟨value, throws⟩ := throws_raiseFault standard orderly room execution fault
    have template := standard.exceptionTemplate_eq fault.exception
    rw [if_pos room] at template
    have same : execution.finishRoutine machine (.error fault) =
        execution.raiseFault machine fault := by
      simp only [finishRoutine_eq, raiseFault_eq, template]
    have unwound : unwind .object (some fault.exception.name) execution.frames =
        unwind .object (some fault.exception.name) (waiting :: below) := by
      rw [stack]
      rfl
    simp only [same, throws.execution_eq, unwound, returnFrom_landing older, settle_landing]
    exact .raises throws.excepts

/-- The turn of an instruction for an operator applies it to registers. -/
theorem turned_arithmetic (stack : execution.frames = .script number activation :: below)
    {target left right : UInt32} {following : Nat}
    (fetched : activation.fetch? =
      some (⟨.arithmetic operator, target, left, right, ()⟩, following))
    (inside : target.toNat < registerCount)
    (held : activation.register left.toNat = .ok first)
    (held' : activation.register right.toNat = .ok second)
    (shown : machine.heap.value? first = some one) (shown' : machine.heap.value? second = some two)
    (standard : machine.Standard) (orderly : machine.collector.Orderly)
    (room : machine.heap.hasRoom (1 + Machine.instanceSize) = true) :
    Applies machine
      (fun value => { execution with
        frames := .script number { activation.begun.moveTo following with
          registers := activation.registers.setIfInBounds target.toNat value } :: below })
      { execution with frames := .script number (activation.begun.moveTo following) :: below }
      (operator.apply one two) (execution.turned machine) := by
  let event : Event := .dispatched activation.next (.arithmetic operator)
  let scene := execution.scene (machine.note event) (activation.begun.moveTo following)
  have enough : scene.machine.heap.hasRoom 1 = true := Heap.hasRoom_of_le (by decide) room
  have runs : (Instruction.execute ⟨.arithmetic operator, target, left, right, ()⟩).run scene = _ :=
    Instruction.run_arithmetic inside held held' shown shown' enough
  have attempted : execution.attempt machine = _ := attempt_of_fetch? stack fetched
  rw [attemptInstruction, attemptEffect, runs] at attempted
  cases applied : operator.apply one two with
  | ok result =>
    simp only [applied] at attempted
    rw [turned_of_attempt_ok stack attempted, settle_of_cons rfl]
    have noted : (machine.note event).collector.Orderly := orderly
    obtain ⟨fresh, stored⟩ := Machine.shown_allocate noted result
    exact .stores fresh stored
  | error fault =>
    simp only [applied] at attempted
    obtain ⟨value, state, throws, turned⟩ :=
      (Faults.instruction attempted).throws standard orderly room
    rw [turned, throws.execution_eq, settle_landing]
    have excepts : machine.Excepts fault value state.1 :=
      ⟨throws.excepts.fresh, throws.excepts.made⟩
    exact .raises excepts

end Execution

end ScriptVm
