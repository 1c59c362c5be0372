import ScriptVm.Proofs.Execution.Checks
import ScriptVm.Proofs.Step.Keeping
import ScriptVm.Proofs.Step.Layout

/-!
# What executions keep

Raising, instructions, routines and changes from outside keep what is known by name, leave the
execution intact, and change its call stack only by dropping frames from the top and by pushing
frames with new numbers. An instruction is fetched from inside the function of the innermost call.
-/
namespace ScriptVm.Execution

variable {machine : Machine} {execution : Execution} {state : Machine × Execution}

/-- A machine and an execution come from others: what is known by name stays, and the execution goes
on. -/
structure Keeps (before after : Machine × Execution) : Prop where
  /-- The machine. -/
  machine : before.1.Keeps Function.Enclosed after.1
  /-- The execution. -/
  execution : before.2.Continues after.2

namespace Keeps

/-- One thing happens after the other. -/
theorem trans {first second third : Machine × Execution} (start : Keeps first second)
    (next : Keeps second third) : Keeps first third :=
  ⟨start.machine.trans next.machine, start.execution.trans next.execution⟩

end Keeps

/-- Nothing happens to the call stack, and the machine does its part. -/
theorem Intact.keeps_quiet (intact : execution.Intact) {after : Machine} {changed : Execution}
    (keeps : machine.Keeps Function.Enclosed after) (frames : changed.frames = execution.frames)
    (issued : changed.issued = execution.issued) : Keeps (machine, execution) (after, changed) :=
  ⟨keeps, intact.continues_quiet frames issued⟩

section

variable (stocked : machine.Stocked Function.Enclosed) (intact : execution.Intact)

include stocked intact

/-- Nothing happens. -/
theorem keeps_refl : Keeps (machine, execution) (machine, execution) :=
  ⟨.refl stocked, .refl intact⟩

/-- Raising a value. -/
theorem keeps_raise (value : Ref) (severity : Severity) :
    Keeps (machine, execution) (execution.raise machine value severity) := by
  have shaded := stocked.keeps_shade value
  have noted : ∀ event, machine.Keeps Function.Enclosed ((machine.shade value).note event) :=
    fun event => shaded.trans (shaded.stocked.keeps_same rfl rfl)
  cases severity with
  | fatal => exact intact.keeps_quiet (noted _) rfl rfl
  | normal =>
    simp only [raise]
    split
    · rename_i frames caught
      obtain ⟨labels, kept⟩ := Intact.unwind intact.frames caught
      exact ⟨shaded, intact.continues_dropped rfl labels kept⟩
    · exact ⟨noted _, intact.continues_suffix rfl List.nil_suffix⟩

/-- Raising a new exception. -/
theorem keeps_raiseNew (template : Object × Nat) (message : String) :
    Keeps (machine, execution) (execution.raiseNew machine template message) := by
  have made := stocked.keeps_newException template message false
  have raised := keeps_raise made.stocked intact (machine.newException template message false).1
    .normal
  exact ⟨made.trans raised.machine, raised.execution⟩

/-- Raising the exception of a fault. -/
theorem keeps_raiseFault (fault : Fault) :
    Keeps (machine, execution) (execution.raiseFault machine fault) := by
  rw [raiseFault_eq]
  split
  · exact keeps_raiseNew stocked intact _ _
  · rename_i error _
    have unbuilt := stocked.keeps_left_newException fault.exception fault.message false
    have noted : machine.Keeps Function.Enclosed
        (((Work.newException fault.exception fault.message false).left machine).note
          (.exceptionUnbuilt fault error)) :=
      unbuilt.trans (unbuilt.stocked.keeps_same rfl rfl)
    have raised := keeps_raise noted.stocked intact Ref.null .fatal
    exact ⟨noted.trans raised.machine, raised.execution⟩

/-- Reporting a fault and raising it. -/
theorem keeps_fail (fault : Fault) :
    Keeps (machine, execution) (execution.fail machine fault) := by
  have noted : machine.Keeps Function.Enclosed (machine.note (.faulted fault)) :=
    stocked.keeps_same rfl rfl
  have raised := keeps_raiseFault noted.stocked intact fault
  exact ⟨noted.trans raised.machine, raised.execution⟩

/-- Raising a standard exception from outside, or what is left of it. -/
theorem keeps_raiseException (exception : ExceptionClass) (message : String) :
    Keeps (machine, execution)
      ((Work.raiseException exception message).left (machine, execution)) := by
  unfold Work.left
  rw [outcome_raiseException]
  split
  · exact keeps_raiseNew stocked intact _ message
  · have unbuilt := stocked.keeps_left_newException exception message false
    exact intact.keeps_quiet unbuilt rfl rfl

/-- Raising a value from outside. -/
theorem keeps_raiseValue {value : Ref} {severity : Severity}
    (done : execution.raiseValue machine value severity = .ok state) :
    Keeps (machine, execution) state := by
  rw [raiseValue_eq] at done
  split at done
  · obtain rfl := Except.ok.inj done
    exact keeps_raise stocked intact value severity
  · simp at done

/-- Writing a parameter register. -/
theorem keeps_setParameter {index : Nat} {value : Ref}
    (done : execution.setParameter machine index value = .ok state) :
    Keeps (machine, execution) state := by
  rw [setParameter_eq] at done
  split at done
  · obtain rfl := Except.ok.inj done
    exact intact.keeps_quiet (stocked.keeps_shade value) rfl rfl
  · simp at done

/-- Storing into a frame. -/
theorem keeps_storeInFrame {depth : Nat} {value : Ref} {store : Frame → Except Error Frame}
    (stays : ∀ frame changed, store frame = .ok changed → frame.Stays changed)
    (done : execution.storeInFrame machine depth value store = .ok state) :
    Keeps (machine, execution) state := by
  rw [storeInFrame_eq] at done
  obtain ⟨frame, found, rest⟩ := Except.bind_eq_ok done
  obtain ⟨changed, stored, last⟩ := Except.bind_eq_ok rest
  obtain rfl := Except.ok.inj last
  exact ⟨stocked.keeps_shade value, intact.continues_setFrame found (stays frame changed stored)⟩

/-- Popping an operand. -/
theorem keeps_pop {depth : Nat} {value : Ref} {after : Execution}
    (done : execution.pop depth = .ok (value, after)) :
    Keeps (machine, execution) (machine, after) := by
  rw [pop_eq] at done
  obtain ⟨frame, found, rest⟩ := Except.bind_eq_ok done
  obtain ⟨⟨operand, changed⟩, popped, last⟩ := Except.bind_eq_ok rest
  obtain ⟨_, rfl⟩ := Prod.mk.inj (Except.ok.inj last)
  exact ⟨.refl stocked, intact.continues_setFrame found (Frame.stays_pop popped)⟩

/-- The result of a routine is stored, or its fault is raised. -/
theorem keeps_finishRoutine {result : Except Fault Value}
    (plain : ∀ value, result = .ok value → value.Plain) :
    Keeps (machine, execution) (execution.finishRoutine machine result) := by
  rw [finishRoutine_eq]
  split
  · rename_i value
    have made : machine.Keeps Function.Enclosed (machine.newValue value false).2 :=
      stocked.keeps_newValue false fun function same =>
        absurd same ((plain value rfl).ne_function function)
    exact intact.keeps_quiet (made.shade _) rfl rfl
  · split
    · exact keeps_raiseNew stocked intact _ _
    · rename_i fault _ _ _
      have unbuilt := stocked.keeps_left_newException fault.exception fault.message false
      exact intact.keeps_quiet (unbuilt.trans (unbuilt.stocked.keeps_same rfl rfl)) rfl rfl

/-- Going on after an instruction. -/
theorem keeps_proceed {outcome : Outcome}
    (fine : ∀ function, outcome = .call function → function.Enclosed) :
    Keeps (machine, execution) (execution.proceed machine outcome) := by
  cases outcome with
  | proceed => exact keeps_refl stocked intact
  | leave => exact ⟨.refl stocked, intact.continues_suffix rfl (List.tail_suffix _)⟩
  | call function =>
    simp only [proceed]
    split
    · rename_i pushed
      exact ⟨.refl stocked, (intact.continues_pushFrame (fine function rfl) pushed).1⟩
    · exact keeps_fail stocked intact _
    · exact keeps_fail stocked intact _
  | raise value => exact keeps_raise stocked intact value .normal
  | yield | abort => exact intact.keeps_quiet (.refl stocked) rfl rfl

end

/-- The innermost call of an intact execution is intact. -/
theorem Intact.top (intact : execution.Intact) {id : Nat} {activation : Activation}
    {below : List Frame} (stack : execution.frames = .script id activation :: below) :
    activation.Intact := by
  have member : Frame.script id activation ∈ execution.frames := by
    rw [stack]
    exact List.mem_cons_self
  exact intact.frames _ member

/-- A frame on top is replaced by the same call at another position. -/
theorem Intact.continues_top (intact : execution.Intact) {id : Nat} {activation after : Activation}
    {below : List Frame} (stack : execution.frames = .script id activation :: below)
    (function : after.function = activation.function) (fine : after.Intact) {changed : Execution}
    (frames : changed.frames = .script id after :: below)
    (issued : changed.issued = execution.issued) : execution.Continues changed := by
  refine intact.continues_dropped issued ?_ ?_
  · rw [labels, labels, frames, stack, List.map_cons, List.map_cons]
    simp only [Frame.label, Frame.id, Frame.function, function]
    exact List.suffix_rfl
  · intro frame member
    rw [frames] at member
    rcases List.mem_cons.mp member with rfl | lower
    · exact fine
    · exact intact.frames frame (stack ▸ List.mem_cons_of_mem _ lower)

/-- Executing an instruction of a call. -/
theorem keeps_perform (stocked : machine.Stocked Function.Enclosed) (intact : execution.Intact)
    {id : Nat} {activation frame : Activation} {below : List Frame}
    (stack : execution.frames = .script id activation :: below)
    (function : frame.function = activation.function) (fine : frame.Intact)
    (instruction : Instruction UInt32) :
    Keeps (machine, execution) (execution.perform machine id frame below instruction.execute) := by
  have keeps : Step.Keeps Function.Enclosed instruction.execute (execution.scene machine frame)
      (Instruction.enters Function.Enclosed) :=
    Instruction.keeps_execute stocked instruction
  have staged : ∀ scene, (execution.scene machine frame).Keeps Function.Enclosed scene →
      Keeps (machine, execution) (scene.machine, execution.withScene id below scene) := by
    intro scene kept
    have same : scene.frame.function = frame.function := kept.frame.function
    exact ⟨kept.machine, intact.continues_top stack (same.trans function)
      (fine.stays kept.frame) rfl rfl⟩
  unfold Step.Keeps at keeps
  unfold perform
  split
  · rename_i outcome scene run
    rw [run] at keeps
    have kept := staged scene keeps.1
    refine kept.trans (keeps_proceed kept.machine.stocked kept.execution.intact ?_)
    rintro called rfl
    exact keeps.2
  · rename_i fault scene run
    rw [run] at keeps
    have kept := staged scene keeps
    exact kept.trans (keeps_fail kept.machine.stocked kept.execution.intact fault)

/-- Executing the instruction at the position of a call. -/
theorem keeps_dispatchAt (stocked : machine.Stocked Function.Enclosed) (intact : execution.Intact)
    {id : Nat} {activation frame : Activation} {below : List Frame}
    (stack : execution.frames = .script id activation :: below)
    (function : frame.function = activation.function) (fine : frame.Intact)
    (here : frame.start = frame.next) (inside : frame.next < frame.function.body.stop) :
    Keeps (machine, execution) (execution.dispatchAt machine id frame below) := by
  have begun : Keeps (machine, execution)
      (machine, { execution with frames := .script id frame :: below }) :=
    ⟨.refl stocked, intact.continues_top stack function fine rfl rfl⟩
  refine begun.trans ?_
  rw [dispatchAt_by_table]
  dsimp only
  split
  · exact keeps_fail stocked begun.execution.intact _
  · rename_i byte cursor fetched
    split
    · exact keeps_fail stocked begun.execution.intact _
    · rename_i opcode known
      have noted : machine.Keeps Function.Enclosed
          (machine.note (.dispatched frame.start opcode)) :=
        stocked.keeps_same rfl rfl
      have reported : Keeps (machine, { execution with frames := .script id frame :: below })
          (machine.note (.dispatched frame.start opcode),
            { execution with frames := .script id frame :: below }) :=
        begun.execution.intact.keeps_quiet noted rfl rfl
      refine reported.trans ?_
      split
      · exact keeps_fail noted.stocked begun.execution.intact _
      · rename_i operands last decoded
        have forward := (Cursor.forward_byte? fetched).trans (Operands.forward_decode decoded)
        have moved : (frame.moveTo last.next).Intact := by
          obtain ⟨low, high⟩ := fine.next
          have next : frame.next ≤ last.next := forward.next
          refine ⟨fine.enclosed, by simp, fine.locals, fine.stack,
            ⟨Nat.le_trans low next, forward.inside high⟩, .inl ?_⟩
          rw [← here] at low inside
          exact ⟨low, inside⟩
        have top : ({ execution with frames := .script id frame :: below } : Execution).frames =
          .script id frame :: below := rfl
        have same : (frame.moveTo last.next).function = frame.function := rfl
        exact keeps_perform noted.stocked begun.execution.intact top same moved _

/-- One instruction of the innermost call: the call returns at its end, and otherwise the byte of
the instruction is fetched from inside the function. -/
theorem Intact.dispatch_cases (intact : execution.Intact) (machine : Machine) {id : Nat}
    {activation : Activation} {below : List Frame}
    (stack : execution.frames = .script id activation :: below) :
    activation.function.body.stop ≤ activation.next ∧
        execution.dispatch machine = (machine, { execution with frames := below }) ∨
      activation.function.body.start ≤ activation.next ∧
        activation.next < activation.function.body.stop ∧
        (∃ byte, activation.function.module.code[activation.next]? = some byte ∧
          (Cursor.ofOffset activation.function.module.code activation.next).byte? =
            some (byte, ⟨activation.function.module.code, activation.next + 1, activation.next⟩)) ∧
        execution.dispatch machine =
          execution.dispatchAt machine id { activation with start := activation.next } below := by
  have fine := intact.top stack
  by_cases done : activation.function.body.stop ≤ activation.next
  · left
    simp [dispatch, stack, done]
  · right
    have within : activation.next < activation.function.module.code.size :=
      Nat.lt_of_lt_of_le (Nat.not_le.mp done) fine.enclosed.code
    refine ⟨fine.next.1, Nat.not_le.mp done, ⟨activation.function.module.code[activation.next],
      Array.getElem?_eq_getElem within, ?_⟩, by simp [dispatch, stack, done]⟩
    exact Cursor.byte?_eq_some (Array.getElem?_eq_getElem within)

/-- One instruction of the innermost call. -/
theorem keeps_dispatch (stocked : machine.Stocked Function.Enclosed) (intact : execution.Intact)
    {id : Nat} {activation : Activation} {below : List Frame}
    (stack : execution.frames = .script id activation :: below) :
    Keeps (machine, execution) (execution.dispatch machine) := by
  have fine := intact.top stack
  rcases intact.dispatch_cases machine stack with ⟨_, returns⟩ | ⟨low, high, _, goes⟩
  · rw [returns]
    exact ⟨.refl stocked, intact.continues_suffix rfl ⟨[_], stack.symm⟩⟩
  · rw [goes]
    have begins : ({ activation with start := activation.next } : Activation).Intact :=
      ⟨fine.enclosed, by simp, fine.locals, fine.stack, fine.next, .inl ⟨low, high⟩⟩
    exact keeps_dispatchAt stocked intact stack rfl begins rfl high

end ScriptVm.Execution
