import ScriptVm.Proofs.Execution.Attempts
import ScriptVm.Proofs.Execution.Turns
import ScriptVm.Proofs.Step.Edits

/-!
# Edits of the heap by turns

Whatever a turn of an execution does to the machine, it comes down to edits of the heap. Raising a
fault needs the object types of standard exceptions to be in place.
-/
namespace ScriptVm

namespace Instruction

open Step (Reads always)

/-- The scene that a run leaves, whether it faults or not. -/
def left {α : Type} : EStateM.Result Fault Scene α → Scene
  | .ok _ after => after
  | .error _ after => after

/-- The rest of a part after something was looked up leaves what it does by itself. -/
theorem edits_bind_reads {α β : Type} {first : Step α} {second : α → Step β} {middle : α → Prop}
    {scene : Scene} (start : first.Reads middle)
    (next : ∀ value, scene.machine.Edits (left ((second value).run scene)).machine) :
    scene.machine.Edits (left ((first >>= second).run scene)).machine := by
  rw [Step.run_bind]
  rcases start scene with ⟨value, goes, -⟩ | ⟨fault, stops⟩
  · rw [goes]
    exact next value
  · rw [stops]
    exact .refl _

/-- Branching leaves the machine. -/
theorem edits_jump (scene : Scene) (distance : Distance) :
    scene.machine.Edits
      (left ((jump distance >>= fun _ => pure Outcome.proceed).run scene)).machine := by
  have run := run_jump scene distance
  split at run <;> rw [Step.run_bind, run] <;> exact .refl _

/-- Every instruction edits the machine. -/
theorem edits_run (instruction : Instruction UInt32) (scene : Scene) :
    scene.machine.Edits (left (instruction.execute.run scene)).machine := by
  cases branches : instruction.opcode.branches with
  | false =>
    have edits : instruction.execute.Edits scene instruction.opcode.Ends :=
      edits_execute instruction branches
    unfold Step.Edits at edits
    cases goes : instruction.execute.run scene with
    | ok outcome after =>
      rw [goes] at edits
      exact edits.1.machine
    | error fault after =>
      rw [goes] at edits
      exact edits.machine
  | true =>
    match instruction with
    | ⟨.branch, distance, ()⟩ => exact edits_jump scene distance
    | ⟨.branchIf expected, source, distance, ()⟩ =>
      refine edits_bind_reads (Step.reads_register source) fun reference => ?_
      refine edits_bind_reads (Step.reads_value reference) fun content => ?_
      refine edits_bind_reads (Step.reads_found _ _) fun condition => ?_
      dsimp only
      split
      · exact edits_jump scene distance
      · exact .refl _

end Instruction

namespace Execution

variable {machine : Machine} {execution : Execution}

/-- Reporting an event leaves everything else. -/
theorem edits_note (machine : Machine) (event : Event) : machine.Edits (machine.note event) :=
  .of_same rfl rfl

/-- Raising a value. -/
theorem edits_raise (machine : Machine) (execution : Execution) (value : Ref)
    (severity : Severity) : machine.Edits (execution.raise machine value severity).1 := by
  have shaded : machine.Edits (machine.shade value) := (Machine.Edits.refl machine).shade value
  cases severity with
  | fatal => exact shaded.trans (.of_same rfl rfl)
  | normal =>
    simp only [raise]
    split
    · exact shaded
    · exact shaded.trans (.of_same rfl rfl)

/-- Raising a new exception. -/
theorem edits_raiseNew (standard : machine.Standard) (orderly : machine.collector.Orderly)
    {exception : ExceptionClass} {template : Object × Nat}
    (made : machine.exceptionTemplate exception = .ok template) (message : String) :
    machine.Edits (execution.raiseNew machine template message).1 :=
  (standard.edits_newException orderly made message false).trans (edits_raise _ _ _ _)

/-- Raising a fault. -/
theorem edits_raiseFault (standard : machine.Standard) (orderly : machine.collector.Orderly)
    (fault : Fault) : machine.Edits (execution.raiseFault machine fault).1 := by
  rw [raiseFault_eq]
  split
  · rename_i template made
    exact edits_raiseNew standard orderly made fault.message
  · have unbuilt := standard.edits_left_newException orderly fault.exception fault.message false
    exact (unbuilt.trans (edits_note _ _)).trans (edits_raise _ _ _ _)

/-- Reporting and raising a fault. -/
theorem edits_fail (standard : machine.Standard) (orderly : machine.collector.Orderly)
    (fault : Fault) : machine.Edits (execution.fail machine fault).1 := by
  exact (edits_note machine _).trans
    (edits_raiseFault (standard.edits (edits_note machine _)) orderly fault)

/-- The end of a routine. -/
theorem edits_finishRoutine (standard : machine.Standard) (orderly : machine.collector.Orderly)
    {result : Except Fault Value} (proper : ∀ value, result = .ok value → value ≠ .null) :
    machine.Edits (execution.finishRoutine machine result).1 := by
  rw [finishRoutine_eq]
  split
  · rename_i value
    exact ((Machine.Edits.refl machine).newValue false fun _ => proper value rfl).shade _
  · split
    · rename_i made
      exact edits_raiseNew standard orderly made _
    · rename_i fault _ _ _
      have unbuilt := standard.edits_left_newException orderly fault.exception fault.message false
      exact unbuilt.trans (edits_note _ _)

/-- The result of a routine that the machine does by itself is not null. -/
theorem routineResult_ne_null {routine : Routine} {value : Value}
    (proper : ∀ number, routine ≠ .callback number)
    (computed : execution.routineResult machine routine = .ok value) : value ≠ .null := by
  cases routine with
  | operator operator =>
    obtain ⟨left, _, rest⟩ := Except.bind_eq_ok computed
    obtain ⟨right, _, applied⟩ := Except.bind_eq_ok rest
    exact Operator.apply_ne_null applied
  | cast target =>
    obtain ⟨operand, _, converted⟩ := Except.bind_eq_ok computed
    exact Value.convert_ne_null converted
  | callback number => exact absurd rfl (proper number)

/-- Writing a parameter register. -/
theorem edits_setParameter {index : Nat} {value : Ref} {state : Machine × Execution}
    (done : execution.setParameter machine index value = .ok state) : machine.Edits state.1 := by
  rw [setParameter_eq] at done
  split at done
  · obtain rfl := Except.ok.inj done
    exact (Machine.Edits.refl machine).shade value
  · cases done

/-- Storing into a frame. -/
theorem edits_storeInFrame {depth : Nat} {value : Ref} {store : Frame → Except Error Frame}
    {state : Machine × Execution}
    (done : execution.storeInFrame machine depth value store = .ok state) :
    machine.Edits state.1 := by
  rw [storeInFrame_eq] at done
  obtain ⟨_, _, rest⟩ := Except.bind_eq_ok done
  obtain ⟨_, _, last⟩ := Except.bind_eq_ok rest
  obtain rfl := Except.ok.inj last
  exact (Machine.Edits.refl machine).shade value

/-- Raising a value from outside. -/
theorem edits_raiseValue {value : Ref} {severity : Severity} {state : Machine × Execution}
    (done : execution.raiseValue machine value severity = .ok state) : machine.Edits state.1 := by
  rw [raiseValue_eq] at done
  split at done
  · obtain rfl := Except.ok.inj done
    exact edits_raise machine execution value severity
  · cases done

/-- Raising a standard exception from outside, or what is left of it. -/
theorem edits_raiseException (standard : machine.Standard) (orderly : machine.collector.Orderly)
    (exception : ExceptionClass) (message : String) :
    machine.Edits ((Work.raiseException exception message).left (machine, execution)).1 := by
  unfold Work.left
  rw [outcome_raiseException]
  split
  · rename_i template made
    exact edits_raiseNew standard orderly made message
  · exact standard.edits_left_newException orderly exception message false

/-- The machine that an attempt leaves. -/
def Attempt.left : Attempt → Machine
  | .ok (machine, _) => machine
  | .error (_, machine, _) => machine

/-- Going on after an instruction. -/
theorem edits_attemptOutcome (machine : Machine) (execution : Execution) (outcome : Outcome) :
    machine.Edits (execution.attemptOutcome machine outcome).left := by
  cases outcome with
  | raise value => exact edits_raise machine execution value .normal
  | call function =>
    simp only [attemptOutcome]
    split <;> exact .refl machine
  | _ => exact .refl machine

/-- An attempt at a decoded instruction. -/
theorem edits_attemptInstruction (machine : Machine) (execution : Execution) (id : Nat)
    (frame : Activation) (below : List Frame) (instruction : Instruction UInt32) :
    machine.Edits (execution.attemptInstruction machine id frame below instruction).left := by
  have edits := instruction.edits_run (execution.scene machine frame)
  unfold attemptInstruction attemptEffect
  cases goes : instruction.execute.run (execution.scene machine frame) with
  | ok outcome scene =>
    rw [goes] at edits
    exact edits.trans (edits_attemptOutcome _ _ outcome)
  | error fault scene =>
    rw [goes] at edits
    exact edits

/-- An attempt at an instruction. -/
theorem edits_attempt (machine : Machine) (execution : Execution) :
    machine.Edits (execution.attempt machine).left := by
  unfold attempt
  split
  · rename_i id frame below _
    split
    · exact .refl machine
    · rw [attemptAt_by_table]
      dsimp only
      split
      · exact .refl machine
      · split
        · exact .refl machine
        · rename_i opcode _
          refine (edits_note machine (.dispatched frame.next opcode)).trans ?_
          split
          · exact .refl _
          · exact edits_attemptInstruction _ _ _ _ _ _
  · exact .refl machine

/-- One instruction of the innermost call, and its fault. -/
theorem edits_dispatch (standard : machine.Standard) (orderly : machine.collector.Orderly) :
    machine.Edits (execution.dispatch machine).1 := by
  have edits := edits_attempt machine execution
  rw [dispatch_eq]
  cases attempted : execution.attempt machine with
  | ok state =>
    rw [attempted] at edits
    exact edits
  | error stopped =>
    obtain ⟨fault, middle, faulted⟩ := stopped
    rw [attempted] at edits
    have told : middle.Standard := standard.edits edits
    exact edits.trans (edits_fail told (edits.collector.orderly orderly) fault)

/-- One turn in which callbacks do nothing. -/
theorem edits_turned (standard : machine.Standard) (orderly : machine.collector.Orderly) :
    machine.Edits (execution.turned machine).1 := by
  unfold turned
  split
  · exact .refl machine
  · split
    · exact edits_raiseFault standard orderly _
    · exact .refl machine
    · rename_i routine proper _
      exact edits_finishRoutine standard orderly fun _ => routineResult_ne_null proper
  · exact edits_dispatch standard orderly

end Execution

end ScriptVm
