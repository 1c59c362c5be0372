import ScriptVm.Proofs.Execution.Edits
import ScriptVm.Proofs.Execution.Positions
import ScriptVm.Proofs.Machine.Exceptions

/-!
# Faults as exceptions

The fault of an instruction, or of a call of a host function that is not bound, is raised as a new
exception that handlers are asked for, as long as the object types of standard exceptions are in
place and there is room for one. Of all instructions and routines, only the instruction for it
aborts an execution.
-/
namespace ScriptVm

namespace Execution

variable {machine after : Machine} {execution changed : Execution} {fault : Fault}

/-- A normal raise leaves the heap as shading does. -/
theorem heap_raise (machine : Machine) (execution : Execution) (value : Ref) :
    (execution.raise machine value .normal).1.heap = (machine.shade value).heap := by
  simp only [raise]
  split <;> rfl

/-- The raised value goes to the first parameter register. -/
theorem parameters_raise (machine : Machine) (execution : Execution) (value : Ref) :
    (execution.raise machine value .normal).2.parameters =
      execution.parameters.setIfInBounds 0 value := by
  simp only [raise]
  split <;> rfl

/-- A normal raise aborts nothing. -/
@[simp] theorem aborted_raise (machine : Machine) (execution : Execution) (value : Ref) :
    (execution.raise machine value .normal).2.flags.aborted = execution.flags.aborted := by
  simp only [raise]
  split <;> rfl

/-- A state comes from raising a new exception for a fault. -/
structure Throws (machine : Machine) (execution : Execution) (fault : Fault) (value : Ref)
    (state : Machine × Execution) : Prop where
  /-- It is a normal raise. -/
  raised : ∃ thrown, state = execution.raise thrown value .normal
  /-- The value is a new exception for the fault. -/
  excepts : machine.Excepts fault value state.1
  /-- The first parameter register holds the value. -/
  parameter : state.2.parameter 0 = .ok value
  /-- Handlers are asked by the class of the fault. -/
  frames : state.2.frames =
    (unwind .object (some fault.exception.name) execution.frames).getD []
  /-- The execution is not aborted. -/
  aborted : state.2.flags.aborted = execution.flags.aborted

/-- Raising an exception that was just made. -/
theorem throws_raise {thrown : Machine} {value : Ref} (excepts : machine.Excepts fault value thrown)
    (execution : Execution) :
    execution.Throws machine fault value (execution.raise thrown value .normal) := by
  have darkens := thrown.collector.darkens_shade value.handle
  have raised : machine.Excepts fault value (execution.raise thrown value .normal).1 := by
    refine excepts.of_same ?_ ?_ <;> rw [heap_raise]
    · exact darkens.value?
    · exact darkens.object?
  refine ⟨⟨thrown, rfl⟩, raised, ?_, ?_, aborted_raise _ _ _⟩
  · have held : (execution.parameters.setIfInBounds 0 value)[0]? = some value := by
      rw [Vector.getElem?_eq_getElem (by decide), Vector.getElem_setIfInBounds_self]
    rw [parameter, parameters_raise, held]
    rfl
  · obtain ⟨kind, className, asked, frames⟩ := frames_raise thrown execution value
    rw [raised.thrown] at asked
    obtain ⟨rfl, rfl⟩ := Prod.mk.inj asked
    exact frames

/-- The exception of a fault is made and raised as long as there is room for it. -/
theorem throws_raiseFault (standard : machine.Standard) (orderly : machine.collector.Orderly)
    (room : machine.heap.hasRoom (1 + Machine.instanceSize) = true) (execution : Execution)
    (fault : Fault) :
    ∃ value, execution.Throws machine fault value (execution.raiseFault machine fault) := by
  have template := standard.exceptionTemplate_eq fault.exception
  rw [if_pos room] at template
  have unfolded : execution.raiseFault machine fault = execution.raiseNew machine
      (Object.blank (Registry.standardSchema fault.exception), 0) fault.message := by
    rw [raiseFault_eq, template]
  rw [unfolded]
  exact ⟨_, throws_raise (Machine.excepts_newException orderly fault) execution⟩

/-- The innermost call is about to execute the instruction that aborts. -/
def MeetsAbort (execution : Execution) : Prop :=
  ∃ id activation below following, execution.frames = .script id activation :: below ∧
    activation.fetch? = some (⟨.abort, ()⟩, following)

/-- The execution that an attempt leaves is aborted. -/
def Attempt.aborted : Attempt → Bool
  | .ok (_, execution) => execution.flags.aborted
  | .error (_, _, execution) => execution.flags.aborted

/-- Going on after an instruction aborts the execution if that is the outcome. -/
theorem aborted_attemptOutcome (machine : Machine) (execution : Execution) (outcome : Outcome) :
    (execution.attemptOutcome machine outcome).aborted = true ↔
      execution.flags.aborted = true ∨ outcome = .abort := by
  cases outcome with
  | call function =>
    rw [attemptOutcome, pushFrame_eq]
    by_cases room : execution.frames.length < frameLimit <;> simp [room, Attempt.aborted]
  | raise value =>
    show (execution.raise machine value .normal).2.flags.aborted = true ↔ _
    rw [aborted_raise]
    simp
  | proceed | leave | yield => simp [attemptOutcome, proceed, Attempt.aborted, suspend]
  | abort => simp [attemptOutcome, proceed, Attempt.aborted]

end Execution

/-- An operation that ends by aborting is the one for it. -/
theorem Opcode.Ends.eq_abort_iff {opcode : Opcode} {outcome : Outcome}
    (ends : opcode.Ends outcome) : outcome = .abort ↔ opcode = .abort := by
  cases opcode <;> simp_all [Opcode.Ends]
  all_goals obtain ⟨_, rfl⟩ := ends; simp

/-- An instruction that goes through ends as its operation does. -/
theorem Instruction.ends_of_execute {instruction : Instruction UInt32} {scene after : Scene}
    {outcome : Outcome} (goes : instruction.execute.run scene = .ok outcome after) :
    instruction.opcode.Ends outcome := by
  cases branches : instruction.opcode.branches with
  | false =>
    have edits : instruction.execute.Edits scene instruction.opcode.Ends :=
      edits_execute instruction branches
    unfold Step.Edits at edits
    rw [goes] at edits
    exact edits.2
  | true =>
    match instruction with
    | ⟨.branch, distance, ()⟩ => exact (of_branch goes).1
    | ⟨.branchIf expected, source, distance, ()⟩ => exact (of_branchIf goes).1

namespace Execution

variable {machine : Machine} {execution : Execution}

/-- An attempt at a decoded instruction aborts the execution if that is what the instruction is
for. -/
theorem aborted_attemptInstruction (machine : Machine) (execution : Execution) (id : Nat)
    (frame : Activation) (below : List Frame) (instruction : Instruction UInt32) :
    (execution.attemptInstruction machine id frame below instruction).aborted = true ↔
      execution.flags.aborted = true ∨ instruction.opcode = .abort := by
  unfold attemptInstruction attemptEffect
  cases goes : instruction.execute.run (execution.scene machine frame) with
  | ok outcome scene =>
    dsimp only
    rw [aborted_attemptOutcome, (Instruction.ends_of_execute goes).eq_abort_iff]
    rfl
  | error fault scene =>
    have other : instruction.opcode ≠ .abort := by
      match instruction with
      | ⟨opcode, operands⟩ =>
        rintro rfl
        cases goes
    simp [other, Attempt.aborted, withScene]

/-- An attempt where no instruction can be fetched leaves the flags. -/
theorem aborted_attempt_of_none {id : Nat} {activation : Activation} {below : List Frame}
    (stack : execution.frames = .script id activation :: below)
    (missing : activation.fetch? = none) :
    (execution.attempt machine).aborted = execution.flags.aborted := by
  unfold attempt
  rw [stack]
  dsimp only
  split
  · rfl
  · rename_i proper
    have inside : activation.next < activation.function.body.stop := Nat.not_le.mp proper
    rw [Activation.fetch?, if_pos inside] at missing
    rw [attemptAt_by_table]
    dsimp only
    split
    · rfl
    · rename_i taken
      split
      · rfl
      · rename_i known
        split
        · rfl
        · rename_i decoded
          simp [taken, known, decoded, Except.toOption] at missing

/-- An attempt at an instruction aborts the execution if that is what the instruction is for. -/
theorem aborted_attempt (machine : Machine) (execution : Execution) :
    (execution.attempt machine).aborted = true ↔
      execution.flags.aborted = true ∨ execution.MeetsAbort := by
  cases stack : execution.frames with
  | nil => simp [attempt, MeetsAbort, stack, Attempt.aborted]
  | cons top below =>
    cases top with
    | host id function => simp [attempt, MeetsAbort, stack, Attempt.aborted]
    | script id activation =>
      cases fetched : activation.fetch? with
      | none =>
        rw [aborted_attempt_of_none stack fetched]
        simp [MeetsAbort, stack, fetched]
      | some found =>
        obtain ⟨⟨opcode, operands⟩, following⟩ := found
        rw [attempt_of_fetch? stack fetched, aborted_attemptInstruction]
        refine or_congr_right ⟨?_, ?_⟩
        · rintro rfl
          exact ⟨id, activation, below, following, stack, fetched⟩
        · rintro ⟨_, other, _, _, same, found⟩
          rw [stack] at same
          obtain ⟨-, rfl⟩ := Frame.script.inj (List.cons.inj same).1
          rw [fetched] at found
          cases found
          rfl

/-- The next turn of an execution comes to a fault, in a machine and an execution. -/
inductive Faults (machine : Machine) (execution : Execution) : Fault → Machine → Execution → Prop
  /-- It is the fault of an instruction. -/
  | instruction {fault : Fault} {middle : Machine} {faulted : Execution}
    (stopped : execution.attempt machine = .error (fault, middle, faulted)) :
    Faults machine execution fault middle faulted
  /-- It is a call of a host function that is not bound. -/
  | unbound {id : Nat} {function : HostFunction} {below : List Frame}
    (stack : execution.frames = .host id function :: below)
    (unbound : machine.registry.routine? function = none) :
    Faults machine execution (.unboundFunction function.signature) machine execution

/-- There is room for the exception of the fault that the next turn comes to. -/
def Affords (machine : Machine) (execution : Execution) : Prop :=
  ∀ fault middle faulted, execution.Faults machine fault middle faulted →
    middle.heap.hasRoom (1 + Machine.instanceSize) = true

variable {fault : Fault} {middle : Machine} {faulted : Execution}

/-- An attempt that comes to a fault is one of a script call. -/
theorem turned_of_attempt (stopped : execution.attempt machine = .error (fault, middle, faulted)) :
    execution.turned machine =
      ((faulted.fail middle fault).1, (faulted.fail middle fault).2.settle) := by
  have dispatched : execution.dispatch machine = faulted.fail middle fault := by
    rw [dispatch_eq, stopped]
    rfl
  cases stack : execution.frames with
  | nil => simp [attempt, stack] at stopped
  | cons top below =>
    cases top with
    | host id function => simp [attempt, stack] at stopped
    | script id activation => simp only [turned, stack, dispatched]

/-- A turn of a script call whose attempt goes through is that attempt, and the execution is
settled. -/
theorem turned_of_attempt_ok {state : Machine × Execution} {id : Nat} {activation : Activation}
    {below : List Frame} (stack : execution.frames = .script id activation :: below)
    (done : execution.attempt machine = .ok state) :
    execution.turned machine = (state.1, state.2.settle) := by
  have dispatched : execution.dispatch machine = state := by
    rw [dispatch_eq, done]
    rfl
  simp only [turned, stack, dispatched]

/-- An execution with a call is settled. -/
theorem settle_of_cons {top : Frame} {below : List Frame}
    (stack : execution.frames = top :: below) : execution.settle = execution := by
  simp [settle, stack]

/-- A fault of a turn is raised as an exception, and the execution is settled. -/
theorem Faults.throws (faults : execution.Faults machine fault middle faulted)
    (standard : machine.Standard) (orderly : machine.collector.Orderly)
    (room : middle.heap.hasRoom (1 + Machine.instanceSize) = true) :
    ∃ value state, faulted.Throws middle fault value state ∧
      execution.turned machine = (state.1, state.2.settle) := by
  cases faults with
  | instruction stopped =>
    have edits := edits_attempt machine execution
    rw [stopped] at edits
    have noted : machine.Edits (middle.note (.faulted fault)) := edits.trans (edits_note middle _)
    obtain ⟨value, throws⟩ := throws_raiseFault (standard.edits noted)
      (noted.collector.orderly orderly) room faulted fault
    have excepts : middle.Excepts fault value _ := ⟨throws.excepts.fresh, throws.excepts.made⟩
    exact ⟨value, _, { throws with excepts }, turned_of_attempt stopped⟩
  | unbound stack unbound =>
    obtain ⟨value, throws⟩ := throws_raiseFault standard orderly room execution _
    refine ⟨value, _, throws, ?_⟩
    simp only [turned, stack, unbound]

/-- Settling aborts nothing. -/
@[simp] theorem aborted_settle (execution : Execution) :
    execution.settle.flags.aborted = execution.flags.aborted := by
  unfold settle
  split <;> rfl

/-- The end of a routine aborts nothing. -/
theorem aborted_finishRoutine (machine : Machine) (execution : Execution)
    (result : Except Fault Value) :
    (execution.finishRoutine machine result).2.flags.aborted = execution.flags.aborted := by
  rw [finishRoutine_eq]
  split
  · rfl
  · split
    · exact aborted_raise _ _ _
    · rfl

/-- A turn aborts the execution if its next instruction is the one for it, and not otherwise. -/
theorem aborted_turned (standard : machine.Standard) (orderly : machine.collector.Orderly)
    (affords : execution.Affords machine) :
    (execution.turned machine).2.flags.aborted = true ↔
      execution.flags.aborted = true ∨ execution.MeetsAbort := by
  cases stack : execution.frames with
  | nil => simp [turned, MeetsAbort, stack]
  | cons top below =>
    cases top with
    | host id function =>
      have other : ¬execution.MeetsAbort := by simp [MeetsAbort, stack]
      simp only [other, or_false, turned, stack]
      split
      · rename_i unbound
        have faults : execution.Faults machine _ machine execution := .unbound stack unbound
        obtain ⟨value, throws⟩ := throws_raiseFault standard orderly (affords _ _ _ faults)
          execution (.unboundFunction function.signature)
        rw [aborted_settle, throws.aborted]
      · simp
      · simp [aborted_finishRoutine]
    | script id activation =>
      rw [← aborted_attempt machine execution]
      cases attempted : execution.attempt machine with
      | ok state =>
        have dispatched : execution.dispatch machine = state := by
          rw [dispatch_eq, attempted]
          rfl
        simp only [turned, stack, dispatched, aborted_settle]
        rfl
      | error stopped =>
        obtain ⟨fault, middle, faulted⟩ := stopped
        have faults : execution.Faults machine fault middle faulted := .instruction attempted
        obtain ⟨value, state, throws, turned⟩ :=
          faults.throws standard orderly (affords _ _ _ faults)
        rw [turned, aborted_settle, throws.aborted]
        rfl

end Execution

end ScriptVm
