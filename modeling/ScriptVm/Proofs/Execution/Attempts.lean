import ScriptVm.Proofs.Execution.Code
import ScriptVm.Proofs.Step.Layout

/-!
# What an instruction comes to

Dispatching an instruction either goes through or comes to a fault, which is then raised. An attempt
stops where the fault is handed over, so that it shows the machine and the execution in which the
fault is raised. The instruction that a call is about to execute is decoded from its position, with
the operands that the table lists.
-/
namespace ScriptVm

namespace Activation

variable {activation : Activation} {instruction : Instruction UInt32} {following : Nat}

/-- A call that begins its next instruction. -/
def begun (activation : Activation) : Activation := { activation with start := activation.next }

/-- The instruction that a call is about to execute, and the offset after it. There is none at the
end of the function, or where the bytes are no instruction. -/
def fetch? (activation : Activation) : Option (Instruction UInt32 × Nat) :=
  if activation.next < activation.function.body.stop then do
    let (byte, cursor) ← activation.begun.cursor.byte?
    let opcode ← Opcode.ofByte? byte
    let (operands, cursor) ← (Operands.decode opcode.shapes cursor).toOption
    return (⟨opcode, operands⟩, cursor.next)
  else none

/-- What it takes for an instruction to be fetched. -/
theorem fetch?_eq_some (fetched : activation.fetch? = some (instruction, following)) :
    activation.next < activation.function.body.stop ∧
      ∃ byte cursor last, activation.begun.cursor.byte? = some (byte, cursor) ∧
        Opcode.ofByte? byte = some instruction.opcode ∧
        Operands.decode instruction.opcode.shapes cursor = .ok (instruction.operands, last) ∧
        last.next = following := by
  unfold fetch? at fetched
  split at fetched
  case isFalse => cases fetched
  rename_i inside
  obtain ⟨⟨byte, cursor⟩, taken, rest⟩ := Option.bind_eq_some_iff.mp fetched
  obtain ⟨opcode, known, rest⟩ := Option.bind_eq_some_iff.mp rest
  obtain ⟨⟨operands, last⟩, decoded, made⟩ := Option.bind_eq_some_iff.mp rest
  obtain ⟨rfl, rfl⟩ := Prod.mk.inj (Option.some.inj made)
  refine ⟨inside, byte, cursor, last, taken, known, ?_, rfl⟩
  cases result : Operands.decode opcode.shapes cursor with
  | error misread => simp [result, Except.toOption] at decoded
  | ok found =>
    rw [result] at decoded
    exact congrArg Except.ok (Option.some.inj decoded)

end Activation

/-- A word takes four bytes. -/
theorem Cursor.next_of_word? {cursor after : Cursor} {word : UInt32}
    (taken : cursor.word? = some (word, after)) : after.next = cursor.next + 4 := by
  obtain ⟨⟨bytes, middle⟩, first, last⟩ := Option.bind_eq_some_iff.mp taken
  obtain ⟨_, rfl⟩ := Prod.mk.inj (Option.some.inj last)
  unfold take? at first
  split at first
  · obtain ⟨_, rfl⟩ := Prod.mk.inj (Option.some.inj first)
    rfl
  · simp at first

/-- A byte is one byte. -/
theorem Cursor.next_of_byte? {cursor after : Cursor} {byte : UInt8}
    (taken : cursor.byte? = some (byte, after)) : after.next = cursor.next + 1 := by
  obtain ⟨⟨bytes, middle⟩, first, last⟩ := Option.bind_eq_some_iff.mp taken
  obtain ⟨_, rfl⟩ := Prod.mk.inj (Option.some.inj last)
  unfold take? at first
  split at first
  · obtain ⟨_, rfl⟩ := Prod.mk.inj (Option.some.inj first)
    rfl
  · simp at first

namespace Execution

variable {machine : Machine} {execution : Execution}

/-- What an instruction comes to: the machine and the execution after it, or a fault with the
machine and the execution in which it is to be raised. -/
abbrev Attempt := Except (Fault × Machine × Execution) (Machine × Execution)

/-- Goes on after an instruction. A call finds the call stack full or not. -/
def attemptOutcome (machine : Machine) (execution : Execution) : Outcome → Attempt
  | .call function =>
    match execution.pushFrame function with
    | .ok (_, execution) => .ok (machine, execution)
    | .error .stackFull => .error (.callStackOverflow, machine, execution)
    | .error error => .error (.host error, machine, execution)
  | outcome => .ok (execution.proceed machine outcome)

/-- Performs what an instruction of the innermost call does. -/
def attemptEffect (machine : Machine) (execution : Execution) (id : Nat) (frame : Activation)
    (below : List Frame) (effect : Effect) : Attempt :=
  match effect.run (execution.scene machine frame) with
  | .ok outcome scene => (execution.withScene id below scene).attemptOutcome scene.machine outcome
  | .error fault scene => .error (fault, scene.machine, execution.withScene id below scene)

/-- Executes an instruction of the innermost call, with the operands that the table lists for it. -/
def attemptInstruction (machine : Machine) (execution : Execution) (id : Nat) (frame : Activation)
    (below : List Frame) (instruction : Instruction UInt32) : Attempt :=
  execution.attemptEffect machine id frame below instruction.execute

/-- Handles the operation of a call that begins an instruction. -/
def attemptAt (machine : Machine) (execution : Execution) (id : Nat) (frame : Activation)
    (below : List Frame) : Attempt :=
  let execution := { execution with frames := .script id frame :: below }
  match frame.cursor.byte? with
  | none => .error (.host .indexOutOfRange, machine, execution)
  | some (byte, cursor) =>
    match Opcode.ofByte? byte with
    | none => .error (.invalidOpcode byte, machine, execution)
    | some opcode =>
      let machine := machine.note (.dispatched frame.start opcode)
      match opcode.handle cursor with
      | .error misread => .error (misread.fault, machine, execution)
      | .ok (effect, cursor) =>
        execution.attemptEffect machine id (frame.moveTo cursor.next) below effect

/-- One instruction of the innermost call, up to its fault. -/
def attempt (machine : Machine) (execution : Execution) : Attempt :=
  match execution.frames with
  | .script id frame :: below =>
    if frame.function.body.stop ≤ frame.next then .ok (machine, { execution with frames := below })
    else execution.attemptAt machine id frame.begun below
  | _ => .ok (machine, execution)

/-- What an attempt comes to once its fault has been raised. -/
def Attempt.raised : Attempt → Machine × Execution
  | .ok state => state
  | .error (fault, machine, execution) => execution.fail machine fault

/-- Going on after an instruction is an attempt whose fault is raised. -/
theorem proceed_eq (machine : Machine) (execution : Execution) (outcome : Outcome) :
    execution.proceed machine outcome = (execution.attemptOutcome machine outcome).raised := by
  cases outcome with
  | call function =>
    simp only [proceed, attemptOutcome]
    cases execution.pushFrame function with
    | ok pushed => rfl
    | error error => cases error <;> rfl
  | _ => rfl

/-- Performing what an instruction does is an attempt whose fault is raised. -/
theorem perform_eq (machine : Machine) (execution : Execution) (id : Nat) (frame : Activation)
    (below : List Frame) (effect : Effect) :
    execution.perform machine id frame below effect =
      (execution.attemptEffect machine id frame below effect).raised := by
  unfold perform attemptEffect
  cases effect.run (execution.scene machine frame) with
  | ok outcome scene => exact proceed_eq _ _ _
  | error fault scene => rfl

/-- Handling the operation of an instruction is an attempt whose fault is raised. -/
theorem dispatchAt_eq (machine : Machine) (execution : Execution) (id : Nat) (frame : Activation)
    (below : List Frame) :
    execution.dispatchAt machine id frame below =
      (execution.attemptAt machine id frame below).raised := by
  unfold dispatchAt attemptAt
  dsimp only
  cases frame.cursor.byte? with
  | none => rfl
  | some taken =>
    obtain ⟨byte, cursor⟩ := taken
    dsimp only
    cases Opcode.ofByte? byte with
    | none => rfl
    | some opcode =>
      dsimp only
      cases opcode.handle cursor with
      | error misread => rfl
      | ok handled => exact perform_eq _ _ _ _ _ _

/-- Dispatching an instruction is an attempt whose fault is raised. -/
theorem dispatch_eq (machine : Machine) (execution : Execution) :
    execution.dispatch machine = (execution.attempt machine).raised := by
  unfold dispatch attempt
  cases execution.frames with
  | nil => rfl
  | cons top below =>
    cases top with
    | host id function => rfl
    | script id frame =>
      by_cases done : frame.function.body.stop ≤ frame.next
      · simp only [if_pos done]
        rfl
      · simp only [if_neg done]
        exact dispatchAt_eq machine execution id frame.begun below

/-- An instruction is attempted by decoding the operands that the table lists, and executed on
them. -/
theorem attemptAt_by_table (machine : Machine) (execution : Execution) (id : Nat)
    (frame : Activation) (below : List Frame) :
    execution.attemptAt machine id frame below =
      let execution := { execution with frames := .script id frame :: below }
      match frame.cursor.byte? with
      | none => .error (.host .indexOutOfRange, machine, execution)
      | some (byte, cursor) =>
        match Opcode.ofByte? byte with
        | none => .error (.invalidOpcode byte, machine, execution)
        | some opcode =>
          let machine := machine.note (.dispatched frame.start opcode)
          match Operands.decode opcode.shapes cursor with
          | .error misread => .error (misread.fault, machine, execution)
          | .ok (operands, cursor) => execution.attemptInstruction machine id
            (frame.moveTo cursor.next) below ⟨opcode, operands⟩ := by
  unfold attemptAt
  dsimp only
  cases frame.cursor.byte? with
  | none => rfl
  | some taken =>
    obtain ⟨byte, cursor⟩ := taken
    dsimp only
    cases Opcode.ofByte? byte with
    | none => rfl
    | some opcode =>
      dsimp only
      rw [Opcode.handle_eq]
      cases Operands.decode opcode.shapes cursor <;> rfl

/-- The attempt at an instruction that can be fetched is its execution. -/
theorem attempt_of_fetch? {id : Nat} {activation : Activation} {below : List Frame}
    (stack : execution.frames = .script id activation :: below) {instruction : Instruction UInt32}
    {following : Nat} (fetched : activation.fetch? = some (instruction, following)) :
    execution.attempt machine =
      execution.attemptInstruction (machine.note (.dispatched activation.next instruction.opcode))
        id (activation.begun.moveTo following) below instruction := by
  obtain ⟨inside, byte, cursor, last, taken, known, decoded, rfl⟩ :=
    Activation.fetch?_eq_some fetched
  have proper : ¬activation.function.body.stop ≤ activation.next := Nat.not_le.mpr inside
  simp only [attempt, stack, if_neg proper, attemptAt_by_table, taken, known, decoded]
  rfl

end Execution

end ScriptVm
