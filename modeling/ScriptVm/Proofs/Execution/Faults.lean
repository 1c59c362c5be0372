import ScriptVm.Proofs.Execution.Attempts
import ScriptVm.Proofs.Execution.Roots
import ScriptVm.Proofs.Step.Faults

/-!
# What a fault of an execution finds

The fault of an attempt is raised in a machine and an execution. They are those from before the
instruction, apart from garbage and from the position of the innermost call, unless the instruction
pops an operand into no register. Bytes that are no instruction have no effect at all.
-/
namespace ScriptVm

/-- The call is about to pop an operand into a register that it does not have. -/
def Activation.Forfeits (activation : Activation) : Prop :=
  ∃ instruction following, activation.fetch? = some (instruction, following) ∧
    instruction.Forfeits activation

instance (activation : Activation) : Decidable activation.Forfeits :=
  match known : activation.fetch? with
  | none => .isFalse fun ⟨_, _, fetched, _⟩ => by simp [known] at fetched
  | some (instruction, following) =>
    decidable_of_iff (instruction.Forfeits activation) <| by
      constructor
      · exact fun forfeits => ⟨instruction, following, known, forfeits⟩
      · rintro ⟨_, _, fetched, forfeits⟩
        rw [known] at fetched
        cases fetched
        exact forfeits

namespace Execution

variable {machine after : Machine} {execution left : Execution} {fault : Fault} {id : Nat}
  {activation : Activation} {below : List Frame}

/-- The innermost call has lost its innermost operands and has begun its next instruction, which
moves its position. Apart from that the execution is as it was. -/
def LosesOnly (execution : Execution) (lost : List Ref) (after : Execution) : Prop :=
  ∃ id activation below rest next, execution.frames = .script id activation :: below ∧
    activation.stack = lost ++ rest ∧
    after = { execution with
      frames := .script id { activation with
        start := activation.next, next, stack := rest } :: below }

namespace LosesOnly

variable {lost : List Ref}

/-- What is lost is determined. -/
theorem unique {others : List Ref} (loses : execution.LosesOnly lost left)
    (again : execution.LosesOnly others left) : lost = others := by
  obtain ⟨_, activation, _, rest, _, stack, operands, rfl⟩ := loses
  obtain ⟨_, _, _, rest', _, stack', operands', same⟩ := again
  rw [stack] at stack'
  cases stack'
  have tops : rest = rest' := by
    injection same with frames
    injection frames with top
    injection top with _ call
    injection call
  rw [operands, tops] at operands'
  exact List.append_cancel_right operands'

/-- Losing operands adds no root. -/
theorem roots (loses : execution.LosesOnly lost left) :
    ∀ handle ∈ left.roots, handle ∈ execution.roots := by
  obtain ⟨_, activation, below, rest, _, stack, operands, rfl⟩ := loses
  intro handle member
  refine mem_roots.mpr ((mem_roots.mp member).imp id ?_)
  rintro ⟨frame, inside, root⟩
  rw [stack]
  rcases List.mem_cons.mp inside with rfl | deeper
  · refine ⟨_, List.mem_cons_self, Activation.mem_roots.mpr ?_⟩
    obtain ⟨reference, same, kept⟩ := Activation.mem_roots.mp root
    refine ⟨reference, same, kept.imp id (Or.imp id fun operand => ?_)⟩
    rw [operands]
    exact List.mem_append_right lost operand
  · exact ⟨frame, List.mem_cons_of_mem _ deeper, root⟩

end LosesOnly

/-- Going on after an instruction comes to a fault only when a call finds the call stack full, which
changes nothing. -/
theorem of_attemptOutcome_error {outcome : Outcome}
    (faulted : execution.attemptOutcome machine outcome = .error (fault, after, left)) :
    Instruction.Calls outcome ∧ after = machine ∧ left = execution := by
  cases outcome with
  | call function =>
    refine ⟨⟨function, rfl⟩, ?_⟩
    simp only [attemptOutcome] at faulted
    split at faulted
    · cases faulted
    · cases faulted
      exact ⟨rfl, rfl⟩
    · cases faulted
      exact ⟨rfl, rfl⟩
  | _ => cases faulted

/-- Where the bytes are no instruction, a fault finds everything in place. -/
theorem of_attempt_error_unfetched (stack : execution.frames = .script id activation :: below)
    (unknown : activation.fetch? = none)
    (faulted : execution.attempt machine = .error (fault, after, left)) :
    machine.Scatters after ∧
      left = { execution with frames := .script id activation.begun :: below } := by
  unfold attempt at faulted
  rw [stack] at faulted
  dsimp only at faulted
  split at faulted
  · cases faulted
  · rename_i inside
    rw [Activation.fetch?, if_pos (Nat.not_le.mp inside)] at unknown
    rw [attemptAt_by_table] at faulted
    dsimp only at faulted
    split at faulted
    · cases faulted
      exact ⟨.refl machine, rfl⟩
    · rename_i byte cursor taken
      split at faulted
      · cases faulted
        exact ⟨.refl machine, rfl⟩
      · rename_i opcode known
        split at faulted
        · cases faulted
          exact ⟨machine.scatters_note _, rfl⟩
        · rename_i operands last decoded
          simp [taken, known, decoded, Except.toOption] at unknown

/-- Where no operand is popped into no register, a fault finds everything in place but the
position. -/
theorem of_attempt_error_kept (orderly : machine.collector.Orderly)
    (stack : execution.frames = .script id activation :: below) (kept : ¬activation.Forfeits)
    (faulted : execution.attempt machine = .error (fault, after, left)) :
    machine.Scatters after ∧ execution.LosesOnly [] left := by
  cases known : activation.fetch? with
  | none =>
    obtain ⟨scatters, rfl⟩ := of_attempt_error_unfetched stack known faulted
    exact ⟨scatters, id, activation, below, activation.stack, activation.next, stack, rfl, rfl⟩
  | some fetched =>
    obtain ⟨instruction, following⟩ := fetched
    rw [attempt_of_fetch? stack known] at faulted
    let event := Event.dispatched activation.next instruction.opcode
    let origin := execution.scene (machine.note event) (activation.begun.moveTo following)
    have recoils : instruction.execute.Recoils origin (Instruction.callsFrom origin) :=
      Instruction.recoils_execute orderly instruction fun forfeits =>
        kept ⟨instruction, following, known, forfeits⟩
    have started : execution.LosesOnly [] (execution.withScene id below origin) :=
      ⟨id, activation, below, activation.stack, following, stack, rfl, rfl⟩
    unfold attemptInstruction attemptEffect at faulted
    unfold Step.Recoils at recoils
    split at faulted
    · rename_i outcome scene goes
      rw [goes] at recoils
      obtain ⟨calls, rfl, rfl⟩ := of_attemptOutcome_error faulted
      obtain rfl := recoils calls
      exact ⟨machine.scatters_note event, started⟩
    · rename_i cause scene stops
      rw [stops] at recoils
      cases faulted
      refine ⟨(machine.scatters_note event).trans recoils.machine, ?_⟩
      rw [withScene, recoils.frame, recoils.parameters]
      exact started

/-- Popping an operand into no register comes to a fault that finds everything but the operand in
place. -/
theorem attempt_of_forfeits (machine : Machine)
    (stack : execution.frames = .script id activation :: below) (forfeits : activation.Forfeits) :
    ∃ operand event left,
      execution.attempt machine = .error (.host .indexOutOfRange, machine.note event, left) ∧
      execution.LosesOnly [operand] left := by
  obtain ⟨instruction, following, known, forfeits⟩ := forfeits
  let event := Event.dispatched activation.next instruction.opcode
  let origin := execution.scene (machine.note event) (activation.begun.moveTo following)
  have loses : instruction.Forfeits origin.frame := forfeits
  obtain ⟨operand, rest, top, run⟩ := Instruction.run_forfeit loses
  refine ⟨operand, event, execution.withScene id below
    { origin with frame := { origin.frame with stack := rest } }, ?_, ?_⟩
  · rw [attempt_of_fetch? stack known, attemptInstruction, attemptEffect, run]
    rfl
  · exact ⟨id, activation, below, rest, following, stack, top, rfl⟩

/-- A fault finds garbage in the machine at most, and one operand missing at most. -/
theorem of_attempt_error (orderly : machine.collector.Orderly)
    (stack : execution.frames = .script id activation :: below)
    (faulted : execution.attempt machine = .error (fault, after, left)) :
    machine.Scatters after ∧ ∃ lost, execution.LosesOnly lost left ∧
      (activation.Forfeits ∧ (∃ operand, lost = [operand]) ∨
        ¬activation.Forfeits ∧ lost = []) := by
  by_cases forfeits : activation.Forfeits
  · obtain ⟨operand, event, _, popped, loses⟩ := attempt_of_forfeits machine stack forfeits
    rw [faulted] at popped
    cases popped
    exact ⟨machine.scatters_note event, [operand], loses, .inl ⟨forfeits, operand, rfl⟩⟩
  · obtain ⟨scatters, loses⟩ := of_attempt_error_kept orderly stack forfeits faulted
    exact ⟨scatters, [], loses, .inr ⟨forfeits, rfl⟩⟩

end Execution

end ScriptVm
