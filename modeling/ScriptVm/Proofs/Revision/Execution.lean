import ScriptVm.Proofs.Execution.Positions
import ScriptVm.Proofs.Instruction.Extent
import ScriptVm.Proofs.Revision.Step

/-!
# Executions in revised modules

Raising, unwinding and calling commute with a revision, and so does dispatching an instruction whose
extent has the same bytes in the new code. An instruction whose extent passes the end of the code
raises a runtime error. One that is spelled wholly inside the code is performed, wherever its
function ends.
-/
namespace ScriptVm

/-- A revision leaves the size of the code of a function's module, and the function's own bytes. -/
structure Revision.Leaves (revision : Revision) (function : ScriptFunction) : Prop where
  /-- The size of the code. -/
  size : (revision function.module).size = function.module.code.size
  /-- The bytes from the start of the function to its end. -/
  bytes : ∀ offset, function.body.start ≤ offset → offset < function.body.stop →
    (revision function.module)[offset]? = function.module.code[offset]?

/-- A revision spares the bytes of a call's next instruction that lie beyond the end of the
function. There are none when the instruction ends inside the function. -/
def Revision.Spares (revision : Revision) (activation : Activation) : Prop :=
  activation.next < activation.function.body.stop →
    ∀ offset, activation.function.body.stop ≤ offset →
      offset < activation.next + activation.site.extent →
      (revision activation.function.module)[offset]? = activation.function.module.code[offset]?

namespace Activation

variable {activation : Activation} {revision : Revision}

/-- A revision that leaves a function agrees in the extent of its next instruction, if it spares
what lies beyond the function. -/
theorem agrees_of_leaves (start : activation.function.body.start ≤ activation.next)
    (proper : activation.next < activation.function.body.stop)
    (leaves : revision.Leaves activation.function) (spares : revision.Spares activation) :
    activation.site.Agrees (revision activation.function.module) activation.site.extent := by
  refine ⟨leaves.size, fun offset low high => ?_⟩
  rcases Nat.lt_or_ge offset activation.function.body.stop with own | beyond
  · exact leaves.bytes offset (Nat.le_trans start low) own
  · exact spares proper offset beyond high

/-- What a call executes next is told by its function's own bytes exactly when the instruction ends
inside the function. Otherwise its last byte is outside and may be another one. -/
theorem fetch?_own_iff (start : activation.function.body.start ≤ activation.next)
    (proper : activation.next < activation.function.body.stop) {instruction : Instruction UInt32}
    (holds : activation.site.Holds instruction) :
    (∀ revision : Revision, revision.Leaves activation.function →
        (activation.revise revision).fetch? = activation.fetch?) ↔
      activation.next + activation.site.extent ≤ activation.function.body.stop := by
  have fetched := fetch?_eq_some_iff.mpr ⟨proper, holds, rfl⟩
  constructor
  · intro own
    by_contra outside
    let last := activation.next + (activation.site.extent - 1)
    have positive : 0 < activation.site.extent := Nat.add_pos_left Nat.one_pos _
    have beyond : activation.function.body.stop ≤ last := by omega
    have inside : last < activation.function.module.code.size := by
      have whole : activation.next + activation.site.extent ≤ _ := holds.inside
      exact Nat.lt_of_lt_of_le (by omega) whole
    let flipped : UInt8 := if activation.function.module.code[last] = 0 then 1 else 0
    let revision : Revision := fun module => module.code.setIfInBounds last flipped
    have leaves : revision.Leaves activation.function := by
      refine ⟨Array.size_setIfInBounds, fun offset _ high => ?_⟩
      exact Array.getElem?_setIfInBounds_ne (by omega)
    have same := (own revision leaves).trans fetched
    obtain ⟨-, holds', -⟩ := fetch?_eq_some_iff.mp same
    have zero : (revision activation.function.module)[last]? = some 0 ↔
        activation.function.module.code[last]? = some 0 :=
      holds.zero_iff holds' (Nat.sub_lt positive Nat.one_pos)
    have set : (revision activation.function.module)[last]? = some flipped :=
      Array.getElem?_setIfInBounds_self_of_lt inside
    rw [set, Array.getElem?_eq_getElem inside, Option.some.injEq, Option.some.injEq] at zero
    by_cases empty : activation.function.module.code[last] = 0
    · simp [flipped, empty] at zero
    · simp [flipped, empty] at zero
  · intro inside revision leaves
    have spares : revision.Spares activation := fun _ offset low high => absurd high (by omega)
    have agrees := agrees_of_leaves start proper leaves spares
    have holds' : (activation.revise revision).site.Holds instruction := holds.within agrees
    rw [fetched]
    exact fetch?_eq_some_iff.mpr ⟨proper, holds', rfl⟩

end Activation

/-- A frame whose function has new code. -/
def Frame.revise (revision : Revision) : Frame → Frame
  | .script id activation => .script id (activation.revise revision)
  | .host id function => .host id (function.revise revision)

/-- An execution whose functions have new code. -/
def Execution.revise (revision : Revision) (execution : Execution) : Execution :=
  { execution with frames := execution.frames.map (Frame.revise revision) }

/-- A machine and an execution with new code. -/
def Execution.reviseState (revision : Revision) (state : Machine × Execution) :
    Machine × Execution :=
  (state.1.revise revision, state.2.revise revision)

section Frames

variable (revision : Revision) (kind : Kind) (className : Option String)

/-- Entering a function commutes with a revision. -/
theorem Frame.enter_revise (id : Nat) (function : Function) :
    Frame.enter id (function.revise revision) = (Frame.enter id function).revise revision := by
  cases function <;> rfl

/-- Handlers are not in code. -/
theorem Frame.catch?_revise (frame : Frame) :
    (frame.revise revision).catch? kind className =
      (frame.catch? kind className).map (Frame.revise revision) := by
  cases frame with
  | host id function => rfl
  | script id activation =>
    show ((activation.function.body.findHandler? activation.start kind className).map _).map _ =
      (((activation.function.body.findHandler? activation.start kind className).map _).map _).map _
    cases activation.function.body.findHandler? activation.start kind className <;> rfl

/-- Unwinding commutes with a revision. -/
theorem Execution.unwind_revise (frames : List Frame) :
    unwind kind className (frames.map (Frame.revise revision)) =
      (unwind kind className frames).map (List.map (Frame.revise revision)) := by
  induction frames with
  | nil => rfl
  | cons frame below hypothesis =>
    rw [List.map_cons, unwind, unwind, Frame.catch?_revise]
    cases frame.catch? kind className with
    | none => exact hypothesis
    | some handling => rfl

end Frames

namespace Execution

variable (revision : Revision) (machine : Machine) (execution : Execution)

/-- Raising a value commutes with a revision. -/
theorem raise_revise (value : Ref) (severity : Severity) :
    (execution.revise revision).raise (machine.revise revision) value severity =
      reviseState revision (execution.raise machine value severity) := by
  cases severity with
  | fatal =>
    simp only [raise, Machine.shade_revise]
    rfl
  | normal =>
    have frames : ((execution.revise revision).setResult value).frames =
        (execution.setResult value).frames.map (Frame.revise revision) := rfl
    simp only [raise, Machine.shade_revise, Machine.thrown_revise, frames, unwind_revise]
    cases unwind ((machine.shade value).thrown value).1 ((machine.shade value).thrown value).2
      (execution.setResult value).frames <;> rfl

/-- Raising a fault commutes with a revision. -/
theorem raiseFault_revise (fault : Fault) :
    (execution.revise revision).raiseFault (machine.revise revision) fault =
      reviseState revision (execution.raiseFault machine fault) := by
  rw [raiseFault_eq, raiseFault_eq, Machine.exceptionTemplate_revise]
  cases machine.exceptionTemplate fault.exception with
  | ok template =>
    simp only [raiseNew, Machine.newException_revise]
    exact raise_revise revision _ _ _ _
  | error error =>
    simp only [Machine.left_newException_revise]
    exact raise_revise revision (Machine.note _ _) execution Ref.null .fatal

/-- Reporting and raising a fault commutes with a revision. -/
theorem fail_revise (fault : Fault) :
    (execution.revise revision).fail (machine.revise revision) fault =
      reviseState revision (execution.fail machine fault) :=
  raiseFault_revise revision (machine.note (.faulted fault)) execution fault

/-- Pushing a call commutes with a revision. -/
theorem pushFrame_revise (function : Function) :
    (execution.revise revision).pushFrame (function.revise revision) =
      (execution.pushFrame function).map (Prod.map id (Execution.revise revision)) := by
  have depth : (execution.revise revision).frames.length = execution.frames.length :=
    List.length_map ..
  rw [pushFrame_eq, pushFrame_eq, depth]
  split
  · simp only [Frame.enter_revise]
    rfl
  · rfl

/-- Going on after an instruction commutes with a revision. -/
theorem proceed_revise (outcome : Outcome) :
    (execution.revise revision).proceed (machine.revise revision) (outcome.revise revision) =
      reviseState revision (execution.proceed machine outcome) := by
  cases outcome with
  | call function =>
    simp only [proceed, Outcome.revise, pushFrame_revise]
    cases execution.pushFrame function with
    | ok pushed => rfl
    | error error =>
      have fails := fail_revise revision machine execution
      cases error <;> exact fails _
  | leave =>
    have rest : (execution.revise revision).frames.tail =
        execution.frames.tail.map (Frame.revise revision) := List.map_tail.symm
    simp only [proceed, Outcome.revise, rest]
    rfl
  | raise value => exact raise_revise revision machine execution value .normal
  | _ => rfl

/-- Performing a decoded instruction commutes with a revision. -/
theorem perform_revise (id : Nat) (frame : Activation) (below : List Frame)
    (instruction : Instruction UInt32) :
    (execution.revise revision).perform (machine.revise revision) id (frame.revise revision)
        (below.map (Frame.revise revision)) instruction.execute =
      reviseState revision (execution.perform machine id frame below instruction.execute) := by
  have runs := Instruction.commutes_execute revision instruction (execution.scene machine frame)
  replace runs : instruction.execute.run ((execution.revise revision).scene
    (machine.revise revision) (frame.revise revision)) = _ := runs
  unfold perform
  rw [runs]
  cases instruction.execute.run (execution.scene machine frame) with
  | ok outcome scene =>
    exact proceed_revise revision scene.machine (execution.withScene id below scene) outcome
  | error fault scene =>
    exact fail_revise revision scene.machine (execution.withScene id below scene) fault

/-- Dispatching an instruction commutes with a revision that leaves the bytes in its extent. -/
theorem dispatchAt_revise (id : Nat) (frame : Activation) (below : List Frame)
    (agrees : frame.cursor.Agrees (revision frame.function.module) frame.cursor.extent) :
    (execution.revise revision).dispatchAt (machine.revise revision) id (frame.revise revision)
        (below.map (Frame.revise revision)) =
      reviseState revision (execution.dispatchAt machine id frame below) := by
  have moved : (frame.revise revision).cursor =
      frame.cursor.within (revision frame.function.module) := rfl
  let entered : Execution := { execution with frames := .script id frame :: below }
  rw [dispatchAt_by_table, dispatchAt_by_table]
  dsimp only
  rw [moved, Cursor.byte?_within (agrees.mono (Nat.le_add_right _ _))]
  cases taken : frame.cursor.byte? with
  | none => exact fail_revise revision machine entered _
  | some found =>
    obtain ⟨byte, middle⟩ := found
    obtain ⟨sees, rfl⟩ := Cursor.byte?_eq_some_iff.mp taken
    simp only [Option.map_some, Cursor.carry]
    cases known : Opcode.ofByte? byte with
    | none => exact fail_revise revision machine entered _
    | some opcode =>
      have noted : (machine.revise revision).note
          (.dispatched (frame.revise revision).start opcode) =
        (machine.note (.dispatched frame.start opcode)).revise revision := rfl
      rw [Cursor.extent_of_byte sees.head known] at agrees
      have decodes := Operands.decode_within opcode.shapes agrees.later
      dsimp only
      rw [noted, decodes]
      cases Operands.decode opcode.shapes (frame.cursor.moveTo (frame.cursor.next + 1)) with
      | error misread => exact fail_revise revision _ entered _
      | ok decoded =>
        exact perform_revise revision (machine.note (.dispatched frame.start opcode)) entered id
          (frame.moveTo decoded.2.next) below ⟨opcode, decoded.1⟩

/-- Dispatching the next instruction of a script call commutes with a revision that leaves the bytes
in its extent. -/
theorem dispatch_revise {id : Nat} {activation : Activation} {below : List Frame}
    (stack : execution.frames = .script id activation :: below)
    (agrees : activation.next < activation.function.body.stop →
      activation.site.Agrees (revision activation.function.module) activation.site.extent) :
    (execution.revise revision).dispatch (machine.revise revision) =
      reviseState revision (execution.dispatch machine) := by
  have revised : (execution.revise revision).frames =
      .script id (activation.revise revision) :: below.map (Frame.revise revision) :=
    congrArg (List.map (Frame.revise revision)) stack
  have body : (activation.revise revision).function.body = activation.function.body := rfl
  have next : (activation.revise revision).next = activation.next := rfl
  unfold dispatch
  rw [stack, revised]
  dsimp only
  rw [body, next]
  split
  · rfl
  · rename_i inside
    exact dispatchAt_revise revision machine execution id activation.begun below
      (agrees (Nat.not_le.mp inside))

/-- Settling commutes with a revision. -/
theorem settle_revise : (execution.revise revision).settle = execution.settle.revise revision := by
  have empty : (execution.revise revision).frames.isEmpty = execution.frames.isEmpty :=
    List.isEmpty_map
  have flags : (execution.revise revision).flags = execution.flags := rfl
  unfold settle
  rw [empty, flags]
  split <;> rfl

variable {machine execution} {id : Nat} {activation : Activation} {below : List Frame}

/-- Operands that cannot be decoded are a runtime error. -/
theorem exception_misread (misread : Misread) : misread.fault.exception = .runtime := by
  cases misread <;> rfl

/-- An instruction whose extent passes the end of the code raises a runtime error. -/
theorem dispatch_of_truncated (stack : execution.frames = .script id activation :: below)
    (proper : activation.next < activation.function.body.stop)
    (enclosed : activation.function.body.stop ≤ activation.function.module.code.size)
    (truncated : activation.function.module.code.size < activation.next + activation.site.extent) :
    ∃ opcode fault, fault.exception = .runtime ∧
      execution.dispatch machine =
        fail (machine.note (.dispatched activation.next opcode))
          { execution with frames := .script id activation.begun :: below } fault := by
  have inside : activation.next < activation.function.module.code.size :=
    Nat.lt_of_lt_of_le proper enclosed
  have found : activation.begun.cursor.code[activation.begun.cursor.next]? = some _ :=
    Array.getElem?_eq_getElem inside
  have taken := Cursor.byte?_eq_some found
  cases known : Opcode.ofByte? activation.function.module.code[activation.next] with
  | none =>
    have single : activation.site.extent = 1 := by
      show 1 + (activation.function.module.code[activation.next]?.bind Opcode.ofByte?).elim 0 _ = 1
      rw [Array.getElem?_eq_getElem inside, Option.bind_some, known]
      rfl
    omega
  | some opcode =>
    have begun : ¬activation.function.body.stop ≤ activation.next := Nat.not_le.mpr proper
    have dispatched : execution.dispatch machine =
        execution.dispatchAt machine id activation.begun below := by
      simp only [dispatch, stack, if_neg begun]
      rfl
    rw [dispatched]
    simp only [dispatchAt_by_table, taken, known]
    cases decoded : Operands.decode opcode.shapes
        (activation.begun.cursor.moveTo (activation.begun.cursor.next + 1)) with
    | error misread => exact ⟨opcode, misread.fault, exception_misread misread, rfl⟩
    | ok operands =>
      let instruction : Instruction UInt32 := ⟨opcode, operands.1⟩
      have holds : activation.site.Holds instruction ∧ operands.2 = _ :=
        Cursor.holds_iff.mpr ⟨_, _, taken, known, decoded⟩
      exact absurd holds.1.inside (Nat.not_le.mpr truncated)

/-- An instruction that is spelled inside the code is performed, also where its function ends
before it does. -/
theorem dispatch_of_holds (stack : execution.frames = .script id activation :: below)
    (proper : activation.next < activation.function.body.stop)
    {instruction : Instruction UInt32} (holds : activation.site.Holds instruction) :
    execution.dispatch machine =
      execution.perform (machine.note (.dispatched activation.next instruction.opcode)) id
        (activation.past instruction) below instruction.execute := by
  have fetched := Activation.fetch?_eq_some_iff.mpr ⟨proper, holds, rfl⟩
  rw [dispatch_eq, attempt_of_fetch? stack fetched, perform_eq]
  rfl

end Execution

end ScriptVm
