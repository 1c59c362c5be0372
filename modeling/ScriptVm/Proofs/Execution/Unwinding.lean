import ScriptVm.Proofs.Execution.Exceptions
import ScriptVm.Proofs.Execution.Turns

/-!
# Unwinding

A raised value unwinds the call stack down to the nearest call that has a handler for it, which goes
on there. Nothing else of the execution changes but the first parameter register; without a handler
the call stack is emptied and the execution is ended by the exception. Handlers are asked for around
the instruction that a call is executing. A call that waits for another one keeps that instruction,
whatever is done to the execution.
-/
namespace ScriptVm

/-- What handlers look at in a value is not changed by marking. -/
theorem Machine.thrown_shade (machine : Machine) (stored value : Ref) :
    (machine.shade stored).thrown value = machine.thrown value := by
  have darkens := machine.collector.darkens_shade stored.handle
  have values : (machine.shade stored).heap.value? value = machine.heap.value? value :=
    darkens.value? value
  have objects : ∀ reference,
      (machine.shade stored).heap.object? reference = machine.heap.object? reference :=
    darkens.object?
  unfold Machine.thrown
  rw [values]
  simp only [objects]

namespace Frame

/-- What identifies a call and the instruction that it is executing. -/
def mark (frame : Frame) : Nat × Function × Option Nat :=
  (frame.id, frame.function, frame.activation?.map Activation.start)

end Frame

/-- Where the handler resumes that a call has for a raised value: one of its function, around the
instruction that the call is executing. -/
def Frame.handler? (frame : Frame) (kind : Kind) (className : Option String) : Option Nat :=
  match frame with
  | .script _ activation =>
    (Function.script activation.function).findHandler? activation.start kind className
  | .host _ _ => none

namespace Execution

variable {machine : Machine} {execution middle after : Execution} {kind : Kind}
  {className : Option String} {frames rest : List Frame}

/-- A call goes on at its handler, if it has one. -/
theorem catch?_eq (frame : Frame) (kind : Kind) (className : Option String) :
    frame.catch? kind className = (frame.handler? kind className).bind fun offset =>
      frame.activation?.map fun activation => .script frame.id (activation.moveTo offset) := by
  cases frame with
  | host id function => rfl
  | script id activation =>
    show ((activation.function.body.findHandler? activation.start kind className).map _).map _ =
      (activation.function.body.findHandler? activation.start kind className).bind _
    cases activation.function.body.findHandler? activation.start kind className <;> rfl

/-- The first parameter register holds a result. -/
theorem parameter_setResult (execution : Execution) (value : Ref) :
    (execution.setResult value).parameter 0 = .ok value := by
  have held : (execution.parameters.setIfInBounds 0 value)[0]? = some value := by
    rw [Vector.getElem?_eq_getElem (by decide), Vector.getElem_setIfInBounds_self]
  simp only [parameter, setResult, held]
  rfl

/-- A call that goes on at a handler is still executing the same instruction. -/
theorem mark_catch? {frame handling : Frame}
    (caught : frame.catch? kind className = some handling) : handling.mark = frame.mark := by
  rw [catch?_eq] at caught
  obtain ⟨offset, _, moved⟩ := Option.bind_eq_some_iff.mp caught
  obtain ⟨activation, script, rfl⟩ := Option.map_eq_some_iff.mp moved
  cases frame with
  | host id function => simp [Frame.activation?] at script
  | script id found =>
    obtain rfl := Option.some.inj script
    rfl

/-- The calls that unwinding leaves are still executing the same instructions. -/
theorem marks_unwind (unwound : unwind kind className frames = some rest) :
    ∀ frame ∈ rest, frame.mark ∈ frames.map Frame.mark := by
  induction frames with
  | nil => simp [unwind] at unwound
  | cons first frames hypothesis =>
    unfold unwind at unwound
    intro frame member
    split at unwound
    · rename_i handling caught
      obtain rfl := Option.some.inj unwound
      rcases List.mem_cons.mp member with rfl | deeper
      · rw [mark_catch? caught]
        exact List.mem_cons_self
      · exact List.mem_map_of_mem (List.mem_cons_of_mem _ deeper)
    · exact List.mem_cons_of_mem _ (hypothesis unwound frame member)

/-- The calls that raising leaves are still executing the same instructions. -/
theorem Unwinds.marks (unwinds : Unwinds frames rest) :
    ∀ frame ∈ rest, frame.mark ∈ frames.map Frame.mark := by
  cases unwinds with
  | whole => exact fun _ member => List.mem_map_of_mem member
  | emptied => simp
  | caught caught => exact marks_unwind caught

end Execution

end ScriptVm
