import ScriptVm.Execution.Frame
import ScriptVm.Work

/-!
# Executions

An execution is a thread of script calls: a call stack, the parameter registers that pass values
between calls, and the flags that tell how far it has come.
-/
namespace ScriptVm

/-- The greatest depth of a call stack. -/
def frameLimit : Nat := 1024

/-- Parameter registers of an execution. -/
def parameterCount : Nat := 48

/-- How far an execution has come. -/
structure Flags where
  /-- It has been run. -/
  started : Bool := false
  /-- Its first call has ended. -/
  finished : Bool := false
  /-- It waits to be run again. -/
  yielded : Bool := false
  /-- It was ended by an exception. -/
  exception : Bool := false
  /-- It was aborted. -/
  aborted : Bool := false
  deriving DecidableEq, Repr, Inhabited

/-- No instruction runs until the embedding program resumes or restarts the execution. -/
def Flags.stopped (flags : Flags) : Bool :=
  flags.finished || flags.yielded || flags.exception || flags.aborted

/-- The state of an execution in one word. -/
inductive Status where
  | created
  | running
  | yielded
  | finished
  | exception
  | aborted
  deriving DecidableEq, Repr, Inhabited

/-- The name of a status. -/
def Status.name : Status → String
  | .created => "Created"
  | .running => "Running"
  | .yielded => "Yielded"
  | .finished => "Finished"
  | .exception => "Exception"
  | .aborted => "Aborted"

/-- The status that flags stand for; the most final one counts. -/
def Flags.status (flags : Flags) : Status :=
  if flags.aborted then .aborted
  else if flags.exception then .exception
  else if flags.finished then .finished
  else if flags.yielded then .yielded
  else if flags.started then .running
  else .created

/-- A thread of script calls. -/
structure Execution where
  /-- The call stack, innermost call first. -/
  frames : List Frame := []
  /-- The parameter registers. -/
  parameters : Vector Ref parameterCount := Vector.replicate parameterCount Ref.null
  /-- How far it has come. -/
  flags : Flags := {}
  /-- Count of frames made so far; each frame is numbered by it. -/
  issued : Nat := 0

namespace Execution

/-- The status of an execution. -/
def status (execution : Execution) : Status := execution.flags.status

/-- Forgets everything but the count of frames. -/
def clear (execution : Execution) : Execution := { issued := execution.issued }

/-- An empty call stack without an exception means that the first call has ended. -/
def settle (execution : Execution) : Execution :=
  if execution.frames.isEmpty && !execution.flags.exception && !execution.flags.aborted then
    { execution with flags := { execution.flags with finished := true } }
  else execution

/-- Suspends the execution before its next instruction. -/
def suspend (execution : Execution) : Execution :=
  { execution with flags := { execution.flags with yielded := true } }

/-- The frame at a depth, the innermost one being at depth zero. -/
def frame (execution : Execution) (depth : Nat) : Except Error Frame :=
  Error.indexOutOfRange.orElse execution.frames[depth]?

/-- Replaces the frame at a depth. -/
def setFrame (execution : Execution) (depth : Nat) (frame : Frame) : Execution :=
  { execution with frames := execution.frames.set depth frame }

/-- The reference in a parameter register. -/
def parameter (execution : Execution) (index : Nat) : Except Error Ref :=
  Error.indexOutOfRange.orElse execution.parameters[index]?

/-- The signatures of all calls, innermost first. -/
def backtrace (execution : Execution) : List String :=
  execution.frames.map fun frame => frame.function.signature

/-- Drops calls down to the innermost one that catches a raised value, which goes on at its
handler. -/
def unwind (kind : Kind) (className : Option String) : List Frame → Option (List Frame)
  | [] => none
  | frame :: frames =>
    match frame.catch? kind className with
    | some handling => some (handling :: frames)
    | none => unwind kind className frames

/-- The handles that an execution keeps alive. -/
def roots (execution : Execution) : List Handle :=
  execution.parameters.toList.map Ref.handle ++ execution.frames.reverse.flatMap Frame.roots

end Execution

namespace Work

/-- Pushes a call, and tells the number of its frame. -/
def pushFrame (function : Function) : Work Execution Nat := do
  if (← get).frames.length < frameLimit then
    modifyGet fun execution =>
      let id := execution.issued + 1
      (id, { execution with
        frames := Frame.enter id function :: execution.frames, issued := id })
  else throw .stackFull

/-- Pops the innermost call. -/
def popFrame : Work Execution Unit := do
  match (← get).frames with
  | [] => throw .stackEmpty
  | _ :: frames => modify ({ · with frames })

/-- Starts over with the call of a function. What was there before is forgotten first. -/
def restart (entry : Function) : Work Execution Unit := do
  modify Execution.clear
  discard <| pushFrame entry

end Work

namespace Execution

/-- The number of the frame of a call, and the execution with it. -/
def pushFrame (execution : Execution) (function : Function) : Except Error (Nat × Execution) :=
  (Work.pushFrame function).result execution

/-- The execution without its innermost call. -/
def popFrame (execution : Execution) : Except Error Execution := Work.popFrame.changed execution

/-- The execution at the call of a function. -/
def restart (execution : Execution) (entry : Function) : Except Error Execution :=
  (Work.restart entry).changed execution

end Execution

end ScriptVm
