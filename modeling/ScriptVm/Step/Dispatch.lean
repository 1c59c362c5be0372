import ScriptVm.Execution.Raise
import ScriptVm.Step.Handle

/-!
# Dispatch

One instruction of the innermost call, which has to be a script call: its operation is reported,
reads its operands and acts on them, and its fault is raised. A call that reaches the end of its
code returns.
-/
namespace ScriptVm

/-- The fault of an instruction whose operands cannot be read. -/
def Misread.fault : Misread → Fault
  | .truncated => .host .indexOutOfRange
  | .unknownKind byte => .invalidConstantKind byte
  | .notConstant kind => .notConstant kind

namespace Execution

/-- What an instruction of an execution works on. -/
def scene (machine : Machine) (execution : Execution) (frame : Activation) : Scene :=
  ⟨machine, execution.parameters, frame⟩

/-- An execution after an instruction of its innermost call. -/
def withScene (execution : Execution) (id : Nat) (below : List Frame) (scene : Scene) :
    Execution :=
  { execution with
    frames := .script id scene.frame :: below, parameters := scene.parameters }

/-- Reports a fault of an instruction and raises it. -/
def fail (machine : Machine) (execution : Execution) (fault : Fault) : Machine × Execution :=
  execution.raiseFault (machine.note (.faulted fault)) fault

/-- Goes on after an instruction. -/
def proceed (machine : Machine) (execution : Execution) : Outcome → Machine × Execution
  | .proceed => (machine, execution)
  | .leave => (machine, { execution with frames := execution.frames.tail })
  | .call function =>
    match execution.pushFrame function with
    | .ok (_, execution) => (machine, execution)
    | .error .stackFull => execution.fail machine .callStackOverflow
    | .error error => execution.fail machine (.host error)
  | .raise value => execution.raise machine value .normal
  | .yield => (machine, execution.suspend)
  | .abort => (machine, { execution with flags := { execution.flags with aborted := true } })

/-- Performs what an instruction of the innermost call does. -/
def perform (machine : Machine) (execution : Execution) (id : Nat) (frame : Activation)
    (below : List Frame) (effect : Effect) : Machine × Execution :=
  match effect.run (execution.scene machine frame) with
  | .ok outcome scene => (execution.withScene id below scene).proceed scene.machine outcome
  | .error fault scene => (execution.withScene id below scene).fail scene.machine fault

/-- Executes the instruction at the position of a call that is not at its end. -/
def dispatchAt (machine : Machine) (execution : Execution) (id : Nat) (frame : Activation)
    (below : List Frame) : Machine × Execution :=
  let execution := { execution with frames := .script id frame :: below }
  match frame.cursor.byte? with
  | none => execution.fail machine (.host .indexOutOfRange)
  | some (byte, cursor) =>
    match Opcode.ofByte? byte with
    | none => execution.fail machine (.invalidOpcode byte)
    | some opcode =>
      let machine := machine.note (.dispatched frame.start opcode)
      match opcode.handle cursor with
      | .error misread => execution.fail machine misread.fault
      | .ok (effect, cursor) => execution.perform machine id (frame.moveTo cursor.next) below effect

/-- One instruction of the innermost call. -/
def dispatch (machine : Machine) (execution : Execution) : Machine × Execution :=
  match execution.frames with
  | .script id frame :: below =>
    let frame := { frame with start := frame.next }
    if frame.function.body.stop ≤ frame.next then (machine, { execution with frames := below })
    else execution.dispatchAt machine id frame below
  | _ => (machine, execution)

end Execution

end ScriptVm
