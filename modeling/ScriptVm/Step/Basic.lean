import ScriptVm.Instruction.Basic
import ScriptVm.Machine.Basic

/-!
# Steps of an instruction

An instruction works on the machine, on the parameter registers and on the frame of its call. A
fault stops it; what it had done before stays done.
-/
namespace ScriptVm

/-- What an instruction works on. -/
structure Scene where
  /-- The machine. -/
  machine : Machine
  /-- The parameter registers of the execution. -/
  parameters : Vector Ref parameterCount
  /-- The call. -/
  frame : Activation

/-- A part of an instruction. -/
abbrev Step := EStateM Fault Scene

namespace Step

/-- Goes on with a result, or faults with its error. -/
def orFault {α : Type} (result : Except Error α) : Step α :=
  match result with
  | .ok value => pure value
  | .error error => throw (.host error)

/-- Goes on with what was found, or faults. -/
def found {α : Type} (fault : Fault) (result : Option α) : Step α :=
  match result with
  | some value => pure value
  | none => throw fault

/-- Replaces the call. -/
def setFrame (frame : Activation) : Step Unit :=
  modify fun scene => { scene with frame }

/-- Changes the machine. -/
def onMachine (change : Machine → Machine) : Step Unit :=
  modify fun scene => { scene with machine := change scene.machine }

/-- Changes the machine, and tells something about the change. -/
def withMachine {α : Type} (change : Machine → α × Machine) : Step α :=
  modifyGet fun ⟨machine, parameters, frame⟩ =>
    let (result, machine) := change machine
    (result, ⟨machine, parameters, frame⟩)

/-- Lets the machine work; an error becomes a fault. -/
def work {α : Type} (work : Work Machine α) (fault : Error → Fault) : Step α :=
  fun ⟨machine, parameters, frame⟩ =>
    match work.run machine with
    | .ok value machine => .ok value ⟨machine, parameters, frame⟩
    | .error error machine => .error (fault error) ⟨machine, parameters, frame⟩

/-- Marks a stored reference while roots are being marked. -/
def shade (value : Ref) : Step Unit := onMachine (·.shade value)

/-- The text that a name operand stands for. -/
def name (index : UInt32) : Step String := do
  orFault ((← get).frame.function.module.string index.toNat)

/-- The reference in a register. -/
def register (index : UInt32) : Step Ref := do
  orFault ((← get).frame.register index.toNat)

/-- Puts a reference into a register. -/
def setRegister (index : UInt32) (value : Ref) : Step Unit := do
  setFrame (← orFault ((← get).frame.setRegister index.toNat value))
  shade value

/-- The reference in a parameter register. -/
def parameter (index : Nat) : Step Ref := do
  orFault (Error.indexOutOfRange.orElse (← get).parameters[index]?)

/-- Puts a reference into a parameter register. -/
def setParameter (index : Nat) (value : Ref) : Step Unit := do
  if index < parameterCount then
    modify fun scene => { scene with parameters := scene.parameters.setIfInBounds index value }
    shade value
  else throw (.host .indexOutOfRange)

/-- The value behind a reference. -/
def value (reference : Ref) : Step Value := do
  found .collectedValue ((← get).machine.heap.value? reference)

/-- A new value that nothing but the frame will keep alive. -/
def newValue (value : Value) : Step Ref := do
  orFault ((← get).machine.checkRoom 1)
  return ⟨← withMachine (·.allocate (.value value) false)⟩

/-- The function with a signature. -/
def function (signature : String) : Step Function := do
  found (.unknownFunction signature) ((← get).machine.registry.functions.find? signature)

end Step

end ScriptVm
