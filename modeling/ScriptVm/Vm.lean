import ScriptVm.Execution.Routine
import ScriptVm.Machine.Functions
import ScriptVm.Machine.Load
import ScriptVm.Step.Dispatch

/-!
# The virtual machine

A machine with its executions. The embedding program knows executions by number; an execution lives
as long as somebody holds it. What modules, globals and live executions refer to is what the
collector keeps.
-/
namespace ScriptVm

/-- An execution under its number. -/
structure HeldExecution where
  /-- Its number. -/
  id : Nat
  /-- How many times it is held. -/
  holders : Nat
  /-- The execution. -/
  execution : Execution

/-- A machine with its executions. -/
structure Vm where
  /-- What executions share. -/
  machine : Machine
  /-- Live executions, first created first. -/
  executions : List HeldExecution := []
  /-- Count of executions created so far. -/
  created : Nat := 0

namespace Vm

/-- A fresh virtual machine. -/
def create (config : Config) : Except Error Vm := do
  return { machine := ← Machine.create config }

/-- The execution with a number. -/
def execution? (vm : Vm) (id : Nat) : Option Execution :=
  (vm.executions.find? (·.id = id)).map HeldExecution.execution

/-- Changes the entry of an execution. -/
def updateExecution (vm : Vm) (id : Nat) (change : HeldExecution → HeldExecution) : Vm :=
  { vm with executions := vm.executions.map fun held => if held.id = id then change held else held }

/-- Replaces the execution with a number. -/
def setExecution (vm : Vm) (id : Nat) (execution : Execution) : Vm :=
  vm.updateExecution id fun held => { held with execution }

end Vm

/-- A new execution, which the caller holds. -/
def Work.createExecution : Work Vm Nat := do
  orFail (← get).machine.checkOpen
  modifyGet fun vm => (vm.created, { vm with
    executions := vm.executions ++ [⟨vm.created, 1, {}⟩], created := vm.created + 1 })

namespace Vm

/-- The number of a new execution, and the virtual machine with it. -/
def createExecution (vm : Vm) : Except Error (Nat × Vm) := Work.createExecution.result vm

/-- Holds an execution once more. -/
def holdExecution (vm : Vm) (id : Nat) : Vm :=
  vm.updateExecution id fun held => { held with holders := held.holders + 1 }

/-- Gives an execution back; it is gone when nobody holds it any more. -/
def dropExecution (vm : Vm) (id : Nat) : Vm :=
  let vm := vm.updateExecution id fun held => { held with holders := held.holders - 1 }
  { vm with executions := vm.executions.filter fun held => 0 < held.holders }

/-- Replaces the machine and an execution. -/
def put (vm : Vm) (id : Nat) (state : Machine × Execution) : Vm :=
  { vm.setExecution id state.2 with machine := state.1 }

/-- Lets an execution work on the machine. The machine is handed over, so that it is changed in
place. -/
def act (vm : Vm) (id : Nat) (work : Machine → Machine × Execution) : Vm :=
  let { machine, executions, created } := vm
  let (machine, execution) := work machine
  setExecution ⟨machine, executions, created⟩ id execution

/-- Working on the machine is replacing it and the execution by the result. -/
theorem act_eq_put (vm : Vm) (id : Nat) (work : Machine → Machine × Execution) :
    vm.act id work = vm.put id (work vm.machine) := rfl

/-- The roots of each category: the constants of modules, the globals, a null for every local
variable of a function, and what live executions refer to. -/
def rootsOf (registry : Registry) (executions : List HeldExecution) : RootSet
  | .constants =>
    registry.modules.values.flatMap fun module => module.constants.toList.map Ref.handle
  | .globals => registry.globals.values.map Ref.handle
  | .functions =>
    let initializers := registry.initializers.values.map Function.script
    (registry.functions.values ++ initializers).flatMap fun function =>
      function.localNames.map fun _ => Handle.null
  | .executions => executions.flatMap fun held => held.execution.roots

/-- The roots of a virtual machine. -/
def roots (vm : Vm) : RootSet := rootsOf vm.machine.registry vm.executions

/-- Lets the collector work. It is handed over with its heap, so that both are changed in place;
the roots do not refer to them. -/
def onCollector {α : Type} (vm : Vm) (work : RootSet → Collector → α × Collector) : α × Vm :=
  let { machine, executions, created } := vm
  let { config, registry, collector, journal, closed, nativeCount } := machine
  let (result, collector) := work (rootsOf registry executions) collector
  (result, ⟨⟨config, registry, collector, journal, closed, nativeCount⟩, executions, created⟩)

/-- Reports a completed collection, if that is asked for. -/
def reportCollection (vm : Vm) : Vm :=
  let stats := vm.machine.collector.stats
  if vm.machine.config.reportCollections then
    { vm with machine :=
      vm.machine.note (.collected stats.collections stats.lastDisposed stats.liveCount) }
  else vm

/-- One collector step. True when it completes a collection. -/
def collectStep (vm : Vm) : Bool × Vm :=
  let (completed, vm) := vm.onCollector fun roots collector => collector.step roots
  (completed, if completed then vm.reportCollection else vm)

/-- Collector steps, and how many of them complete a collection, after those already counted. -/
def collectSteps : Nat → Nat → Vm → Nat × Vm
  | 0, completed, vm => (completed, vm)
  | count + 1, completed, vm =>
    let (more, vm) := vm.collectStep
    collectSteps count (completed + more.toNat) vm

/-- Collector steps up to a phase, or until the fuel is used up, after those already counted. -/
def stepsUntil (phase : Phase) : Nat → Nat → Vm → Nat × Vm
  | 0, count, vm => (count, vm)
  | fuel + 1, count, vm =>
    if vm.machine.collector.cycle.phase = phase then (count, vm)
    else stepsUntil phase fuel (count + 1) vm.collectStep.2

/-- Collector steps up to a phase, and their count. The phase is reached before the second
completion of a collection. -/
def collectUntil (vm : Vm) (phase : Phase) : Nat × Vm :=
  stepsUntil phase (2 * vm.machine.collector.stepBound vm.roots) 0 vm

/-- Completes the collection under way. -/
def collect (vm : Vm) : Vm :=
  (vm.onCollector fun roots collector => ((), collector.run roots)).2.reportCollection

/-- Gives up the collection under way. -/
def resetCollector (vm : Vm) : Vm :=
  (vm.onCollector fun _ collector => ((), collector.reset)).2

end Vm

end ScriptVm
