import ScriptVm.Proofs.Vm.Account
import ScriptVm.Proofs.Vm.Frames

/-!
# Failed calls

A call that fails leaves no trace: what is known by name, the executions and all proxies stay as
they were. Two kinds of calls may have allocated before they fail. What a load leaves behind is
strings, and what an instance leaves behind, when the heap has no room for all of it, is its first
proxies. None of them has a pin, and no reference leads to them.
-/
namespace ScriptVm

namespace Call

/-- The call loads a module. -/
def loads : Call → Bool
  | .load .. | .loadContainer .. => true
  | _ => false

/-- How many proxies the instance takes that the call makes. -/
def building : Call → Option Nat
  | .createObject _ => some Machine.instanceSize
  | .createException .. | .raiseException .. => some (1 + Machine.instanceSize)
  | _ => none

/-- What the call may leave on the heap when it fails. -/
def litter : Call → Cell → Prop
  | .load .. | .loadContainer .. => Machine.Wording
  | .createObject _ => fun cell => ∃ schema, cell = .object (Object.blank schema)
  | .createException _ message | .raiseException _ _ message => Machine.Scrap message
  | _ => fun _ => False

/-- The heap has room for the instance that the call makes, if it makes one. -/
def Fits (call : Call) (vm : Vm) : Prop :=
  ∀ count, call.building = some count → vm.machine.heap.hasRoom count = true

end Call

namespace Vm

variable {vm after : Vm} {call : Call} {error : Error}

/-- What a call to an execution answers. -/
def ask {α : Type} (vm : Vm) (id : Nat) (work : Work (Machine × Execution) α) :
    Except Error Unit :=
  match vm.execution? id with
  | none => .error .invalidArgument
  | some execution => work.answer (vm.machine, execution)

/-- What a call answers: that it has been made, or why it fails. The calls without an error of their
own are made. -/
def answer (vm : Vm) : Call → Except Error Unit
  | .load name image => (vm.machine.load name image).1
  | .loadContainer name bytes => (vm.machine.loadContainer name bytes).1
  | .addNative signature parameters returns callback =>
    (Work.addNative signature parameters returns callback).answer vm.machine
  | .addBuiltIn signature parameters returns callback =>
    (Work.addBuiltIn signature parameters returns callback).answer vm.machine
  | .bindNative signature callback => (Work.bindNative signature callback).answer vm.machine
  | .createArrayOf items => (Work.createArrayOf items).answer vm.machine
  | .createObject typeName => (Work.createObject typeName).answer vm.machine
  | .createFunctionValue signature => (Work.createFunctionValue signature).answer vm.machine
  | .createException exception message =>
    (Work.createException exception message).answer vm.machine
  | .copy reference => (Work.copy reference).answer vm.machine
  | .setPinned value pinned => (Work.setPinned value pinned).answer vm.machine
  | .setElement reference index value => (Work.setElement reference index value).answer vm.machine
  | .setMember reference name value => (Work.setMember reference name value).answer vm.machine
  | .global name => (Work.global name).answer vm.machine
  | .assignGlobal name value => (Work.assignGlobal name value).answer vm.machine
  | .addGlobal name value => (Work.addGlobal name value).answer vm.machine
  | .createExecution => Work.createExecution.answer vm
  | .restart id entry => vm.ask id (.onSecond (.restart entry))
  | .pushFrame id function => vm.ask id (.onSecond (.pushFrame function))
  | .popFrame id => vm.ask id (.onSecond .popFrame)
  | .setParameter id index value => vm.ask id (.setParameter index value)
  | .setRegister id depth index value =>
    vm.ask id (.storeInFrame depth value (·.setRegister index value))
  | .setLocalValue id depth name value =>
    vm.ask id (.storeInFrame depth value (·.setLocalValue name value))
  | .push id depth value => vm.ask id (.storeInFrame depth value (·.push value))
  | .pop id depth => vm.ask id (.onSecond (.pop depth))
  | .raiseValue id value severity => vm.ask id (.raiseValue value severity)
  | .raiseException id exception message => vm.ask id (.raiseException exception message)
  | .resume id => Functor.discard (vm.ready id)
  | .collectStep | .collect | .resetCollector | .close | .createValue _ _ | .createArray _
  | .createNative _ | .holdExecution _ | .dropExecution _ | .suspend _ | .turn _ | .leave _ _ =>
    .ok ()

/-- A virtual machine differs from another by its journal, and by litter on the heap without
pins. -/
structure Spares (litter : Cell → Prop) (vm after : Vm) : Prop where
  /-- The machine differs by litter without pins and by its journal. -/
  machine : vm.machine.Strews litter after.machine
  /-- All executions stay as they are. -/
  executions : after.executions = vm.executions
  /-- None has been created. -/
  created : after.created = vm.created
  /-- The roots are the same. -/
  roots : after.roots = vm.roots

namespace Spares

variable {litter : Cell → Prop}

/-- Strings lead nowhere, so that just what was reached is reached. -/
theorem reaches_iff (spares : vm.Spares Machine.Wording after) (handle : Handle) :
    after.Reaches handle ↔ vm.Reaches handle := by
  unfold Reaches
  rw [spares.roots]
  refine spares.machine.reaches_iff fun parent proxy _ absent resolved child listed => ?_
  obtain ⟨_, _, text, cell⟩ := spares.machine.fresh parent proxy absent resolved
  rw [cell] at listed
  exact absurd listed List.not_mem_nil

/-- Where references are accounted for, litter leads nowhere, whatever it is. -/
theorem reaches_iff_of_accounted (spares : vm.Spares litter after) (accounted : vm.Accounted)
    (handle : Handle) : after.Reaches handle ↔ vm.Reaches handle := by
  have issued : ∀ handle, vm.Reaches handle → vm.machine.heap.Issued handle :=
    fun _ => accounted.issued
  unfold Reaches at issued ⊢
  rw [spares.roots]
  exact spares.machine.reaches_iff_of_issued issued

/-- Where references are accounted for, litter is not reached. -/
theorem unreached (spares : vm.Spares litter after) (accounted : vm.Accounted) {handle : Handle}
    (absent : vm.machine.heap.proxy? handle = none)
    (present : after.machine.heap.contains handle = true) : ¬after.Reaches handle := by
  intro reached
  have issued := accounted.issued ((spares.reaches_iff_of_accounted accounted handle).mp reached)
  obtain ⟨proxy, resolved⟩ := Heap.contains_iff.mp present
  rw [spares.machine.gone handle issued absent] at resolved
  cases resolved

end Spares

/-- For want of room a standard exception is not made. -/
theorem outcome_newException {exception : ExceptionClass} (message : String) (pinned : Bool)
    {template : Object × Nat} (shaped : vm.machine.exceptionShape exception = .ok template)
    (full : ¬(Call.createException exception message).Fits vm) :
    (Work.newException exception message pinned).outcome vm.machine =
      (.error .badAllocation, vm.machine.withScraps template message) := by
  have tight : ¬vm.machine.heap.hasRoom (1 + Machine.instanceSize) = true := by
    simpa [Call.Fits, Call.building] using full
  rw [Work.outcome_newException, shaped]
  exact if_neg tight

end Vm

end ScriptVm
