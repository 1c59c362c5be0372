import ScriptVm.Machine.Functions
import ScriptVm.Proofs.Machine.Instances

/-!
# Checks before changes

What the embedding program asks of the machine is checked before anything is changed, so that it is
a computation without a state, and the machine stays as it is when it fails. Only an instance for
which there is no room leaves something behind.
-/
namespace ScriptVm

namespace Machine

variable (machine : Machine)

theorem createArrayOf_eq (items : Array Ref) :
    machine.createArrayOf items = do
      items.toList.forM machine.checkValue
      return machine.newValue (.array items) true := by
  simp only [createArrayOf, Work.createArrayOf, Work.result_get_bind, Work.result_orFail_bind,
    Work.result_modifyGet]
  rfl

theorem createFunctionValue_eq (signature : String) :
    machine.createFunctionValue signature = do
      return machine.newValue (.function (← machine.function signature)) true := by
  simp only [createFunctionValue, Work.createFunctionValue, Work.result_get_bind,
    Work.result_orFail_bind, Work.result_modifyGet]
  rfl

theorem copy_eq (reference : Ref) :
    machine.copy reference = do
      if reference.isNull then return (Ref.null, machine)
      return machine.newValue (← machine.value reference) true := by
  simp only [copy, Work.copy, Work.result_ite, Work.result_pure, Work.result_get_bind,
    Work.result_orFail_bind, Work.result_modifyGet]
  rfl

theorem setPinned_eq (value : Ref) (pinned : Bool) :
    machine.setPinned value pinned =
      match machine.heap.setPinned value.handle pinned with
      | some heap => .ok (machine.updateHeap fun _ => heap)
      | none => .error .invalidArgument := by
  simp only [setPinned, Work.setPinned, Work.changed_get_bind, Work.changed_orFail_bind,
    Work.changed_modify]
  cases machine.heap.setPinned value.handle pinned <;> rfl

theorem setElement_eq (reference : Ref) (index : Nat) (value : Ref) :
    machine.setElement reference index value = do
      machine.checkValue value
      if reference.isNull then throw .invalidArgument
      let items ← machine.items reference
      if items.size ≤ index then throw .indexOutOfRange
      return (machine.updateHeap (·.setElement reference.handle index value)).shade value := by
  simp only [setElement, Work.setElement, Work.changed_get_bind, Work.changed_orFail_bind,
    Work.changed_ite, Work.changed_throw_bind, Work.changed_modify]
  rfl

theorem setMember_eq (reference : Ref) (name : String) (value : Ref) :
    machine.setMember reference name value = do
      let inner ← machine.objectRef reference
      let kind ← machine.kind value
      let object ← machine.object inner
      let member ← object.schema.member name
      if kind ≠ .null ∧ kind ≠ member.kind then throw .invalidType
      let object ← object.set member.index value
      return (machine.updateHeap (·.setCell inner.handle (.object object))).shade value := by
  simp only [setMember, Work.setMember, Work.changed_get_bind, Work.changed_orFail_bind,
    Work.changed_ite, Work.changed_throw_bind, Work.changed_modify]
  rfl

theorem global_eq (name : String) :
    machine.global name = do
      let value ← Error.keyDoesNotExist.orElse (machine.registry.globals.find? name)
      return (value, machine.pin value) := by
  simp only [global, Work.global, Work.result_get_bind, Work.result_orFail_bind,
    Work.result_modify_bind, Work.result_pure]
  rfl

theorem assignGlobal_eq (name : String) (value : Ref) :
    machine.assignGlobal name value = (do
      machine.checkValue value
      if machine.registry.globals.contains name then return machine.setGlobal name value
      else throw .keyDoesNotExist) := by
  simp only [assignGlobal, Work.assignGlobal, Work.changed_get_bind, Work.changed_orFail_bind,
    Work.changed_ite, Work.changed_throw, Work.changed_modify]
  rfl

theorem addGlobal_eq (name : String) (value : Ref) :
    machine.addGlobal name value = do
      machine.checkValue value
      if machine.registry.globals.contains name then throw .keyAlreadyExists
      return { machine with registry := { machine.registry with
        globals := machine.registry.globals.add name value } }.shade value := by
  simp only [addGlobal, Work.addGlobal, Work.changed_get_bind, Work.changed_orFail_bind,
    Work.changed_ite, Work.changed_throw_bind, Work.changed_modify]
  rfl

theorem addFunction_eq (function : Function) :
    machine.addFunction function = do
      machine.checkOpen
      if machine.registry.functions.contains function.signature then throw .keyAlreadyExists
      return { machine with registry := { machine.registry with
        functions := machine.registry.functions.add function.signature function } } := by
  simp only [addFunction, Work.addFunction, Work.changed_get_bind, Work.changed_orFail_bind,
    Work.changed_ite, Work.changed_throw_bind, Work.changed_modify]
  rfl

theorem addNative_eq (signature : String) (parameters returns : UInt16) (callback : Nat) :
    machine.addNative signature parameters returns callback = do
      let machine ← machine.addFunction (.host ⟨signature, parameters, returns, none, none⟩)
      return machine.bind signature (.callback callback) :=
  Work.changed_bind_modify

theorem bindNative_eq (signature : String) (callback : Nat) :
    machine.bindNative signature callback = (do
      match ← machine.function signature with
      | .host ⟨_, _, _, _, none⟩ => return machine.bind signature (.callback callback)
      | _ => throw .invalidType) := by
  simp only [bindNative, Work.bindNative, Work.changed_get_bind, Work.changed_orFail_bind]
  congr 1
  funext function
  rcases function with script | ⟨_, _, _, _, own | routine⟩ <;> rfl

end Machine

namespace Work

variable {machine : Machine}

theorem atomic_createArrayOf (items : Array Ref) : (createArrayOf items).Atomic machine :=
  atomic_get_bind <| atomic_orFail_bind fun _ _ => atomic_modifyGet

theorem atomic_createFunctionValue (signature : String) :
    (createFunctionValue signature).Atomic machine :=
  atomic_get_bind <| atomic_orFail_bind fun _ _ => atomic_modifyGet

theorem atomic_copy (reference : Ref) : (copy reference).Atomic machine := by
  unfold copy
  split
  · exact atomic_pure _
  · exact atomic_get_bind <| atomic_orFail_bind fun _ _ => atomic_modifyGet

theorem atomic_setPinned (value : Ref) (pinned : Bool) : (setPinned value pinned).Atomic machine :=
  atomic_get_bind <| atomic_orFail_bind fun _ _ => atomic_modify

theorem atomic_setElement (reference : Ref) (index : Nat) (value : Ref) :
    (setElement reference index value).Atomic machine := by
  refine atomic_get_bind <| atomic_orFail_bind fun _ _ => ?_
  split
  · exact atomic_throw_bind
  · refine atomic_get_bind <| atomic_orFail_bind fun items _ => ?_
    split
    · exact atomic_throw_bind
    · exact atomic_modify

theorem atomic_setMember (reference : Ref) (name : String) (value : Ref) :
    (setMember reference name value).Atomic machine := by
  refine atomic_get_bind <| atomic_orFail_bind fun inner _ => ?_
  refine atomic_get_bind <| atomic_orFail_bind fun kind _ => ?_
  refine atomic_get_bind <| atomic_orFail_bind fun object _ => ?_
  refine atomic_orFail_bind fun member _ => ?_
  split
  · exact atomic_throw_bind
  · exact atomic_orFail_bind fun _ _ => atomic_modify

theorem atomic_global (name : String) : (global name).Atomic machine := by
  refine atomic_get_bind <| atomic_orFail_bind fun value _ => ?_
  exact nofun

theorem atomic_assignGlobal (name : String) (value : Ref) :
    (assignGlobal name value).Atomic machine := by
  refine atomic_get_bind <| atomic_orFail_bind fun _ _ => atomic_get_bind ?_
  split
  · exact atomic_modify
  · exact atomic_throw

theorem atomic_addGlobal (name : String) (value : Ref) : (addGlobal name value).Atomic machine := by
  refine atomic_get_bind <| atomic_orFail_bind fun _ _ => atomic_get_bind ?_
  split
  · exact atomic_throw_bind
  · exact atomic_modify

theorem atomic_addFunction (function : Function) : (addFunction function).Atomic machine := by
  refine atomic_get_bind <| atomic_orFail_bind fun _ _ => atomic_get_bind ?_
  split
  · exact atomic_throw_bind
  · exact atomic_modify

theorem atomic_addNative (signature : String) (parameters returns : UInt16) (callback : Nat) :
    (addNative signature parameters returns callback).Atomic machine :=
  (atomic_addFunction _).bind_modify

theorem atomic_addBuiltIn (signature : String) (parameters returns : UInt16) (callback : Nat) :
    (addBuiltIn signature parameters returns callback).Atomic machine := atomic_addFunction _

theorem atomic_bindNative (signature : String) (callback : Nat) :
    (bindNative signature callback).Atomic machine := by
  refine atomic_get_bind <| atomic_orFail_bind fun function _ => ?_
  split
  · exact atomic_modify
  · exact atomic_throw

end Work

end ScriptVm
