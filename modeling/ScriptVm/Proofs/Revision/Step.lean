import ScriptVm.Proofs.Revision.Machine
import ScriptVm.Proofs.Step.Runs
import ScriptVm.Proofs.Value

/-!
# Instructions in revised scenes

Once it is decoded, an instruction does the same in a revised scene: it stops at the same fault or
gives the same result, with functions revised, and it leaves the revised scene. The rules follow the
parts of instructions.
-/
namespace ScriptVm

/-- A call of a function with new code. -/
def Activation.revise (revision : Revision) (activation : Activation) : Activation :=
  { activation with function := activation.function.revise revision }

/-- A scene whose functions have new code. -/
def Scene.revise (revision : Revision) (scene : Scene) : Scene :=
  ⟨scene.machine.revise revision, scene.parameters, scene.frame.revise revision⟩

/-- A way to go on whose called function has new code. -/
def Outcome.revise (revision : Revision) : Outcome → Outcome
  | .call called => .call (called.revise revision)
  | other => other

namespace Activation

variable (revision : Revision) (activation : Activation) (value : Ref)

/-- Writing a register commutes with a revision. -/
theorem setRegister_revise (index : Nat) :
    (activation.revise revision).setRegister index value =
      (activation.setRegister index value).map (Activation.revise revision) := by
  unfold setRegister
  split <;> rfl

/-- Writing a local variable commutes with a revision. -/
theorem setLocalValue_revise (name : String) :
    (activation.revise revision).setLocalValue name value =
      (activation.setLocalValue name value).map (Activation.revise revision) := by
  unfold setLocalValue
  have same : (activation.revise revision).locals = activation.locals := rfl
  rw [same]
  split <;> rfl

/-- Pushing an operand commutes with a revision. -/
theorem push_revise :
    (activation.revise revision).push value =
      (activation.push value).map (Activation.revise revision) := by
  unfold push
  have same : (activation.revise revision).stack = activation.stack := rfl
  rw [same]
  split <;> rfl

end Activation

/-- A plain value has no code. -/
theorem Value.Plain.revise {value : Value} (plain : value.Plain) (revision : Revision) :
    value.revise revision = value := by
  cases value <;> first | rfl | exact plain.elim

namespace Step

variable {α α' β β' : Type}

/-- The end of a run in a revised scene. -/
def reviseEnd (revision : Revision) (change : α → α') :
    EStateM.Result Fault Scene α → EStateM.Result Fault Scene α'
  | .ok value after => .ok (change value) (after.revise revision)
  | .error fault after => .error fault (after.revise revision)

/-- A part does in a revised scene what another one does in the scene itself. -/
def Commutes (revision : Revision) (change : α → α') (part : Step α) (part' : Step α') : Prop :=
  ∀ scene, part'.run (scene.revise revision) = reviseEnd revision change (part.run scene)

variable {revision : Revision} {change : α → α'} {change' : β → β'} {part : Step α}
  {part' : Step α'}

namespace Commutes

/-- One part after the other. -/
theorem bind {next : α → Step β} {next' : α' → Step β'}
    (first : Commutes revision change part part')
    (second : ∀ value, Commutes revision change' (next value) (next' (change value))) :
    Commutes revision change' (part >>= next) (part' >>= next') := by
  intro scene
  rw [run_bind, run_bind, first scene]
  cases part.run scene with
  | ok value after => exact second value after
  | error fault after => rfl

/-- A result. -/
theorem pure (value : α) :
    Commutes revision change (Pure.pure value) (Pure.pure (change value)) :=
  fun _ => rfl

/-- A fault. -/
theorem throw (fault : Fault) :
    Commutes revision change (MonadExcept.throw fault) (MonadExcept.throw fault) :=
  fun _ => rfl

/-- A result that is not used. -/
theorem discard (commutes : Commutes revision change part part') :
    Commutes revision id (Functor.discard part) (Functor.discard part') := by
  intro scene
  show (part' >>= fun _ => Pure.pure ()).run _ =
    reviseEnd revision id ((part >>= fun _ => Pure.pure ()).run scene)
  exact commutes.bind (fun _ => pure ()) scene

/-- A lookup with an error. -/
theorem orFault {look : Scene → Except Error α} {look' : Scene → Except Error α'}
    (run : ∀ scene, part.run scene = (Step.orFault (look scene)).run scene)
    (run' : ∀ scene, part'.run scene = (Step.orFault (look' scene)).run scene)
    (same : ∀ scene, look' (scene.revise revision) = (look scene).map change) :
    Commutes revision change part part' := by
  intro scene
  rw [run, run', same, run_orFault, run_orFault]
  cases look scene <;> rfl

/-- A lookup with a fault. -/
theorem found {fault : Fault} {look : Scene → Option α} {look' : Scene → Option α'}
    (run : ∀ scene, part.run scene = (Step.found fault (look scene)).run scene)
    (run' : ∀ scene, part'.run scene = (Step.found fault (look' scene)).run scene)
    (same : ∀ scene, look' (scene.revise revision) = (look scene).map change) :
    Commutes revision change part part' := by
  intro scene
  rw [run, run', same, run_found, run_found]
  cases look scene <;> rfl

/-- A result that is known already. -/
theorem known (result : Except Error α) :
    Commutes revision id (Step.orFault result) (Step.orFault result) := by
  cases result with
  | ok value => exact pure value
  | error error => exact throw _

/-- Something that has been found already, or not. -/
theorem seen (fault : Fault) (result : Option α) :
    Commutes revision id (Step.found fault result) (Step.found fault result) := by
  cases result with
  | some value => exact pure value
  | none => exact throw _

end Commutes

variable (revision)

/-- Looking a name up. -/
theorem commutes_name (index : UInt32) : Commutes revision id (name index) (name index) :=
  .orFault (run_name · index) (run_name · index) fun scene => by
    show scene.frame.function.module.string index.toNat = _
    cases scene.frame.function.module.string index.toNat <;> rfl

/-- Reading a register. -/
theorem commutes_register (index : UInt32) :
    Commutes revision id (register index) (register index) :=
  .orFault (run_register · index) (run_register · index) fun scene => by
    show scene.frame.register index.toNat = _
    cases scene.frame.register index.toNat <;> rfl

/-- Reading a parameter register. -/
theorem commutes_parameter (index : Nat) :
    Commutes revision id (parameter index) (parameter index) :=
  .orFault (run_parameter · index) (run_parameter · index) fun scene => by
    show Error.indexOutOfRange.orElse scene.parameters[index]? = _
    cases scene.parameters[index]? <;> rfl

/-- Reading a value. -/
theorem commutes_value (reference : Ref) :
    Commutes revision (Value.revise revision) (value reference) (value reference) :=
  .found (run_value · reference) (run_value · reference) fun scene =>
    Heap.value?_revise revision scene.machine.heap reference

/-- Looking a function up. -/
theorem commutes_function (signature : String) :
    Commutes revision (Function.revise revision) (function signature) (function signature) :=
  .found (run_function · signature) (run_function · signature) fun scene =>
    scene.machine.functions_revise revision signature

/-- Writing a register. -/
theorem commutes_setRegister (index : UInt32) (value : Ref) :
    Commutes revision id (setRegister index value) (setRegister index value) := by
  intro scene
  rw [run_setRegister, run_setRegister]
  simp only [Scene.revise, Activation.setRegister_revise, Machine.shade_revise]
  cases scene.frame.setRegister index.toNat value <;> rfl

/-- Writing a parameter register. -/
theorem commutes_setParameter (index : Nat) (value : Ref) :
    Commutes revision id (setParameter index value) (setParameter index value) := by
  intro scene
  rw [run_setParameter, run_setParameter]
  simp only [Scene.revise, Machine.shade_revise]
  split <;> rfl

/-- Making a value. -/
theorem commutes_newValue (value : Value) :
    Commutes revision id (newValue value) (newValue (value.revise revision)) := by
  intro scene
  have allocated := scene.machine.allocate_revise revision (.value value) false
  simp only [Cell.revise] at allocated
  rw [run_newValue, run_newValue]
  simp only [Scene.revise, Machine.heap_revise, Heap.hasRoom_revise, allocated]
  split <;> rfl

end Step

namespace Place

open Step

variable (revision : Revision)

/-- Finding the place that operands address. -/
theorem commutes_resolve (site : Site) (operands : Operands UInt32 site.shapes) :
    Commutes revision id (resolve site operands) (resolve site operands) := by
  match site, operands with
  | .global, (name, ()) => exact (commutes_name revision name).bind fun _ => .pure _
  | .local, (name, ()) => exact (commutes_name revision name).bind fun _ => .pure _
  | .parameter, (index, ()) => exact .pure _
  | .member, (register, name, ()) =>
    refine (commutes_name revision name).bind fun _ => ?_
    exact (commutes_register revision register).bind fun _ => .pure _
  | .element, (register, index, ()) =>
    exact (commutes_register revision register).bind fun _ => .pure _

/-- Looking an object up behind a reference. -/
theorem commutes_object (target : Ref) :
    Commutes revision id (object target) (object target) := by
  intro scene
  rw [run_object, run_object]
  simp only [Scene.revise, Machine.heap_revise, Heap.value?_revise, Heap.object?_revise]
  cases scene.machine.heap.value? target with
  | none => rfl
  | some content =>
    cases content with
    | object reference =>
      simp only [Option.map_some, Value.revise]
      cases scene.machine.heap.object? reference <;> rfl
    | _ => rfl

/-- Looking a member up. -/
theorem commutes_memberOf (object : Object) (name : String) :
    Commutes revision id (memberOf object name) (memberOf object name) := by
  unfold memberOf
  cases object.schema.member name with
  | ok member => exact .pure member
  | error error => exact .throw _

/-- Reading a place. -/
theorem commutes_read (place : Place) : Commutes revision id place.read place.read := by
  cases place with
  | global name =>
    refine .found (run_readGlobal · name) (run_readGlobal · name) fun scene => ?_
    show scene.machine.registry.globals.find? name = _
    cases scene.machine.registry.globals.find? name <;> rfl
  | «local» name =>
    refine .found (run_readLocal · name) (run_readLocal · name) fun scene => ?_
    show scene.frame.locals.find? name = _
    cases scene.frame.locals.find? name <;> rfl
  | parameter index => exact commutes_parameter revision index
  | member target name =>
    refine (commutes_object revision target).bind fun found => ?_
    refine (commutes_memberOf revision found.2 name).bind fun member => ?_
    exact .known _
  | element target index =>
    refine (commutes_value revision target).bind fun content => ?_
    cases content with
    | array items =>
      exact .seen _ _
    | _ => exact .throw _

/-- Writing a global. -/
theorem commutes_writeGlobal (name : String) (value : Ref) :
    Commutes revision id (writeGlobal name value) (writeGlobal name value) := by
  intro scene
  rw [run_writeGlobal, run_writeGlobal]
  simp only [Scene.revise, Machine.setGlobal_revise]
  have same : (scene.machine.revise revision).registry.globals = scene.machine.registry.globals :=
    rfl
  rw [same]
  split <;> rfl

/-- Writing a local variable. -/
theorem commutes_writeLocal (name : String) (value : Ref) :
    Commutes revision id (writeLocal name value) (writeLocal name value) := by
  intro scene
  rw [run_writeLocal, run_writeLocal]
  simp only [Scene.revise, Activation.setLocalValue_revise, Machine.shade_revise]
  cases scene.frame.setLocalValue name value <;> rfl

/-- Writing a member. -/
theorem commutes_writeMember (target : Ref) (name : String) (value : Ref) :
    Commutes revision id (writeMember target name value) (writeMember target name value) := by
  refine (commutes_value revision value).bind fun content => ?_
  refine (commutes_object revision target).bind fun found => ?_
  refine (commutes_memberOf revision found.2 name).bind fun member => ?_
  dsimp only [id]
  rw [Value.kind_revise]
  split
  · exact .throw _
  · refine (Commutes.known _).bind fun object scene => ?_
    have stored := scene.machine.setObject_revise revision found.1.handle object
    show EStateM.Result.ok () (Scene.mk
      (((scene.machine.revise revision).updateHeap
        (·.setCell found.1.handle (.object object))).shade value)
      scene.parameters (scene.frame.revise revision)) = _
    rw [stored, Machine.shade_revise]
    rfl

/-- Writing an element. -/
theorem commutes_writeElement (target : Ref) (index : Nat) (value : Ref) :
    Commutes revision id (writeElement target index value) (writeElement target index value) := by
  intro scene
  rw [run_writeElement, run_writeElement]
  simp only [Scene.revise, Machine.heap_revise, Heap.value?_revise, Machine.setElement_revise,
    Machine.shade_revise]
  split
  · rfl
  · cases scene.machine.heap.value? target with
    | none => rfl
    | some content =>
      cases content with
      | array items =>
        simp only [Option.map_some, Value.revise]
        split <;> rfl
      | _ => rfl

/-- Writing a place. -/
theorem commutes_write (place : Place) (value : Ref) :
    Commutes revision id (place.write value) (place.write value) := by
  cases place with
  | global name => exact commutes_writeGlobal revision name value
  | «local» name => exact commutes_writeLocal revision name value
  | parameter index => exact commutes_setParameter revision index value
  | member target name => exact commutes_writeMember revision target name value
  | element target index => exact commutes_writeElement revision target index value

end Place

namespace Instruction

open Step

variable (revision : Revision)

/-- Branching. -/
theorem commutes_jump (distance : Distance) :
    Commutes revision id (jump distance) (jump distance) := by
  intro scene
  have body : (scene.revise revision).frame.function.body = scene.frame.function.body := rfl
  have start : (scene.revise revision).frame.start = scene.frame.start := rfl
  rw [run_jump, run_jump, body, start]
  split <;> rfl

/-- Taking a constant. -/
theorem commutes_constant (constant : Constant UInt32) :
    Commutes revision id (Instruction.constant constant) (Instruction.constant constant) := by
  cases constant with
  | null => exact .pure _
  | bool value => exact commutes_newValue revision (.bool value)
  | integer kind value => exact commutes_newValue revision (.integer kind value)
  | binary kind value => exact commutes_newValue revision (.binary kind value)
  | string index =>
    refine .orFault (run_stringConstant · index) (run_stringConstant · index) fun scene => ?_
    show scene.frame.function.module.constant index.toNat = _
    cases scene.frame.function.module.constant index.toNat <;> rfl

/-- Making an object. -/
theorem commutes_newObject (typeName : String) :
    Commutes revision id (newObject typeName) (newObject typeName) := by
  intro scene
  rw [run_newObject, run_newObject]
  simp only [Scene.revise, Machine.schema_revise, Machine.heap_revise, Heap.hasRoom_revise,
    Machine.newInstance_revise, Machine.withScrap_revise]
  cases scene.machine.schema typeName with
  | error error => rfl
  | ok schema =>
    dsimp only
    split <;> rfl

/-- Making an array. -/
theorem commutes_newArray (length : Nat) :
    Commutes revision id (newArray length) (newArray length) := by
  intro scene
  rw [run_newArray, run_newArray]
  have limit : (scene.revise revision).machine.config = scene.machine.config := rfl
  rw [limit]
  split
  · rfl
  · exact commutes_newValue revision (.array (Array.replicate length Ref.null)) scene

/-- Pushing on the operand stack. -/
theorem commutes_push (value : Ref) : Commutes revision id (push value) (push value) := by
  intro scene
  rw [run_push, run_push]
  simp only [Scene.revise, Activation.push_revise, Machine.shade_revise]
  cases scene.frame.push value with
  | ok frame => rfl
  | error error => cases error <;> rfl

/-- Popping from the operand stack. -/
theorem commutes_pop : Commutes revision id pop pop := by
  intro scene
  rw [run_pop, run_pop]
  have same : (scene.revise revision).frame.stack = scene.frame.stack := rfl
  rw [same]
  cases scene.frame.stack <;> rfl

/-- Copying the reference at a place into a register. -/
theorem commutes_load (place : Place) (target : UInt32) :
    Commutes revision id (load place target) (load place target) := by
  refine (Place.commutes_read revision place).bind fun value => ?_
  exact (commutes_setRegister revision target value).bind fun _ => .pure value

variable {revision}

/-- A part, and then proceeding. -/
theorem commutes_proceed {α α' : Type} {change : α → α'} {part : Step α} {part' : Step α'}
    (commutes : Commutes revision change part part') :
    Commutes revision (Outcome.revise revision) (part >>= fun _ => Pure.pure Outcome.proceed)
      (part' >>= fun _ => Pure.pure Outcome.proceed) :=
  commutes.bind fun _ => .pure Outcome.proceed

/-- Storing a made reference in a register, and then proceeding. -/
theorem commutes_keep {part part' : Step Ref} (commutes : Commutes revision id part part')
    (target : UInt32) :
    Commutes revision (Outcome.revise revision)
      (part >>= fun value => setRegister target value >>= fun _ => Pure.pure Outcome.proceed)
      (part' >>= fun value => setRegister target value >>= fun _ => Pure.pure Outcome.proceed) :=
  commutes.bind fun value => commutes_proceed (commutes_setRegister revision target value)

variable (revision)

/-- An instruction does the same in a revised scene. -/
theorem commutes_execute (instruction : Instruction UInt32) :
    Commutes revision (Outcome.revise revision) instruction.execute instruction.execute := by
  match instruction with
  | ⟨.nop, ()⟩ => exact .pure Outcome.proceed
  | ⟨.abort, ()⟩ => exact .pure Outcome.abort
  | ⟨.leave, ()⟩ => exact .pure Outcome.leave
  | ⟨.yield, ()⟩ => exact .pure Outcome.yield
  | ⟨.call, signature, ()⟩ =>
    refine (commutes_name revision signature).bind fun signature => ?_
    exact (commutes_function revision signature).bind fun called => .pure (Outcome.call called)
  | ⟨.callValue, source, ()⟩ =>
    refine (commutes_register revision source).bind fun reference => ?_
    refine (commutes_value revision reference).bind fun content => ?_
    cases content with
    | function called => exact .pure (Outcome.call called)
    | _ => exact .throw _
  | ⟨.raise, source, ()⟩ =>
    exact (commutes_register revision source).bind fun value => .pure (Outcome.raise value)
  | ⟨.loadConstant, target, value, ()⟩ =>
    exact commutes_keep (commutes_constant revision value) target
  | ⟨.load site, target, operands⟩ =>
    refine (Place.commutes_resolve revision site operands).bind fun place => ?_
    exact commutes_proceed (commutes_load revision place target).discard
  | ⟨.store site, operands⟩ =>
    refine (Place.commutes_resolve revision site _).bind fun place => ?_
    refine (commutes_register revision _).bind fun value => ?_
    exact commutes_proceed (Place.commutes_write revision place value)
  | ⟨.pull site, target, operands⟩ =>
    refine (Place.commutes_resolve revision site operands).bind fun place => ?_
    refine (commutes_load revision place target).discard.bind fun _ => ?_
    exact commutes_proceed (Place.commutes_write revision place Ref.null)
  | ⟨.push, source, ()⟩ =>
    refine (commutes_register revision source).bind fun value => ?_
    exact commutes_proceed (commutes_push revision value)
  | ⟨.pop, target, ()⟩ => exact commutes_keep (commutes_pop revision) target
  | ⟨.initObject, target, typeName, ()⟩ =>
    refine (commutes_name revision typeName).bind fun typeName => ?_
    exact commutes_keep (commutes_newObject revision typeName) target
  | ⟨.initArray, target, length, ()⟩ =>
    exact commutes_keep (commutes_newArray revision length.toNat) target
  | ⟨.initFunction, target, signature, ()⟩ =>
    refine (commutes_name revision signature).bind fun signature => ?_
    refine (commutes_function revision signature).bind fun called => ?_
    exact commutes_keep (commutes_newValue revision (.function called)) target
  | ⟨.branch, distance, ()⟩ => exact commutes_proceed (commutes_jump revision distance)
  | ⟨.branchIf expected, source, distance, ()⟩ =>
    refine (commutes_register revision source).bind fun reference => ?_
    refine (commutes_value revision reference).bind fun content => ?_
    rw [Value.kind_revise, Value.condition?_revise]
    refine (Commutes.seen _ _).bind fun condition => ?_
    dsimp only [id]
    split
    · exact commutes_proceed (commutes_jump revision distance)
    · exact .pure Outcome.proceed
  | ⟨.arithmetic operator, target, left, right, ()⟩ =>
    refine (commutes_register revision left).bind fun left => ?_
    refine (commutes_register revision right).bind fun right => ?_
    refine (commutes_value revision left).bind fun first => ?_
    refine (commutes_value revision right).bind fun second => ?_
    rw [Operator.apply_revise]
    cases computed : operator.apply first second with
    | error fault => exact .throw fault
    | ok result =>
      have makes := commutes_newValue revision result
      rw [(Operator.apply_plain computed).revise revision] at makes
      exact commutes_keep makes target

end Instruction

end ScriptVm
