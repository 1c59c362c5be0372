import ScriptVm.Proofs.Machine.Instances
import ScriptVm.Proofs.Step.Layout

/-!
# Runs of the parts of instructions

What each part of an instruction does to a scene, as one equation. The parts are built from these
equations by sequencing, which hands the scene on or stops at a fault.
-/
namespace ScriptVm

namespace Step

variable {α β : Type} (scene : Scene)

/-- One part after the other. -/
theorem run_bind (first : Step α) (second : α → Step β) :
    (first >>= second).run scene =
      match first.run scene with
      | .ok value after => (second value).run after
      | .error fault after => .error fault after := by
  show EStateM.bind first second scene = _
  unfold EStateM.bind EStateM.run
  cases first scene <;> rfl

/-- A part whose result is dropped. -/
theorem discard_eq (part : Step α) : Functor.discard part = part >>= fun _ => pure () := by
  rw [← map_eq_pure_bind]
  rfl

/-- A part whose result is dropped, and then another one. -/
theorem run_discard_bind (first : Step α) (second : Step β) :
    (Functor.discard first >>= fun _ => second).run scene =
      match first.run scene with
      | .ok _ after => second.run after
      | .error fault after => .error fault after := by
  rw [discard_eq, bind_assoc, run_bind]
  cases first.run scene <;> rfl

/-- The result of a lookup is taken, or its error is a fault. -/
theorem run_orFault (result : Except Error α) :
    (orFault result).run scene =
      match result with
      | .ok value => .ok value scene
      | .error error => .error (.host error) scene := by
  cases result <;> rfl

/-- What was found is taken, or its absence is a fault. -/
theorem run_found (fault : Fault) (result : Option α) :
    (found fault result).run scene =
      match result with
      | some value => .ok value scene
      | none => .error fault scene := by
  cases result <;> rfl

/-- The machine has worked. -/
theorem run_work (task : Work Machine α) (fault : Error → Fault) :
    (work task fault).run scene =
      match task.outcome scene.machine with
      | (.ok value, machine) => .ok value { scene with machine }
      | (.error error, machine) => .error (fault error) { scene with machine } := by
  unfold work Work.outcome EStateM.run
  dsimp only
  cases task scene.machine <;> rfl

/-- Looking a name up. -/
theorem run_name (index : UInt32) :
    (name index).run scene =
      (orFault (scene.frame.function.module.string index.toNat)).run scene := rfl

/-- Reading a register. -/
theorem run_register (index : UInt32) :
    (register index).run scene = (orFault (scene.frame.register index.toNat)).run scene := rfl

/-- Reading a parameter register. -/
theorem run_parameter (index : Nat) :
    (parameter index).run scene =
      (orFault (Error.indexOutOfRange.orElse scene.parameters[index]?)).run scene := rfl

/-- Reading a value. -/
theorem run_value (reference : Ref) :
    (value reference).run scene =
      (found .collectedValue (scene.machine.heap.value? reference)).run scene := rfl

/-- Looking a function up. -/
theorem run_function (signature : String) :
    (function signature).run scene =
      (found (.unknownFunction signature)
        (scene.machine.registry.functions.find? signature)).run scene := rfl

/-- Writing a register. -/
theorem run_setRegister (index : UInt32) (value : Ref) :
    (setRegister index value).run scene =
      match scene.frame.setRegister index.toNat value with
      | .ok frame => .ok () { scene with machine := scene.machine.shade value, frame }
      | .error error => .error (.host error) scene := by
  have unfolded : (setRegister index value).run scene =
      (orFault (scene.frame.setRegister index.toNat value) >>= fun frame =>
        setFrame frame >>= fun _ => shade value).run scene := rfl
  rw [unfolded, run_bind, run_orFault]
  cases scene.frame.setRegister index.toNat value <;> rfl

/-- Writing a parameter register. -/
theorem run_setParameter (index : Nat) (value : Ref) :
    (setParameter index value).run scene =
      if index < parameterCount then
        .ok () { scene with
          machine := scene.machine.shade value
          parameters := scene.parameters.setIfInBounds index value }
      else .error (.host .indexOutOfRange) scene := by
  unfold setParameter
  split <;> rfl

/-- Making a value. -/
theorem run_newValue (value : Value) :
    (newValue value).run scene =
      if scene.machine.heap.hasRoom 1 then
        .ok ⟨(scene.machine.allocate (.value value) false).1⟩
          { scene with machine := (scene.machine.allocate (.value value) false).2 }
      else .error (.host .badAllocation) scene := by
  have unfolded : (newValue value).run scene =
      (orFault (scene.machine.checkRoom 1) >>= fun _ => do
        return ⟨← withMachine (·.allocate (.value value) false)⟩).run scene := rfl
  rw [unfolded, run_bind, run_orFault, Machine.checkRoom]
  cases scene.machine.heap.hasRoom 1 <;> rfl

/-- A part leaves a scene: when it goes on, its result and the scene after it meet one condition,
and when it faults, the scene of the fault meets another. What instructions keep, move and edit, and
what their faults find, are conditions in this one judgement. -/
def Leaves (part : Step α) (scene : Scene) (goes : α → Scene → Prop) (stops : Scene → Prop) :
    Prop :=
  match part.run scene with
  | .ok value after => goes value after
  | .error _ after => stops after

namespace Leaves

variable {scene : Scene} {part other : Step α} {goes goes' : α → Scene → Prop}
  {stops stops' : Scene → Prop}

/-- A part that goes on. -/
theorem of_ok {value : α} {after : Scene} (run : part.run scene = .ok value after)
    (meets : goes value after) : part.Leaves scene goes stops := by
  rw [Leaves, run]
  exact meets

/-- A part that faults. -/
theorem of_error {fault : Fault} {after : Scene} (run : part.run scene = .error fault after)
    (meets : stops after) : part.Leaves scene goes stops := by
  rw [Leaves, run]
  exact meets

/-- The run of another part from the same scene. -/
theorem of_run (same : part.run scene = other.run scene) (leaves : other.Leaves scene goes stops) :
    part.Leaves scene goes stops := by
  rwa [Leaves, same]

/-- Weaker conditions. -/
theorem mono (leaves : part.Leaves scene goes stops)
    (weaker : ∀ value after, goes value after → goes' value after)
    (weaker' : ∀ after, stops after → stops' after) : part.Leaves scene goes' stops' := by
  cases run : part.run scene with
  | ok value after =>
    rw [Leaves, run] at leaves
    exact of_ok run (weaker value after leaves)
  | error fault after =>
    rw [Leaves, run] at leaves
    exact of_error run (weaker' after leaves)

/-- One part after the other: either may fault. -/
theorem bind {second : α → Step β} {post : β → Scene → Prop} (start : part.Leaves scene goes stops)
    (next : ∀ value middle, goes value middle → (second value).Leaves middle post stops) :
    (part >>= second).Leaves scene post stops := by
  rw [Leaves, run_bind]
  cases run : part.run scene with
  | ok value middle =>
    rw [Leaves, run] at start
    exact next value middle start
  | error fault middle =>
    rw [Leaves, run] at start
    exact start

/-- The result of a part is dropped. -/
theorem discard (leaves : part.Leaves scene goes stops) :
    (Functor.discard part).Leaves scene (fun _ after => ∃ value, goes value after) stops := by
  rw [discard_eq]
  exact leaves.bind fun value after meets => of_ok rfl ⟨value, meets⟩

end Leaves

end Step

namespace Place

variable (scene : Scene)

/-- Looking an object up behind a reference. -/
theorem run_object (target : Ref) :
    (object target).run scene =
      match scene.machine.heap.value? target with
      | none => .error .collectedValue scene
      | some (.object reference) =>
        match scene.machine.heap.object? reference with
        | none => .error .collectedObject scene
        | some object => .ok (reference, object) scene
      | some other => .error (.unmet .object other.kind) scene := by
  rw [object, Step.run_bind, Step.run_value, Step.run_found]
  cases scene.machine.heap.value? target with
  | none => rfl
  | some value =>
    cases value with
    | object reference =>
      show (Step.found .collectedObject (scene.machine.heap.object? reference) >>= fun object =>
        pure (reference, object)).run scene = _
      rw [Step.run_bind, Step.run_found]
      dsimp only
      cases scene.machine.heap.object? reference <;> rfl
    | _ => rfl

/-- Looking a member up. -/
theorem run_memberOf (object : Object) (name : String) :
    (memberOf object name).run scene =
      match object.schema.member name with
      | .ok found => .ok found scene
      | .error _ => .error (.noMember object.schema.typeName name) scene := by
  unfold memberOf
  cases object.schema.member name <;> rfl

/-- Reading a global. -/
theorem run_readGlobal (name : String) :
    (read (.global name)).run scene =
      (Step.found (.unknownGlobal name) (scene.machine.registry.globals.find? name)).run scene :=
  rfl

/-- Reading a local variable. -/
theorem run_readLocal (name : String) :
    (read (.local name)).run scene =
      (Step.found (.unknownLocal name) (scene.frame.locals.find? name)).run scene := rfl

/-- Writing a global. -/
theorem run_writeGlobal (name : String) (value : Ref) :
    (writeGlobal name value).run scene =
      if scene.machine.registry.globals.contains name then
        .ok () { scene with machine := scene.machine.setGlobal name value }
      else .error (.unknownGlobal name) scene := by
  have unfolded : (writeGlobal name value).run scene =
      (if scene.machine.registry.globals.contains name then
        Step.onMachine (·.setGlobal name value)
      else throw (.unknownGlobal name) : Step Unit).run scene := rfl
  rw [unfolded]
  split <;> rfl

/-- Writing a local variable. -/
theorem run_writeLocal (name : String) (value : Ref) :
    (writeLocal name value).run scene =
      match scene.frame.setLocalValue name value with
      | .ok frame => .ok () { scene with machine := scene.machine.shade value, frame }
      | .error _ => .error (.unknownLocal name) scene := by
  have unfolded : (writeLocal name value).run scene =
      (match scene.frame.setLocalValue name value with
      | .ok frame => do
        Step.setFrame frame
        Step.shade value
      | .error _ => throw (.unknownLocal name) : Step Unit).run scene := rfl
  rw [unfolded]
  cases scene.frame.setLocalValue name value <;> rfl

/-- Writing an element. -/
theorem run_writeElement (target : Ref) (index : Nat) (value : Ref) :
    (writeElement target index value).run scene =
      if target.isNull then .error .lostArray scene
      else match scene.machine.heap.value? target with
        | none => .error .lostArray scene
        | some (.array items) =>
          if index < items.size then
            .ok () { scene with machine :=
              (scene.machine.updateHeap (·.setElement target.handle index value)).shade value }
          else .error (.elementOutOfRange index items.size) scene
        | some other => .error (.unmet .array other.kind) scene := by
  unfold writeElement
  split
  · rfl
  · show (match scene.machine.heap.value? target with
      | none => throw .lostArray
      | some (.array items) =>
        if index < items.size then do
          Step.onMachine (·.updateHeap (·.setElement target.handle index value))
          Step.shade value
        else throw (.elementOutOfRange index items.size)
      | some other => throw (.unmet .array other.kind) : Step Unit).run scene = _
    cases scene.machine.heap.value? target with
    | none => rfl
    | some content =>
      cases content with
      | array items =>
        dsimp only
        split <;> rfl
      | _ => rfl

end Place

namespace Instruction

variable (scene : Scene)

/-- Branching. -/
theorem run_jump (distance : Distance) :
    (jump distance).run scene =
      if (scene.frame.function.body.start : Int) ≤ scene.frame.start + distance.toInt ∧
          scene.frame.start + distance.toInt < scene.frame.function.body.stop then
        .ok () { scene with
          frame := scene.frame.moveTo (scene.frame.start + distance.toInt).toNat }
      else .error (.branchOutside (scene.frame.start + distance.toInt)
        scene.frame.function.body.start scene.frame.function.body.stop) scene := by
  have unfolded : (jump distance).run scene =
      (if (scene.frame.function.body.start : Int) ≤ scene.frame.start + distance.toInt ∧
          scene.frame.start + distance.toInt < scene.frame.function.body.stop then
        Step.setFrame (scene.frame.moveTo (scene.frame.start + distance.toInt).toNat)
      else throw (.branchOutside (scene.frame.start + distance.toInt)
        scene.frame.function.body.start scene.frame.function.body.stop) : Step Unit).run scene :=
    rfl
  rw [unfolded]
  split <;> rfl

/-- Pushing on the operand stack. -/
theorem run_push (value : Ref) :
    (push value).run scene =
      match scene.frame.push value with
      | .ok frame => .ok () { scene with machine := scene.machine.shade value, frame }
      | .error .stackFull => .error .operandStackOverflow scene
      | .error error => .error (.host error) scene := by
  have unfolded : (push value).run scene =
      (match scene.frame.push value with
      | .ok frame => do
        Step.setFrame frame
        Step.shade value
      | .error .stackFull => throw .operandStackOverflow
      | .error error => throw (.host error) : Step Unit).run scene := rfl
  rw [unfolded]
  unfold Activation.push
  split <;> rfl

/-- Popping from the operand stack. -/
theorem run_pop :
    pop.run scene =
      match scene.frame.stack with
      | [] => .error .operandStackUnderflow scene
      | value :: stack => .ok value { scene with frame := { scene.frame with stack } } := by
  have fetched : (get : Step Scene).run scene = .ok scene scene := rfl
  unfold pop
  rw [Step.run_bind, fetched]
  dsimp only
  rw [Activation.pop]
  cases scene.frame.stack <;> rfl

/-- Taking a string constant. -/
theorem run_stringConstant (index : UInt32) :
    (constant (.string index)).run scene =
      (Step.orFault (scene.frame.function.module.constant index.toNat)).run scene := rfl

/-- Making an array. -/
theorem run_newArray (length : Nat) :
    (newArray length).run scene =
      if scene.machine.config.arrayLimit.toNat < length then
        .error (.arrayTooLong length scene.machine.config.arrayLimit.toNat) scene
      else (Step.newValue (.array (Array.replicate length Ref.null))).run scene := by
  show (if scene.machine.config.arrayLimit.toNat < length then
      throw (.arrayTooLong length scene.machine.config.arrayLimit.toNat)
    else Step.newValue (.array (Array.replicate length Ref.null)) : Step Ref).run scene = _
  split <;> rfl

/-- Making an object. What is left of one for which there is no room stays on the heap. -/
theorem run_newObject (typeName : String) :
    (newObject typeName).run scene =
      match scene.machine.schema typeName with
      | .ok schema =>
        if scene.machine.heap.hasRoom Machine.instanceSize then
          .ok (scene.machine.newInstance (Object.blank schema) false).1
            { scene with machine := (scene.machine.newInstance (Object.blank schema) false).2 }
        else
          .error (.host .badAllocation)
            { scene with machine := scene.machine.withScrap (Object.blank schema) }
      | .error _ => .error (.unknownType typeName) scene := by
  unfold newObject
  rw [Step.run_work, Work.outcome_newObject]
  cases known : scene.machine.schema typeName with
  | error error =>
    unfold Machine.schema at known
    cases found : scene.machine.registry.schemas.find? typeName with
    | none =>
      rw [found] at known
      rw [← Except.error.inj known]
    | some schema =>
      rw [found] at known
      cases known
  | ok schema =>
    by_cases room : scene.machine.heap.hasRoom Machine.instanceSize = true
    · simp only [if_pos room]
    · simp only [if_neg room]

end Instruction

end ScriptVm
