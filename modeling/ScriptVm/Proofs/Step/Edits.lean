import ScriptVm.Proofs.Machine.Edits
import ScriptVm.Proofs.Step.Faults

/-!
# What instructions leave in place

An instruction edits the heap, whether it faults or not, and unless it branches, the call goes on
right after it. How the execution is to go on is settled by the operation alone: it says whether the
call ends, another one begins, a value is raised, or the execution waits or is aborted.
-/
namespace ScriptVm

/-- A value that is made from a computed result is not null when no such value is. -/
theorem ne_null_of_map {α : Type} {make : α → Value} {computation : Except Fault α} {result : Value}
    (computed : make <$> computation = .ok result) (proper : ∀ content, make content ≠ .null) :
    result ≠ .null := by
  cases computation with
  | error fault => cases computed
  | ok content =>
    obtain rfl := Except.ok.inj computed
    exact proper content

/-- The result of an operator is not null. -/
theorem Operator.apply_ne_null {operator : Operator} {left right result : Value}
    (computed : operator.apply left right = .ok result) : result ≠ .null := by
  unfold Operator.apply at computed
  split at computed
  · exact ne_null_of_map computed fun _ => nofun
  · split at computed
    · exact ne_null_of_map computed fun _ => nofun
    · cases computed
  · exact ne_null_of_map computed fun _ => nofun
  · exact ne_null_of_map computed fun _ => nofun
  · split at computed
    · obtain rfl := Except.ok.inj computed
      nofun
    · cases computed
  · cases computed

/-- The result of a cast is not null. -/
theorem Value.convert_ne_null {value : Value} {target : Kind} {result : Value}
    (converted : value.convert target = .ok result) : result ≠ .null := by
  unfold convert at converted
  split at converted
  · exact ne_null_of_map converted fun _ => nofun
  · exact ne_null_of_map converted fun _ => nofun
  · exact ne_null_of_map converted fun _ => nofun
  · obtain rfl := Except.ok.inj converted
    nofun
  · cases converted

/-- A call stands where another one does: in the same function, at the same byte and in the same
instruction. -/
structure Activation.Rests (activation after : Activation) : Prop where
  /-- The called function. -/
  function : after.function = activation.function
  /-- The next byte to decode. -/
  next : after.next = activation.next
  /-- The first byte of the instruction being executed. -/
  start : after.start = activation.start

namespace Activation

variable {activation after : Activation}

/-- Writing a register. -/
theorem rests_setRegister {index : Nat} {value : Ref}
    (done : activation.setRegister index value = .ok after) : activation.Rests after := by
  unfold setRegister at done
  split at done
  · obtain rfl := Except.ok.inj done
    exact ⟨rfl, rfl, rfl⟩
  · cases done

/-- Writing a local variable. -/
theorem rests_setLocalValue {name : String} {value : Ref}
    (done : activation.setLocalValue name value = .ok after) : activation.Rests after := by
  unfold setLocalValue at done
  split at done
  · obtain rfl := Except.ok.inj done
    exact ⟨rfl, rfl, rfl⟩
  · cases done

/-- Pushing on the operand stack. -/
theorem rests_push {value : Ref} (done : activation.push value = .ok after) :
    activation.Rests after := by
  unfold push at done
  split at done
  · obtain rfl := Except.ok.inj done
    exact ⟨rfl, rfl, rfl⟩
  · cases done

end Activation

/-- A scene comes from another by edits of the heap, and the call stands where it did. -/
structure Scene.Edits (scene after : Scene) : Prop where
  /-- The heap. -/
  machine : scene.machine.Edits after.machine
  /-- The call. -/
  frame : scene.frame.Rests after.frame

namespace Scene.Edits

variable {scene middle after : Scene}

/-- Nothing happens. -/
theorem refl (scene : Scene) : scene.Edits scene := ⟨.refl _, rfl, rfl, rfl⟩

/-- One thing happens after the other. -/
theorem trans (first : scene.Edits middle) (second : middle.Edits after) : scene.Edits after :=
  ⟨first.machine.trans second.machine, second.frame.function.trans first.frame.function,
    second.frame.next.trans first.frame.next, second.frame.start.trans first.frame.start⟩

end Scene.Edits

namespace Step

variable {α β : Type} {scene : Scene}

/-- A part edits the scene, and what it goes on with meets a condition. -/
def Edits (part : Step α) (scene : Scene) (post : α → Prop) : Prop :=
  match part.run scene with
  | .ok value after => scene.Edits after ∧ post value
  | .error _ after => scene.Edits after

namespace Edits

variable {post : α → Prop}

/-- Editing the scene is leaving it so, in either way. -/
theorem iff_leaves {part : Step α} : part.Edits scene post ↔
    part.Leaves scene (fun value after => scene.Edits after ∧ post value) scene.Edits :=
  Iff.rfl

/-- A part that goes on. -/
theorem of_ok {part : Step α} {value : α} {after : Scene} (goes : part.run scene = .ok value after)
    (edits : scene.Edits after) (meets : post value) : part.Edits scene post :=
  iff_leaves.mpr (.of_ok goes ⟨edits, meets⟩)

/-- A part that edits the scene and faults. -/
theorem of_fault {part : Step α} {fault : Fault} {after : Scene}
    (stops : part.run scene = .error fault after) (edits : scene.Edits after) :
    part.Edits scene post :=
  iff_leaves.mpr (.of_error stops edits)

/-- A part that leaves the scene and faults. -/
theorem of_error {part : Step α} {fault : Fault} (stops : part.run scene = .error fault scene) :
    part.Edits scene post :=
  of_fault stops (.refl scene)

/-- A part that only reads. -/
theorem of_reads {part : Step α} (reads : part.Reads post) : part.Edits scene post := by
  rcases reads scene with ⟨value, goes, meets⟩ | ⟨fault, stops⟩
  · exact of_ok goes (.refl scene) meets
  · exact of_error stops

/-- The run of another part from the same scene. -/
theorem of_run {part other : Step α} (same : part.run scene = other.run scene)
    (edits : other.Edits scene post) : part.Edits scene post :=
  iff_leaves.mpr (.of_run same (iff_leaves.mp edits))

/-- A result. -/
theorem pure {value : α} (meets : post value) : (Pure.pure value : Step α).Edits scene post :=
  of_ok rfl (.refl scene) meets

/-- One part after the other. -/
theorem bind {first : Step α} {second : α → Step β} {post' : β → Prop}
    (start : first.Edits scene post)
    (next : ∀ value after, post value → (second value).Edits after post') :
    (first >>= second).Edits scene post' := by
  refine iff_leaves.mpr ((iff_leaves.mp start).bind fun value middle edited => ?_)
  obtain ⟨edits, meets⟩ := edited
  have rest := iff_leaves.mp (next value middle meets)
  exact rest.mono (fun _ _ more => ⟨edits.trans more.1, more.2⟩) fun _ more => edits.trans more

/-- The rest of a part after something was looked up. -/
theorem bind_reads {first : Step α} {second : α → Step β} {middle : α → Prop} {post' : β → Prop}
    (start : first.Reads middle)
    (next : ∀ value, first.run scene = .ok value scene → middle value →
      (second value).Edits scene post') : (first >>= second).Edits scene post' := by
  refine iff_leaves.mpr ((start.leaves scene.Edits (.refl scene)).bind ?_)
  rintro value _ ⟨goes, rfl, meets⟩
  exact iff_leaves.mp (next value goes meets)

/-- A part whose result is passed over. -/
theorem discard {part : Step α} (edits : part.Edits scene post) :
    (Functor.discard part).Edits scene always := by
  rw [discard_eq]
  exact edits.bind fun _ _ _ => .pure trivial

end Edits

/-- Writing a register. -/
theorem edits_setRegister (index : UInt32) (value : Ref) :
    (setRegister index value).Edits scene always := by
  have run := run_setRegister scene index value
  split at run
  · rename_i frame done
    exact .of_ok run ⟨(Machine.Edits.refl _).shade value, Activation.rests_setRegister done⟩ trivial
  · exact .of_error run

/-- Writing a parameter register. -/
theorem edits_setParameter (index : Nat) (value : Ref) :
    (setParameter index value).Edits scene always := by
  have run := run_setParameter scene index value
  split at run
  · exact .of_ok run ⟨(Machine.Edits.refl _).shade value, rfl, rfl, rfl⟩ trivial
  · exact .of_error run

/-- Making a value. -/
theorem edits_newValue {value : Value} (proper : value ≠ .null) :
    (newValue value).Edits scene always := by
  have run := run_newValue scene value
  split at run
  · exact .of_ok run ⟨(Machine.Edits.refl _).allocate false fun _ => proper, rfl, rfl, rfl⟩ trivial
  · exact .of_error run

end Step

namespace Place

open Step (Edits always)

variable {scene : Scene}

/-- Writing a member. -/
theorem edits_writeMember (target : Ref) (name : String) (value : Ref) :
    (writeMember target name value).Edits scene always := by
  refine .bind_reads (Step.reads_value value) fun content read _ => ?_
  obtain ⟨shown, -⟩ := Step.of_found ((Step.run_value scene value).symm.trans read)
  refine .bind_reads (reads_object target) fun ⟨reference, object⟩ looked _ => ?_
  obtain ⟨-, found, -⟩ := of_object looked
  refine .bind_reads (reads_memberOf object name) fun member named _ => ?_
  obtain ⟨declared, -⟩ := of_memberOf named
  dsimp only
  split
  · exact .of_error rfl
  · rename_i fitting
    refine .bind_reads (Step.reads_orFault _) fun changed stored _ => ?_
    obtain ⟨done, -⟩ := Step.of_orFault stored
    have edits := Machine.edits_storeMember found declared shown fitting done
    exact .of_ok rfl ⟨edits, rfl, rfl, rfl⟩ trivial

/-- Writing an element. -/
theorem edits_writeElement (target : Ref) (index : Nat) (value : Ref) :
    (writeElement target index value).Edits scene always := by
  have run := run_writeElement scene target index value
  split at run
  · exact .of_error run
  · split at run
    · exact .of_error run
    · rename_i items found
      split at run
      · exact .of_ok run ⟨Machine.edits_storeElement found index, rfl, rfl, rfl⟩ trivial
      · exact .of_error run
    · exact .of_error run

/-- Writing a place. -/
theorem edits_write (place : Place) (value : Ref) : (place.write value).Edits scene always := by
  cases place with
  | global name =>
    have run := run_writeGlobal scene name value
    show (writeGlobal name value).Edits scene always
    split at run
    · exact .of_ok run ⟨Machine.edits_setGlobal _ name value, rfl, rfl, rfl⟩ trivial
    · exact .of_error run
  | «local» name =>
    have run := run_writeLocal scene name value
    show (writeLocal name value).Edits scene always
    split at run
    · rename_i frame done
      exact .of_ok run
        ⟨(Machine.Edits.refl _).shade value, Activation.rests_setLocalValue done⟩ trivial
    · exact .of_error run
  | parameter index => exact Step.edits_setParameter index value
  | member target name => exact edits_writeMember target name value
  | element target index => exact edits_writeElement target index value

end Place

namespace Opcode

/-- How the execution goes on after an operation. -/
def Ends : Opcode → Outcome → Prop
  | .abort, outcome => outcome = .abort
  | .leave, outcome => outcome = .leave
  | .yield, outcome => outcome = .yield
  | .call, outcome => ∃ function, outcome = .call function
  | .callValue, outcome => ∃ function, outcome = .call function
  | .raise, outcome => ∃ value, outcome = .raise value
  | _, outcome => outcome = .proceed

/-- The operation may go on elsewhere than right after it. -/
def branches : Opcode → Bool
  | .branch | .branchIf _ => true
  | _ => false

end Opcode

namespace Instruction

open Step (Edits always)

variable {scene : Scene}

/-- Making a constant. -/
theorem edits_constant (value : Constant UInt32) : (constant value).Edits scene always := by
  cases value with
  | null => exact .pure trivial
  | bool value => exact Step.edits_newValue nofun
  | integer kind value => exact Step.edits_newValue nofun
  | binary kind value => exact Step.edits_newValue nofun
  | string index => exact .of_reads (Step.Reads.get.bind fun _ _ => Step.reads_orFault _)

/-- Making an object. -/
theorem edits_newObject (typeName : String) : (newObject typeName).Edits scene always := by
  have run := run_newObject scene typeName
  split at run
  · rename_i schema _
    split at run
    · have edits : scene.machine.Edits (scene.machine.newInstance (Object.blank schema) false).2 :=
        (Machine.Edits.refl _).newInstance false fun _ => Object.fits_blank _ schema
      exact .of_ok run ⟨edits, rfl, rfl, rfl⟩ trivial
    · have edits : scene.machine.Edits (scene.machine.withScrap (Object.blank schema)) :=
        (Machine.Edits.refl _).withScrap fun _ => Object.fits_blank _ schema
      exact .of_fault run ⟨edits, rfl, rfl, rfl⟩
  · exact .of_error run

/-- Making an array. -/
theorem edits_newArray (length : Nat) : (newArray length).Edits scene always := by
  have run := run_newArray scene length
  split at run
  · exact .of_error run
  · exact .of_run run (Step.edits_newValue nofun)

/-- Pushing on the operand stack. -/
theorem edits_push (value : Ref) : (push value).Edits scene always := by
  have run := run_push scene value
  split at run
  · rename_i frame done
    exact .of_ok run ⟨(Machine.Edits.refl _).shade value, Activation.rests_push done⟩ trivial
  · exact .of_error run
  · exact .of_error run

/-- Popping from the operand stack. -/
theorem edits_pop : pop.Edits scene always := by
  have run := run_pop scene
  split at run
  · exact .of_error run
  · exact .of_ok run ⟨.refl _, rfl, rfl, rfl⟩ trivial

/-- Loading from a place. -/
theorem edits_load (place : Place) (target : UInt32) : (load place target).Edits scene always :=
  .bind_reads (Place.reads_read place) fun value _ _ =>
    (Step.edits_setRegister target value).bind fun _ _ _ => .pure trivial

/-- A part, and then proceeding. -/
theorem edits_proceed {α : Type} {part : Step α} {post : α → Prop} (edits : part.Edits scene post) :
    (part >>= fun _ => Pure.pure Outcome.proceed).Edits scene (· = .proceed) :=
  edits.bind fun _ _ _ => .pure rfl

/-- The result of a part is put into a register before proceeding. -/
theorem edits_result {part : Step Ref} {post : Ref → Prop} (target : UInt32)
    (edits : part.Edits scene post) :
    (part >>= fun value => Step.setRegister target value >>= fun _ =>
      Pure.pure Outcome.proceed).Edits scene (· = .proceed) :=
  edits.bind fun value _ _ => edits_proceed (Step.edits_setRegister target value)

/-- An instruction that does not branch edits the scene, and its operation tells how the execution
goes on. -/
theorem edits_execute (instruction : Instruction UInt32)
    (straight : instruction.opcode.branches = false) :
    instruction.execute.Edits scene instruction.opcode.Ends := by
  match instruction with
  | ⟨.nop, ()⟩ | ⟨.abort, ()⟩ | ⟨.leave, ()⟩ | ⟨.yield, ()⟩ => exact .pure rfl
  | ⟨.call, signature, ()⟩ => exact .of_reads (reads_call signature)
  | ⟨.callValue, source, ()⟩ => exact .of_reads (reads_callValue source)
  | ⟨.raise, source, ()⟩ =>
    exact .bind_reads (Step.reads_register source) fun value _ _ => .pure ⟨value, rfl⟩
  | ⟨.loadConstant, target, value, ()⟩ => exact edits_result target (edits_constant value)
  | ⟨.load site, target, operands⟩ =>
    refine .bind_reads (Place.reads_resolve site operands) fun place _ _ => ?_
    exact edits_proceed (edits_load place target).discard
  | ⟨.store site, operands⟩ =>
    show (Place.resolve site (Operands.splitLast site.shapes operands).1 >>= fun place =>
      Step.register (Operands.splitLast site.shapes operands).2 >>= fun value =>
      place.write value >>= fun _ => Pure.pure Outcome.proceed).Edits scene (· = .proceed)
    refine .bind_reads (Place.reads_resolve site _) fun place _ _ => ?_
    refine .bind_reads (Step.reads_register _) fun value _ _ => ?_
    exact edits_proceed (Place.edits_write place value)
  | ⟨.pull site, target, operands⟩ =>
    refine .bind_reads (Place.reads_resolve site operands) fun place _ _ => ?_
    refine (edits_load place target).discard.bind fun _ _ _ => ?_
    exact edits_proceed (Place.edits_write place Ref.null)
  | ⟨.push, source, ()⟩ =>
    refine .bind_reads (Step.reads_register source) fun value _ _ => ?_
    exact edits_proceed (edits_push value)
  | ⟨.pop, target, ()⟩ => exact edits_result target edits_pop
  | ⟨.initObject, target, typeName, ()⟩ =>
    refine .bind_reads (Step.reads_name typeName) fun typeName _ _ => ?_
    exact edits_result target (edits_newObject typeName)
  | ⟨.initArray, target, length, ()⟩ => exact edits_result target (edits_newArray length.toNat)
  | ⟨.initFunction, target, signature, ()⟩ =>
    refine .bind_reads (Step.reads_name signature) fun _ _ _ => ?_
    refine .bind_reads (Step.reads_function _) fun function _ _ => ?_
    exact edits_result target (Step.edits_newValue nofun)
  | ⟨.branch, _⟩ | ⟨.branchIf _, _⟩ => cases straight
  | ⟨.arithmetic operator, target, left, right, ()⟩ =>
    refine .bind_reads (Step.reads_register left) fun left _ _ => ?_
    refine .bind_reads (Step.reads_register right) fun right _ _ => ?_
    refine .bind_reads (Step.reads_value left) fun first _ _ => ?_
    refine .bind_reads (Step.reads_value right) fun second _ _ => ?_
    split
    · rename_i result computed
      exact edits_result target (Step.edits_newValue (Operator.apply_ne_null computed))
    · exact .of_error rfl

end Instruction

end ScriptVm
