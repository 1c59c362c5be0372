import ScriptVm.Proofs.Execution.Frames
import ScriptVm.Proofs.Machine.Keeping
import ScriptVm.Proofs.Step.Runs

/-!
# What instructions keep

Every instruction, whether it faults or not, keeps what is known by name and the shape of its call,
and a call that it begins is that of a good function.
-/
namespace ScriptVm

/-- A scene comes from another by part of an instruction: the machine keeps what is known by name,
and the call stays where it was or inside its function. -/
structure Scene.Keeps (good : Function → Prop) (scene after : Scene) : Prop where
  /-- The machine. -/
  machine : scene.machine.Keeps good after.machine
  /-- The call. -/
  frame : scene.frame.Stays after.frame

/-- Nothing happens. -/
theorem Scene.Keeps.refl {good : Function → Prop} {scene : Scene}
    (stocked : scene.machine.Stocked good) : scene.Keeps good scene :=
  ⟨.refl stocked, .refl _⟩

/-- One thing happens after the other. -/
theorem Scene.Keeps.trans {good : Function → Prop} {scene middle after : Scene}
    (first : scene.Keeps good middle) (second : middle.Keeps good after) : scene.Keeps good after :=
  ⟨first.machine.trans second.machine, first.frame.trans second.frame⟩

namespace Step

variable {α β : Type} {good : Function → Prop} {scene : Scene}

/-- A part keeps the scene. When it goes on, its result and the scene after it meet a condition. -/
def Keeps (good : Function → Prop) (part : Step α) (scene : Scene) (post : α → Scene → Prop) :
    Prop :=
  match part.run scene with
  | .ok value after => scene.Keeps good after ∧ post value after
  | .error _ after => scene.Keeps good after

/-- No condition. -/
def whatever : α → Scene → Prop := fun _ _ => True

namespace Keeps

variable {post : α → Scene → Prop}

/-- Keeping the scene is leaving it so, in either way. -/
theorem iff_leaves {part : Step α} : Keeps good part scene post ↔
    part.Leaves scene (fun value after => scene.Keeps good after ∧ post value after)
      (scene.Keeps good) :=
  Iff.rfl

/-- A part that goes on. -/
theorem of_ok {part : Step α} {value : α} {after : Scene}
    (goes : part.run scene = .ok value after) (keeps : scene.Keeps good after)
    (meets : post value after) : Keeps good part scene post :=
  iff_leaves.mpr (.of_ok goes ⟨keeps, meets⟩)

/-- A part that keeps the scene and faults. -/
theorem of_fault {part : Step α} {fault : Fault} {after : Scene}
    (stops : part.run scene = .error fault after) (keeps : scene.Keeps good after) :
    Keeps good part scene post :=
  iff_leaves.mpr (.of_error stops keeps)

/-- A part that leaves the scene and faults. -/
theorem of_error (stocked : scene.machine.Stocked good) {part : Step α} {fault : Fault}
    (stops : part.run scene = .error fault scene) : Keeps good part scene post :=
  of_fault stops (.refl stocked)

/-- A result without conditions. -/
theorem pure (stocked : scene.machine.Stocked good) {value : α} (meets : post value scene) :
    Keeps good (Pure.pure value : Step α) scene post :=
  of_ok rfl (.refl stocked) meets

/-- One part after the other. -/
theorem bind {first : Step α} {second : α → Step β} {post' : β → Scene → Prop}
    (start : Keeps good first scene post)
    (next : ∀ value after, after.machine.Stocked good → post value after →
      Keeps good (second value) after post') :
    Keeps good (first >>= second) scene post' := by
  refine iff_leaves.mpr ((iff_leaves.mp start).bind fun value middle kept => ?_)
  obtain ⟨keeps, meets⟩ := kept
  have rest := iff_leaves.mp (next value middle keeps.machine.stocked meets)
  exact rest.mono (fun _ _ more => ⟨keeps.trans more.1, more.2⟩) fun _ more => keeps.trans more

/-- A weaker condition. -/
theorem weaken {part : Step α} {post' : α → Scene → Prop} (keeps : Keeps good part scene post)
    (weaker : ∀ value after, post value after → post' value after) :
    Keeps good part scene post' :=
  iff_leaves.mpr ((iff_leaves.mp keeps).mono
    (fun value after kept => ⟨kept.1, weaker value after kept.2⟩) fun _ => id)

/-- The run of another part from the same scene. -/
theorem of_run {part other : Step α} (same : part.run scene = other.run scene)
    (keeps : Keeps good other scene post) : Keeps good part scene post :=
  iff_leaves.mpr (.of_run same (iff_leaves.mp keeps))

/-- The result of a part is dropped. -/
theorem discard {part : Step α} (keeps : Keeps good part scene post) :
    Keeps good (Functor.discard part) scene whatever := by
  rw [discard_eq]
  exact keeps.bind fun _ _ stocked _ => .pure stocked trivial

end Keeps

/-- A part goes on with a result in the scene in which it started. -/
def sees (scene : Scene) (post : α → Prop) : α → Scene → Prop :=
  fun value after => after = scene ∧ post value

/-- The rest of a part after something was looked up. -/
theorem Keeps.bind_sees {first : Step α} {second : α → Step β} {post : α → Prop}
    {post' : β → Scene → Prop} (start : Keeps good first scene (sees scene post))
    (next : ∀ value, post value → Keeps good (second value) scene post') :
    Keeps good (first >>= second) scene post' := by
  refine start.bind ?_
  rintro value after _ ⟨rfl, meets⟩
  exact next value meets

/-- Taking the result of a lookup. -/
theorem keeps_orFault (stocked : scene.machine.Stocked good) (result : Except Error α) :
    Keeps good (orFault result) scene (sees scene fun value => result = .ok value) := by
  cases result with
  | ok value => exact .pure stocked ⟨rfl, rfl⟩
  | error error => exact .of_error stocked rfl

/-- Taking what was found. -/
theorem keeps_found (stocked : scene.machine.Stocked good) (fault : Fault) (result : Option α) :
    Keeps good (found fault result) scene (sees scene fun value => result = some value) := by
  cases result with
  | some value => exact .pure stocked ⟨rfl, rfl⟩
  | none => exact .of_error stocked rfl

/-- Looking a name up. -/
theorem keeps_name (stocked : scene.machine.Stocked good) (index : UInt32) :
    Keeps good (name index) scene (sees scene fun text =>
      scene.frame.function.module.string index.toNat = .ok text) :=
  .of_run (run_name scene index) (keeps_orFault stocked _)

/-- Reading a register. -/
theorem keeps_register (stocked : scene.machine.Stocked good) (index : UInt32) :
    Keeps good (register index) scene (sees scene fun value =>
      scene.frame.register index.toNat = .ok value) :=
  .of_run (run_register scene index) (keeps_orFault stocked _)

/-- Reading a parameter register. -/
theorem keeps_parameter (stocked : scene.machine.Stocked good) (index : Nat) :
    Keeps good (parameter index) scene (sees scene fun value =>
      Error.indexOutOfRange.orElse scene.parameters[index]? = .ok value) :=
  .of_run (run_parameter scene index) (keeps_orFault stocked _)

/-- Reading a value: a function is a good one. -/
theorem keeps_value (stocked : scene.machine.Stocked good) (reference : Ref) :
    Keeps good (value reference) scene (sees scene fun value =>
      ∀ function, value = .function function → good function) := by
  refine (Keeps.of_run (run_value scene reference) (keeps_found stocked _ _)).weaken ?_
  rintro value after ⟨rfl, found⟩
  refine ⟨rfl, ?_⟩
  rintro function rfl
  obtain ⟨proxy, resolved, cell⟩ := Heap.proxy?_of_value? found
  exact stocked.cells _ proxy function resolved cell

/-- Looking a function up. -/
theorem keeps_function (stocked : scene.machine.Stocked good) (signature : String) :
    Keeps good (function signature) scene (sees scene good) := by
  refine (Keeps.of_run (run_function scene signature) (keeps_found stocked _ _)).weaken ?_
  rintro function after ⟨rfl, found⟩
  exact ⟨rfl, stocked.functions function (Table.mem_values_of_find? found)⟩

/-- A part that changes the machine alone. -/
theorem keeps_machine {part : Step α} {result : α} {machine : Machine}
    (goes : part.run scene = .ok result { scene with machine })
    (keeps : scene.machine.Keeps good machine) : Keeps good part scene whatever :=
  .of_ok goes ⟨keeps, .refl _⟩ trivial

/-- A part that stores a reference in the call. -/
theorem keeps_store (stocked : scene.machine.Stocked good) {part : Step α} {result : α}
    {value : Ref} {frame : Activation}
    (goes : part.run scene = .ok result { scene with machine := scene.machine.shade value, frame })
    (stays : scene.frame.Stays frame) : Keeps good part scene whatever :=
  .of_ok goes ⟨stocked.keeps_shade value, stays⟩ trivial

/-- Writing a register. -/
theorem keeps_setRegister (stocked : scene.machine.Stocked good) (index : UInt32) (value : Ref) :
    Keeps good (setRegister index value) scene whatever := by
  have run := run_setRegister scene index value
  split at run
  · rename_i frame done
    exact keeps_store stocked run (Activation.stays_setRegister done)
  · exact .of_error stocked run

/-- Writing a parameter register. -/
theorem keeps_setParameter (stocked : scene.machine.Stocked good) (index : Nat) (value : Ref) :
    Keeps good (setParameter index value) scene whatever := by
  have run := run_setParameter scene index value
  split at run
  · exact .of_ok run ⟨stocked.keeps_shade value, .refl _⟩ trivial
  · exact .of_error stocked run

/-- Making a value that is not a bad function. -/
theorem keeps_newValue (stocked : scene.machine.Stocked good) {value : Value}
    (fine : ∀ function, value = .function function → good function) :
    Keeps good (newValue value) scene whatever := by
  have run := run_newValue scene value
  split at run
  · refine keeps_machine run (stocked.keeps_allocate false ?_)
    intro function same
    exact fine function (by simpa using same)
  · exact .of_error stocked run

end Step

namespace Place

open Step

variable {good : Function → Prop} {scene : Scene}

/-- Looking up what a site addresses. -/
theorem keeps_resolve (stocked : scene.machine.Stocked good) (site : Site)
    (operands : Operands UInt32 site.shapes) :
    Keeps good (resolve site operands) scene (sees scene fun _ => True) := by
  match site, operands with
  | .global, (name, ()) | .local, (name, ()) =>
    refine (keeps_name stocked name).bind_sees fun name _ => ?_
    exact .pure stocked ⟨rfl, trivial⟩
  | .parameter, (index, ()) => exact .pure stocked ⟨rfl, trivial⟩
  | .member, (register, name, ()) =>
    refine (keeps_name stocked name).bind_sees fun name _ => ?_
    refine (keeps_register stocked register).bind_sees fun target _ => ?_
    exact .pure stocked ⟨rfl, trivial⟩
  | .element, (register, index, ()) =>
    refine (keeps_register stocked register).bind_sees fun target _ => ?_
    exact .pure stocked ⟨rfl, trivial⟩

/-- Looking an object up behind a reference. -/
theorem keeps_object (stocked : scene.machine.Stocked good) (target : Ref) :
    Keeps good (object target) scene (sees scene fun found =>
      scene.machine.heap.object? found.1 = some found.2) := by
  have run := run_object scene target
  split at run
  · exact .of_error stocked run
  · split at run
    · exact .of_error stocked run
    · rename_i object found
      exact .of_ok run (.refl stocked) ⟨rfl, found⟩
  · exact .of_error stocked run

/-- Looking a member up. -/
theorem keeps_memberOf (stocked : scene.machine.Stocked good) (object : Object) (name : String) :
    Keeps good (memberOf object name) scene (sees scene fun _ => True) := by
  have run := run_memberOf scene object name
  split at run
  · exact .of_ok run (.refl stocked) ⟨rfl, trivial⟩
  · exact .of_error stocked run

/-- Reading a place. -/
theorem keeps_read (stocked : scene.machine.Stocked good) (place : Place) :
    Keeps good place.read scene (sees scene fun _ => True) := by
  have seen : ∀ {part : Step Ref} {post : Ref → Prop}, Keeps good part scene (sees scene post) →
      Keeps good part scene (sees scene fun _ => True) :=
    fun keeps => keeps.weaken fun _ _ meets => ⟨meets.1, trivial⟩
  cases place with
  | global name => exact seen (.of_run (run_readGlobal scene name) (keeps_found stocked _ _))
  | «local» name => exact seen (.of_run (run_readLocal scene name) (keeps_found stocked _ _))
  | parameter index => exact seen (keeps_parameter stocked index)
  | member target name =>
    refine (keeps_object stocked target).bind_sees fun ⟨reference, object⟩ _ => ?_
    refine (keeps_memberOf stocked object name).bind_sees fun member _ => ?_
    exact seen (keeps_orFault stocked _)
  | element target index =>
    refine (keeps_value stocked target).bind_sees fun content _ => ?_
    cases content with
    | array items => exact seen (keeps_found stocked _ _)
    | _ => exact .of_error stocked rfl

/-- Writing a member. -/
theorem keeps_writeMember (stocked : scene.machine.Stocked good) (target : Ref) (name : String)
    (value : Ref) : Keeps good (writeMember target name value) scene whatever := by
  refine (keeps_value stocked value).bind_sees fun content _ => ?_
  refine (keeps_object stocked target).bind_sees fun ⟨reference, object⟩ found => ?_
  refine (keeps_memberOf stocked object name).bind_sees fun member _ => ?_
  dsimp only
  split
  · exact .of_error stocked rfl
  · refine (keeps_orFault stocked (object.set member.index value)).bind_sees fun changed _ => ?_
    exact keeps_machine rfl ((stocked.keeps_setObject found changed).shade value)

/-- Writing an element. -/
theorem keeps_writeElement (stocked : scene.machine.Stocked good) (target : Ref) (index : Nat)
    (value : Ref) : Keeps good (writeElement target index value) scene whatever := by
  have run := run_writeElement scene target index value
  split at run
  · exact .of_error stocked run
  · split at run
    · exact .of_error stocked run
    · rename_i items found
      split at run
      · exact keeps_machine run ((stocked.keeps_setElement found index).shade value)
      · exact .of_error stocked run
    · exact .of_error stocked run

/-- Writing a place. -/
theorem keeps_write (stocked : scene.machine.Stocked good) (place : Place) (value : Ref) :
    Keeps good (place.write value) scene whatever := by
  cases place with
  | global name =>
    have run := run_writeGlobal scene name value
    show Keeps good (writeGlobal name value) scene whatever
    split at run
    · exact keeps_machine run (stocked.keeps_setGlobal name value)
    · exact .of_error stocked run
  | «local» name =>
    have run := run_writeLocal scene name value
    show Keeps good (writeLocal name value) scene whatever
    split at run
    · rename_i frame done
      exact keeps_store stocked run (Activation.stays_setLocalValue done)
    · exact .of_error stocked run
  | parameter index => exact keeps_setParameter stocked index value
  | member target name => exact keeps_writeMember stocked target name value
  | element target index => exact keeps_writeElement stocked target index value

end Place

namespace Instruction

open Step

variable {good : Function → Prop} {scene : Scene}

/-- Branching. -/
theorem keeps_jump (stocked : scene.machine.Stocked good) (distance : Distance) :
    Keeps good (jump distance) scene whatever := by
  have run := run_jump scene distance
  split at run
  · rename_i inside
    exact .of_ok run ⟨.refl stocked, Activation.stays_moveTo (by omega) (by omega)⟩ trivial
  · exact .of_error stocked run

/-- Taking a constant. -/
theorem keeps_constant (stocked : scene.machine.Stocked good) (constant : Constant UInt32) :
    Keeps good (Instruction.constant constant) scene whatever := by
  cases constant with
  | null => exact .pure stocked trivial
  | bool value | integer kind value | binary kind value => exact keeps_newValue stocked (by simp)
  | string index =>
    refine .of_run (run_stringConstant scene index) ?_
    exact (keeps_orFault stocked _).weaken fun _ _ _ => trivial

/-- Making an object. -/
theorem keeps_newObject (stocked : scene.machine.Stocked good) (typeName : String) :
    Keeps good (newObject typeName) scene whatever := by
  have run := run_newObject scene typeName
  split at run
  · split at run
    · exact keeps_machine run (stocked.keeps_newInstance _ false)
    · exact .of_fault run ⟨stocked.keeps_withScrap _, .refl _⟩
  · exact .of_error stocked run

/-- Making an array. -/
theorem keeps_newArray (stocked : scene.machine.Stocked good) (length : Nat) :
    Keeps good (newArray length) scene whatever := by
  have run := run_newArray scene length
  split at run
  · exact .of_error stocked run
  · exact .of_run run (keeps_newValue stocked (by simp))

/-- Pushing on the operand stack. -/
theorem keeps_push (stocked : scene.machine.Stocked good) (value : Ref) :
    Keeps good (push value) scene whatever := by
  have run := run_push scene value
  split at run
  · rename_i frame done
    exact keeps_store stocked run (Activation.stays_push done)
  · exact .of_error stocked run
  · exact .of_error stocked run

/-- Popping from the operand stack. -/
theorem keeps_pop (stocked : scene.machine.Stocked good) : Keeps good pop scene whatever := by
  have run := run_pop scene
  split at run
  · exact .of_error stocked run
  · rename_i value stack top
    exact .of_ok run ⟨.refl stocked, Activation.stays_tail top⟩ trivial

/-- Copying the reference at a place into a register. -/
theorem keeps_load (stocked : scene.machine.Stocked good) (place : Place) (target : UInt32) :
    Keeps good (load place target) scene whatever := by
  refine (Place.keeps_read stocked place).bind_sees fun value _ => ?_
  exact (keeps_setRegister stocked target value).bind fun _ _ stocked _ => .pure stocked trivial

/-- The called function is good. -/
def enters (good : Function → Prop) : Outcome → Scene → Prop
  | .call function => fun _ => good function
  | _ => fun _ => True

/-- A part, and then proceeding. -/
theorem keeps_proceed {α : Type} {part : Step α} {post : α → Scene → Prop}
    (keeps : Keeps good part scene post) :
    Keeps good (part >>= fun _ => Pure.pure .proceed) scene (enters good) :=
  keeps.bind fun _ _ stocked _ => .pure stocked trivial

/-- The result of a part is put into a register before proceeding. -/
theorem keeps_result {part : Step Ref} {post : Ref → Scene → Prop} (target : UInt32)
    (keeps : Keeps good part scene post) :
    Keeps good (part >>= fun value => setRegister target value >>= fun _ => Pure.pure .proceed)
      scene (enters good) :=
  keeps.bind fun value _ stocked _ => keeps_proceed (keeps_setRegister stocked target value)

/-- Every instruction keeps the scene, and it begins calls of good functions only. -/
theorem keeps_execute (stocked : scene.machine.Stocked good) (instruction : Instruction UInt32) :
    Keeps good instruction.execute scene (enters good) := by
  match instruction with
  | ⟨.nop, ()⟩ | ⟨.abort, ()⟩ | ⟨.leave, ()⟩ | ⟨.yield, ()⟩ => exact .pure stocked trivial
  | ⟨.call, signature, ()⟩ =>
    refine (keeps_name stocked signature).bind_sees fun signature _ => ?_
    refine (keeps_function stocked signature).bind_sees fun function fine => ?_
    exact .pure stocked fine
  | ⟨.callValue, source, ()⟩ =>
    refine (keeps_register stocked source).bind_sees fun reference _ => ?_
    refine (keeps_value stocked reference).bind_sees fun content fine => ?_
    cases content with
    | function function => exact .pure stocked (fine function rfl)
    | _ => exact .of_error stocked rfl
  | ⟨.raise, source, ()⟩ =>
    exact (keeps_register stocked source).bind_sees fun _ _ => .pure stocked trivial
  | ⟨.loadConstant, target, value, ()⟩ => exact keeps_result target (keeps_constant stocked value)
  | ⟨.load site, target, operands⟩ =>
    refine (Place.keeps_resolve stocked site operands).bind_sees fun place _ => ?_
    exact keeps_proceed (keeps_load stocked place target).discard
  | ⟨.store site, operands⟩ =>
    show Keeps good (Place.resolve site (Operands.splitLast site.shapes operands).1 >>=
      fun place => Step.register (Operands.splitLast site.shapes operands).2 >>= fun value =>
      place.write value >>= fun _ => Pure.pure .proceed) scene (enters good)
    refine (Place.keeps_resolve stocked site _).bind_sees fun place _ => ?_
    refine (keeps_register stocked _).bind_sees fun value _ => ?_
    exact keeps_proceed (Place.keeps_write stocked place value)
  | ⟨.pull site, target, operands⟩ =>
    refine (Place.keeps_resolve stocked site operands).bind_sees fun place _ => ?_
    refine (keeps_load stocked place target).discard.bind fun _ _ stocked _ => ?_
    exact keeps_proceed (Place.keeps_write stocked place Ref.null)
  | ⟨.push, source, ()⟩ =>
    refine (keeps_register stocked source).bind_sees fun value _ => ?_
    exact keeps_proceed (keeps_push stocked value)
  | ⟨.pop, target, ()⟩ => exact keeps_result target (keeps_pop stocked)
  | ⟨.initObject, target, typeName, ()⟩ =>
    refine (keeps_name stocked typeName).bind_sees fun typeName _ => ?_
    exact keeps_result target (keeps_newObject stocked typeName)
  | ⟨.initArray, target, length, ()⟩ =>
    exact keeps_result target (keeps_newArray stocked length.toNat)
  | ⟨.initFunction, target, signature, ()⟩ =>
    refine (keeps_name stocked signature).bind_sees fun signature _ => ?_
    refine (keeps_function stocked signature).bind_sees fun function fine => ?_
    refine keeps_result target (keeps_newValue stocked ?_)
    rintro _ ⟨rfl⟩
    exact fine
  | ⟨.branch, distance, ()⟩ => exact keeps_proceed (keeps_jump stocked distance)
  | ⟨.branchIf expected, source, distance, ()⟩ =>
    refine (keeps_register stocked source).bind_sees fun reference _ => ?_
    refine (keeps_value stocked reference).bind_sees fun content _ => ?_
    refine (keeps_found stocked _ _).bind_sees fun truth _ => ?_
    dsimp only
    split
    · exact keeps_proceed (keeps_jump stocked distance)
    · exact .pure stocked trivial
  | ⟨.arithmetic operator, target, left, right, ()⟩ =>
    refine (keeps_register stocked left).bind_sees fun left _ => ?_
    refine (keeps_register stocked right).bind_sees fun right _ => ?_
    refine (keeps_value stocked left).bind_sees fun first _ => ?_
    refine (keeps_value stocked right).bind_sees fun second _ => ?_
    split
    · rename_i result computed
      have plain := Operator.apply_plain computed
      exact keeps_result target (keeps_newValue stocked fun function same =>
        absurd same (plain.ne_function function))
    · exact .of_error stocked rfl

end Instruction

end ScriptVm
