import ScriptVm.Proofs.Machine.Garbage
import ScriptVm.Proofs.Step.Locations
import ScriptVm.Proofs.Step.Reading

/-!
# What a fault of an instruction finds

An instruction looks up what it needs, allocates, and stores last. A store that fails stores
nothing, and pulling writes null only where it has just read, which does not fail. So a fault finds
the parameter registers and the call as they were before the instruction, and only garbage is new in
the machine. Popping is the exception: the operand is off the stack before the register is looked
at, and it is lost when there is no such register.
-/
namespace ScriptVm

/-- A scene looks like another: only garbage is new. -/
structure Scene.Resembles (scene after : Scene) : Prop where
  /-- The machine. -/
  machine : scene.machine.Scatters after.machine
  /-- The parameter registers. -/
  parameters : after.parameters = scene.parameters
  /-- The call. -/
  frame : after.frame = scene.frame

namespace Scene.Resembles

variable {scene middle after : Scene}

/-- Nothing has happened. -/
theorem refl (scene : Scene) : scene.Resembles scene := ⟨.refl _, rfl, rfl⟩

/-- One thing has happened after the other. -/
theorem trans (first : scene.Resembles middle) (second : middle.Resembles after) :
    scene.Resembles after :=
  ⟨first.machine.trans second.machine, second.parameters.trans first.parameters,
    second.frame.trans first.frame⟩

end Scene.Resembles

namespace Step

variable {α β : Type} {scene : Scene}

/-- A fault of a part finds the scene as it was, apart from garbage. When the part goes on, its
result and the scene after it meet a condition. -/
def Recoils (part : Step α) (scene : Scene) (post : α → Scene → Prop) : Prop :=
  match part.run scene with
  | .ok value after => post value after
  | .error _ after => scene.Resembles after

/-- Only garbage is new. -/
def alike (scene : Scene) : α → Scene → Prop := fun _ after => scene.Resembles after

/-- No condition. -/
def anyhow : α → Scene → Prop := fun _ _ => True

namespace Recoils

variable {post : α → Scene → Prop}

/-- Recoiling is leaving a scene for any that meets the condition, or for one that looks like it. -/
theorem iff_leaves {part : Step α} :
    part.Recoils scene post ↔ part.Leaves scene post scene.Resembles :=
  Iff.rfl

/-- A part that goes on. -/
theorem of_ok {part : Step α} {value : α} {after : Scene}
    (goes : part.run scene = .ok value after) (meets : post value after) :
    part.Recoils scene post :=
  iff_leaves.mpr (.of_ok goes meets)

/-- A part that leaves garbage and faults. -/
theorem of_fault {part : Step α} {fault : Fault} {after : Scene}
    (stops : part.run scene = .error fault after) (resembles : scene.Resembles after) :
    part.Recoils scene post :=
  iff_leaves.mpr (.of_error stops resembles)

/-- A part that leaves the scene and faults. -/
theorem of_error {part : Step α} {fault : Fault} (stops : part.run scene = .error fault scene) :
    part.Recoils scene post :=
  of_fault stops (.refl scene)

/-- The run of another part from the same scene. -/
theorem of_run {part other : Step α} (same : part.run scene = other.run scene)
    (recoils : other.Recoils scene post) : part.Recoils scene post :=
  iff_leaves.mpr (.of_run same (iff_leaves.mp recoils))

/-- One part after the other, of which the first leaves nothing but garbage. -/
theorem bind {first : Step α} {second : α → Step β} {post' : β → Scene → Prop}
    (start : first.Recoils scene (alike scene))
    (next : ∀ value after, scene.Resembles after → (second value).Recoils after post') :
    (first >>= second).Recoils scene post' := by
  refine iff_leaves.mpr ((iff_leaves.mp start).bind fun value middle resembles => ?_)
  have rest := iff_leaves.mp (next value middle resembles)
  exact rest.mono (fun _ _ => id) fun _ more => Scene.Resembles.trans resembles more

/-- The rest of a part after something was looked up. -/
theorem bind_reads {first : Step α} {second : α → Step β} {middle : α → Prop}
    {post' : β → Scene → Prop} (start : first.Reads middle)
    (next : ∀ value, first.run scene = .ok value scene → middle value →
      (second value).Recoils scene post') : (first >>= second).Recoils scene post' := by
  refine iff_leaves.mpr ((start.leaves scene.Resembles (.refl scene)).bind ?_)
  rintro value _ ⟨goes, rfl, meets⟩
  exact iff_leaves.mp (next value goes meets)

/-- A part, and then one that does not fault. -/
theorem bind_goes {first : Step α} {second : α → Step β} {post' : β → Scene → Prop}
    (start : first.Recoils scene post)
    (next : ∀ value after, post value after →
      ∃ result last, (second value).run after = .ok result last ∧ post' result last) :
    (first >>= second).Recoils scene post' := by
  refine iff_leaves.mpr ((iff_leaves.mp start).bind fun value middle meets => ?_)
  obtain ⟨result, last, ends, meets'⟩ := next value middle meets
  exact .of_ok ends meets'

/-- The result of a part is dropped. -/
theorem discard {part : Step α} (recoils : part.Recoils scene post) :
    (Functor.discard part).Recoils scene fun _ after => ∃ value, post value after :=
  iff_leaves.mpr (iff_leaves.mp recoils).discard

end Recoils

/-- Both parts of a sequence go on. -/
theorem of_bind {first : Step α} {second : α → Step β} {result : β} {after : Scene}
    (goes : (first >>= second).run scene = .ok result after) :
    ∃ value middle, first.run scene = .ok value middle ∧
      (second value).run middle = .ok result after := by
  rw [run_bind] at goes
  cases start : first.run scene with
  | error fault middle =>
    rw [start] at goes
    cases goes
  | ok value middle =>
    rw [start] at goes
    exact ⟨value, middle, rfl, goes⟩

/-- A result was taken. -/
theorem of_orFault {result : Except Error α} {value : α} {after : Scene}
    (goes : (orFault result).run scene = .ok value after) :
    result = .ok value ∧ after = scene := by
  cases result with
  | error error => cases goes
  | ok found =>
    cases goes
    exact ⟨rfl, rfl⟩

/-- Something was found. -/
theorem of_found {fault : Fault} {result : Option α} {value : α} {after : Scene}
    (goes : (found fault result).run scene = .ok value after) :
    result = some value ∧ after = scene := by
  cases result with
  | none => cases goes
  | some found =>
    cases goes
    exact ⟨rfl, rfl⟩

/-- Writing a register shades the stored reference. -/
theorem recoils_setRegister (index : UInt32) (value : Ref) :
    (setRegister index value).Recoils scene fun _ after =>
      ∃ registers, after = { scene with
        machine := scene.machine.shade value, frame := { scene.frame with registers } } := by
  have run := run_setRegister scene index value
  unfold Activation.setRegister at run
  split at run
  · rename_i frame done
    split at done
    · obtain rfl := Except.ok.inj done
      exact .of_ok run ⟨_, rfl⟩
    · cases done
  · exact .of_error run

/-- Writing a parameter register. -/
theorem recoils_setParameter (index : Nat) (value : Ref) :
    (setParameter index value).Recoils scene anyhow := by
  have run := run_setParameter scene index value
  split at run
  · exact .of_ok run trivial
  · exact .of_error run

/-- Making a value. -/
theorem recoils_newValue (orderly : scene.machine.collector.Orderly) (value : Value) :
    (newValue value).Recoils scene (alike scene) := by
  have run := run_newValue scene value
  split at run
  · exact .of_ok run ⟨Machine.scatters_allocate orderly _, rfl, rfl⟩
  · exact .of_error run

end Step

namespace Place

open Step

variable {scene after : Scene}

/-- Writing a member. -/
theorem recoils_writeMember (target : Ref) (name : String) (value : Ref) :
    (writeMember target name value).Recoils scene anyhow := by
  unfold writeMember
  refine .bind_reads (reads_value value) fun content _ _ => ?_
  refine .bind_reads (reads_object target) fun found _ _ => ?_
  obtain ⟨reference, object⟩ := found
  refine .bind_reads (reads_memberOf object name) fun member _ _ => ?_
  dsimp only
  split
  · exact .of_error rfl
  · refine .bind_reads (reads_orFault _) fun changed _ _ => ?_
    exact .of_ok rfl trivial

/-- Writing an element. -/
theorem recoils_writeElement (target : Ref) (index : Nat) (value : Ref) :
    (writeElement target index value).Recoils scene anyhow := by
  have run := run_writeElement scene target index value
  split at run
  · exact .of_error run
  · split at run
    · exact .of_error run
    · split at run
      · exact .of_ok run trivial
      · exact .of_error run
    · exact .of_error run

/-- A store that fails stores nothing. -/
theorem recoils_write (place : Place) (value : Ref) :
    (place.write value).Recoils scene anyhow := by
  cases place with
  | global name =>
    have run := run_writeGlobal scene name value
    split at run
    · exact .of_ok run trivial
    · exact .of_error run
  | «local» name =>
    have run := run_writeLocal scene name value
    split at run
    · exact .of_ok run trivial
    · exact .of_error run
  | parameter index => exact recoils_setParameter index value
  | member target name => exact recoils_writeMember target name value
  | element target index => exact recoils_writeElement target index value

/-- What it takes for a place to hold a reference. -/
def Holds (scene : Scene) (value : Ref) : Place → Prop
  | .global name => scene.machine.registry.globals.find? name = some value
  | .local name => scene.frame.locals.find? name = some value
  | .parameter index => scene.parameters[index]? = some value
  | .member target name => ∃ reference object member,
    scene.machine.heap.value? target = some (.object reference) ∧
      scene.machine.heap.object? reference = some object ∧
      object.schema.member name = .ok member ∧ object.members[member.index]? = some value
  | .element target index => ∃ items,
    scene.machine.heap.value? target = some (.array items) ∧ items[index]? = some value

/-- An object that was looked up is behind the reference. -/
theorem of_object {target : Ref} {found : ObjectRef × Object}
    (goes : (object target).run scene = .ok found after) :
    scene.machine.heap.value? target = some (.object found.1) ∧
      scene.machine.heap.object? found.1 = some found.2 ∧ after = scene := by
  rw [run_object] at goes
  split at goes
  · cases goes
  · rename_i reference content
    split at goes
    · cases goes
    · rename_i object inner
      cases goes
      exact ⟨content, inner, rfl⟩
  · cases goes

/-- A member that was looked up is declared. -/
theorem of_memberOf {object : Object} {name : String} {member : Member}
    (goes : (memberOf object name).run scene = .ok member after) :
    object.schema.member name = .ok member ∧ after = scene := by
  rw [run_memberOf] at goes
  split at goes
  · rename_i found declared
    cases goes
    exact ⟨declared, rfl⟩
  · cases goes

/-- A place from which a reference was read holds it. -/
theorem holds_of_read {place : Place} {value : Ref}
    (goes : place.read.run scene = .ok value after) : place.Holds scene value := by
  cases place with
  | global name => exact (of_found ((run_readGlobal scene name).symm.trans goes)).1
  | «local» name => exact (of_found ((run_readLocal scene name).symm.trans goes)).1
  | parameter index =>
    exact Error.orElse_eq_ok.mp (of_orFault ((run_parameter scene index).symm.trans goes)).1
  | member target name =>
    obtain ⟨⟨reference, object⟩, _, looked, rest⟩ := of_bind goes
    obtain ⟨content, inner, rfl⟩ := of_object looked
    obtain ⟨member, _, named, last⟩ := of_bind rest
    obtain ⟨declared, rfl⟩ := of_memberOf named
    exact ⟨reference, object, member, content, inner, declared,
      Error.orElse_eq_ok.mp (of_orFault last).1⟩
  | element target index =>
    obtain ⟨held, _, looked, rest⟩ := of_bind goes
    obtain ⟨content, rfl⟩ := of_found ((run_value scene target).symm.trans looked)
    cases held with
    | array items => exact ⟨items, content, (of_found rest).1⟩
    | _ => cases rest

/-- Shading a reference and writing a register leave what a place holds. -/
theorem Holds.shade {place : Place} {value : Ref} (holds : place.Holds scene value) (stored : Ref)
    (registers : Vector Ref registerCount) :
    place.Holds { scene with
      machine := scene.machine.shade stored, frame := { scene.frame with registers } } value := by
  have darkens := scene.machine.collector.darkens_shade stored.handle
  cases place with
  | global name | «local» name | parameter index => exact holds
  | member target name =>
    obtain ⟨reference, object, member, content, inner, declared, taken⟩ := holds
    exact ⟨reference, object, member, (darkens.value? target).trans content,
      (darkens.object? reference).trans inner, declared, taken⟩
  | element target index =>
    obtain ⟨items, content, taken⟩ := holds
    exact ⟨items, (darkens.value? target).trans content, taken⟩

/-- The location that a member is at. -/
theorem location?_member {target : Ref} {name : String} {reference : ObjectRef} {object : Object}
    {member : Member} (content : scene.machine.heap.value? target = some (.object reference))
    (inner : scene.machine.heap.object? reference = some object)
    (declared : object.schema.member name = .ok member) :
    (Place.member target name).location? scene =
      some (.part reference.handle member.index) := by
  simp [Place.location?, content, inner, declared, Except.toOption]

/-- The location that an element is at. -/
theorem location?_element {target : Ref} {index : Nat} {items : Array Ref}
    (content : scene.machine.heap.value? target = some (.array items)) :
    (Place.element target index).location? scene = some (.part target.handle index) := by
  simp [Place.location?, content]

/-- A place that holds a reference stands for the location where it is. -/
theorem Holds.exists_location {place : Place} {value : Ref} (holds : place.Holds scene value) :
    ∃ location, place.location? scene = some location ∧ scene.at? location = some value := by
  cases place with
  | global name => exact ⟨.global name, rfl, holds⟩
  | «local» name => exact ⟨.local name, rfl, holds⟩
  | parameter index => exact ⟨.parameter index, rfl, holds⟩
  | member target name =>
    obtain ⟨reference, object, member, content, inner, declared, taken⟩ := holds
    exact ⟨_, location?_member content inner declared, Heap.part?_of_object inner taken⟩
  | element target index =>
    obtain ⟨items, content, taken⟩ := holds
    exact ⟨_, location?_element content, Heap.part?_of_array content taken⟩

/-- Null can be written where a place holds a reference. It goes to the location that the place
stands for, and nothing else changes. -/
theorem Holds.run_write {place : Place} {value : Ref} (holds : place.Holds scene value)
    (lawful : scene.machine.heap.Lawful) {location : Location}
    (stands : place.location? scene = some location) :
    (place.write Ref.null).run scene = .ok () (scene.put location Ref.null) := by
  have null := lawful.value?_null
  cases place with
  | global name =>
    obtain rfl := Option.some.inj stands
    have known : scene.machine.registry.globals.contains name = true :=
      Option.isSome_iff_exists.mpr ⟨value, holds⟩
    have idle : scene.machine.setGlobal name Ref.null = { scene.machine with
        registry := { scene.machine.registry with
          globals := scene.machine.registry.globals.replace name Ref.null } } :=
      Machine.shade_null lawful
    have run := (run_writeGlobal scene name Ref.null).trans (if_pos known)
    rw [idle] at run
    exact run
  | «local» name =>
    obtain rfl := Option.some.inj stands
    have known : scene.frame.locals.contains name = true :=
      Option.isSome_iff_exists.mpr ⟨value, holds⟩
    have run := run_writeLocal scene name Ref.null
    rw [Activation.setLocalValue, if_pos known, Machine.shade_null lawful] at run
    exact run
  | parameter index =>
    obtain rfl := Option.some.inj stands
    obtain ⟨inside, _⟩ := Vector.getElem?_eq_some_iff.mp holds
    have run := (run_setParameter scene index Ref.null).trans (if_pos inside)
    rw [Machine.shade_null lawful] at run
    exact run
  | member target name =>
    obtain ⟨reference, object, member, content, inner, declared, taken⟩ := holds
    obtain rfl := Option.some.inj ((location?_member content inner declared).symm.trans stands)
    obtain ⟨inside, _⟩ := Array.getElem?_eq_some_iff.mp taken
    let cleared : Object :=
      { object with members := object.members.setIfInBounds member.index Ref.null }
    have shown : (Step.value Ref.null).run scene = .ok .null scene := by
      rw [run_value, run_found, null]
    have looked : (Place.object target).run scene = .ok (reference, object) scene := by
      simp only [run_object, content, inner]
    have named : (memberOf object name).run scene = .ok member scene := by
      simp only [run_memberOf, declared]
    have changed : object.set member.index Ref.null = .ok cleared := if_pos inside
    have run : (writeMember target name Ref.null).run scene =
        .ok () { scene with machine := (scene.machine.updateHeap
          (·.setCell reference.handle (.object cleared))).shade Ref.null } := by
      simp only [writeMember, run_bind, shown, looked, named, changed]
      rfl
    have part : scene.machine.heap.setCell reference.handle (.object cleared) =
        scene.machine.heap.setPart reference.handle member.index Ref.null := by
      obtain ⟨proxy, resolved, cell⟩ := Heap.proxy?_of_object? inner
      rw [← Heap.setCell_eq_setPart resolved, cell]
      rfl
    rw [Scene.put_part_null lawful (Heap.part?_of_object inner taken)
      (·.setCell reference.handle (.object cleared)) part] at run
    exact run
  | element target index =>
    obtain ⟨items, content, taken⟩ := holds
    obtain rfl := Option.some.inj ((location?_element content).symm.trans stands)
    obtain ⟨inside, _⟩ := Array.getElem?_eq_some_iff.mp taken
    have proper : target.isNull = false := by
      refine decide_eq_false ?_
      rintro rfl
      simp [null] at content
    have run := run_writeElement scene target index Ref.null
    simp only [proper, content, if_pos inside] at run
    have part : scene.machine.heap.setElement target.handle index Ref.null =
        scene.machine.heap.setPart target.handle index Ref.null := by
      obtain ⟨proxy, resolved, cell⟩ := Heap.proxy?_of_value? content
      rw [Heap.setElement_eq_setCell resolved, ← Heap.setCell_eq_setPart resolved, cell]
      rfl
    rw [Scene.put_part_null lawful (Heap.part?_of_array content taken)
      (·.setElement target.handle index Ref.null) part] at run
    exact run

end Place

namespace Instruction

open Step

variable {scene : Scene}

/-- Branching. -/
theorem recoils_jump (distance : Distance) : (jump distance).Recoils scene anyhow := by
  have run := run_jump scene distance
  split at run
  · exact .of_ok run trivial
  · exact .of_error run

/-- Taking a constant. -/
theorem recoils_constant (orderly : scene.machine.collector.Orderly)
    (constant : Constant UInt32) : (Instruction.constant constant).Recoils scene (alike scene) := by
  cases constant with
  | null => exact .of_ok rfl (.refl scene)
  | bool value | integer kind value | binary kind value => exact recoils_newValue orderly _
  | string index =>
    rcases reads_orFault (scene.frame.function.module.constant index.toNat) scene with
      ⟨value, goes, _⟩ | ⟨fault, stops⟩
    · exact .of_ok ((run_stringConstant scene index).trans goes) (.refl scene)
    · exact .of_error ((run_stringConstant scene index).trans stops)

/-- Making an object. -/
theorem recoils_newObject (orderly : scene.machine.collector.Orderly) (typeName : String) :
    (newObject typeName).Recoils scene (alike scene) := by
  have run := run_newObject scene typeName
  split at run
  · split at run
    · exact .of_ok run ⟨Machine.scatters_newInstance orderly _, rfl, rfl⟩
    · exact .of_fault run ⟨Machine.scatters_withScrap orderly _, rfl, rfl⟩
  · exact .of_error run

/-- Making an array. -/
theorem recoils_newArray (orderly : scene.machine.collector.Orderly) (length : Nat) :
    (newArray length).Recoils scene (alike scene) := by
  have run := run_newArray scene length
  split at run
  · exact .of_error run
  · exact .of_run run (recoils_newValue orderly _)

/-- Pushing on the operand stack. -/
theorem recoils_push (value : Ref) : (push value).Recoils scene anyhow := by
  have run := run_push scene value
  split at run
  · exact .of_ok run trivial
  · exact .of_error run
  · exact .of_error run

/-- Copying the reference at a place into a register leaves it where it is. -/
theorem recoils_load (place : Place) (target : UInt32) :
    (load place target).Recoils scene fun value after => place.Holds after value ∧
      (scene.machine.heap.Lawful → after.machine.heap.Lawful) := by
  refine .bind_reads (Place.reads_read place) fun value goes _ => ?_
  refine (recoils_setRegister target value).bind_goes ?_
  rintro _ _ ⟨registers, rfl⟩
  refine ⟨value, _, rfl, (Place.holds_of_read goes).shade value registers, ?_⟩
  exact (scene.machine.collector.darkens_shade value.handle).lawful

/-- A call begins in the scene in which the instruction started. -/
def callsFrom (scene : Scene) : Outcome → Scene → Prop :=
  fun outcome after => Calls outcome → after = scene

/-- A part, and then proceeding. -/
theorem recoils_proceed {α : Type} {part : Step α} {post : α → Scene → Prop} {origin : Scene}
    (recoils : part.Recoils scene post) :
    (part >>= fun _ => Pure.pure .proceed).Recoils scene (callsFrom origin) :=
  recoils.bind_goes fun _ after _ => ⟨.proceed, after, rfl, fun ⟨_, calls⟩ => by cases calls⟩

/-- The result of a part that only allocates is put into a register before proceeding. -/
theorem recoils_result {part : Step Ref} (target : UInt32)
    (recoils : part.Recoils scene (alike scene)) :
    (part >>= fun value => setRegister target value >>= fun _ => Pure.pure .proceed).Recoils scene
      (callsFrom scene) :=
  recoils.bind fun value _ _ => recoils_proceed (recoils_setRegister target value)

/-- An instruction that only reads. -/
theorem recoils_reads {part : Step Outcome} {post : Outcome → Prop} (reads : part.Reads post) :
    part.Recoils scene (callsFrom scene) := by
  rcases reads scene with ⟨outcome, goes, _⟩ | ⟨fault, stops⟩
  · exact .of_ok goes fun _ => rfl
  · exact .of_error stops

/-- The instruction pops an operand into a register that the call does not have. -/
def Forfeits (instruction : Instruction UInt32) (frame : Activation) : Prop :=
  ∃ target, instruction = ⟨.pop, target, ()⟩ ∧ registerCount ≤ target.toNat ∧ frame.stack ≠ []

/-- When popping loses the operand. -/
theorem forfeits_pop_iff {target : UInt32} {frame : Activation} :
    Forfeits ⟨.pop, target, ()⟩ frame ↔ registerCount ≤ target.toNat ∧ frame.stack ≠ [] := by
  constructor
  · rintro ⟨_, same, both⟩
    cases same
    exact both
  · exact fun both => ⟨target, rfl, both⟩

instance (instruction : Instruction UInt32) (frame : Activation) :
    Decidable (instruction.Forfeits frame) :=
  match instruction with
  | ⟨.pop, _, ()⟩ => decidable_of_iff _ forfeits_pop_iff.symm
  | ⟨.nop, _⟩ | ⟨.abort, _⟩ | ⟨.leave, _⟩ | ⟨.yield, _⟩ | ⟨.call, _⟩ | ⟨.callValue, _⟩
  | ⟨.raise, _⟩ | ⟨.loadConstant, _⟩ | ⟨.load _, _⟩ | ⟨.store _, _⟩ | ⟨.pull _, _⟩ | ⟨.push, _⟩
  | ⟨.initObject, _⟩ | ⟨.initArray, _⟩ | ⟨.initFunction, _⟩ | ⟨.branch, _⟩ | ⟨.branchIf _, _⟩
  | ⟨.arithmetic _, _⟩ => .isFalse fun ⟨_, same, _⟩ => by cases same

/-- Popping an operand goes on with writing it into the register. -/
theorem run_executePop (target : UInt32) {value : Ref} {stack : List Ref}
    (top : scene.frame.stack = value :: stack) :
    (execute ⟨.pop, target, ()⟩).run scene =
      (setRegister target value >>= fun _ => Pure.pure .proceed).run
        { scene with frame := { scene.frame with stack } } := by
  have unfolded : execute ⟨.pop, target, ()⟩ =
      pop >>= fun value => setRegister target value >>= fun _ => Pure.pure .proceed := rfl
  rw [unfolded, run_bind, run_pop, top]

/-- An operand that is popped into no register is lost, and nothing else is. -/
theorem run_forfeit {instruction : Instruction UInt32}
    (forfeits : instruction.Forfeits scene.frame) :
    ∃ operand stack, scene.frame.stack = operand :: stack ∧
      instruction.execute.run scene = .error (.host .indexOutOfRange)
        { scene with frame := { scene.frame with stack } } := by
  obtain ⟨target, rfl, beyond, filled⟩ := forfeits
  obtain ⟨operand, stack, top⟩ := List.exists_cons_of_ne_nil filled
  refine ⟨operand, stack, top, ?_⟩
  rw [run_executePop target top, run_bind, run_setRegister, Activation.setRegister,
    if_neg (Nat.not_lt.mpr beyond)]

/-- Popping into a register of the call, or from an empty operand stack. -/
theorem recoils_pop (target : UInt32)
    (kept : ¬Forfeits ⟨.pop, target, ()⟩ scene.frame) :
    (execute ⟨.pop, target, ()⟩).Recoils scene (callsFrom scene) := by
  cases top : scene.frame.stack with
  | nil =>
    have stops : pop.run scene = .error .operandStackUnderflow scene := by rw [run_pop, top]
    exact recoils_result target (.of_error stops)
  | cons operand stack =>
    have inside : target.toNat < registerCount := by
      by_contra beyond
      exact kept (forfeits_pop_iff.mpr ⟨Nat.not_lt.mp beyond, by simp [top]⟩)
    have run := run_executePop target top
    rw [run_bind, run_setRegister, Activation.setRegister, if_pos inside] at run
    exact .of_ok run fun ⟨_, calls⟩ => by cases calls

/-- A fault of an instruction that does not lose an operand finds the scene as it was, apart from
garbage. An instruction that writes a register and then clears a place does not fault in between. -/
theorem recoils_execute (orderly : scene.machine.collector.Orderly)
    (instruction : Instruction UInt32) (kept : ¬instruction.Forfeits scene.frame) :
    instruction.execute.Recoils scene (callsFrom scene) := by
  match instruction with
  | ⟨.nop, ()⟩ | ⟨.abort, ()⟩ | ⟨.leave, ()⟩ | ⟨.yield, ()⟩ => exact .of_ok rfl fun _ => rfl
  | ⟨.call, signature, ()⟩ => exact recoils_reads (reads_call signature)
  | ⟨.callValue, source, ()⟩ => exact recoils_reads (reads_callValue source)
  | ⟨.raise, source, ()⟩ =>
    exact .bind_reads (reads_register source) fun _ _ _ => .of_ok rfl fun _ => rfl
  | ⟨.loadConstant, target, value, ()⟩ =>
    exact recoils_result target (recoils_constant orderly value)
  | ⟨.load site, target, operands⟩ =>
    refine .bind_reads (Place.reads_resolve site operands) fun place _ _ => ?_
    exact recoils_proceed (recoils_load place target).discard
  | ⟨.store site, operands⟩ =>
    show (Place.resolve site (Operands.splitLast site.shapes operands).1 >>= fun place =>
      Step.register (Operands.splitLast site.shapes operands).2 >>= fun value =>
      place.write value >>= fun _ => Pure.pure .proceed).Recoils scene (callsFrom scene)
    refine .bind_reads (Place.reads_resolve site _) fun place _ _ => ?_
    refine .bind_reads (reads_register _) fun value _ _ => ?_
    exact recoils_proceed (Place.recoils_write place value)
  | ⟨.pull site, target, operands⟩ =>
    refine .bind_reads (Place.reads_resolve site operands) fun place _ _ => ?_
    refine (recoils_load place target).discard.bind_goes ?_
    rintro _ after ⟨value, holds, lawful⟩
    obtain ⟨location, stands, _⟩ := holds.exists_location
    have goes := holds.run_write (lawful orderly.lawful) stands
    refine ⟨.proceed, after.put location Ref.null, ?_, fun ⟨_, calls⟩ => by cases calls⟩
    rw [run_bind, goes]
    rfl
  | ⟨.push, source, ()⟩ =>
    refine .bind_reads (reads_register source) fun value _ _ => ?_
    exact recoils_proceed (recoils_push value)
  | ⟨.pop, target, ()⟩ => exact recoils_pop target kept
  | ⟨.initObject, target, typeName, ()⟩ =>
    refine .bind_reads (reads_name typeName) fun typeName _ _ => ?_
    exact recoils_result target (recoils_newObject orderly typeName)
  | ⟨.initArray, target, length, ()⟩ =>
    exact recoils_result target (recoils_newArray orderly length.toNat)
  | ⟨.initFunction, target, signature, ()⟩ =>
    refine .bind_reads (reads_name signature) fun signature _ _ => ?_
    refine .bind_reads (reads_function signature) fun function _ _ => ?_
    exact recoils_result target (recoils_newValue orderly _)
  | ⟨.branch, distance, ()⟩ => exact recoils_proceed (recoils_jump distance)
  | ⟨.branchIf expected, source, distance, ()⟩ =>
    refine .bind_reads (reads_register source) fun reference _ _ => ?_
    refine .bind_reads (reads_value reference) fun content _ _ => ?_
    refine .bind_reads (reads_found _ _) fun truth _ _ => ?_
    dsimp only
    split
    · exact recoils_proceed (recoils_jump distance)
    · exact .of_ok rfl fun _ => rfl
  | ⟨.arithmetic operator, target, left, right, ()⟩ =>
    refine .bind_reads (reads_register left) fun left _ _ => ?_
    refine .bind_reads (reads_register right) fun right _ _ => ?_
    refine .bind_reads (reads_value left) fun first _ _ => ?_
    refine .bind_reads (reads_value right) fun second _ _ => ?_
    split
    · exact recoils_result target (recoils_newValue orderly _)
    · exact .of_error rfl

end Instruction

end ScriptVm
