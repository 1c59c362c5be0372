import ScriptVm.Proofs.Step.Runs

/-!
# Parts of instructions that only read

Looking a name, a register, a value or a place up leaves the scene as it is, whether something is
found or not. Instructions that begin a call do nothing else.
-/
namespace ScriptVm

namespace Step

variable {α β : Type}

/-- A part only reads: it leaves every scene as it is, and what it goes on with meets a
condition. -/
def Reads (part : Step α) (post : α → Prop) : Prop :=
  ∀ scene, (∃ value, part.run scene = .ok value scene ∧ post value) ∨
    ∃ fault, part.run scene = .error fault scene

/-- No condition. -/
def always : α → Prop := fun _ => True

namespace Reads

/-- A result. -/
theorem pure {value : α} {post : α → Prop} (meets : post value) :
    Reads (Pure.pure value : Step α) post :=
  fun _ => .inl ⟨value, rfl, meets⟩

/-- A fault. -/
theorem throw (fault : Fault) {post : α → Prop} : Reads (MonadExcept.throw fault : Step α) post :=
  fun _ => .inr ⟨fault, rfl⟩

/-- The scene itself. -/
theorem get : Reads (MonadState.get : Step Scene) always :=
  fun scene => .inl ⟨scene, rfl, trivial⟩

/-- One part after the other. -/
theorem bind {first : Step α} {second : α → Step β} {middle : α → Prop} {post : β → Prop}
    (start : first.Reads middle) (next : ∀ value, middle value → (second value).Reads post) :
    (first >>= second).Reads post := by
  intro scene
  rw [run_bind]
  rcases start scene with ⟨value, goes, meets⟩ | ⟨fault, stops⟩
  · rw [goes]
    exact next value meets scene
  · rw [stops]
    exact .inr ⟨fault, rfl⟩

/-- A part that only reads leaves the scene in which it started. -/
theorem leaves {part : Step α} {post : α → Prop} (reads : part.Reads post) {scene : Scene}
    (stops : Scene → Prop) (meets : stops scene) :
    part.Leaves scene (fun value after =>
      part.run scene = .ok value scene ∧ after = scene ∧ post value) stops := by
  rcases reads scene with ⟨value, goes, found⟩ | ⟨fault, fails⟩
  · exact .of_ok goes ⟨goes, rfl, found⟩
  · exact .of_error fails meets

end Reads

/-- Taking a result. -/
theorem reads_orFault (result : Except Error α) : (orFault result).Reads always := by
  cases result with
  | ok value => exact .pure trivial
  | error error => exact .throw _

/-- Taking what was found. -/
theorem reads_found (fault : Fault) (result : Option α) : (found fault result).Reads always := by
  cases result with
  | some value => exact .pure trivial
  | none => exact .throw _

/-- Looking a name up. -/
theorem reads_name (index : UInt32) : (name index).Reads always :=
  Reads.get.bind fun _ _ => reads_orFault _

/-- Reading a register. -/
theorem reads_register (index : UInt32) : (register index).Reads always :=
  Reads.get.bind fun _ _ => reads_orFault _

/-- Reading a parameter register. -/
theorem reads_parameter (index : Nat) : (parameter index).Reads always :=
  Reads.get.bind fun _ _ => reads_orFault _

/-- Reading a value. -/
theorem reads_value (reference : Ref) : (value reference).Reads always :=
  Reads.get.bind fun _ _ => reads_found _ _

/-- Looking a function up. -/
theorem reads_function (signature : String) : (function signature).Reads always :=
  Reads.get.bind fun _ _ => reads_found _ _

end Step

namespace Place

open Step (Reads always)

/-- Finding out what the operands of a site address. -/
theorem reads_resolve : (site : Site) → (operands : Operands UInt32 site.shapes) →
    (resolve site operands).Reads always
  | .global, (name, ()) => (Step.reads_name name).bind fun _ _ => .pure trivial
  | .local, (name, ()) => (Step.reads_name name).bind fun _ _ => .pure trivial
  | .parameter, (_, ()) => .pure trivial
  | .member, (register, name, ()) =>
    (Step.reads_name name).bind fun _ _ =>
      (Step.reads_register register).bind fun _ _ => .pure trivial
  | .element, (register, _, ()) =>
    (Step.reads_register register).bind fun _ _ => .pure trivial

/-- Looking an object up. -/
theorem reads_object (target : Ref) : (object target).Reads always := by
  refine (Step.reads_value target).bind fun content _ => ?_
  cases content with
  | object reference =>
    exact Reads.get.bind fun _ _ => (Step.reads_found _ _).bind fun _ _ => .pure trivial
  | _ => exact .throw _

/-- Looking a member up. -/
theorem reads_memberOf (object : Object) (name : String) :
    (memberOf object name).Reads always := by
  unfold memberOf
  split
  · exact .pure trivial
  · exact .throw _

/-- Reading a place. -/
theorem reads_read (place : Place) : place.read.Reads always := by
  cases place with
  | global name => exact Reads.get.bind fun _ _ => Step.reads_found _ _
  | «local» name => exact Reads.get.bind fun _ _ => Step.reads_found _ _
  | parameter index => exact Step.reads_parameter index
  | member target name =>
    exact (reads_object target).bind fun _ _ =>
      (reads_memberOf _ name).bind fun _ _ => Step.reads_orFault _
  | element target index =>
    refine (Step.reads_value target).bind fun content _ => ?_
    cases content with
    | array items => exact Step.reads_found _ _
    | _ => exact .throw _

end Place

namespace Instruction

/-- The outcome is a call. -/
def Calls (outcome : Outcome) : Prop := ∃ function, outcome = .call function

/-- An instruction that calls a function by name reads, and then a call begins. -/
theorem reads_call (signature : UInt32) :
    (execute ⟨.call, signature, ()⟩).Reads Calls :=
  (Step.reads_name signature).bind fun _ _ =>
    (Step.reads_function _).bind fun function _ => .pure ⟨function, rfl⟩

/-- An instruction that calls a function value reads, and then a call begins. -/
theorem reads_callValue (source : UInt32) :
    (execute ⟨.callValue, source, ()⟩).Reads Calls := by
  refine (Step.reads_register source).bind fun _ _ => ?_
  refine (Step.reads_value _).bind fun content _ => ?_
  cases content with
  | function function => exact .pure ⟨function, rfl⟩
  | _ => exact .throw _

end Instruction

end ScriptVm
