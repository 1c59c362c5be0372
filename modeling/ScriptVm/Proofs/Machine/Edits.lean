import ScriptVm.Proofs.Collector.Typing
import ScriptVm.Proofs.Machine.Loading

/-!
# Edits of the machine

Every operation of the machine but the work of the collector comes down to edits of the heap, and
none but loading a module changes the known object types. A standard exception fits as long as the
standard object types are the ones that the machine starts with.
-/
namespace ScriptVm

namespace Machine

variable {machine middle after : Machine}

/-- A machine comes from another by edits of the heap, and the object types stay. -/
structure Edits (machine after : Machine) : Prop where
  /-- The edits. -/
  collector : machine.collector.Edits after.collector
  /-- The object types. -/
  schemas : after.registry.schemas = machine.registry.schemas

namespace Edits

/-- Nothing that matters changes. -/
theorem of_same (collector : after.collector = machine.collector)
    (schemas : after.registry.schemas = machine.registry.schemas) : machine.Edits after :=
  ⟨collector ▸ .refl, schemas⟩

/-- Nothing happens. -/
theorem refl (machine : Machine) : machine.Edits machine := of_same rfl rfl

/-- One thing happens after the other. -/
theorem trans (first : machine.Edits middle) (second : middle.Edits after) :
    machine.Edits after :=
  ⟨first.collector.trans second.collector, second.schemas.trans first.schemas⟩

/-- A reference is shaded after other edits. -/
theorem shade (edits : machine.Edits after) (value : Ref) : machine.Edits (after.shade value) :=
  ⟨edits.collector.tail (.shade value.handle), edits.schemas⟩

/-- A cell that fits is allocated after other edits. -/
theorem allocate (edits : machine.Edits after) {cell : Cell} (pinned : Bool)
    (fits : after.heap.Typed → cell.Fits after.heap) :
    machine.Edits (after.allocate cell pinned).2 :=
  ⟨edits.collector.tail (.allocate pinned fits), edits.schemas⟩

/-- A value is made after other edits. -/
theorem newValue (edits : machine.Edits after) {value : Value} (pinned : Bool)
    (proper : after.heap.Typed → value ≠ .null) :
    machine.Edits (after.newValue value pinned).2 := by
  unfold Machine.newValue
  split
  · exact edits.allocate pinned proper
  · exact edits

/-- An instance is made after other edits. -/
theorem newInstance (edits : machine.Edits after) {object : Object} (pinned : Bool)
    (fits : after.heap.Typed → object.Fits after.heap) :
    machine.Edits (after.newInstance object pinned).2 := by
  have inner : machine.Edits (after.allocate (.object object) false).2 :=
    edits.allocate false fits
  exact inner.allocate pinned fun _ => nofun

/-- An instance is made after other edits, but there is no room for all of it. -/
theorem withScrap (edits : machine.Edits after) {object : Object}
    (fits : after.heap.Typed → object.Fits after.heap) :
    machine.Edits (after.withScrap object) := by
  unfold Machine.withScrap
  split
  · exact edits.allocate false fits
  · exact edits

end Edits

/-- Putting a reference into a global. -/
theorem edits_setGlobal (machine : Machine) (name : String) (value : Ref) :
    machine.Edits (machine.setGlobal name value) := by
  have replaced : machine.Edits { machine with registry := { machine.registry with
      globals := machine.registry.globals.replace name value } } := .of_same rfl rfl
  exact replaced.shade value

/-- Putting a reference into an element of an array. -/
theorem edits_storeElement {target value : Ref} {items : Array Ref}
    (found : machine.heap.value? target = some (.array items)) (index : Nat) :
    machine.Edits ((machine.updateHeap (·.setElement target.handle index value)).shade value) := by
  obtain ⟨proxy, resolved, cell⟩ := Heap.proxy?_of_value? found
  have edits : machine.Edits
      (machine.updateHeap (·.setCell target.handle (proxy.cell.setElement index value))) := by
    refine ⟨.single (.rewrite resolved ?_ ?_ ?_), rfl⟩ <;> rw [cell]
    · nofun
    · rfl
    · exact fun _ _ => nofun
  rw [updateHeap_setElement resolved]
  exact edits.shade value

/-- Putting a reference of the declared kind, or null, into a member of an object. -/
theorem edits_storeMember {target : ObjectRef} {object changed : Object} {name : String}
    {member : Member} {value : Ref} {content : Value}
    (found : machine.heap.object? target = some object)
    (declared : object.schema.member name = .ok member)
    (shown : machine.heap.value? value = some content)
    (fitting : ¬(content.kind ≠ .null ∧ content.kind ≠ member.kind))
    (done : object.set member.index value = .ok changed) :
    machine.Edits
      ((machine.updateHeap (·.setCell target.handle (.object changed))).shade value) := by
  obtain ⟨proxy, resolved, cell⟩ := Heap.proxy?_of_object? found
  have kinds : content.kind = .null ∨ content.kind = member.kind := by
    by_cases null : content.kind = .null
    · exact .inl null
    · exact .inr (Classical.not_not.mp fun other => fitting ⟨null, other⟩)
  have rewritten : machine.collector.Edit { machine.collector with
      heap := machine.heap.setCell target.handle (.object changed) } := by
    refine .rewrite resolved ?_ ?_ ?_ <;> rw [cell]
    · nofun
    · rfl
    · intro typed fits
      exact Object.Fits.set_eq_ok fits declared (typed.admits shown kinds) done
  have edits : machine.Edits (machine.updateHeap (·.setCell target.handle (.object changed))) :=
    ⟨.single rewritten, rfl⟩
  exact edits.shade value

/-- The object types of standard exceptions are the ones that a machine starts with. -/
def Standard (machine : Machine) : Prop :=
  ∀ exception : ExceptionClass, machine.registry.schemas.find? exception.name =
    some (Registry.standardSchema exception)

/-- Edits leave the standard object types. -/
theorem Standard.edits (standard : machine.Standard) (edits : machine.Edits after) :
    after.Standard := by
  intro exception
  rw [edits.schemas]
  exact standard exception

/-- What a standard exception is made from. -/
theorem Standard.exceptionShape_eq (standard : machine.Standard) (exception : ExceptionClass) :
    machine.exceptionShape exception =
      .ok (Object.blank (Registry.standardSchema exception), 0) := by
  have known : machine.schema exception.name = .ok (Registry.standardSchema exception) := by
    rw [schema, standard exception]
    rfl
  unfold exceptionShape
  rw [known]
  rfl

/-- What a standard exception is made from is at hand as long as there is room. -/
theorem Standard.exceptionTemplate_eq (standard : machine.Standard) (exception : ExceptionClass) :
    machine.exceptionTemplate exception =
      if machine.heap.hasRoom (1 + instanceSize) then
        .ok (Object.blank (Registry.standardSchema exception), 0)
      else .error .badAllocation := by
  unfold exceptionTemplate checkRoom
  rw [standard.exceptionShape_eq]
  split <;> rfl

/-- The object of a standard exception holds its message in a member for strings. -/
theorem fits_filled (orderly : machine.collector.Orderly) (exception : ExceptionClass)
    (message : String) :
    (filled (Object.blank (Registry.standardSchema exception), 0)
      (machine.allocate (.value (.string message)) false).1).Fits
      (machine.allocate (.value (.string message)) false).2.heap := by
  refine (Object.fits_blank _ _).set ?_
  intro name kind declared
  obtain ⟨-, rfl⟩ := Prod.mk.inj (Option.some.inj declared)
  exact orderly.admits_allocate (.string message) false

/-- A new exception fits. -/
theorem Edits.newException (edits : machine.Edits after) (orderly : after.collector.Orderly)
    (exception : ExceptionClass) (message : String) (pinned : Bool) :
    machine.Edits (after.newException (Object.blank (Registry.standardSchema exception), 0) message
      pinned).2 := by
  have text : machine.Edits (after.allocate (.value (.string message)) false).2 :=
    edits.allocate false fun _ => nofun
  exact text.newInstance pinned fun _ => fits_filled orderly exception message

/-- What is left of an exception fits. -/
theorem Edits.withScraps (edits : machine.Edits after) (orderly : after.collector.Orderly)
    (exception : ExceptionClass) (message : String) :
    machine.Edits (after.withScraps (Object.blank (Registry.standardSchema exception), 0)
      message) := by
  have text : machine.Edits (after.allocate (.value (.string message)) false).2 :=
    edits.allocate false fun _ => nofun
  unfold Machine.withScraps
  split
  · exact text.withScrap fun _ => fits_filled orderly exception message
  · exact edits

/-- Making a standard exception. -/
theorem Standard.edits_newException (standard : machine.Standard)
    (orderly : machine.collector.Orderly) {exception : ExceptionClass} {template : Object × Nat}
    (made : machine.exceptionTemplate exception = .ok template) (message : String) (pinned : Bool) :
    machine.Edits (machine.newException template message pinned).2 := by
  rw [standard.exceptionTemplate_eq] at made
  split at made
  · obtain rfl := Except.ok.inj made
    exact (Edits.refl machine).newException orderly exception message pinned
  · cases made

/-- Making an object, or what is left of it. -/
theorem edits_left_newObject (machine : Machine) (typeName : String) (pinned : Bool) :
    machine.Edits ((Work.newObject typeName pinned).left machine) := by
  unfold Work.left
  rw [Work.outcome_newObject]
  split
  · rename_i schema _
    split
    · exact (Edits.refl machine).newInstance pinned fun _ => Object.fits_blank _ schema
    · exact (Edits.refl machine).withScrap fun _ => Object.fits_blank _ schema
  · exact .refl machine

/-- Making a standard exception, or what is left of it. -/
theorem Standard.edits_left_newException (standard : machine.Standard)
    (orderly : machine.collector.Orderly) (exception : ExceptionClass) (message : String)
    (pinned : Bool) :
    machine.Edits ((Work.newException exception message pinned).left machine) := by
  unfold Work.left
  rw [Work.outcome_newException, standard.exceptionShape_eq]
  dsimp only
  split
  · exact (Edits.refl machine).newException orderly exception message pinned
  · exact (Edits.refl machine).withScraps orderly exception message

/-- Creating a value. -/
theorem edits_createValue (machine : Machine) (value : Value) :
    machine.Edits (machine.createValue value).2 := by
  unfold createValue
  split
  · exact .refl machine
  · rename_i proper
    exact (Edits.refl machine).newValue true fun _ => proper

/-- Creating an array. -/
theorem edits_createArray (machine : Machine) (length : Nat) :
    machine.Edits (machine.createArray length).2 := by
  unfold createArray
  split
  · exact .refl machine
  · exact (Edits.refl machine).newValue true fun _ => nofun

/-- Creating an array of given elements. -/
theorem edits_createArrayOf {items : Array Ref} {result : Ref × Machine}
    (done : machine.createArrayOf items = .ok result) : machine.Edits result.2 := by
  rw [createArrayOf_eq] at done
  obtain ⟨_, _, made⟩ := Except.bind_eq_ok done
  obtain rfl := Except.ok.inj made
  exact (Edits.refl machine).newValue true fun _ => nofun

/-- Creating a value for a function. -/
theorem edits_createFunctionValue {signature : String} {result : Ref × Machine}
    (done : machine.createFunctionValue signature = .ok result) : machine.Edits result.2 := by
  rw [createFunctionValue_eq] at done
  obtain ⟨function, _, made⟩ := Except.bind_eq_ok done
  obtain rfl := Except.ok.inj made
  exact (Edits.refl machine).newValue true fun _ => nofun

/-- Creating a value for data of the embedding program. -/
theorem edits_createNative (machine : Machine) (content : UInt64) :
    machine.Edits (machine.createNative content).2 := by
  have counted : machine.Edits { machine with nativeCount := machine.nativeCount + 1 } :=
    .of_same rfl rfl
  exact counted.newValue true fun _ => nofun

/-- Copying a value, which is not null. -/
theorem edits_copy {reference : Ref} {result : Ref × Machine}
    (done : machine.copy reference = .ok result) : machine.Edits result.2 := by
  rw [copy_eq] at done
  split at done
  · obtain rfl := Except.ok.inj done
    exact .refl machine
  · rename_i proper
    obtain ⟨value, found, made⟩ := Except.bind_eq_ok done
    obtain rfl := Except.ok.inj made
    refine (Edits.refl machine).newValue true fun typed => ?_
    refine typed.ne_null (Error.orElse_eq_ok.mp found) fun null => proper ?_
    simp [null, Ref.isNull]

/-- Pinning and unpinning. -/
theorem edits_setPinned {handle : Handle} {pinned : Bool} {heap : Heap}
    (done : machine.heap.setPinned handle pinned = some heap) :
    machine.Edits (machine.updateHeap fun _ => heap) :=
  ⟨.single (.pin done), rfl⟩

/-- Putting a reference into an element. -/
theorem edits_putElement {reference value : Ref} {index : Nat}
    (done : machine.setElement reference index value = .ok after) : machine.Edits after := by
  rw [setElement_eq] at done
  obtain ⟨_, _, rest⟩ := Except.bind_eq_ok done
  split at rest
  · cases rest
  · obtain ⟨items, found, last⟩ := Except.bind_eq_ok rest
    split at last
    · cases last
    · obtain rfl := Except.ok.inj last
      exact edits_storeElement (value?_of_items found) index

/-- Putting a reference into a member. -/
theorem edits_putMember {reference value : Ref} {name : String}
    (done : machine.setMember reference name value = .ok after) : machine.Edits after := by
  rw [setMember_eq] at done
  obtain ⟨inner, _, rest⟩ := Except.bind_eq_ok done
  obtain ⟨kind, known, rest⟩ := Except.bind_eq_ok rest
  obtain ⟨content, shown, same⟩ := Except.bind_eq_ok known
  obtain rfl := Except.ok.inj same
  obtain ⟨object, found, rest⟩ := Except.bind_eq_ok rest
  obtain ⟨member, declared, rest⟩ := Except.bind_eq_ok rest
  split at rest
  · cases rest
  · rename_i fitting
    obtain ⟨changed, stored, last⟩ := Except.bind_eq_ok rest
    obtain rfl := Except.ok.inj last
    exact edits_storeMember (Error.orElse_eq_ok.mp found) declared (Error.orElse_eq_ok.mp shown)
      fitting stored

/-- Putting a reference into a known global. -/
theorem edits_assignGlobal {name : String} {value : Ref}
    (done : machine.assignGlobal name value = .ok after) : machine.Edits after := by
  rw [assignGlobal_eq] at done
  obtain ⟨_, _, rest⟩ := Except.bind_eq_ok done
  split at rest
  · obtain rfl := Except.ok.inj rest
    exact machine.edits_setGlobal name value
  · cases rest

/-- Declaring a global. -/
theorem edits_addGlobal {name : String} {value : Ref}
    (done : machine.addGlobal name value = .ok after) : machine.Edits after := by
  rw [addGlobal_eq] at done
  obtain ⟨_, _, rest⟩ := Except.bind_eq_ok done
  split at rest
  · cases rest
  · obtain rfl := Except.ok.inj rest
    have declared : machine.Edits { machine with registry := { machine.registry with
        globals := machine.registry.globals.add name value } } := .of_same rfl rfl
    exact declared.shade value

/-- Registering a function. -/
theorem edits_addFunction {function : Function} (done : machine.addFunction function = .ok after) :
    machine.Edits after := by
  rw [addFunction_eq] at done
  obtain ⟨_, _, rest⟩ := Except.bind_eq_ok done
  split at rest
  · cases rest
  · obtain rfl := Except.ok.inj rest
    exact .of_same rfl rfl

/-- Binding a routine. -/
theorem edits_bind (machine : Machine) (signature : String) (routine : Routine) :
    machine.Edits (machine.bind signature routine) := .of_same rfl rfl

/-- Registering a native function. -/
theorem edits_addNative {signature : String} {parameters returns : UInt16} {callback : Nat}
    (done : machine.addNative signature parameters returns callback = .ok after) :
    machine.Edits after := by
  rw [addNative_eq] at done
  obtain ⟨added, registered, last⟩ := Except.bind_eq_ok done
  obtain rfl := Except.ok.inj last
  exact (edits_addFunction registered).trans (added.edits_bind _ _)

/-- Binding a native function. -/
theorem edits_bindNative {signature : String} {callback : Nat}
    (done : machine.bindNative signature callback = .ok after) : machine.Edits after := by
  rw [bindNative_eq] at done
  obtain ⟨_, _, rest⟩ := Except.bind_eq_ok done
  split at rest
  · obtain rfl := Except.ok.inj rest
    exact machine.edits_bind _ _
  · cases rest

/-- Allocating strings. -/
theorem Litters.edits (litters : machine.Litters after) : machine.Edits after := by
  induction litters with
  | refl => exact .refl machine
  | tail _ once hypothesis =>
    obtain ⟨text, rfl⟩ := once
    exact hypothesis.allocate false fun _ => nofun

/-- Loading a module allocates strings, whether it succeeds or not. -/
theorem edits_load (machine : Machine) (name : String) (image : Image) :
    machine.collector.Edits (machine.load name image).2.collector := by
  rcases machine.load_cases name image with
    ⟨after, refusal, litters, refused⟩ | ⟨after, _, bundle, events, allocated, _, _, _, loaded⟩
  · rw [refused, (after.refuse_same refusal).1]
    exact litters.edits.collector
  · have litters := machine.litters_allocateConstants image.strings #[]
    rw [allocated] at litters
    rw [loaded, (notes_same { after with registry := _ } events).1]
    exact litters.edits.collector

/-- Loading a module from its container allocates strings, whether it succeeds or not. -/
theorem edits_loadContainer (machine : Machine) (name : String) (bytes : List UInt8) :
    machine.collector.Edits (machine.loadContainer name bytes).2.collector := by
  unfold loadContainer
  split
  · exact machine.edits_load name _
  · exact .refl

end Machine

end ScriptVm
