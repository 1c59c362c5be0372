import ScriptVm.Proofs.Simulation.Machine
import ScriptVm.Proofs.Step.Runs
import ScriptVm.Proofs.Value

/-!
# Instructions that agree

The same instruction in two scenes that agree ends in the same way: both runs give paired results,
or both stop at the same fault, which does not blame the collector; the scenes agree under more
pairs. The rules follow the parts of instructions. The cost of a part is the count of proxies that
it may allocate.
-/
namespace ScriptVm

/-- Script calls at the same position, whose references are paired. -/
structure Activation.Agrees (pairing : Pairing) (left right : Activation) : Prop where
  /-- They are calls of one function. -/
  function : right.function = left.function
  /-- The registers. -/
  registers : pairing.Lists left.registers.toList right.registers.toList
  /-- The local variables. -/
  locals : pairing.Tables left.locals right.locals
  /-- The operand stacks. -/
  stack : pairing.Lists left.stack right.stack
  /-- The next byte to decode. -/
  next : right.next = left.next
  /-- The first byte of the instruction. -/
  start : right.start = left.start

namespace Activation.Agrees

variable {pairing : Pairing} {left right : Activation} {first second : Ref}

/-- Calls that agree do so under more pairs. -/
theorem mono {more : Pairing} (agrees : left.Agrees pairing right) (grows : pairing.Grows more) :
    left.Agrees more right :=
  ⟨agrees.function, agrees.registers.mono grows, agrees.locals.mono grows,
    agrees.stack.mono grows, agrees.next, agrees.start⟩

/-- Paired references are put into the same register. -/
theorem setRegister (agrees : left.Agrees pairing right) (paired : pairing.Refs first second)
    (index : Nat) :
    Activation.Agrees pairing { left with registers := left.registers.setIfInBounds index first }
      { right with registers := right.registers.setIfInBounds index second } := by
  refine { agrees with registers := ?_ }
  rw [Vector.toList_setIfInBounds, Vector.toList_setIfInBounds]
  exact agrees.registers.set paired index

/-- Paired references are put into the same local variable. -/
theorem setLocal (agrees : left.Agrees pairing right) (paired : pairing.Refs first second)
    (name : String) :
    Activation.Agrees pairing { left with locals := left.locals.replace name first }
      { right with locals := right.locals.replace name second } :=
  { agrees with locals := agrees.locals.replace paired name }

/-- The operand stacks are replaced. -/
theorem withStack (agrees : left.Agrees pairing right) {stack stack' : List Ref}
    (both : pairing.Lists stack stack') :
    Activation.Agrees pairing { left with stack } { right with stack := stack' } :=
  { agrees with stack := both }

/-- Both calls go on at the same byte. -/
theorem moveTo (agrees : left.Agrees pairing right) (offset : Nat) :
    (left.moveTo offset).Agrees pairing (right.moveTo offset) :=
  { agrees with next := rfl }

end Activation.Agrees

/-- Scenes that agree. -/
structure Scene.Agrees (pairing : Pairing) (room : Nat) (left right : Scene) : Prop where
  /-- The machines. -/
  machine : left.machine.Agrees pairing room right.machine
  /-- The parameter registers. -/
  parameters : pairing.Lists left.parameters.toList right.parameters.toList
  /-- The calls. -/
  frame : left.frame.Agrees pairing right.frame
  /-- The constants of the called function. -/
  constants : left.frame.function.module.Anchored pairing

namespace Scene.Agrees

variable {pairing more : Pairing} {room lower : Nat} {left right : Scene}

/-- Less room is looked at. -/
theorem less (agrees : left.Agrees pairing room right) (bound : lower ≤ room) :
    left.Agrees pairing lower right :=
  { agrees with machine := agrees.machine.less bound }

/-- Other machines that agree under more pairs. -/
theorem withMachine (agrees : left.Agrees pairing room right) {machine machine' : Machine}
    (grows : pairing.Grows more) (machines : machine.Agrees more lower machine') :
    Scene.Agrees more lower { left with machine } { right with machine := machine' } := by
  refine ⟨machines, agrees.parameters.mono grows, agrees.frame.mono grows, ?_⟩
  intro constant member
  exact (agrees.constants constant member).mono grows

/-- Paired references are stored in the calls, and shaded. -/
theorem store (agrees : left.Agrees pairing room right) {frame frame' : Activation}
    (frames : frame.Agrees pairing frame') (function : frame.function = left.frame.function)
    (first second : Ref) :
    Scene.Agrees pairing room { left with machine := left.machine.shade first, frame }
      { right with machine := right.machine.shade second, frame := frame' } := by
  refine ⟨agrees.machine.shade first second, agrees.parameters, frames, ?_⟩
  rw [function]
  exact agrees.constants

/-- The calls are replaced. -/
theorem withFrame (agrees : left.Agrees pairing room right) {frame frame' : Activation}
    (frames : frame.Agrees pairing frame') (function : frame.function = left.frame.function) :
    Scene.Agrees pairing room { left with frame } { right with frame := frame' } := by
  refine ⟨agrees.machine, agrees.parameters, frames, ?_⟩
  rw [function]
  exact agrees.constants

end Scene.Agrees

namespace Step

variable {α α' β β' : Type}

/-- How a result and its partner are related under a pairing. -/
abbrev Relation (α α' : Type) := Pairing → α → α' → Prop

/-- The same result. -/
def same : Relation α α := fun _ value value' => value' = value

/-- Paired references. -/
def references : Relation Ref Ref := fun pairing value value' => pairing.Refs value value'

/-- Agreeing values. -/
def values : Relation Value Value := fun pairing value value' => value.Agrees pairing value'

/-- Two runs that end in the same way. -/
inductive Ends (pairing : Pairing) (room : Nat) (gives : Relation α α') :
    EStateM.Result Fault Scene α → EStateM.Result Fault Scene α' → Prop where
  /-- Both give results. -/
  | ok {more : Pairing} {value : α} {value' : α'} {after after' : Scene}
    (grows : pairing.Grows more) (related : gives more value value')
    (agrees : after.Agrees more room after') :
    Ends pairing room gives (.ok value after) (.ok value' after')
  /-- Both stop at the same fault. -/
  | error {more : Pairing} {fault : Fault} {after after' : Scene} (grows : pairing.Grows more)
    (blameless : fault.blamesCollector = false) (agrees : after.Agrees more room after') :
    Ends pairing room gives (.error fault after) (.error fault after')

/-- Two parts that end in the same way in all scenes that agree under a pairing with more pairs. -/
def Agrees (pairing : Pairing) (cost : Nat) (gives : Relation α α') (part : Step α)
    (part' : Step α') : Prop :=
  ∀ ⦃more : Pairing⦄ ⦃room : Nat⦄ ⦃left right : Scene⦄, pairing.Grows more →
    left.Agrees more (room + cost) right → Ends more room gives (part.run left) (part'.run right)

variable {pairing : Pairing} {cost : Nat} {gives : Relation α α'} {part : Step α} {part' : Step α'}

namespace Ends

variable {room : Nat} {left right : Scene}

/-- Both sides go on with what they looked up, or neither found it. -/
theorem found {fault : Fault} {result : Option α} {result' : Option α'}
    (scenes : left.Agrees pairing room right) (blameless : fault.blamesCollector = false)
    (both : (result = none ∧ result' = none) ∨ ∃ value value', result = some value ∧
      result' = some value' ∧ gives pairing value value') :
    Ends pairing room gives ((Step.found fault result).run left)
      ((Step.found fault result').run right) := by
  rcases both with ⟨rfl, rfl⟩ | ⟨value, value', rfl, rfl, related⟩
  · exact .error (.refl pairing) blameless scenes
  · exact .ok (.refl pairing) related scenes

/-- Both sides go on with what they looked up, or with the same error. -/
theorem orElse {error : Error} {result : Option α} {result' : Option α'}
    (scenes : left.Agrees pairing room right)
    (both : (result = none ∧ result' = none) ∨ ∃ value value', result = some value ∧
      result' = some value' ∧ gives pairing value value') :
    Ends pairing room gives ((orFault (error.orElse result)).run left)
      ((orFault (error.orElse result')).run right) := by
  rcases both with ⟨rfl, rfl⟩ | ⟨value, value', rfl, rfl, related⟩
  · exact .error (.refl pairing) rfl scenes
  · exact .ok (.refl pairing) related scenes

end Ends

namespace Agrees

/-- A higher cost. -/
theorem dearer {higher : Nat} (agrees : Agrees pairing cost gives part part')
    (bound : cost ≤ higher) : Agrees pairing higher gives part part' := by
  intro more room left right grows scenes
  exact agrees grows (scenes.less (by omega))

/-- One part after the other. -/
theorem sequence {cost' : Nat} {gives' : Relation β β'} {next : α → Step β} {next' : α' → Step β'}
    (agrees : Agrees pairing cost gives part part')
    (rest : ∀ ⦃more value value'⦄, pairing.Grows more → gives more value value' →
      Agrees more cost' gives' (next value) (next' value')) :
    Agrees pairing (cost + cost') gives' (part >>= next) (part' >>= next') := by
  intro more room left right grows scenes
  rw [run_bind, run_bind]
  have start : left.Agrees more (room + cost' + cost) right := scenes.less (by omega)
  have ends := agrees grows start
  generalize part.run left = result at ends
  generalize part'.run right = result' at ends
  cases ends with
  | error grows' blameless after => exact .error grows' blameless (after.less (by omega))
  | @ok most value value' after after' grows' related agree =>
    have ends := rest (grows.trans grows') related (.refl most) agree
    dsimp only
    generalize (next value).run after = result at ends ⊢
    generalize (next' value').run after' = result' at ends ⊢
    cases ends with
    | error grows'' blameless after => exact .error (grows'.trans grows'') blameless after
    | ok grows'' related after => exact .ok (grows'.trans grows'') related after

/-- A part that allocates nothing, and then the rest. -/
theorem bind {gives' : Relation β β'} {next : α → Step β} {next' : α' → Step β'}
    (agrees : Agrees pairing 0 gives part part')
    (rest : ∀ ⦃more value value'⦄, pairing.Grows more → gives more value value' →
      Agrees more cost gives' (next value) (next' value')) :
    Agrees pairing cost gives' (part >>= next) (part' >>= next') := by
  simpa using agrees.sequence rest

/-- A part, and then a rest that allocates nothing. -/
theorem andThen {gives' : Relation β β'} {next : α → Step β} {next' : α' → Step β'}
    (agrees : Agrees pairing cost gives part part')
    (rest : ∀ ⦃more value value'⦄, pairing.Grows more → gives more value value' →
      Agrees more 0 gives' (next value) (next' value')) :
    Agrees pairing cost gives' (part >>= next) (part' >>= next') :=
  agrees.sequence rest

/-- Related results. -/
theorem pure {value : α} {value' : α'}
    (related : ∀ ⦃more⦄, pairing.Grows more → gives more value value') :
    Agrees pairing cost gives (Pure.pure value) (Pure.pure value') :=
  fun more _ _ _ grows scenes => .ok (.refl more) (related grows) (scenes.less (by omega))

/-- The same fault. -/
theorem throw {fault : Fault} (blameless : fault.blamesCollector = false) :
    Agrees pairing cost gives (MonadExcept.throw fault) (MonadExcept.throw fault) :=
  fun more _ _ _ _ scenes => .error (.refl more) blameless (scenes.less (by omega))

/-- The results are not looked at any more. -/
theorem discard (agrees : Agrees pairing cost gives part part') :
    Agrees pairing cost same (Functor.discard part) (Functor.discard part') := by
  have rest : Agrees pairing cost same (part >>= fun _ => Pure.pure PUnit.unit)
      (part' >>= fun _ => Pure.pure PUnit.unit) :=
    agrees.andThen fun _ _ _ _ _ => pure fun _ _ => rfl
  exact rest

end Agrees

/-! ## Parts -/

/-- Looking a name up. -/
theorem agrees_name (pairing : Pairing) (index : UInt32) :
    Agrees pairing 0 same (name index) (name index) := by
  intro more room left right _ scenes
  rw [run_name, run_name, scenes.frame.function, run_orFault, run_orFault]
  cases left.frame.function.module.string index.toNat with
  | ok text => exact .ok (.refl more) rfl scenes
  | error error => exact .error (.refl more) rfl scenes

/-- Reading a register. -/
theorem agrees_register (pairing : Pairing) (index : UInt32) :
    Agrees pairing 0 references (register index) (register index) := by
  intro more room left right _ scenes
  have both := scenes.frame.registers.getElem? index.toNat
  simp only [Vector.getElem?_toList] at both
  exact .orElse scenes both

/-- Reading a parameter register. -/
theorem agrees_parameter (pairing : Pairing) (index : Nat) :
    Agrees pairing 0 references (parameter index) (parameter index) := by
  intro more room left right _ scenes
  have both := scenes.parameters.getElem? index
  simp only [Vector.getElem?_toList] at both
  exact .orElse scenes both

/-- Reading paired values: neither has been collected. -/
theorem agrees_value {first second : Ref} (paired : pairing.Refs first second) :
    Agrees pairing 0 values (value first) (value second) := by
  intro more room left right grows scenes
  obtain ⟨found, found', known, known', agree⟩ := scenes.machine.value? (paired.mono grows)
  rw [run_value, run_value, known, known']
  exact .ok (.refl more) agree scenes

/-- Looking a function up. -/
theorem agrees_function (pairing : Pairing) (signature : String) :
    Agrees pairing 0 same (function signature) (function signature) := by
  intro more room left right _ scenes
  rw [run_function, run_function, scenes.machine.functions]
  refine .found scenes rfl ?_
  cases left.machine.registry.functions.find? signature with
  | none => exact .inl ⟨rfl, rfl⟩
  | some function => exact .inr ⟨function, function, rfl, rfl, rfl⟩

/-- Writing paired references to a register. -/
theorem agrees_setRegister {first second : Ref} (paired : pairing.Refs first second)
    (index : UInt32) : Agrees pairing 0 same (setRegister index first)
      (setRegister index second) := by
  intro more room left right grows scenes
  rw [run_setRegister, run_setRegister]
  unfold Activation.setRegister
  by_cases inside : index.toNat < registerCount
  · rw [if_pos inside, if_pos inside]
    have frames := scenes.frame.setRegister (paired.mono grows) index.toNat
    exact .ok (.refl more) rfl (scenes.store frames rfl first second)
  · rw [if_neg inside, if_neg inside]
    exact .error (.refl more) rfl scenes

/-- Writing paired references to a parameter register. -/
theorem agrees_setParameter {first second : Ref} (paired : pairing.Refs first second)
    (index : Nat) : Agrees pairing 0 same (setParameter index first)
      (setParameter index second) := by
  intro more room left right grows scenes
  rw [run_setParameter, run_setParameter]
  by_cases inside : index < parameterCount
  · rw [if_pos inside, if_pos inside]
    refine .ok (.refl more) rfl ?_
    refine ⟨scenes.machine.shade first second, ?_, scenes.frame, scenes.constants⟩
    simp only [Vector.toList_setIfInBounds]
    exact scenes.parameters.set (paired.mono grows) _
  · rw [if_neg inside, if_neg inside]
    exact .error (.refl more) rfl scenes

/-- Making agreeing values. -/
theorem agrees_newValue {value value' : Value} (agree : value.Agrees pairing value') :
    Agrees pairing 1 references (newValue value) (newValue value') := by
  intro more room left right grows scenes
  have same : left.machine.heap.hasRoom 1 = right.machine.heap.hasRoom 1 :=
    scenes.machine.collector.room 1 (by omega)
  rw [run_newValue, run_newValue, ← same]
  split
  · obtain ⟨most, grows', paired, machines⟩ :=
      scenes.machine.allocateValue (agree.mono grows) false false
    exact .ok grows' paired (scenes.withMachine grows' machines)
  · exact .error (.refl more) rfl (scenes.less (by omega))

end Step

namespace Place

open Step

variable {pairing : Pairing} {first second target target' : Ref}

/-- The same place, in paired containers. -/
inductive Agrees (pairing : Pairing) : Place → Place → Prop where
  | global (name : String) : Agrees pairing (.global name) (.global name)
  | local (name : String) : Agrees pairing (.local name) (.local name)
  | parameter (index : Nat) : Agrees pairing (.parameter index) (.parameter index)
  | member {target target' : Ref} (paired : pairing.Refs target target') (name : String) :
    Agrees pairing (.member target name) (.member target' name)
  | element {target target' : Ref} (paired : pairing.Refs target target') (index : Nat) :
    Agrees pairing (.element target index) (.element target' index)

/-- Places that agree do so under more pairs. -/
theorem Agrees.mono {more : Pairing} {place place' : Place} (agrees : place.Agrees pairing place')
    (grows : pairing.Grows more) : place.Agrees more place' := by
  cases agrees with
  | global name => exact .global name
  | «local» name => exact .local name
  | parameter index => exact .parameter index
  | member paired name => exact .member (paired.mono grows) name
  | element paired index => exact .element (paired.mono grows) index

/-- Looking up what a site addresses. -/
theorem agrees_resolve (pairing : Pairing) (site : Site) (operands : Operands UInt32 site.shapes) :
    Step.Agrees pairing 0 Agrees (resolve site operands) (resolve site operands) := by
  match site, operands with
  | .global, (name, ()) =>
    refine (agrees_name pairing name).bind ?_
    rintro more _ name _ rfl
    exact .pure fun _ _ => .global name
  | .local, (name, ()) =>
    refine (agrees_name pairing name).bind ?_
    rintro more _ name _ rfl
    exact .pure fun _ _ => .local name
  | .parameter, (index, ()) => exact .pure fun _ _ => .parameter _
  | .member, (register, name, ()) =>
    refine (agrees_name pairing name).bind ?_
    rintro more _ name _ rfl
    refine (agrees_register more register).bind ?_
    intro more target target' _ paired
    exact .pure fun _ grows => .member (paired.mono grows) name
  | .element, (register, index, ()) =>
    refine (agrees_register pairing register).bind ?_
    intro more target target' _ paired
    exact .pure fun _ grows => .element (paired.mono grows) _

/-- Paired references to objects, and agreeing objects behind them. -/
def instances : Relation (ObjectRef × Object) (ObjectRef × Object) := fun pairing found found' =>
  pairing .object found.1.handle found'.1.handle ∧ found.2.Agrees pairing found'.2

/-- Looking objects up behind paired references: neither has been collected. -/
theorem agrees_object (paired : pairing.Refs target target') :
    Step.Agrees pairing 0 instances (object target) (object target') := by
  refine (agrees_value paired).bind ?_
  intro more value value' _ agree
  cases agree with
  | array items => exact .throw rfl
  | leaf leaf =>
    cases value with
    | object reference => exact leaf.elim
    | _ => exact .throw rfl
  | @object reference reference' inner =>
    intro most room left right grows scenes
    obtain ⟨object, object', found, found', objects⟩ :=
      scenes.machine.collector.object? (grows _ _ _ inner)
    have here : left.machine.heap.object? reference = some object := found
    have there : right.machine.heap.object? reference' = some object' := found'
    show Ends most room instances
      ((Step.found .collectedObject (left.machine.heap.object? reference) >>= fun object =>
        Pure.pure (reference, object)).run left)
      ((Step.found .collectedObject (right.machine.heap.object? reference') >>= fun object =>
        Pure.pure (reference', object)).run right)
    rw [here, there]
    exact .ok (.refl most) ⟨grows _ _ _ inner, objects⟩ scenes

/-- Looking a member up. -/
theorem agrees_memberOf {object object' : Object} (objects : object.Agrees pairing object')
    (name : String) :
    Step.Agrees pairing 0 same (memberOf object name) (memberOf object' name) := by
  unfold memberOf
  rw [objects.schema]
  cases object.schema.member name with
  | ok member => exact .pure fun _ _ => rfl
  | error error => exact .throw rfl

/-- Reading a place. -/
theorem agrees_read {place place' : Place} (agrees : place.Agrees pairing place') :
    Step.Agrees pairing 0 references place.read place'.read := by
  cases agrees with
  | global name =>
    intro more room left right _ scenes
    exact .found scenes rfl (scenes.machine.globals.find? name)
  | «local» name =>
    intro more room left right _ scenes
    exact .found scenes rfl (scenes.frame.locals.find? name)
  | parameter index => exact agrees_parameter pairing index
  | member paired name =>
    refine (agrees_object paired).bind ?_
    rintro more ⟨reference, object⟩ ⟨reference', object'⟩ _ ⟨_, objects⟩
    refine (agrees_memberOf objects name).bind ?_
    rintro most _ member grows rfl last room left right grows' scenes
    have both := (objects.mono (grows.trans grows')).members.getElem? member.index
    simp only [Array.getElem?_toList] at both
    exact .orElse scenes both
  | element paired index =>
    refine (agrees_value paired).bind ?_
    intro more value value' _ agree
    cases agree with
    | object inner => exact .throw rfl
    | leaf leaf =>
      cases value with
      | array items => exact leaf.elim
      | _ => exact .throw rfl
    | @array items items' lists =>
      intro most room left right grows scenes
      have both := (lists.mono grows).getElem? index
      simp only [Array.getElem?_toList] at both
      have length : items'.size = items.size := lists.length_eq.symm
      dsimp only
      rw [length]
      exact .found scenes rfl both

/-- Writing paired references to a global. -/
theorem agrees_writeGlobal (paired : pairing.Refs first second) (name : String) :
    Step.Agrees pairing 0 same (writeGlobal name first) (writeGlobal name second) := by
  intro more room left right grows scenes
  rw [run_writeGlobal, run_writeGlobal, scenes.machine.globals.contains]
  split
  · have machines := scenes.machine.setGlobal (paired.mono grows) name
    exact .ok (.refl more) rfl (scenes.withMachine (.refl more) machines)
  · exact .error (.refl more) rfl scenes

/-- Writing paired references to a local variable. -/
theorem agrees_writeLocal (paired : pairing.Refs first second) (name : String) :
    Step.Agrees pairing 0 same (writeLocal name first) (writeLocal name second) := by
  intro more room left right grows scenes
  rw [run_writeLocal, run_writeLocal]
  unfold Activation.setLocalValue
  rw [scenes.frame.locals.contains]
  by_cases known : left.frame.locals.contains name
  · rw [if_pos known, if_pos known]
    have frames := scenes.frame.setLocal (paired.mono grows) name
    exact .ok (.refl more) rfl (scenes.store frames rfl first second)
  · rw [if_neg known, if_neg known]
    exact .error (.refl more) rfl scenes

/-- Writing paired references to a member. -/
theorem agrees_writeMember (targets : pairing.Refs target target')
    (paired : pairing.Refs first second) (name : String) :
    Step.Agrees pairing 0 same (writeMember target name first)
      (writeMember target' name second) := by
  refine (agrees_value paired).bind ?_
  intro more value value' grows agree
  refine (agrees_object (targets.mono grows)).bind ?_
  rintro most ⟨reference, object⟩ ⟨reference', object'⟩ grows' ⟨inner, objects⟩
  refine (agrees_memberOf objects name).bind ?_
  rintro last _ member grows'' rfl
  dsimp only
  rw [agree.kind]
  split
  · exact .throw rfl
  have stored : last.Refs first second := paired.mono ((grows.trans grows').trans grows'')
  have size : object'.members.size = object.members.size := objects.members.length_eq.symm
  unfold Object.set
  rw [size]
  split
  · intro final room left right grows scenes
    have changed : Object.Agrees final
        { object with members := object.members.setIfInBounds member.index first }
        { object' with members := object'.members.setIfInBounds member.index second } := by
      refine ⟨objects.schema, ?_⟩
      simp only [Array.toList_setIfInBounds]
      exact (objects.mono (grows''.trans grows)).members.set (stored.mono grows) member.index
    have machines := scenes.machine.setObject ((grows''.trans grows) _ _ _ inner) changed
    exact .ok (.refl final) rfl
      (scenes.withMachine (.refl final) (machines.shade first second))
  · exact .throw rfl

/-- Writing paired references to an element. -/
theorem agrees_writeElement (targets : pairing.Refs target target')
    (paired : pairing.Refs first second) (index : Nat) :
    Step.Agrees pairing 0 same (writeElement target index first)
      (writeElement target' index second) := by
  intro more room left right grows scenes
  rw [run_writeElement, run_writeElement, scenes.machine.isNull (targets.mono grows)]
  split
  · exact .error (.refl more) rfl scenes
  obtain ⟨value, value', known, known', agree⟩ := scenes.machine.value? (targets.mono grows)
  rw [known, known']
  cases agree with
  | object inner => exact .error (.refl more) rfl scenes
  | leaf leaf =>
    cases value with
    | array items => exact leaf.elim
    | _ => exact .error (.refl more) rfl scenes
  | @array items items' lists =>
    have length : items'.size = items.size := lists.length_eq.symm
    dsimp only
    rw [length]
    split
    · have machines := scenes.machine.setElement (targets.mono grows) known known' lists
        (paired.mono grows) index
      exact .ok (.refl more) rfl (scenes.withMachine (.refl more) machines)
    · exact .error (.refl more) rfl scenes

/-- Writing paired references to a place. -/
theorem agrees_write {place place' : Place} (agrees : place.Agrees pairing place')
    (paired : pairing.Refs first second) :
    Step.Agrees pairing 0 same (place.write first) (place'.write second) := by
  cases agrees with
  | global name => exact agrees_writeGlobal paired name
  | «local» name => exact agrees_writeLocal paired name
  | parameter index => exact agrees_setParameter paired index
  | member targets name => exact agrees_writeMember targets paired name
  | element targets index => exact agrees_writeElement targets paired index

end Place

/-! ## Computations -/

namespace Value

variable {pairing : Pairing} {left left' right right' : Value}

/-- A plain value has no references. -/
theorem Plain.leaf {value : Value} (plain : value.Plain) : value.Leaf := by
  cases value <;> trivial

/-- Agreeing values have the same truth value. -/
theorem Agrees.condition? (agrees : left.Agrees pairing left') :
    left'.condition? = left.condition? := by
  cases agrees with
  | @array items items' lists =>
    have length : items'.size = items.size := lists.length_eq.symm
    simp only [Value.condition?, Array.isEmpty, length]
  | object inner => rfl
  | leaf leaf => rfl

/-- Casts of agreeing values have the same result. -/
theorem Agrees.convert (agrees : left.Agrees pairing left') (target : Kind) :
    left'.convert target = left.convert target := by
  cases agrees with
  | array lists => cases target <;> rfl
  | object inner => cases target <;> rfl
  | leaf leaf => rfl

/-- Operators have the same result for agreeing operands. -/
theorem Agrees.apply (first : left.Agrees pairing left') (second : right.Agrees pairing right')
    (operator : Operator) : operator.apply left' right' = operator.apply left right := by
  cases first with
  | array lists => cases second <;> rfl
  | object inner => cases second <;> rfl
  | leaf leaf =>
    cases second with
    | array lists =>
      cases left with
      | binary kind number => cases kind <;> rfl
      | _ => rfl
    | object inner =>
      cases left with
      | binary kind number => cases kind <;> rfl
      | _ => rfl
    | leaf leaf => rfl

end Value

namespace Operator

variable {operator : Operator} {fault : Fault}

/-- The only fault of truth values. -/
theorem onBools_error {left right : Bool} (failed : operator.onBools left right = .error fault) :
    fault = .divisionByZero := by
  cases operator with
  | div =>
    simp only [onBools] at failed
    split at failed
    · simp at failed
    · exact (Except.error.inj failed).symm
  | _ => simp [onBools] at failed

/-- The only fault of integers. -/
theorem onInts_error {left right : Int} (failed : operator.onInts left right = .error fault) :
    fault = .divisionByZero := by
  cases operator with
  | div =>
    simp only [onInts] at failed
    split at failed
    · exact (Except.error.inj failed).symm
    · simp at failed
  | _ => simp [onInts] at failed

/-- The only fault of floating-point numbers. -/
theorem onBinaries_error {kind : BinaryKind} {left right : Binary kind}
    (failed : operator.onBinaries left right = .error fault) : fault = .divisionByZero := by
  cases operator with
  | div =>
    simp only [onBinaries] at failed
    split at failed
    · exact (Except.error.inj failed).symm
    · simp at failed
  | _ => simp [onBinaries] at failed

/-- A value made from a computed result has the faults of the computation. -/
theorem error_of_map {α : Type} {make : α → Value} {computation : Except Fault α}
    (failed : make <$> computation = .error fault) : computation = .error fault := by
  cases computation with
  | ok content => simp [Functor.map, Except.map] at failed
  | error other => simpa [Functor.map, Except.map] using failed

/-- The faults of an operator. -/
theorem apply_error {left right : Value} (failed : operator.apply left right = .error fault) :
    fault = .divisionByZero ∨ fault = .unsupportedOperands operator left.kind right.kind := by
  unfold apply at failed
  dsimp only at failed
  split at failed
  · exact .inl (onBools_error (error_of_map failed))
  · split at failed
    · exact .inl (onInts_error (error_of_map failed))
    · exact .inr (Except.error.inj failed).symm
  · exact .inl (onBinaries_error (error_of_map failed))
  · exact .inl (onBinaries_error (error_of_map failed))
  · split at failed
    · simp at failed
    · exact .inr (Except.error.inj failed).symm
  · exact .inr (Except.error.inj failed).symm

/-- No operator blames the collector. -/
theorem apply_blameless {left right : Value} (failed : operator.apply left right = .error fault) :
    fault.blamesCollector = false := by
  rcases apply_error failed with rfl | rfl <;> rfl

end Operator

/-! ## Instructions -/

/-- The same way to go on; raised references are paired. -/
inductive Outcome.Agrees (pairing : Pairing) : Outcome → Outcome → Prop where
  | raise {first second : Ref} (paired : pairing.Refs first second) :
    Agrees pairing (.raise first) (.raise second)
  | same (outcome : Outcome) (quiet : ∀ value, outcome ≠ .raise value) :
    Agrees pairing outcome outcome

namespace Instruction

open Step

variable {pairing : Pairing} {first second : Ref}

/-- Branching. -/
theorem agrees_jump (pairing : Pairing) (distance : Distance) :
    Step.Agrees pairing 0 same (jump distance) (jump distance) := by
  intro more room left right _ scenes
  rw [run_jump, run_jump, scenes.frame.function, scenes.frame.start]
  split
  · exact .ok (.refl more) rfl (scenes.withFrame (scenes.frame.moveTo _) rfl)
  · exact .error (.refl more) rfl scenes

/-- Taking a constant. -/
theorem agrees_constant (pairing : Pairing) (constant : Constant UInt32) :
    Step.Agrees pairing 1 references (Instruction.constant constant)
      (Instruction.constant constant) := by
  cases constant with
  | null =>
    intro more room left right _ scenes
    exact .ok (.refl more) scenes.machine.collector.null (scenes.less (by omega))
  | bool value => exact agrees_newValue (.leaf trivial)
  | integer kind value => exact agrees_newValue (.leaf trivial)
  | binary kind value => exact agrees_newValue (.leaf trivial)
  | string index =>
    intro more room left right _ scenes
    rw [run_stringConstant, run_stringConstant, scenes.frame.function]
    refine .orElse (scenes.less (by omega)) ?_
    cases found : left.frame.function.module.constants[index.toNat]? with
    | none => exact .inl ⟨rfl, rfl⟩
    | some constant =>
      have paired := scenes.constants constant (Array.mem_of_getElem? found)
      exact .inr ⟨constant, constant, rfl, rfl, paired⟩

/-- Making an object. -/
theorem agrees_newObject (pairing : Pairing) (typeName : String) :
    Step.Agrees pairing 2 references (newObject typeName) (newObject typeName) := by
  intro more room left right _ scenes
  have same : left.machine.heap.hasRoom Machine.instanceSize =
      right.machine.heap.hasRoom Machine.instanceSize :=
    scenes.machine.collector.room _ (by simp [Machine.instanceSize])
  rw [run_newObject, run_newObject, scenes.machine.schema, ← same]
  split
  · rename_i schema _
    split
    · obtain ⟨most, grows, paired, machines⟩ :=
        scenes.machine.newInstance (scenes.machine.blank schema) false false
      exact .ok grows paired (scenes.withMachine grows machines)
    · have start : left.machine.Agrees more (room + 1 + 1) right.machine := scenes.machine
      obtain ⟨most, grows, machines⟩ := start.withScrap (scenes.machine.blank schema)
      exact .error grows rfl (scenes.withMachine grows (machines.less (by omega)))
  · exact .error (.refl more) rfl (scenes.less (by omega))

/-- Making an array. -/
theorem agrees_newArray (pairing : Pairing) (length : Nat) :
    Step.Agrees pairing 1 references (newArray length) (newArray length) := by
  intro more room left right _ scenes
  rw [run_newArray, run_newArray, scenes.machine.config]
  split
  · exact .error (.refl more) rfl (scenes.less (by omega))
  · have blank : (Value.array (Array.replicate length Ref.null)).Agrees more
        (.array (Array.replicate length Ref.null)) := by
      refine .array ?_
      simp only [Array.toList_replicate]
      exact Pairing.lists_replicate scenes.machine.collector.null length
    exact agrees_newValue blank (.refl more) scenes

/-- Pushing paired references on the operand stacks. -/
theorem agrees_push (paired : pairing.Refs first second) :
    Step.Agrees pairing 0 same (push first) (push second) := by
  intro more room left right grows scenes
  have length : right.frame.stack.length = left.frame.stack.length :=
    scenes.frame.stack.length_eq.symm
  rw [run_push, run_push]
  unfold Activation.push
  rw [length]
  by_cases fits : left.frame.stack.length < stackLimit
  · rw [if_pos fits, if_pos fits]
    have frames := scenes.frame.withStack (.cons (paired.mono grows) scenes.frame.stack)
    exact .ok (.refl more) rfl (scenes.store frames rfl first second)
  · rw [if_neg fits, if_neg fits]
    exact .error (.refl more) rfl scenes

/-- Popping from the operand stacks. -/
theorem agrees_pop (pairing : Pairing) : Step.Agrees pairing 0 references pop pop := by
  intro more room left right _ scenes
  have both := scenes.frame.stack
  rw [run_pop, run_pop]
  generalize left.frame.stack = stack at both
  generalize right.frame.stack = stack' at both
  cases both with
  | nil => exact .error (.refl more) rfl scenes
  | cons paired rest =>
    exact .ok (.refl more) paired (scenes.withFrame (scenes.frame.withStack rest) rfl)

/-- Copying the reference at a place into a register. -/
theorem agrees_load {place place' : Place} (agrees : place.Agrees pairing place')
    (target : UInt32) :
    Step.Agrees pairing 0 references (load place target) (load place' target) := by
  refine (Place.agrees_read agrees).bind ?_
  intro more value value' _ paired
  refine (agrees_setRegister paired target).bind ?_
  intro most _ _ grows _
  exact .pure fun _ grows' => paired.mono (grows.trans grows')

/-- Going on in the same way without raising. -/
theorem agrees_outcome {cost : Nat} {outcome : Outcome}
    (quiet : ∀ value, outcome ≠ .raise value) :
    Step.Agrees pairing cost Outcome.Agrees (Pure.pure outcome) (Pure.pure outcome) :=
  .pure fun _ _ => .same outcome quiet

/-- A part, and then proceeding. -/
theorem agrees_proceed {α α' : Type} {cost : Nat} {gives : Relation α α'} {part : Step α}
    {part' : Step α'} (agrees : Step.Agrees pairing cost gives part part') :
    Step.Agrees pairing cost Outcome.Agrees (part >>= fun _ => Pure.pure .proceed)
      (part' >>= fun _ => Pure.pure .proceed) :=
  agrees.andThen fun _ _ _ _ _ => agrees_outcome (by simp)

/-- Storing a made reference in a register, and then proceeding. -/
theorem agrees_keep {cost : Nat} {part part' : Step Ref}
    (agrees : Step.Agrees pairing cost references part part') (target : UInt32) :
    Step.Agrees pairing cost Outcome.Agrees
      (part >>= fun value => setRegister target value >>= fun _ => Pure.pure .proceed)
      (part' >>= fun value => setRegister target value >>= fun _ => Pure.pure .proceed) :=
  agrees.andThen fun _ _ _ _ paired => agrees_proceed (agrees_setRegister paired target)

/-- The same instruction in scenes that agree. No instruction allocates more than two proxies. -/
theorem agrees_execute (pairing : Pairing) (instruction : Instruction UInt32) :
    Step.Agrees pairing 2 Outcome.Agrees instruction.execute instruction.execute := by
  match instruction with
  | ⟨.nop, ()⟩ | ⟨.abort, ()⟩ | ⟨.leave, ()⟩ | ⟨.yield, ()⟩ =>
    exact agrees_outcome (by simp)
  | ⟨.call, signature, ()⟩ =>
    refine (agrees_name pairing signature).bind ?_
    rintro more _ signature _ rfl
    refine (agrees_function more signature).bind ?_
    rintro more _ function _ rfl
    exact agrees_outcome (by simp)
  | ⟨.callValue, source, ()⟩ =>
    refine (agrees_register pairing source).bind ?_
    intro more reference reference' _ paired
    refine (agrees_value paired).bind ?_
    intro more value value' _ agree
    cases agree with
    | array items => exact .throw rfl
    | object inner => exact .throw rfl
    | leaf leaf =>
      cases value with
      | function function => exact agrees_outcome (by simp)
      | _ => exact .throw rfl
  | ⟨.raise, source, ()⟩ =>
    refine (agrees_register pairing source).bind ?_
    intro more value value' _ paired
    exact .pure fun _ grows => .raise (paired.mono grows)
  | ⟨.loadConstant, target, value, ()⟩ =>
    exact (agrees_keep (agrees_constant pairing value) target).dearer (by omega)
  | ⟨.load site, target, operands⟩ =>
    refine (Place.agrees_resolve pairing site operands).bind ?_
    intro more place place' _ places
    exact (agrees_proceed (agrees_load places target).discard).dearer (by omega)
  | ⟨.store site, operands⟩ =>
    refine (Place.agrees_resolve pairing site _).bind ?_
    intro more place place' _ places
    refine (agrees_register more _).bind ?_
    intro more value value' grows paired
    exact (agrees_proceed (Place.agrees_write (places.mono grows) paired)).dearer (by omega)
  | ⟨.pull site, target, operands⟩ =>
    refine (Place.agrees_resolve pairing site operands).bind ?_
    intro more place place' _ places
    refine (agrees_load places target).discard.bind ?_
    intro more _ _ grows _ most room left right grows' scenes
    have cleared := agrees_proceed (Place.agrees_write
      (places.mono (grows.trans grows')) scenes.machine.collector.null)
    exact cleared (.refl most) (scenes.less (by omega))
  | ⟨.push, source, ()⟩ =>
    refine (agrees_register pairing source).bind ?_
    intro more value value' _ paired
    exact (agrees_proceed (agrees_push paired)).dearer (by omega)
  | ⟨.pop, target, ()⟩ =>
    exact (agrees_keep (agrees_pop pairing) target).dearer (by omega)
  | ⟨.initObject, target, typeName, ()⟩ =>
    refine (agrees_name pairing typeName).bind ?_
    rintro more _ typeName _ rfl
    exact agrees_keep (agrees_newObject more typeName) target
  | ⟨.initArray, target, length, ()⟩ =>
    exact (agrees_keep (agrees_newArray pairing length.toNat) target).dearer (by omega)
  | ⟨.initFunction, target, signature, ()⟩ =>
    refine (agrees_name pairing signature).bind ?_
    rintro more _ signature _ rfl
    refine (agrees_function more signature).bind ?_
    rintro more _ function _ rfl
    have made : Step.Agrees more 1 references (newValue (.function function))
        (newValue (.function function)) :=
      agrees_newValue (.leaf trivial)
    exact (agrees_keep made target).dearer (by omega)
  | ⟨.branch, distance, ()⟩ =>
    exact (agrees_proceed (agrees_jump pairing distance)).dearer (by omega)
  | ⟨.branchIf expected, source, distance, ()⟩ =>
    refine (agrees_register pairing source).bind ?_
    intro more reference reference' _ paired
    refine (agrees_value paired).bind ?_
    intro more value value' _ agree
    rw [agree.kind, agree.condition?]
    cases value.condition? with
    | none => exact .throw rfl
    | some condition =>
      show Step.Agrees more 2 Outcome.Agrees
        (if condition = expected then jump distance >>= fun _ => Pure.pure .proceed
          else Pure.pure .proceed)
        (if condition = expected then jump distance >>= fun _ => Pure.pure .proceed
          else Pure.pure .proceed)
      split
      · exact (agrees_proceed (agrees_jump more distance)).dearer (by omega)
      · exact agrees_outcome (by simp)
  | ⟨.arithmetic operator, target, left, right, ()⟩ =>
    refine (agrees_register pairing left).bind ?_
    intro more left left' _ lefts
    refine (agrees_register more right).bind ?_
    intro more right right' grows rights
    refine (agrees_value (lefts.mono grows)).bind ?_
    intro more first first' grows firsts
    refine (agrees_value (rights.mono grows)).bind ?_
    intro more second second' grows seconds
    rw [(firsts.mono grows).apply seconds]
    cases computed : operator.apply first second with
    | error fault =>
      exact .throw (Operator.apply_blameless computed)
    | ok result =>
      have plain := Operator.apply_plain computed
      exact (agrees_keep (agrees_newValue (.leaf plain.leaf)) target).dearer (by omega)

end Instruction

end ScriptVm
