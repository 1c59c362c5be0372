import ScriptVm.Proofs.Collector.Safety
import ScriptVm.Proofs.Machine.Instances
import ScriptVm.Vm

/-!
# What the machine does to its heap

Every operation of the machine is a sequence of moves: it allocates cells of reached references,
stores reached references and shades them. Functions that it hands on are good ones, where good is
any condition that the known functions satisfy and that keeps their constants among the roots.
-/
namespace ScriptVm

/-- What counts as roots, from the registry and from what runs. -/
def Registry.scope (registry : Registry) (running : Handle → Prop) : Scope
  | .executions => running
  | category => fun handle => handle ∈ Vm.rootsOf registry [] category

namespace Machine

variable {good : Function → Prop} {machine after : Machine}
variable {running running' held held' : Handle → Prop}

/-- A machine as the collector sees it. -/
def view (machine : Machine) (running held : Handle → Prop) : View :=
  ⟨machine.collector, machine.registry.scope running, held⟩

/-- What is reached in a machine. -/
def Reaches (machine : Machine) (running held : Handle → Prop) : Handle → Prop :=
  (machine.view running held).Reaches

/-- All functions of a machine are good, and good functions have their constants among the roots. -/
structure Sound (good : Function → Prop) (machine : Machine) : Prop where
  /-- The bookkeeping of the collector is orderly. -/
  orderly : machine.collector.Orderly
  /-- The known functions are good. -/
  functions : ∀ function ∈ machine.registry.functions.values, good function
  /-- The initializers are good. -/
  initializers : ∀ function ∈ machine.registry.initializers.values, good (.script function)
  /-- The functions behind values are good. -/
  cells : ∀ handle proxy function, machine.heap.proxy? handle = some proxy →
    proxy.cell = .value (.function function) → good function
  /-- The constants of good functions are roots. -/
  anchors : ∀ function : ScriptFunction, good (.script function) →
    ∀ constant ∈ function.module.constants,
      constant.handle ∈ Vm.rootsOf machine.registry [] .constants

/-- A machine comes from another by moves, and its functions are good. -/
structure Leads (good : Function → Prop) (machine : Machine) (running held : Handle → Prop)
    (after : Machine) (running' held' : Handle → Prop) : Prop where
  /-- The moves. -/
  moves : View.Moves (machine.view running held) (after.view running' held')
  /-- The functions. -/
  sound : after.Sound good
  /-- The registry stays, apart from what globals hold. -/
  registry : after.registry = { machine.registry with globals := after.registry.globals }

/-- A held handle is reached. -/
theorem reaches_of_held {handle : Handle} (holds : held handle) :
    machine.Reaches running held handle :=
  .start (.inr (.inr holds))

/-- What runs is reached. -/
theorem reaches_of_running {handle : Handle} (runs : running handle) :
    machine.Reaches running held handle :=
  .start (.inl ⟨.executions, runs⟩)

/-- The null value is reached. -/
theorem Sound.reaches_null (sound : machine.Sound good) :
    machine.Reaches running held Handle.null :=
  Collector.reaches_null sound.orderly.lawful _ _

/-- A constant of a good function is reached. -/
theorem Sound.reaches_constant (sound : machine.Sound good) {function : ScriptFunction}
    (fine : good (.script function)) {constant : Ref}
    (member : constant ∈ function.module.constants) :
    machine.Reaches running held constant.handle :=
  .start (.inl ⟨.constants, sound.anchors function fine constant member⟩)

/-- What a global holds is reached. -/
theorem reaches_of_global {name : String} {value : Ref}
    (found : machine.registry.globals.find? name = some value) :
    machine.Reaches running held value.handle := by
  refine .start (.inl ⟨.globals, ?_⟩)
  show value.handle ∈ machine.registry.globals.values.map Ref.handle
  obtain ⟨before, _, same, _⟩ := List.lookup_eq_some_iff.mp found
  refine List.mem_map.mpr ⟨value, ?_, rfl⟩
  simp only [Table.values, same]
  simp

/-- A child of a reached proxy is reached. -/
theorem reaches_child {parent child : Handle} {proxy : Proxy}
    (reached : machine.Reaches running held parent)
    (resolved : machine.heap.proxy? parent = some proxy) (listed : child ∈ proxy.cell.children) :
    machine.Reaches running held child :=
  .child reached resolved listed

/-- What is reached stays so when more is held. -/
theorem reaches_mono {handle : Handle} (reached : machine.Reaches running held handle)
    (more : ∀ handle, held handle → held' handle) : machine.Reaches running held' handle := by
  apply Heap.Reaches.of_origins reached
  rintro start (root | pins | holds)
  · exact .start (.inl root)
  · exact .start (.inr (.inl pins))
  · exact .start (.inr (.inr (more start holds)))

namespace Leads

/-- Nothing happens. -/
theorem refl (sound : machine.Sound good) : machine.Leads good running held machine running held :=
  ⟨.refl, sound, rfl⟩

/-- One thing happens after the other. -/
theorem trans {middle : Machine} {running'' held'' : Handle → Prop}
    (first : machine.Leads good running held middle running' held')
    (second : middle.Leads good running' held' after running'' held'') :
    machine.Leads good running held after running'' held'' := by
  refine ⟨first.moves.trans second.moves, second.sound, second.registry.trans ?_⟩
  rw [first.registry]

/-- What is held is exchanged for what is reached. -/
theorem exchange {held'' : Handle → Prop}
    (leads : machine.Leads good running held after running' held')
    (reached : ∀ handle, held'' handle → after.Reaches running' held' handle) :
    machine.Leads good running held after running' held'' :=
  ⟨leads.moves.tail (.weaken (fun _ _ root => .inl root) reached), leads.sound, leads.registry⟩

/-- Less is held. -/
theorem forget {held'' : Handle → Prop}
    (leads : machine.Leads good running held after running' held')
    (fewer : ∀ handle, held'' handle → held' handle) :
    machine.Leads good running held after running' held'' :=
  leads.exchange fun _ holds => reaches_of_held (fewer _ holds)

end Leads

/-- A machine with the same registry apart from globals is sound when its collector is orderly and
its proxies hold good functions. -/
theorem Sound.transfer (sound : machine.Sound good) (orderly : after.collector.Orderly)
    (registry : after.registry = { machine.registry with globals := after.registry.globals })
    (cells : ∀ handle proxy function, after.heap.proxy? handle = some proxy →
      proxy.cell = .value (.function function) → good function) : after.Sound good := by
  refine ⟨orderly, ?_, ?_, cells, ?_⟩
  · rw [registry]
    exact sound.functions
  · rw [registry]
    exact sound.initializers
  · rw [registry]
    exact sound.anchors

/-- Shading keeps the machine sound. -/
theorem Sound.shade (sound : machine.Sound good) (value : Ref) :
    (machine.shade value).Sound good := by
  refine sound.transfer (sound.orderly.shade value.handle) rfl ?_
  intro handle proxy function resolved holds
  obtain ⟨old, known, same⟩ := Collector.origin_shade resolved
  exact sound.cells handle old function known (same.symm.trans holds)

/-- A reached reference is shaded, and is stored as a root. -/
theorem leads_store {value : Ref} (sound : machine.Sound good)
    (reached : machine.Reaches running held value.handle)
    (collector : after.collector = machine.collector.shade value.handle)
    (registry : after.registry = { machine.registry with globals := after.registry.globals })
    (scope : ∀ category handle, after.registry.scope running' category handle →
      machine.registry.scope running category handle ∨ handle = value.handle) :
    machine.Leads good running held after running' held := by
  have shaded := sound.shade value
  refine ⟨?_, ?_, registry⟩
  · have first : View.Move (machine.view running held)
        ⟨machine.collector.shade value.handle, machine.registry.scope running, held⟩ :=
      .shade value.handle reached
    have still : ∀ handle, machine.Reaches running held handle →
        (machine.shade value).Reaches running held handle := by
      intro handle before
      have darkens := machine.collector.darkens_shade value.handle
      apply (darkens.reaches_iff.mpr before).of_origins
      rintro start (root | pins | holds)
      · exact .start (.inl root)
      · exact .start (.inr (.inl (darkens.pins_iff.mpr pins)))
      · exact .start (.inr (.inr holds))
    have second : View.Move
        ⟨machine.collector.shade value.handle, machine.registry.scope running, held⟩
        ⟨machine.collector.shade value.handle, after.registry.scope running', held⟩ := by
      refine .weaken ?_ fun handle holds => .start (.inr (.inr holds))
      intro category handle root
      rcases scope category handle root with known | rfl
      · exact .inl known
      · refine .inr ⟨still _ reached, ?_⟩
        intro begun
        rw [Collector.cycle_shade] at begun ⊢
        exact machine.collector.covered_shade value.handle begun _
    have moves := (Relation.ReflTransGen.single first).tail second
    simpa only [view, collector] using moves
  · refine sound.transfer ?_ registry ?_
    · rw [collector]
      exact shaded.orderly
    · intro handle proxy function resolved
      rw [heap, collector] at resolved
      exact shaded.cells handle proxy function resolved

/-- A cell of reached references is allocated. -/
theorem leads_allocate (sound : machine.Sound good) {cell : Cell} (pinned : Bool)
    (children : ∀ child ∈ cell.children, machine.Reaches running held child)
    (fine : ∀ function, cell = .value (.function function) → good function) :
    machine.Leads good running held (machine.allocate cell pinned).2 running
      (holding held (machine.allocate cell pinned).1) := by
  have move : View.Move (machine.view running held)
      ((machine.allocate cell pinned).2.view running
        (holding held (machine.allocate cell pinned).1)) :=
    .allocate children
  refine ⟨.single move, sound.transfer (sound.orderly.allocate cell pinned) rfl ?_, rfl⟩
  intro handle proxy function resolved holds
  rcases sound.orderly.origin_allocate cell pinned resolved with ⟨-, new⟩ | ⟨old, known, same⟩
  · exact fine function (new.symm.trans holds)
  · exact sound.cells handle old function known (same.symm.trans holds)

/-- A reached reference is stored into a cell, and it is shaded. -/
theorem leads_rewrite (sound : machine.Sound good) {target : Handle} {value : Ref} {proxy : Proxy}
    {cell : Cell} (resolved : machine.heap.proxy? target = some proxy)
    (proper : proxy.cell ≠ .value .null)
    (children : ∀ child ∈ cell.children, child ∈ proxy.cell.children ∨ child = value.handle)
    (reached : machine.Reaches running held value.handle) (kind : cell.kind? = proxy.cell.kind?)
    (fine : ∀ function, cell = .value (.function function) → good function) :
    machine.Leads good running held
      ((machine.updateHeap (·.setCell target cell)).shade value) running held := by
  have move : View.Move (machine.view running held)
      (((machine.updateHeap (·.setCell target cell)).shade value).view running held) :=
    .rewrite resolved proper children reached kind
  refine ⟨.single move, ?_, rfl⟩
  apply Sound.shade
  refine sound.transfer (sound.orderly.setCell resolved proper cell) rfl ?_
  intro handle found function named holds
  rcases Collector.origin_rewrite resolved named with ⟨-, new⟩ | ⟨old, known, same⟩
  · exact fine function (new.symm.trans holds)
  · exact sound.cells handle old function known (same.symm.trans holds)

/-- Putting a reference into an element is replacing the cell. -/
theorem updateHeap_setElement {target : Handle} {proxy : Proxy} {index : Nat} {value : Ref}
    (resolved : machine.heap.proxy? target = some proxy) :
    machine.updateHeap (·.setElement target index value) =
      machine.updateHeap (·.setCell target (proxy.cell.setElement index value)) := by
  have heaps : machine.collector.heap.setElement target index value = _ :=
    Heap.setElement_eq_setCell resolved
  simp only [updateHeap, heaps]

/-- A reached reference is put into an element of an array. -/
theorem leads_setElement (sound : machine.Sound good) {target value : Ref} {items : Array Ref}
    (found : machine.heap.value? target = some (.array items)) (index : Nat)
    (reached : machine.Reaches running held value.handle) :
    machine.Leads good running held
      ((machine.updateHeap (·.setElement target.handle index value)).shade value) running held := by
  obtain ⟨proxy, resolved, cell⟩ := Heap.proxy?_of_value? found
  rw [updateHeap_setElement resolved]
  refine leads_rewrite sound resolved ?_ (Heap.children_setElement _ _ _) reached ?_ ?_
  · simp [cell]
  · simp [cell, Cell.setElement, Cell.kind?, Value.kind]
  · simp [cell, Cell.setElement]

/-- A reached reference is put into a member of an object. -/
theorem leads_setMember (sound : machine.Sound good) {target : ObjectRef} {value : Ref}
    {object changed : Object} {index : Nat} (found : machine.heap.object? target = some object)
    (done : object.set index value = .ok changed)
    (reached : machine.Reaches running held value.handle) :
    machine.Leads good running held
      ((machine.updateHeap (·.setCell target.handle (.object changed))).shade value)
      running held := by
  obtain ⟨proxy, resolved, cell⟩ := Heap.proxy?_of_object? found
  refine leads_rewrite sound resolved ?_ ?_ reached ?_ ?_
  · simp [cell]
  · rw [cell]
    exact Heap.children_set done
  · rw [cell]
    rfl
  · simp

/-- Reaching survives an allocation. -/
theorem reaches_allocate (sound : machine.Sound good) {cell : Cell} {pinned : Bool}
    {handle : Handle} (reached : machine.Reaches running held handle) :
    (machine.allocate cell pinned).2.Reaches running
      (holding held (machine.allocate cell pinned).1) handle := by
  have sameCells : (machine.allocate cell pinned).2.heap.Reaches
      (machine.heap.Origin (machine.registry.scope running) held) handle := by
    apply Heap.Reaches.of_cells reached
    intro other proxy resolved
    obtain ⟨_, _, found⟩ := sound.orderly.kept_allocate cell pinned resolved
    exact ⟨_, found, rfl⟩
  apply sameCells.of_origins
  rintro start (root | ⟨proxy, resolved, pins⟩ | holds)
  · exact .start (.inl root)
  · obtain ⟨_, _, found⟩ := sound.orderly.kept_allocate cell pinned resolved
    exact .start (.inr (.inl ⟨_, found, pins⟩))
  · exact .start (.inr (.inr (.inl holds)))

/-- A new value of reached references is held; so is the null that stands for it when the heap is
full. -/
theorem leads_newValue (sound : machine.Sound good) {value : Value} (pinned : Bool)
    (children : ∀ child ∈ (Cell.value value).children, machine.Reaches running held child)
    (fine : ∀ function, value = .function function → good function) :
    machine.Leads good running held (machine.newValue value pinned).2 running
      (holding held (machine.newValue value pinned).1.handle) := by
  unfold newValue
  split
  · apply leads_allocate sound pinned children
    intro function same
    exact fine function (by simpa using same)
  · apply (Leads.refl sound).exchange
    rintro handle (holds | rfl)
    · exact reaches_of_held holds
    · exact sound.reaches_null

/-- An object of reached references is allocated. -/
theorem leads_allocateObject (sound : machine.Sound good) {object : Object}
    (children : ∀ member ∈ object.members, machine.Reaches running held member.handle) :
    machine.Leads good running held (machine.allocate (.object object) false).2 running
      (holding held (machine.allocate (.object object) false).1) := by
  apply leads_allocate sound
  · intro child listed
    obtain ⟨member, inside, rfl⟩ := List.mem_map.mp listed
    exact children member (Array.mem_toList_iff.mp inside)
  · intro function same
    simp at same

/-- What is left of an instance is an object of reached references. -/
theorem leads_withScrap (sound : machine.Sound good) {object : Object}
    (children : ∀ member ∈ object.members, machine.Reaches running held member.handle) :
    machine.Leads good running held (machine.withScrap object) running held := by
  unfold withScrap
  split
  · exact (leads_allocateObject sound children).forget fun _ holds => .inl holds
  · exact .refl sound

/-- A new instance of an object of reached references is held. -/
theorem leads_newInstance (sound : machine.Sound good) {object : Object} (pinned : Bool)
    (children : ∀ member ∈ object.members, machine.Reaches running held member.handle) :
    machine.Leads good running held (machine.newInstance object pinned).2 running
      (holding held (machine.newInstance object pinned).1.handle) := by
  have inner := leads_allocateObject sound children
  have outer : (machine.allocate (.object object) false).2.Leads good running
      (holding held (machine.allocate (.object object) false).1)
      (machine.newInstance object pinned).2 running
      (holding (holding held (machine.allocate (.object object) false).1)
        (machine.newInstance object pinned).1.handle) := by
    apply leads_allocate inner.sound
    · intro child listed
      exact reaches_of_held (.inr (List.eq_of_mem_singleton listed))
    · simp
  apply (inner.trans outer).forget
  rintro handle (holds | same)
  · exact .inl (.inl holds)
  · exact .inr same

/-- The members of an exception's object are reached once its message is held. -/
theorem reaches_filled (sound : machine.Sound good) {template : Object × Nat} (message : String)
    (children : ∀ member ∈ template.1.members, machine.Reaches running held member.handle) :
    ∀ member ∈ (filled template (machine.allocate (.value (.string message)) false).1).members,
      (machine.allocate (.value (.string message)) false).2.Reaches running
        (holding held (machine.allocate (.value (.string message)) false).1) member.handle := by
  intro member inside
  rcases Array.mem_or_eq_of_mem_setIfInBounds inside with earlier | rfl
  · exact reaches_allocate sound (children member earlier)
  · exact reaches_of_held (.inr rfl)

/-- What is left of a standard exception is its message and an object of reached references. -/
theorem leads_withScraps (sound : machine.Sound good) {template : Object × Nat} (message : String)
    (children : ∀ member ∈ template.1.members, machine.Reaches running held member.handle) :
    machine.Leads good running held (machine.withScraps template message) running held := by
  have text : machine.Leads good running held
      (machine.allocate (.value (.string message)) false).2 running
      (holding held (machine.allocate (.value (.string message)) false).1) :=
    leads_allocate sound false (by simp [Cell.children]) (by simp)
  unfold withScraps
  split
  · have rest := leads_withScrap text.sound (reaches_filled sound message children)
    exact (text.trans rest).forget fun _ holds => .inl holds
  · exact .refl sound

/-- A new exception is held. -/
theorem leads_newException (sound : machine.Sound good) {template : Object × Nat} (message : String)
    (pinned : Bool)
    (children : ∀ member ∈ template.1.members, machine.Reaches running held member.handle) :
    machine.Leads good running held (machine.newException template message pinned).2 running
      (holding held (machine.newException template message pinned).1.handle) := by
  have text : machine.Leads good running held
      (machine.allocate (.value (.string message)) false).2 running
      (holding held (machine.allocate (.value (.string message)) false).1) :=
    leads_allocate sound false (by simp [Cell.children]) (by simp)
  have object : (machine.allocate (.value (.string message)) false).2.Leads good running
      (holding held (machine.allocate (.value (.string message)) false).1)
      (machine.newException template message pinned).2 running
      (holding (holding held (machine.allocate (.value (.string message)) false).1)
        (machine.newException template message pinned).1.handle) := by
    exact leads_newInstance text.sound pinned (reaches_filled sound message children)
  apply (text.trans object).forget
  rintro handle (holds | same)
  · exact .inl (.inl holds)
  · exact .inr same

/-- The members of a blank object are null. -/
theorem Sound.reaches_blank (sound : machine.Sound good) (schema : Schema) :
    ∀ member ∈ (Object.blank schema).members, machine.Reaches running held member.handle := by
  intro member inside
  obtain ⟨_, rfl⟩ := Array.mem_replicate.mp inside
  exact sound.reaches_null

/-- A standard exception is made from a blank object. -/
theorem exceptionShape_blank {exception : ExceptionClass} {template : Object × Nat}
    (made : machine.exceptionShape exception = .ok template) :
    ∃ schema, template.1 = Object.blank schema := by
  obtain ⟨schema, _, rest⟩ := Except.bind_eq_ok made
  obtain ⟨member, _, last⟩ := Except.bind_eq_ok rest
  exact ⟨schema, by rw [← Except.ok.inj last]⟩

/-- The template of an exception is a blank object. -/
theorem exceptionTemplate_blank {exception : ExceptionClass} {template : Object × Nat}
    (made : machine.exceptionTemplate exception = .ok template) :
    ∃ schema, template.1 = Object.blank schema := by
  obtain ⟨shape, shaped, rest⟩ := Except.bind_eq_ok made
  obtain ⟨_, _, last⟩ := Except.bind_eq_ok rest
  rw [← Except.ok.inj last]
  exact exceptionShape_blank shaped

/-- Making an object, or what is left of it. -/
theorem leads_left_newObject (sound : machine.Sound good) (typeName : String) (pinned : Bool) :
    machine.Leads good running held ((Work.newObject typeName pinned).left machine)
      running held := by
  unfold Work.left
  rw [Work.outcome_newObject]
  split
  · rename_i schema _
    split
    · exact (leads_newInstance sound pinned (sound.reaches_blank schema)).forget
        fun _ holds => .inl holds
    · exact leads_withScrap sound (sound.reaches_blank schema)
  · exact .refl sound

/-- Making a standard exception, or what is left of it. -/
theorem leads_left_newException (sound : machine.Sound good) (exception : ExceptionClass)
    (message : String) (pinned : Bool) :
    machine.Leads good running held ((Work.newException exception message pinned).left machine)
      running held := by
  unfold Work.left
  rw [Work.outcome_newException]
  split
  · rename_i template shaped
    obtain ⟨schema, blank⟩ := exceptionShape_blank shaped
    have children : ∀ member ∈ template.1.members, machine.Reaches running held member.handle :=
      blank ▸ sound.reaches_blank schema
    split
    · exact (leads_newException sound message pinned children).forget fun _ holds => .inl holds
    · exact leads_withScraps sound message children
  · exact .refl sound

/-- A reached reference is put into a global. -/
theorem leads_setGlobal (sound : machine.Sound good) (name : String) {value : Ref}
    (reached : machine.Reaches running held value.handle) :
    machine.Leads good running held (machine.setGlobal name value) running held := by
  refine leads_store sound reached rfl rfl ?_
  intro category handle root
  cases category with
  | globals =>
    obtain ⟨reference, inside, rfl⟩ := List.mem_map.mp root
    simp only [setGlobal, shade, Table.values, Table.replace, List.map_map, List.mem_map] at inside
    obtain ⟨⟨key, old⟩, member, same⟩ := inside
    simp only [Function.comp_apply] at same
    split at same
    · exact .inr (congrArg Ref.handle same).symm
    · left
      refine List.mem_map.mpr ⟨old, List.mem_map.mpr ⟨(key, old), member, rfl⟩, ?_⟩
      exact congrArg Ref.handle same
  | constants | functions | executions => exact .inl root

end Machine

end ScriptVm
