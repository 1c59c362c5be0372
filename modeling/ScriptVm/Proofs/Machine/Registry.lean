import Mathlib.Data.List.Nodup
import ScriptVm.Bytes
import ScriptVm.Machine.Functions
import ScriptVm.Proofs.Machine.Litter

/-!
# What is known by name

The registry changes in five ways: a module is installed with all that it brings, a host function is
registered, a native function is bound, a global is declared, and globals are assigned. Every change
keeps the registry sound, and it takes away or replaces no module, no function, no object type and
no name of a global.
-/
namespace ScriptVm

/-- The members of an object type are distinct, each is bound at its position, and an object of the
type starts with that many nulls. -/
structure Schema.Laid (schema : Schema) : Prop where
  /-- Members have distinct names. -/
  distinct : (schema.members.map Prod.fst).Nodup
  /-- A name is bound exactly to the position at which it is declared, with its kind. -/
  member : ∀ name member, schema.member name = .ok member ↔
    schema.members[member.index]? = some (name, member.kind)
  /-- Every member starts as null. -/
  blank : (Object.blank schema).members.toList = schema.members.map fun _ => Ref.null

/-- Where a name is first found in a list of distinct names. -/
theorem findIdx?_lookup_iff {members : List (String × Kind)}
    (distinct : (members.map Prod.fst).Nodup) (name : String) (index : Nat) (kind : Kind) :
    members.findIdx? (fun member => decide (member.1 = name)) = some index ∧
        members.lookup name = some kind ↔ members[index]? = some (name, kind) := by
  induction members generalizing index with
  | nil => simp
  | cons first members hypothesis =>
    obtain ⟨key, own⟩ := first
    rw [List.map_cons, List.nodup_cons] at distinct
    rw [List.findIdx?_cons, List.lookup_cons]
    by_cases same : key = name
    · subst same
      cases index with
      | zero => simp
      | succ index =>
        have absent : members[index]? ≠ some (key, kind) := by
          intro found
          have member : key ∈ members.map Prod.fst :=
            List.mem_map.mpr ⟨(key, kind), List.mem_of_getElem? found, rfl⟩
          exact distinct.1 member
        simp [absent]
    · have apart : (name == key) = false := by simpa using Ne.symm same
      cases index with
      | zero => simp [same]
      | succ index => simp [same, apart, ← hypothesis distinct.2 index]

/-- An object type with distinct members is laid out. -/
theorem Schema.laid_of_distinct {schema : Schema}
    (distinct : (schema.members.map Prod.fst).Nodup) : schema.Laid := by
  refine ⟨distinct, ?_, ?_⟩
  · intro name member
    rw [← findIdx?_lookup_iff distinct]
    unfold Schema.member
    obtain ⟨index, kind⟩ := member
    split
    · rename_i position found here bound
      simp [here, bound]
    · rename_i unbound
      refine ⟨nofun, fun both => (unbound index kind both.1 both.2).elim⟩
  · simp [Object.blank, List.map_const']

namespace Registry

variable {registry changed : Registry}

/-- One change of what is known by name. -/
inductive Change (registry : Registry) : Registry → Prop where
  /-- Globals are assigned. -/
  | assigned {globals : Table Ref} (names : globals.names = registry.globals.names) :
      Change registry { registry with globals }
  /-- A global is declared. -/
  | declared {name : String} (value : Ref) (new : registry.globals.contains name = false) :
      Change registry { registry with globals := registry.globals.add name value }
  /-- A host function that belongs to no module is registered. -/
  | registered {function : HostFunction} (free : function.module = none)
      (new : registry.functions.contains function.signature = false) :
      Change registry { registry with
        functions := registry.functions.add function.signature (.host function) }
  /-- A routine is bound. -/
  | bound (signature : String) (routine : Routine) :
      Change registry { registry with bindings := registry.bindings.put signature routine }
  /-- A module is installed. -/
  | installed {name : String} {image : Image} {constants : Array Ref} {bundle : Bundle}
      (new : registry.modules.contains name = false)
      (loaded : ∀ dependency ∈ image.dependencies, registry.modules.contains dependency = true)
      (declared : bundle.Declared image (Machine.moduleOf name image constants))
      (signatures : ∀ signature ∈ bundle.functions.names,
        registry.functions.contains signature = false) :
      Change registry (registry.withBundle bundle)

/-- Any number of changes. -/
abbrev Changes : Registry → Registry → Prop := Relation.ReflTransGen Change

/-- All functions lie inside their modules. -/
structure Enclosed (registry : Registry) : Prop where
  /-- The functions. -/
  functions : ∀ function ∈ registry.functions.values, function.Enclosed
  /-- The initializers. -/
  initializers : ∀ function ∈ registry.initializers.values, function.Enclosed

/-- A change leaves all functions inside their modules. -/
theorem Enclosed.change (enclosed : registry.Enclosed) (change : registry.Change changed) :
    changed.Enclosed := by
  obtain ⟨functions, initializers⟩ := enclosed
  cases change with
  | assigned | declared | bound => exact ⟨functions, initializers⟩
  | registered =>
    refine ⟨?_, initializers⟩
    intro function member
    rw [Table.values_add, List.mem_append, List.mem_singleton] at member
    rcases member with earlier | rfl
    · exact functions function earlier
    · exact trivial
  | @installed name image constants bundle new loaded declared signatures =>
    constructor
    · intro function member
      rw [withBundle, Table.values_append, List.mem_append] at member
      rcases member with earlier | own
      · exact functions function earlier
      · obtain ⟨entry, listed, rfl⟩ := List.mem_map.mp own
        obtain ⟨_, _, _, _, inside⟩ := exists_of_forall₂ declared.functions listed
        exact inside
    · intro function member
      rw [withBundle, Table.values_add, List.mem_append, List.mem_singleton] at member
      rcases member with earlier | rfl
      · exact initializers function earlier
      · exact declared.enclosed

/-- Changes leave all functions inside their modules. -/
theorem Changes.enclosed (changes : registry.Changes changed) (enclosed : registry.Enclosed) :
    changed.Enclosed := by
  induction changes with
  | refl => exact enclosed
  | tail _ change hypothesis => exact hypothesis.change change

/-- A registry has all that another has under its old names, and globals under their old names. -/
structure Grows (registry changed : Registry) : Prop where
  /-- Modules are added. -/
  modules : registry.modules.entries <+: changed.modules.entries
  /-- Initializers are added. -/
  initializers : registry.initializers.entries <+: changed.initializers.entries
  /-- Functions are added. -/
  functions : registry.functions.entries <+: changed.functions.entries
  /-- Object types are added. -/
  schemas : registry.schemas.entries <+: changed.schemas.entries
  /-- Names of globals are added. -/
  globals : registry.globals.names <+: changed.globals.names

namespace Grows

/-- Nothing is added. -/
theorem refl (registry : Registry) : registry.Grows registry :=
  ⟨List.prefix_rfl, List.prefix_rfl, List.prefix_rfl, List.prefix_rfl, List.prefix_rfl⟩

/-- More is added. -/
theorem trans {middle : Registry} (first : registry.Grows middle) (second : middle.Grows changed) :
    registry.Grows changed :=
  ⟨first.modules.trans second.modules, first.initializers.trans second.initializers,
    first.functions.trans second.functions, first.schemas.trans second.schemas,
    first.globals.trans second.globals⟩

/-- Modules stay. -/
theorem mem_modules (grows : registry.Grows changed) {module : Module}
    (member : module ∈ registry.modules.values) : module ∈ changed.modules.values :=
  (grows.modules.map Prod.snd).subset member

/-- Names of modules stay. -/
theorem contains_module (grows : registry.Grows changed) {name : String}
    (known : registry.modules.contains name = true) : changed.modules.contains name = true := by
  rw [Table.contains_iff] at known ⊢
  exact (grows.modules.map Prod.fst).subset known

end Grows

/-- A change only adds. -/
theorem Change.grows (change : registry.Change changed) : registry.Grows changed := by
  cases change with
  | assigned names => exact { Grows.refl registry with globals := names ▸ List.prefix_rfl }
  | declared value new =>
    refine { Grows.refl registry with globals := ?_ }
    rw [Table.names_add]
    exact List.prefix_append _ _
  | registered => exact { Grows.refl registry with functions := List.prefix_append _ _ }
  | bound => exact { Grows.refl registry with }
  | @installed name image constants bundle new loaded declared signatures =>
    obtain ⟨types, typed, _⟩ := registry.schemas.addNew_eq_append
      (bundle.schemas.map fun schema => (schema.typeName, schema))
    obtain ⟨values, named, _⟩ := registry.globals.addNew_eq_append
      (bundle.globals.map fun name => (name, Ref.null))
    refine ⟨List.prefix_append _ _, List.prefix_append _ _, List.prefix_append _ _, ?_, ?_⟩
    · rw [withBundle, typed]
      exact List.prefix_append _ _
    · have all : (registry.withBundle bundle).globals.entries =
        registry.globals.entries ++ values := named
      rw [Table.names, Table.names, all, List.map_append]
      exact List.prefix_append _ _

/-- Changes only add. -/
theorem Changes.grows (changes : registry.Changes changed) : registry.Grows changed := by
  induction changes with
  | refl => exact .refl registry
  | tail _ change hypothesis => exact hypothesis.trans change.grows

/-- What is known by name fits together. -/
structure Sound (registry : Registry) : Prop where
  /-- Modules are known by their names. -/
  modules : ∀ entry ∈ registry.modules.entries, entry.1 = entry.2.name
  /-- Functions are known by their signatures. -/
  functions : ∀ entry ∈ registry.functions.entries, entry.1 = entry.2.signature
  /-- Object types are known by their names. -/
  schemas : ∀ entry ∈ registry.schemas.entries, entry.1 = entry.2.typeName
  /-- Names are distinct. -/
  distinct : registry.modules.names.Nodup ∧ registry.functions.names.Nodup ∧
    registry.schemas.names.Nodup ∧ registry.globals.names.Nodup
  /-- The dependencies of every module are loaded. -/
  dependencies : ∀ module ∈ registry.modules.values, ∀ name ∈ module.dependencies,
    registry.modules.contains name = true
  /-- Exactly the modules have initializers. -/
  initializers : registry.initializers.names = registry.modules.names
  /-- Object types are laid out. -/
  laid : ∀ schema ∈ registry.schemas.values, schema.Laid
  /-- Functions lie inside their modules. -/
  enclosed : registry.Enclosed
  /-- The modules of functions are loaded. -/
  loaded : ∀ function ∈ registry.functions.values, function.Loaded registry
  /-- The modules of initializers are loaded. -/
  initialized : ∀ function ∈ registry.initializers.values,
    function.module ∈ registry.modules.values

/-- Registering a host function keeps the registry sound. -/
theorem Sound.registered (sound : registry.Sound) {function : HostFunction}
    (free : function.module = none)
    (new : registry.functions.contains function.signature = false) :
    Sound { registry with
      functions := registry.functions.add function.signature (.host function) } := by
  obtain ⟨modules, functions, schemas, globals⟩ := sound.distinct
  refine { sound with
    functions := ?_
    distinct := ⟨modules, Table.nodup_add functions new, schemas, globals⟩
    enclosed := sound.enclosed.change (.registered free new)
    loaded := ?_ }
  · intro entry member
    rcases List.mem_append.mp member with earlier | last
    · exact sound.functions entry earlier
    · rw [List.mem_singleton.mp last]
      rfl
  · intro other member
    rw [Table.values_add, List.mem_append, List.mem_singleton] at member
    rcases member with earlier | rfl
    · exact sound.loaded other earlier
    · intro module own
      simp [Function.module?, free] at own

/-- An object type is an old one, or the module brings it. -/
theorem mem_schemas_withBundle {bundle : Bundle} {entry : String × Schema}
    (member : entry ∈ (registry.withBundle bundle).schemas.entries) :
    entry ∈ registry.schemas.entries ∨
      ∃ schema ∈ bundle.schemas, (schema.typeName, schema) = entry := by
  obtain ⟨types, typed, among⟩ := registry.schemas.addNew_eq_append
    (bundle.schemas.map fun schema => (schema.typeName, schema))
  rw [withBundle, typed] at member
  rcases List.mem_append.mp member with earlier | added
  · exact .inl earlier
  · exact .inr (List.mem_map.mp (among.subset added))

/-- Installing a module keeps the registry sound. -/
theorem Sound.installed (sound : registry.Sound) {name : String} {image : Image}
    {constants : Array Ref} {bundle : Bundle} (new : registry.modules.contains name = false)
    (loaded : ∀ dependency ∈ image.dependencies, registry.modules.contains dependency = true)
    (declared : bundle.Declared image (Machine.moduleOf name image constants))
    (signatures : ∀ signature ∈ bundle.functions.names,
      registry.functions.contains signature = false) : (registry.withBundle bundle).Sound := by
  obtain ⟨modules, functions, schemas, globals⟩ := sound.distinct
  have own : bundle.module.name = name := by rw [declared.own]; rfl
  have grows := Change.grows (.installed new loaded declared signatures)
  have listed : (registry.withBundle bundle).modules.values =
      registry.modules.values ++ [bundle.module] := Table.values_add
  have present : bundle.module ∈ (registry.withBundle bundle).modules.values := by
    rw [listed]
    exact List.mem_append_right _ List.mem_cons_self
  refine ⟨?_, ?_, ?_, ⟨?_, ?_, ?_, ?_⟩, ?_, ?_, ?_, ?_, ?_, ?_⟩
  · intro entry member
    rcases List.mem_append.mp member with earlier | last
    · exact sound.modules entry earlier
    · rw [List.mem_singleton.mp last]
  · intro entry member
    rcases List.mem_append.mp member with earlier | added
    · exact sound.functions entry earlier
    · obtain ⟨source, _, key, same, _⟩ := exists_of_forall₂ declared.functions added
      rw [key, (FunctionImage.own_of_declares same).1]
  · intro entry member
    rcases mem_schemas_withBundle member with earlier | ⟨schema, _, rfl⟩
    · exact sound.schemas entry earlier
    · rfl
  · exact Table.nodup_add modules (own ▸ new)
  · exact Table.nodup_append functions declared.signatures signatures
  · exact Table.nodup_addNew schemas _
  · exact Table.nodup_addNew globals _
  · intro module member dependency needed
    rw [listed, List.mem_append, List.mem_singleton] at member
    rcases member with earlier | rfl
    · exact grows.contains_module (sound.dependencies module earlier dependency needed)
    · rw [declared.own] at needed
      exact grows.contains_module (loaded dependency needed)
  · rw [withBundle, Table.names_add, Table.names_add, sound.initializers]
  · intro schema member
    obtain ⟨entry, inside, rfl⟩ := List.mem_map.mp member
    rcases mem_schemas_withBundle inside with earlier | ⟨schema, given, rfl⟩
    · exact sound.laid _ (List.mem_map_of_mem earlier)
    · exact Schema.laid_of_distinct (declared.members schema given)
  · exact sound.enclosed.change (.installed new loaded declared signatures)
  · intro function member
    rw [withBundle, Table.values_append, List.mem_append] at member
    rcases member with earlier | added
    · exact fun module belongs => grows.mem_modules (sound.loaded function earlier module belongs)
    · obtain ⟨entry, inside, rfl⟩ := List.mem_map.mp added
      obtain ⟨source, _, _, same, _⟩ := exists_of_forall₂ declared.functions inside
      intro module belongs
      rw [(FunctionImage.own_of_declares same).2, ← declared.own] at belongs
      rw [← Option.some.inj belongs]
      exact present
  · intro function member
    rw [withBundle, Table.values_add, List.mem_append, List.mem_singleton] at member
    rcases member with earlier | rfl
    · exact grows.mem_modules (sound.initialized function earlier)
    · rw [declared.initializer, ← declared.own]
      exact present

/-- Every change keeps the registry sound. -/
theorem Sound.change (sound : registry.Sound) (change : registry.Change changed) :
    changed.Sound := by
  obtain ⟨modules, functions, schemas, globals⟩ := sound.distinct
  have enclosed := sound.enclosed.change change
  cases change with
  | assigned names =>
    exact { sound with enclosed, distinct := ⟨modules, functions, schemas, names ▸ globals⟩ }
  | declared value new =>
    exact { sound with
      enclosed, distinct := ⟨modules, functions, schemas, Table.nodup_add globals new⟩ }
  | registered free new => exact sound.registered free new
  | bound signature routine => exact { sound with enclosed }
  | installed new loaded declared signatures =>
    exact sound.installed new loaded declared signatures

/-- Changes keep the registry sound. -/
theorem Changes.sound (changes : registry.Changes changed) (sound : registry.Sound) :
    changed.Sound := by
  induction changes with
  | refl => exact sound
  | tail _ change hypothesis => exact hypothesis.change change

end Registry

/-- A built-in function is done by the host, is known by its signature, and belongs to no
module. -/
theorem BuiltIn.host_of_mem {entry : String × Function}
    (member : entry ∈ BuiltIn.functions.entries) :
    ∃ function : HostFunction, entry = (function.signature, .host function) ∧
      function.module = none := by
  have made : ∀ signature parameters routine, ∃ function : HostFunction,
      BuiltIn.entry signature parameters routine = (function.signature, .host function) ∧
        function.module = none :=
    fun signature parameters routine =>
      ⟨⟨signature, parameters, 1, none, some routine⟩, rfl, rfl⟩
  rcases List.mem_append.mp member with operator | cast
  · obtain ⟨operator, _, inside⟩ := List.mem_flatMap.mp operator
    obtain ⟨kind, _, rfl⟩ := List.mem_map.mp inside
    exact made _ _ _
  · obtain ⟨target, _, inside⟩ := List.mem_flatMap.mp cast
    obtain ⟨source, _, rfl⟩ := List.mem_map.mp inside
    exact made _ _ _

/-- Built-in functions have distinct signatures, told apart by their bytes. -/
theorem BuiltIn.nodup_names : BuiltIn.functions.names.Nodup := by
  apply List.Nodup.of_map fun name => littleValue name.toUTF8.data.toList
  decide +kernel

/-- What a fresh machine knows fits together. -/
theorem Registry.sound_initial : Registry.initial.Sound := by
  have functions : ∀ function ∈ Registry.initial.functions.values,
      ∃ host : HostFunction, function = .host host ∧ host.module = none := by
    intro function member
    obtain ⟨entry, listed, rfl⟩ := List.mem_map.mp member
    obtain ⟨host, rfl, free⟩ := BuiltIn.host_of_mem listed
    exact ⟨host, rfl, free⟩
  have standard : ∀ entry ∈ Registry.initial.schemas.entries, ∃ exception,
      entry = (ExceptionClass.name exception, Registry.standardSchema exception) := by
    intro entry member
    obtain ⟨exception, _, rfl⟩ := List.mem_map.mp member
    exact ⟨exception, rfl⟩
  refine ⟨by simp [initial], ?_, ?_, ⟨by simp [initial, Table.names], BuiltIn.nodup_names,
    by decide, by simp [initial, Table.names]⟩, by simp [initial, Table.values], rfl, ?_,
    ⟨?_, by simp [initial, Table.values]⟩, ?_, by simp [initial, Table.values]⟩
  · intro entry member
    obtain ⟨host, rfl, _⟩ := BuiltIn.host_of_mem member
    rfl
  · intro entry member
    obtain ⟨exception, rfl⟩ := standard entry member
    rfl
  · intro schema member
    obtain ⟨entry, listed, rfl⟩ := List.mem_map.mp member
    obtain ⟨exception, rfl⟩ := standard entry listed
    exact Schema.laid_of_distinct (by simp [standardSchema])
  · intro function member
    obtain ⟨host, rfl, _⟩ := functions function member
    exact trivial
  · intro function member
    obtain ⟨host, rfl, free⟩ := functions function member
    intro module own
    simp [Function.module?, free] at own

namespace Machine

variable {machine after : Machine}

/-- A machine comes from another by changes of the registry, and all its functions lie inside their
modules. -/
structure Retains (machine after : Machine) : Prop where
  /-- The registry. -/
  changes : machine.registry.Changes after.registry
  /-- The functions. -/
  stocked : after.Stocked Function.Enclosed

/-- One thing happens after the other. -/
theorem Retains.trans {middle : Machine} (first : machine.Retains middle)
    (second : middle.Retains after) : machine.Retains after :=
  ⟨first.changes.trans second.changes, second.stocked⟩

/-- What globals hold changes, if anything. -/
theorem Keeps.retains (keeps : machine.Keeps Function.Enclosed after) : machine.Retains after := by
  refine ⟨?_, keeps.stocked⟩
  rw [keeps.registry]
  exact .single (.assigned keeps.globals)

/-- The registry changes, and the heap is that of a machine with the old registry. -/
theorem Keeps.retains_changed {middle : Machine}
    (keeps : machine.Keeps Function.Enclosed middle) (same : middle.registry = machine.registry)
    (collector : after.collector = middle.collector)
    (changes : machine.registry.Changes after.registry) : machine.Retains after := by
  have before : machine.registry.Enclosed :=
    same ▸ ⟨keeps.stocked.functions, keeps.stocked.initializers⟩
  have enclosed := changes.enclosed before
  refine ⟨changes, collector ▸ keeps.stocked.orderly, enclosed.functions, enclosed.initializers, ?_⟩
  rw [heap, collector]
  exact keeps.stocked.cells

section

variable (stocked : machine.Stocked Function.Enclosed)

include stocked

/-- Registering a host function that belongs to no module. -/
theorem retains_addFunction {function : HostFunction} (free : function.module = none)
    (done : machine.addFunction (.host function) = .ok after) : machine.Retains after := by
  rw [addFunction_eq] at done
  obtain ⟨_, _, rest⟩ := Except.bind_eq_ok done
  split at rest
  · cases rest
  · rename_i new
    obtain rfl := Except.ok.inj rest
    have unknown := Bool.eq_false_iff.mpr new
    exact Keeps.retains_changed (.refl stocked) rfl rfl (.single (.registered free unknown))

/-- Binding a routine. -/
theorem retains_bind (signature : String) (routine : Routine) :
    machine.Retains (machine.bind signature routine) :=
  Keeps.retains_changed (.refl stocked) rfl rfl (.single (.bound signature routine))

/-- Registering a native function. -/
theorem retains_addNative {signature : String} {parameters returns : UInt16} {callback : Nat}
    (done : machine.addNative signature parameters returns callback = .ok after) :
    machine.Retains after := by
  rw [addNative_eq] at done
  obtain ⟨added, registered, last⟩ := Except.bind_eq_ok done
  obtain rfl := Except.ok.inj last
  have first := retains_addFunction stocked rfl registered
  exact first.trans (retains_bind first.stocked _ _)

/-- Binding a native function. -/
theorem retains_bindNative {signature : String} {callback : Nat}
    (done : machine.bindNative signature callback = .ok after) : machine.Retains after := by
  rw [bindNative_eq] at done
  obtain ⟨_, _, rest⟩ := Except.bind_eq_ok done
  split at rest
  · obtain rfl := Except.ok.inj rest
    exact retains_bind stocked _ _
  · cases rest

/-- Declaring a global. -/
theorem retains_addGlobal {name : String} {value : Ref}
    (done : machine.addGlobal name value = .ok after) : machine.Retains after := by
  rw [addGlobal_eq] at done
  obtain ⟨_, _, rest⟩ := Except.bind_eq_ok done
  split at rest
  · cases rest
  · rename_i new
    obtain rfl := Except.ok.inj rest
    have unknown := Bool.eq_false_iff.mpr new
    exact (stocked.keeps_shade value).retains_changed rfl rfl (.single (.declared value unknown))

end

/-- A load that is not refused at once is of a sound image under a new name, and all dependencies
are loaded. -/
theorem checkLoad_eq_ok {name : String} {image : Image}
    (allowed : machine.checkLoad name image = .ok ()) :
    image.check = .ok () ∧ machine.registry.modules.contains name = false ∧
      ∀ dependency ∈ image.dependencies, machine.registry.modules.contains dependency = true := by
  obtain ⟨_, _, rest⟩ := Except.bind_eq_ok allowed
  cases sound : image.check with
  | error flaw =>
    rw [sound] at rest
    cases rest
  | ok checked =>
    rw [sound] at rest
    dsimp only at rest
    split at rest
    · cases rest
    · rename_i new
      refine ⟨rfl, Bool.eq_false_iff.mpr new, ?_⟩
      split at rest
      · cases rest
      · rename_i found
        intro dependency member
        have none := Option.eq_none_iff_forall_ne_some.mpr found
        simpa using List.find?_eq_none.mp none dependency member

/-- Loading a module. -/
theorem retains_load (stocked : machine.Stocked Function.Enclosed) (name : String)
    (image : Image) : machine.Retains (machine.load name image).2 := by
  rcases machine.load_cases name image with
    ⟨after, refusal, litters, refused⟩ |
      ⟨after, constants, bundle, events, allocated, allowed, declared, new, loaded⟩
  · obtain ⟨collector, registry⟩ := after.refuse_same refusal
    rw [refused]
    refine (litters.keeps stocked).retains_changed litters.registry collector ?_
    rw [registry, litters.registry]
  · have litters := machine.litters_allocateConstants image.strings #[]
    rw [allocated] at litters
    obtain ⟨_, fresh, dependencies⟩ := checkLoad_eq_ok allowed
    obtain ⟨collector, registry⟩ :=
      notes_same { after with registry := machine.registry.withBundle bundle } events
    rw [loaded]
    refine (litters.keeps stocked).retains_changed litters.registry collector ?_
    rw [registry]
    exact .single (.installed fresh dependencies declared new)

/-- Loading a module from its container. -/
theorem retains_loadContainer (stocked : machine.Stocked Function.Enclosed) (name : String)
    (bytes : List UInt8) : machine.Retains (machine.loadContainer name bytes).2 := by
  unfold loadContainer
  split
  · exact retains_load stocked name _
  · exact Keeps.retains_changed (.refl stocked) rfl rfl .refl

end Machine

end ScriptVm
