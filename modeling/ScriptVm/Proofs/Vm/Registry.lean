import ScriptVm.Proofs.Vm.Frames

/-!
# What virtual machines know by name

Along every run what is known by name fits together, and nothing of it is taken away or replaced.
A successful load adds the module, its initializer and all its functions, and of its object types
and globals it adds the first one under each name that was not taken.
-/
namespace ScriptVm

/-- Entries are added to a table unless their names are taken, the first one under a name alone. -/
structure Table.Admits {α : Type} (table : Table α) (entries : List (String × α))
    (after : Table α) : Prop where
  /-- Old entries stay in their places, and some of the given ones follow in order. -/
  shape : ∃ added, after.entries = table.entries ++ added ∧ added.Sublist entries
  /-- Names are distinct if they were. -/
  distinct : table.names.Nodup → after.names.Nodup
  /-- An old entry is found, and otherwise the first of the given ones under the name. -/
  found : ∀ name, after.find? name = (table.find? name).or (entries.lookup name)

/-- Adding entries one after the other is adding those whose names are not taken. -/
theorem Table.admits_addNew {α : Type} (table : Table α) (entries : List (String × α)) :
    table.Admits entries (table.addNew entries) :=
  ⟨table.addNew_eq_append entries, fun distinct => Table.nodup_addNew distinct entries,
    table.find?_addNew entries⟩

/-- A registry has what another has and what a module brings, and nothing else. -/
structure Registry.Adds (registry : Registry) (module : Module) (image : Image)
    (after : Registry) : Prop where
  /-- The module is added. -/
  modules : after.modules.entries = registry.modules.entries ++ [(module.name, module)]
  /-- Its initializer is added, which runs the first bytes of the code. -/
  initializers : after.initializers.entries = registry.initializers.entries ++ [(module.name,
    ⟨module.name ++ ".<init>", 0, 0, module, ⟨0, module.initLength, [], []⟩⟩)]
  /-- All its functions are added, under new signatures. -/
  functions : ∃ added, after.functions.entries = registry.functions.entries ++ added ∧
    List.Forall₂ (fun image entry => entry.1 = image.signature ∧
      image.Declares module entry.2) image.functions added ∧
    ∀ entry ∈ added, registry.functions.contains entry.1 = false
  /-- Nothing is bound. -/
  bindings : after.bindings = registry.bindings
  /-- Object types are added whose names were not taken. -/
  schemas : registry.schemas.Admits
    (image.objects.map fun object => (object.typeName, object.schema)) after.schemas
  /-- Null globals are added whose names were not taken. -/
  globals : registry.globals.Admits (image.globals.map fun name => (name, Ref.null)) after.globals

/-- A registry with a module installed has what the module brings. -/
theorem Registry.adds_withBundle {registry : Registry} {module : Module} {image : Image}
    {bundle : Bundle} (declared : bundle.Declared image module)
    (new : ∀ signature ∈ bundle.functions.names,
      registry.functions.contains signature = false) :
    registry.Adds module image (registry.withBundle bundle) := by
  have types : bundle.schemas.map (fun schema => (schema.typeName, schema)) =
      image.objects.map fun object => (object.typeName, object.schema) := by
    rw [declared.schemas, List.map_map]
    rfl
  refine ⟨?_, ?_, ⟨bundle.functions.entries, rfl, ?_, ?_⟩, rfl, ?_, ?_⟩
  · rw [withBundle, declared.own]
    rfl
  · rw [withBundle, declared.own, declared.initializer]
    rfl
  · exact declared.functions.imp fun _ _ facts => ⟨facts.1, facts.2.1⟩
  · intro entry member
    exact new entry.1 (List.mem_map_of_mem member)
  · rw [withBundle, types]
    exact Table.admits_addNew _ _
  · rw [withBundle, declared.globals]
    exact Table.admits_addNew _ _

/-- A machine comes from another by loading a sound image under a new name, with all dependencies
loaded: it has what the module brings, and the constants of the module are its strings. -/
structure Machine.Loads (machine : Machine) (name : String) (image : Image)
    (after : Machine) : Prop where
  /-- The image is sound. -/
  checked : image.check = .ok ()
  /-- The name is new. -/
  new : machine.registry.modules.contains name = false
  /-- The dependencies are loaded. -/
  dependencies : ∀ dependency ∈ image.dependencies,
    machine.registry.modules.contains dependency = true
  /-- The module is added with all that it brings. -/
  adds : ∃ constants,
    List.Forall₂ (fun text constant => after.heap.value? constant = some (.string text))
      image.strings constants.toList ∧
    machine.registry.Adds (moduleOf name image constants) image after.registry

/-- What a successful load does. -/
theorem Machine.loads_of_ok {machine after : Machine} (orderly : machine.collector.Orderly)
    {name : String} {image : Image} (done : machine.load name image = (.ok (), after)) :
    machine.Loads name image after := by
  rcases machine.load_cases name image with
    ⟨middle, refusal, _, refused⟩ |
      ⟨middle, constants, bundle, events, allocated, allowed, declared, new, loaded⟩
  · rw [refused] at done
    cases done
  · obtain ⟨checked, fresh, dependencies⟩ := checkLoad_eq_ok allowed
    obtain ⟨_, rfl⟩ := Prod.mk.inj (loaded.symm.trans done)
    obtain ⟨collector, registry⟩ :=
      notes_same { middle with registry := machine.registry.withBundle bundle } events
    obtain ⟨added, shape, texts⟩ := texts_allocateConstants orderly allocated
    refine ⟨checked, fresh, dependencies, constants, ?_, ?_⟩
    · rw [heap, collector, shape]
      exact texts
    · rw [registry]
      exact Registry.adds_withBundle declared new

namespace Vm

variable {vm : Vm}

/-- What a virtual machine knows by name fits together and stays, and loads add to it. -/
structure Catalogued (vm : Vm) : Prop where
  /-- What is known by name fits together. -/
  sound : vm.machine.registry.Sound
  /-- Whatever calls follow, nothing known by name is taken away or replaced. -/
  grows : ∀ after, RunsBy Call.Proper vm after →
    vm.machine.registry.Grows after.machine.registry
  /-- A successful load adds what the module brings. -/
  loads : ∀ name image after, vm.machine.load name image = (.ok (), after) →
    vm.machine.Loads name image after
  /-- A load from a container that succeeds is that of the module that is read from it. -/
  containers : ∀ name bytes after, vm.machine.loadContainer name bytes = (.ok (), after) →
    ∃ image, Container.read bytes = .ok image ∧ vm.machine.load name image = (.ok (), after)

/-- Whatever proper calls are made on a fresh virtual machine, what it knows by name fits together
and stays, and successful loads add to it what their modules bring. -/
theorem catalogued_of_runs {config : Config} {fresh : Vm} (made : create config = .ok fresh)
    (runs : RunsBy Call.Proper fresh vm) : vm.Catalogued := by
  have upholds := (intact_create made).upholds_runs runs
  refine ⟨?_, ?_, ?_, ?_⟩
  · have initial : fresh.machine.registry.Sound := by
      rw [(create_eq made).1]
      exact Registry.sound_initial
    exact upholds.machine.changes.sound initial
  · intro after later
    exact (upholds.intact.upholds_runs later).machine.changes.grows
  · intro name image after done
    exact Machine.loads_of_ok upholds.intact.stocked.orderly done
  · intro name bytes after done
    unfold Machine.loadContainer at done
    split at done
    · rename_i image read
      exact ⟨image, read, done⟩
    · cases done

/-- A module whose object type collides with one of its dependency, and whose global is declared
twice, can be loaded. -/
theorem catalogued_of_runs_collision : ∃ fresh vm after, create {} = .ok fresh ∧
    RunsBy Call.Proper fresh vm ∧
    vm.machine.load "derived" {
      dependencies := ["base"], objects := [⟨"Type", []⟩], globals := ["global", "global"],
      strings := ["text"], code := [0, 0, 0], initLength := 1,
      functions := [⟨"script", false, 0, 0, 1, 2, ["local"],
        [⟨1, 2, [⟨.object, some "Type", 2⟩]⟩]⟩] } = (.ok (), after) ∧
    after.registry.globals.names = ["global"] ∧
    after.registry.schemas.find? "Type" = some ⟨"Type", [("member", .string)]⟩ ∧
    vm.Catalogued := by
  let base : Image := { objects := [⟨"Type", [⟨"member", .string⟩]⟩] }
  let fresh : Vm := { machine := { config := {}, registry := .initial, collector := .create 32 } }
  have made : create {} = .ok fresh := rfl
  have runs : RunsBy Call.Proper fresh (fresh.perform (.load "base" base)) :=
    .single ⟨.load "base" base, proper_of_quiet _ _ rfl, rfl⟩
  refine ⟨fresh, _, _, made, runs, rfl, ?_, ?_, catalogued_of_runs made runs⟩
  · decide +kernel
  · decide +kernel

end Vm

end ScriptVm
