import ScriptVm.Machine.Load
import ScriptVm.Proofs.Execution.Roots
import ScriptVm.Proofs.Machine.Moves

/-!
# What loading a module does

The constants of a module are allocated one by one, and each counts as a root from then on; when a
later check fails they are forgotten. The functions that a module brings are its own, and none of
them has a callback for its routine. The other entries of the registry stay, and new globals are
null.
-/
namespace ScriptVm

/-- The module of a function, if it has one, is loaded. -/
def Function.Loaded (registry : Registry) (function : Function) : Prop :=
  ∀ module, function.module? = some module → module ∈ registry.modules.values

/-- The routine of its own that a function has. -/
def Function.routine? : Function → Option Routine
  | .script _ => none
  | .host function => function.routine

/-- A function of a loaded module, with a callback for its routine only if these are allowed. -/
def Registry.Knows (registry : Registry) (callbacks : Prop) (function : Function) : Prop :=
  function.Loaded registry ∧
    ∀ number, function.routine? = some (.callback number) → callbacks

/-- The constants of a script function of a loaded module are roots. -/
theorem Function.Loaded.constants {registry : Registry} {function : ScriptFunction}
    (loaded : (Function.script function).Loaded registry) :
    ∀ constant ∈ function.module.constants,
      constant.handle ∈ Vm.rootsOf registry [] .constants := by
  intro constant member
  refine List.mem_flatMap.mpr ⟨function.module, loaded function.module rfl, ?_⟩
  exact List.mem_map.mpr ⟨constant, Array.mem_toList_iff.mpr member, rfl⟩

/-- A function that a module declares. -/
def Function.DeclaredBy (module : Module) (function : Function) : Prop :=
  function.module? = some module ∧ function.routine? = none

/-- A built function belongs to its module. -/
theorem FunctionImage.declaredBy_build {module : Module} {image : FunctionImage}
    {function : Function} (built : image.build module = .ok function) :
    function.DeclaredBy module := by
  unfold FunctionImage.build at built
  split at built
  · obtain rfl := Except.ok.inj built
    exact ⟨rfl, rfl⟩
  · obtain ⟨blocks, _, rest⟩ := Except.bind_eq_ok built
    obtain ⟨body, _, rest⟩ := Except.bind_eq_ok rest
    obtain ⟨script, made, last⟩ := Except.bind_eq_ok rest
    obtain rfl := Except.ok.inj last
    unfold ScriptFunction.create at made
    split at made
    · simp at made
    · obtain rfl := Except.ok.inj made
      exact ⟨rfl, rfl⟩

/-- The built functions belong to their module. -/
theorem declaredBy_buildFunctions {module : Module} {images : List FunctionImage}
    {built result : Table Function} (done : buildFunctions module built images = .ok result)
    (before : ∀ function ∈ built.values, function.DeclaredBy module) :
    ∀ function ∈ result.values, function.DeclaredBy module := by
  induction images generalizing built with
  | nil =>
    obtain rfl := Except.ok.inj done
    exact before
  | cons image images hypothesis =>
    obtain ⟨function, made, rest⟩ := Except.bind_eq_ok done
    have own : function.DeclaredBy module := by
      cases outcome : image.build module with
      | error error => simp [outcome, Refusal.silently] at made
      | ok content =>
        simp only [outcome, Refusal.silently] at made
        obtain rfl := Except.ok.inj made
        exact FunctionImage.declaredBy_build outcome
    split at rest
    · cases rest
    · apply hypothesis rest
      intro other member
      simp only [Table.add, Table.values, List.map_append, List.map_cons, List.map_nil,
        List.mem_append, List.mem_singleton] at member
      rcases member with earlier | rfl
      · exact before other earlier
      · exact own

/-- What a module brings is its own. -/
theorem Image.build_own {image : Image} {module : Module} {bundle : Bundle}
    (built : image.build module = .ok bundle) :
    bundle.module = module ∧ bundle.initializer.module = module ∧
      ∀ function ∈ bundle.functions.values, function.DeclaredBy module := by
  obtain ⟨schemas, _, rest⟩ := Except.bind_eq_ok built
  obtain ⟨functions, made, rest⟩ := Except.bind_eq_ok rest
  obtain ⟨body, _, rest⟩ := Except.bind_eq_ok rest
  obtain ⟨initializer, created, last⟩ := Except.bind_eq_ok rest
  obtain rfl := Except.ok.inj last
  refine ⟨rfl, ?_, declaredBy_buildFunctions made (by simp [Table.values])⟩
  unfold ScriptFunction.create at created
  split at created
  · simp [Refusal.silently] at created
  · obtain rfl := Except.ok.inj created
    rfl

namespace Registry

/-- A registry differs from another by object types and by null globals alone. -/
structure Extends (registry changed : Registry) : Prop where
  /-- Modules and functions stay. -/
  same : changed.modules = registry.modules ∧ changed.functions = registry.functions ∧
    changed.initializers = registry.initializers ∧ changed.bindings = registry.bindings
  /-- New globals are null. -/
  globals : ∀ value ∈ changed.globals.values, value ∈ registry.globals.values ∨ value = Ref.null

/-- Nothing is added. -/
theorem Extends.refl (registry : Registry) : registry.Extends registry :=
  ⟨⟨rfl, rfl, rfl, rfl⟩, fun _ member => .inl member⟩

/-- Entries are added twice. -/
theorem Extends.trans {registry middle changed : Registry} (first : registry.Extends middle)
    (second : middle.Extends changed) : registry.Extends changed := by
  obtain ⟨⟨modules, functions, initializers, bindings⟩, globals⟩ := first
  obtain ⟨⟨modules', functions', initializers', bindings'⟩, globals'⟩ := second
  refine ⟨⟨modules'.trans modules, functions'.trans functions, initializers'.trans initializers,
    bindings'.trans bindings⟩, ?_⟩
  intro value member
  rcases globals' value member with earlier | null
  · exact globals value earlier
  · exact .inr null

/-- Adding object types. -/
theorem extends_keepSchemas (owner : String) (schemas : List Schema)
    (state : Registry × List Event) :
    state.1.Extends (schemas.foldl (keepSchema owner) state).1 := by
  induction schemas generalizing state with
  | nil => exact .refl _
  | cons schema schemas hypothesis =>
    refine Extends.trans ?_ (hypothesis (keepSchema owner state schema))
    unfold keepSchema
    dsimp only
    split
    · exact .refl _
    · exact ⟨⟨rfl, rfl, rfl, rfl⟩, fun _ member => .inl member⟩

/-- Adding globals. -/
theorem extends_keepGlobals (owner : String) (names : List String)
    (state : Registry × List Event) :
    state.1.Extends (names.foldl (keepGlobal owner) state).1 := by
  induction names generalizing state with
  | nil => exact .refl _
  | cons name names hypothesis =>
    refine Extends.trans ?_ (hypothesis (keepGlobal owner state name))
    unfold keepGlobal
    dsimp only
    split
    · exact .refl _
    · refine ⟨⟨rfl, rfl, rfl, rfl⟩, ?_⟩
      intro value member
      simp only [Table.add, Table.values, List.map_append, List.map_cons, List.map_nil,
        List.mem_append, List.mem_singleton] at member
      exact member

/-- A registry with a module installed. -/
structure Installs (registry : Registry) (bundle : Bundle) (changed : Registry) : Prop where
  /-- The module is the last one. -/
  modules : changed.modules.values = registry.modules.values ++ [bundle.module]
  /-- Its functions are the last ones. -/
  functions : changed.functions.values = registry.functions.values ++ bundle.functions.values
  /-- So is its initializer. -/
  initializers : changed.initializers.values =
    registry.initializers.values ++ [bundle.initializer]
  /-- Nothing is bound. -/
  bindings : changed.bindings = registry.bindings
  /-- New globals are null. -/
  globals : ∀ value ∈ changed.globals.values, value ∈ registry.globals.values ∨ value = Ref.null

/-- Installing a module. -/
theorem installs {registry changed : Registry} {bundle : Bundle} {events : List Event}
    (done : registry.install bundle = .ok (changed, events)) :
    registry.Installs bundle changed := by
  unfold install at done
  dsimp only at done
  split at done
  · cases done
  · obtain ⟨rfl, _⟩ := Prod.mk.inj (Except.ok.inj done)
    have kept := (extends_keepSchemas bundle.module.name bundle.schemas (registry, [])).trans
      (extends_keepGlobals bundle.module.name bundle.globals _)
    obtain ⟨⟨modules, functions, initializers, bindings⟩, globals⟩ := kept
    refine ⟨?_, ?_, ?_, bindings, globals⟩
    · simp [Table.add, Table.values, modules]
    · simp [Table.append, Table.values, functions]
    · simp [Table.add, Table.values, initializers]

end Registry

namespace Machine

variable {good : Function → Prop} {machine : Machine} {running held : Handle → Prop}

/-- A refused module changes nothing but the journal. -/
theorem refuse_same (machine : Machine) (refusal : Refusal) :
    (machine.refuse refusal).2.collector = machine.collector ∧
      (machine.refuse refusal).2.registry = machine.registry := by
  unfold refuse
  dsimp only
  split <;> exact ⟨rfl, rfl⟩

/-- Reports change nothing but the journal. -/
theorem notes_same (machine : Machine) (events : List Event) :
    (events.foldr (fun event machine => machine.note event) machine).collector =
        machine.collector ∧
      (events.foldr (fun event machine => machine.note event) machine).registry =
        machine.registry := by
  induction events with
  | nil => exact ⟨rfl, rfl⟩
  | cons event events hypothesis => exact hypothesis

/-- Roots together with constants that are not installed yet. -/
def withConstants (scope : Scope) (constants : Array Ref) : Scope := fun category handle =>
  scope category handle ∨ category = .constants ∧ ∃ constant ∈ constants, constant.handle = handle

/-- Allocating constants: each counts as a root from then on. -/
theorem moves_allocateConstants (scope : Scope) (texts : List String) (constants : Array Ref)
    (sound : machine.Sound good) :
    ∃ allocated, View.Moves ⟨machine.collector, withConstants scope constants, unheld⟩
        ⟨(machine.allocateConstants texts constants).2.collector,
          withConstants scope allocated, unheld⟩ ∧
      (machine.allocateConstants texts constants).2.Sound good ∧
      (machine.allocateConstants texts constants).2.registry = machine.registry ∧
      ∀ result, (machine.allocateConstants texts constants).1 = .ok result →
        result = allocated := by
  induction texts generalizing machine constants with
  | nil =>
    refine ⟨constants, .refl, sound, rfl, ?_⟩
    intro result done
    exact (Except.ok.inj done).symm
  | cons text texts hypothesis =>
    unfold allocateConstants
    split
    · let cell := Cell.value (.string text)
      let next := constants.push ⟨(machine.allocate cell false).1⟩
      have made : machine.Leads good unheld unheld (machine.allocate cell false).2 unheld _ :=
        leads_allocate sound false (by simp [cell, Cell.children]) (by simp [cell])
      obtain ⟨allocated, moves, fine, registry, result⟩ := hypothesis next made.sound
      refine ⟨allocated, ?_, fine, registry, result⟩
      have first : View.Move ⟨machine.collector, withConstants scope constants, unheld⟩
          ⟨(machine.collector.allocate cell false).2, withConstants scope constants,
            holding unheld (machine.collector.allocate cell false).1⟩ :=
        .allocate (by simp [cell, Cell.children])
      have second : View.Move ⟨(machine.collector.allocate cell false).2,
            withConstants scope constants, holding unheld (machine.collector.allocate cell false).1⟩
          ⟨(machine.allocate cell false).2.collector, withConstants scope next, unheld⟩ := by
        refine .weaken ?_ fun _ none => none.elim
        rintro category handle (known | ⟨rfl, constant, member, rfl⟩)
        · exact .inl (.inl known)
        · rcases Array.mem_push.mp member with earlier | rfl
          · exact .inl (.inr ⟨rfl, constant, earlier, rfl⟩)
          · refine .inr ⟨.start (.inr (.inr (.inr rfl))), ?_⟩
            intro begun
            rw [Collector.cycle_allocate] at begun ⊢
            exact machine.collector.covered_allocate cell false begun _
      exact (Relation.ReflTransGen.single first).tail second |>.trans moves
    · refine ⟨constants, .refl, sound, rfl, ?_⟩
      intro result done
      simp at done

end Machine

end ScriptVm
