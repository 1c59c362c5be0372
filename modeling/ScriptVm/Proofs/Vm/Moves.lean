import ScriptVm.Proofs.Execution.Moves
import ScriptVm.Proofs.Machine.Load
import ScriptVm.Proofs.Machine.Values
import ScriptVm.Proofs.Vm.Calls

/-!
# What calls do to the heap

Every call that neither collects nor pins is a sequence of moves, which starts with the references
that the call stores in hand and ends with none. Every call keeps the known functions those of
loaded modules. Whether callbacks may be known is a parameter, so that runs without callbacks are
covered as well.
-/
namespace ScriptVm

namespace Vm

variable {callbacks : Prop} {vm after : Vm} {held held' : Handle → Prop}

/-- What live executions keep alive. -/
def running (vm : Vm) : Handle → Prop :=
  fun handle => ∃ entry ∈ vm.executions, handle ∈ entry.execution.roots

/-- A virtual machine as the collector sees it. -/
def view (vm : Vm) (held : Handle → Prop) : View := vm.machine.view vm.running held

/-- The roots of a virtual machine are those of its registry and of its live executions. -/
theorem scope_roots (vm : Vm) : vm.roots.scope = vm.machine.registry.scope vm.running := by
  funext category handle
  cases category with
  | constants | globals | functions => rfl
  | executions =>
    show (handle ∈ vm.executions.flatMap fun entry => entry.execution.roots) = _
    simp only [List.mem_flatMap, Registry.scope, running]

/-- All functions of a virtual machine are known ones. -/
structure Grounded (callbacks : Prop) (vm : Vm) : Prop where
  /-- Those of the machine. -/
  machine : vm.machine.Sound (vm.machine.registry.Knows callbacks)
  /-- Those that executions call. -/
  executions : ∀ entry ∈ vm.executions,
    entry.execution.Fine (vm.machine.registry.Knows callbacks)
  /-- Those bound to native functions. -/
  bindings : ∀ number, Routine.callback number ∈ vm.machine.registry.bindings.values → callbacks

/-- A virtual machine comes from another by moves, and its functions are known. -/
structure Advances (callbacks : Prop) (vm : Vm) (held : Handle → Prop) (after : Vm) : Prop where
  /-- The moves. -/
  moves : View.Moves (vm.view held) (after.view unheld)
  /-- The functions. -/
  grounded : after.Grounded callbacks

namespace Advances

/-- Nothing happens, and everything in hand is forgotten. -/
theorem refl (grounded : vm.Grounded callbacks) : Advances callbacks vm held vm :=
  ⟨.single (.weaken (fun _ _ root => .inl root) fun _ none => none.elim), grounded⟩

/-- One thing happens after the other. -/
theorem trans {middle : Vm} (first : Advances callbacks vm held middle)
    (second : Advances callbacks middle unheld after) : Advances callbacks vm held after :=
  ⟨first.moves.trans second.moves, second.grounded⟩

end Advances

/-- Knowing a function depends on the modules alone. -/
theorem knows_of_modules {registry changed : Registry}
    (modules : changed.modules = registry.modules) :
    changed.Knows callbacks = registry.Knows callbacks := by
  funext function
  simp only [Registry.Knows, Function.Loaded, modules]

/-- Moves of the machine, together with executions that call known functions and keep no further
root alive, advance the virtual machine. -/
theorem advances_of_leads (grounded : vm.Grounded callbacks) {running : Handle → Prop}
    (leads : vm.machine.Leads (vm.machine.registry.Knows callbacks) vm.running held after.machine
      running held')
    (roots : ∀ handle, after.running handle → running handle)
    (executions : ∀ entry ∈ after.executions,
      entry.execution.Fine (vm.machine.registry.Knows callbacks)) :
    Advances callbacks vm held after := by
  have known : after.machine.registry.Knows callbacks = vm.machine.registry.Knows callbacks := by
    apply knows_of_modules
    rw [leads.registry]
  constructor
  · refine leads.moves.tail (.weaken ?_ fun _ none => none.elim)
    intro category handle root
    cases category with
    | constants | globals | functions => exact .inl root
    | executions => exact .inl (roots handle root)
  · refine ⟨known ▸ leads.sound, known ▸ executions, ?_⟩
    rw [leads.registry]
    exact grounded.bindings

/-- Moves of the machine alone. -/
theorem advances_machine (grounded : vm.Grounded callbacks) {machine : Machine}
    (leads : vm.machine.Leads (vm.machine.registry.Knows callbacks) vm.running held machine
      vm.running held') : Advances callbacks vm held { vm with machine } :=
  advances_of_leads grounded leads (fun _ root => root) grounded.executions

/-- Moves of the machine of a call that may fail. -/
theorem advances_adopt (grounded : vm.Grounded callbacks) {α : Type} {work : Work Machine α}
    (atomic : work.Atomic vm.machine)
    (leads : ∀ machine, work.changed vm.machine = .ok machine → ∃ held',
      vm.machine.Leads (vm.machine.registry.Knows callbacks) vm.running held machine
        vm.running held') : Advances callbacks vm held (vm.adopt work) := by
  rcases adopt_cases atomic with same | ⟨machine, done, same⟩
  · rw [same]
    exact .refl grounded
  · rw [same]
    obtain ⟨_, moved⟩ := leads machine done
    exact advances_machine grounded moved

/-- The roots of an execution are those of the virtual machine. -/
theorem running_of_execution? {id : Nat} {execution : Execution}
    (present : vm.execution? id = some execution) {handle : Handle}
    (root : handle ∈ execution.roots) : vm.running handle := by
  obtain ⟨entry, found, rfl⟩ := Option.map_eq_some_iff.mp present
  exact ⟨entry, List.mem_of_find?_eq_some found, root⟩

/-- The calls of an execution are those of known functions. -/
theorem Grounded.fine (grounded : vm.Grounded callbacks) {id : Nat} {execution : Execution}
    (present : vm.execution? id = some execution) :
    execution.Fine (vm.machine.registry.Knows callbacks) := by
  obtain ⟨entry, found, rfl⟩ := Option.map_eq_some_iff.mp present
  exact grounded.executions entry (List.mem_of_find?_eq_some found)

/-- An offered function is a known one. -/
theorem Grounded.knows (grounded : vm.Grounded callbacks) {function : Function}
    (offered : vm.machine.registry.Offers function) :
    vm.machine.registry.Knows callbacks function := by
  rcases offered with registered | ⟨script, member, rfl⟩
  · exact grounded.machine.functions function registered
  · exact grounded.machine.initializers script member

/-- Moves of an execution. -/
theorem advances_put (grounded : vm.Grounded callbacks) {id : Nat} {execution : Execution}
    (present : ∀ handle ∈ execution.roots, vm.running handle) {state : Machine × Execution}
    (leads : Execution.Leads (vm.machine.registry.Knows callbacks) vm.running
      (vm.machine, execution) held state held') :
    Advances callbacks vm held (vm.put id state) := by
  have entered : vm.machine.Leads (vm.machine.registry.Knows callbacks) vm.running held vm.machine
      (execution.running vm.running) held := by
    refine ⟨.single (.weaken ?_ fun _ holds => Machine.reaches_of_held holds),
      grounded.machine, rfl⟩
    intro category handle root
    cases category with
    | constants | globals | functions => exact .inl root
    | executions =>
      rcases root with before | member
      · exact .inl before
      · exact .inl (present handle member)
  apply advances_of_leads grounded (entered.trans leads.machine)
  · rintro handle ⟨entry, member, root⟩
    obtain ⟨old, inside, rfl⟩ := List.mem_map.mp member
    split at root
    · exact .inr root
    · exact .inl ⟨old, inside, root⟩
  · intro entry member
    obtain ⟨old, inside, rfl⟩ := List.mem_map.mp member
    split
    · exact leads.fine
    · exact grounded.executions old inside

/-- Moves of an execution by what work leaves. -/
theorem advances_left (grounded : vm.Grounded callbacks) {id : Nat} {α : Type}
    {work : Work (Machine × Execution) α}
    (leads : ∀ execution, vm.execution? id = some execution → ∃ held',
      Execution.Leads (vm.machine.registry.Knows callbacks) vm.running (vm.machine, execution)
        held (work.left (vm.machine, execution)) held') :
    Advances callbacks vm held (vm.onExecution id work) := by
  unfold onExecution
  split
  · exact .refl grounded
  · rename_i execution present
    obtain ⟨_, moved⟩ := leads execution present
    exact advances_put grounded (fun _ root => running_of_execution? present root) moved

/-- Moves of an execution in a call that may fail. -/
theorem advances_onExecution (grounded : vm.Grounded callbacks) {id : Nat}
    {α : Type} {work : Work (Machine × Execution) α}
    (atomic : ∀ execution, work.Atomic (vm.machine, execution))
    (leads : ∀ execution state, vm.execution? id = some execution →
      work.changed (vm.machine, execution) = .ok state → ∃ held',
        Execution.Leads (vm.machine.registry.Knows callbacks) vm.running (vm.machine, execution)
          held state held') :
    Advances callbacks vm held (vm.onExecution id work) := by
  refine advances_left grounded fun execution present => ?_
  rcases (atomic execution).left_cases with same | done
  · rw [same]
    exact ⟨held, .refl grounded.machine (grounded.fine present)⟩
  · exact leads execution _ present done

/-! ## Turns -/

/-- Replacing an execution by one that keeps no further root alive. -/
theorem advances_setExecution (grounded : vm.Grounded callbacks) {id : Nat}
    {execution changed : Execution} (present : vm.execution? id = some execution)
    (leads : Execution.Leads (vm.machine.registry.Knows callbacks) vm.running
      (vm.machine, execution) held (vm.machine, changed) held') :
    Advances callbacks vm held (vm.setExecution id changed) :=
  advances_put grounded (fun _ root => running_of_execution? present root) leads

/-- Ending the call of a host function. -/
theorem advances_afterRoutine (grounded : vm.Grounded callbacks) (id frame : Nat) :
    Advances callbacks vm held (vm.afterRoutine id frame) := by
  unfold afterRoutine
  split
  · rename_i execution present
    have fine := grounded.fine present
    have returned : Execution.Leads (vm.machine.registry.Knows callbacks) vm.running
        (vm.machine, execution) held (vm.machine, execution.returnFrom frame) held := by
      unfold Execution.returnFrom
      split
      · rename_i top frames before
        split
        · apply Execution.leads_frames grounded.machine fine
          · exact fun _ inside => .inl inside
          · intro other inside
            rw [before]
            exact .inl (List.mem_cons_of_mem _ inside)
        · exact .refl grounded.machine fine
      · exact .refl grounded.machine fine
    exact advances_setExecution grounded present
      (returned.trans (Execution.leads_settle grounded.machine returned.fine))
  · exact .refl grounded

/-- One turn of an execution, whose callbacks do nothing. -/
theorem advances_turn (grounded : vm.Grounded callbacks) {id : Nat} {execution : Execution}
    (present : vm.execution? id = some execution) :
    Advances callbacks vm held (turn idle id execution (vm, ())).1 := by
  have fine := grounded.fine present
  have roots : ∀ handle ∈ execution.roots, vm.running handle :=
    fun _ root => running_of_execution? present root
  unfold turn
  dsimp only
  split
  · exact advances_setExecution grounded present
      (Execution.leads_settle grounded.machine fine)
  · rename_i frame function _ _
    unfold callHost
    dsimp only
    split
    · rw [act_eq_put]
      have raised : Execution.Leads (vm.machine.registry.Knows callbacks) vm.running
          (vm.machine, execution) held
          (execution.raiseFault vm.machine (.unboundFunction function.signature)) held :=
        Execution.leads_raiseFault grounded.machine fine _
      exact advances_put grounded roots
        (raised.trans (Execution.leads_settle raised.machine.sound raised.fine))
    · exact advances_afterRoutine grounded id frame
    · rename_i routine _ _
      rw [act_eq_put]
      have finished : Execution.Leads (vm.machine.registry.Knows callbacks) vm.running
          (vm.machine, execution) held (execution.finishRoutine vm.machine
            (execution.routineResult vm.machine routine)) held :=
        Execution.leads_finishRoutine grounded.machine fine
          fun _ computed => Execution.routineResult_plain computed
      have advanced : Advances callbacks vm held (vm.put id (execution.finishRoutine vm.machine
          (execution.routineResult vm.machine routine))) :=
        advances_put grounded roots finished
      exact advanced.trans (advances_afterRoutine advanced.grounded id frame)
  · rw [act_eq_put]
    have dispatched : Execution.Leads (vm.machine.registry.Knows callbacks) vm.running
        (vm.machine, execution) held (execution.dispatch vm.machine) held :=
      Execution.leads_dispatch grounded.machine fine
    exact advances_put grounded roots
      (dispatched.trans (Execution.leads_settle dispatched.machine.sound dispatched.fine))

/-! ## Loading -/

/-- A machine with the same collector and registry is sound, too. -/
theorem sound_of_same {good : Function → Prop} {machine after : Machine}
    (sound : machine.Sound good) (collector : after.collector = machine.collector)
    (registry : after.registry = machine.registry) : after.Sound good := by
  refine ⟨collector ▸ sound.orderly, registry ▸ sound.functions, registry ▸ sound.initializers,
    ?_, registry ▸ sound.anchors⟩
  intro handle proxy function resolved
  rw [Machine.heap, collector] at resolved
  exact sound.cells handle proxy function resolved

/-- A machine that differs by its journal alone, or by constants on the heap that nothing refers
to. -/
theorem advances_refused (grounded : vm.Grounded callbacks) {machine : Machine}
    {constants : Array Ref} (registry : machine.registry = vm.machine.registry)
    (sound : machine.Sound (vm.machine.registry.Knows callbacks))
    (moves : View.Moves (vm.view held) ⟨machine.collector,
      Machine.withConstants (vm.machine.registry.scope vm.running) constants, unheld⟩) :
    Advances callbacks vm held { vm with machine } := by
  refine ⟨moves.tail (.weaken ?_ fun _ none => none.elim), ?_⟩
  · intro category handle root
    rw [registry] at root
    exact .inl (.inl root)
  · refine ⟨?_, ?_, ?_⟩
    · rw [registry]
      exact sound
    · rw [registry]
      exact grounded.executions
    · rw [registry]
      exact grounded.bindings

/-- A known function stays known when modules are added. -/
theorem knows_mono {registry changed : Registry}
    (modules : ∀ module ∈ registry.modules.values, module ∈ changed.modules.values)
    {function : Function} (known : registry.Knows callbacks function) :
    changed.Knows callbacks function :=
  ⟨fun module own => modules module (known.1 module own), known.2⟩

/-- A function that a loaded module declares is known. -/
theorem knows_declared {registry : Registry} {module : Module} {function : Function}
    (declared : function.DeclaredBy module) (loaded : module ∈ registry.modules.values) :
    registry.Knows callbacks function := by
  obtain ⟨own, routine⟩ := declared
  constructor
  · intro other belongs
    obtain rfl := Option.some.inj (own.symm.trans belongs)
    exact loaded
  · intro number bound
    simp [routine] at bound

/-- Installing a module whose constants count as roots already. -/
theorem advances_installed (grounded : vm.Grounded callbacks) {machine after : Machine}
    {bundle : Bundle} (sound : machine.Sound (vm.machine.registry.Knows callbacks))
    (moves : View.Moves (vm.view held) ⟨machine.collector,
      Machine.withConstants (vm.machine.registry.scope vm.running) bundle.module.constants,
      unheld⟩)
    (installs : vm.machine.registry.Installs bundle after.registry)
    (collector : after.collector = machine.collector)
    (initializer : bundle.initializer.module = bundle.module)
    (functions : ∀ function ∈ bundle.functions.values, function.DeclaredBy bundle.module) :
    Advances callbacks vm held { vm with machine := after } := by
  have loaded : bundle.module ∈ after.registry.modules.values := by
    rw [installs.modules]
    exact List.mem_append_right _ List.mem_cons_self
  have kept : ∀ {function : Function}, vm.machine.registry.Knows callbacks function →
      after.registry.Knows callbacks function := by
    intro function known
    refine knows_mono ?_ known
    intro module member
    rw [installs.modules]
    exact List.mem_append_left _ member
  have nullReached : View.Reaches ⟨machine.collector, Machine.withConstants
      (vm.machine.registry.scope vm.running) bundle.module.constants, unheld⟩ Handle.null :=
    Collector.reaches_null sound.orderly.lawful _ _
  have nullCovered := sound.orderly.lawful.covered_null machine.collector.cycle.worklist
  constructor
  · rw [show Vm.view { vm with machine := after } unheld =
      ⟨machine.collector, after.registry.scope vm.running, unheld⟩ by
        simp only [Vm.view, Machine.view, collector]; rfl]
    refine moves.tail (.weaken ?_ fun _ none => none.elim)
    intro category handle root
    cases category with
    | constants =>
      have member : handle ∈ after.registry.modules.values.flatMap
        fun module => module.constants.toList.map Ref.handle := root
      rw [installs.modules, List.flatMap_append, List.mem_append] at member
      rcases member with earlier | new
      · exact .inl (.inl earlier)
      · have listed : handle ∈ bundle.module.constants.toList.map Ref.handle := by simpa using new
        obtain ⟨constant, inside, rfl⟩ := List.mem_map.mp listed
        exact .inl (.inr ⟨rfl, constant, Array.mem_toList_iff.mp inside, rfl⟩)
    | globals =>
      obtain ⟨value, inside, rfl⟩ := List.mem_map.mp root
      rcases installs.globals value inside with earlier | rfl
      · exact .inl (.inl (List.mem_map.mpr ⟨value, earlier, rfl⟩))
      · exact .inr ⟨nullReached, fun _ => nullCovered⟩
    | functions =>
      obtain ⟨function, _, listed⟩ := List.mem_flatMap.mp root
      obtain ⟨_, _, rfl⟩ := List.mem_map.mp listed
      exact .inr ⟨nullReached, fun _ => nullCovered⟩
    | executions => exact .inl (.inl root)
  · refine ⟨⟨collector ▸ sound.orderly, ?_, ?_, ?_, ?_⟩, ?_, ?_⟩
    · intro function member
      rw [installs.functions, List.mem_append] at member
      rcases member with earlier | new
      · exact kept (grounded.machine.functions function earlier)
      · exact knows_declared (functions function new) loaded
    · intro function member
      rw [installs.initializers, List.mem_append, List.mem_singleton] at member
      rcases member with earlier | rfl
      · exact kept (grounded.machine.initializers function earlier)
      · exact knows_declared ⟨congrArg some initializer, rfl⟩ loaded
    · intro handle proxy function resolved holds
      rw [Machine.heap, collector] at resolved
      exact kept (sound.cells handle proxy function resolved holds)
    · intro function known
      exact known.1.constants
    · intro entry member frame inside
      exact kept (grounded.executions entry member frame inside)
    · intro number member
      rw [installs.bindings] at member
      exact grounded.bindings number member

/-- Loading a module. -/
theorem advances_load (grounded : vm.Grounded callbacks) (name : String) (image : Image) :
    Advances callbacks vm held { vm with machine := (vm.machine.load name image).2 } := by
  have start : View.Moves (vm.view held) ⟨vm.machine.collector,
      Machine.withConstants (vm.machine.registry.scope vm.running) #[], unheld⟩ := by
    refine .single (.weaken ?_ fun _ none => none.elim)
    rintro category handle (known | ⟨_, constant, member, _⟩)
    · exact .inl known
    · simp at member
  unfold Machine.load
  split
  · rename_i refusal _
    obtain ⟨collector, registry⟩ := vm.machine.refuse_same refusal
    exact advances_refused grounded registry (sound_of_same grounded.machine collector registry)
      (collector ▸ start)
  · obtain ⟨allocated, moves, sound, registry, result⟩ := Machine.moves_allocateConstants
      (vm.machine.registry.scope vm.running) image.strings #[] grounded.machine
    have moved := start.trans moves
    split
    · rename_i error machine outcome
      rw [outcome] at moved sound registry
      obtain ⟨collector', registry'⟩ := machine.refuse_same { error }
      exact advances_refused grounded (registry'.trans registry)
        (sound_of_same sound collector' registry') (collector' ▸ moved)
    · rename_i constants machine outcome
      rw [outcome] at moved sound registry result
      obtain rfl := result constants rfl
      dsimp only
      split
      · rename_i refusal _
        obtain ⟨collector', registry'⟩ := machine.refuse_same refusal
        exact advances_refused grounded (registry'.trans registry)
          (sound_of_same sound collector' registry') (collector' ▸ moved)
      · rename_i changed events done
        obtain ⟨bundle, built, installed⟩ := Except.bind_eq_ok done
        obtain ⟨own, initializer, functions⟩ := Image.build_own built
        obtain ⟨collector', registry'⟩ :=
          Machine.notes_same { machine with registry := changed } events
        have installs : vm.machine.registry.Installs bundle (events.foldr
            (fun event (machine : Machine) => machine.note event)
            { machine with registry := changed }).registry := by
          rw [registry', ← registry]
          exact Registry.installs installed
        have movedModule : View.Moves (vm.view held) ⟨machine.collector, Machine.withConstants
            (vm.machine.registry.scope vm.running) bundle.module.constants, unheld⟩ := by
          rw [own]
          exact moved
        have ownFunctions : ∀ function ∈ bundle.functions.values,
            function.DeclaredBy bundle.module := by
          rw [own]
          exact functions
        exact advances_installed grounded sound movedModule installs collector'
          (initializer.trans own.symm) ownFunctions

/-! ## Callbacks -/

/-- Changing what is known by name, apart from modules and globals, where callbacks are allowed. -/
theorem advances_registry (grounded : vm.Grounded callbacks) (allowed : callbacks)
    {machine : Machine} (collector : machine.collector = vm.machine.collector)
    (modules : machine.registry.modules = vm.machine.registry.modules)
    (initializers : machine.registry.initializers = vm.machine.registry.initializers)
    (globals : machine.registry.globals = vm.machine.registry.globals)
    (functions : ∀ function ∈ machine.registry.functions.values,
      function ∈ vm.machine.registry.functions.values ∨ function.module? = none) :
    Advances callbacks vm held { vm with machine } := by
  have known : machine.registry.Knows callbacks = vm.machine.registry.Knows callbacks :=
    knows_of_modules modules
  have null : (vm.view held).Reaches Handle.null := grounded.machine.reaches_null
  have nullCovered :=
    grounded.machine.orderly.lawful.covered_null vm.machine.collector.cycle.worklist
  constructor
  · have same : Vm.view { vm with machine } unheld =
        ⟨vm.machine.collector, machine.registry.scope vm.running, unheld⟩ := by
      simp only [Vm.view, Machine.view, collector]
      rfl
    rw [same]
    refine .single (.weaken ?_ fun _ none => none.elim)
    intro category handle root
    cases category with
    | constants =>
      have listed : handle ∈ rootsOf machine.registry [] .constants := root
      simp only [rootsOf, modules] at listed
      exact .inl listed
    | globals =>
      have listed : handle ∈ rootsOf machine.registry [] .globals := root
      simp only [rootsOf, globals] at listed
      exact .inl listed
    | functions =>
      obtain ⟨function, _, listed⟩ := List.mem_flatMap.mp root
      obtain ⟨_, _, rfl⟩ := List.mem_map.mp listed
      exact .inr ⟨null, fun _ => nullCovered⟩
    | executions => exact .inl root
  · refine ⟨⟨collector ▸ grounded.machine.orderly, ?_, ?_, ?_, ?_⟩, ?_, fun _ _ => allowed⟩
    · intro function member
      rcases functions function member with earlier | hosted
      · rw [known]
        exact grounded.machine.functions function earlier
      · exact ⟨fun module own => by simp [hosted] at own, fun _ _ => allowed⟩
    · rw [known, initializers]
      exact grounded.machine.initializers
    · intro handle proxy function resolved holds
      rw [Machine.heap, collector] at resolved
      rw [known]
      exact grounded.machine.cells handle proxy function resolved holds
    · intro function fine
      exact fine.1.constants
    · rw [known]
      exact grounded.executions

/-- Registering a function under a new signature. -/
theorem addFunction_same {machine after : Machine} {function : Function}
    (done : machine.addFunction function = .ok after) :
    after.collector = machine.collector ∧
      after.registry.modules = machine.registry.modules ∧
      after.registry.initializers = machine.registry.initializers ∧
      after.registry.globals = machine.registry.globals ∧
      ∀ other ∈ after.registry.functions.values,
        other ∈ machine.registry.functions.values ∨ other = function := by
  rw [Machine.addFunction_eq] at done
  obtain ⟨_, _, rest⟩ := Except.bind_eq_ok done
  split at rest
  · cases rest
  · obtain rfl := Except.ok.inj rest
    refine ⟨rfl, rfl, rfl, rfl, ?_⟩
    intro other member
    simp only [Table.add, Table.values, List.map_append, List.map_cons, List.map_nil,
      List.mem_append, List.mem_singleton] at member
    exact member

/-- Making a callback known. -/
theorem advances_hook (grounded : vm.Grounded callbacks) (allowed : callbacks) {call : Call}
    (hooks : call.hooks = true) : Advances callbacks vm held (vm.perform call) := by
  have adopted : ∀ {work : Work Machine Unit}, work.Atomic vm.machine →
      (∀ machine, work.changed vm.machine = .ok machine →
        Advances callbacks vm held { vm with machine }) →
      Advances callbacks vm held (vm.adopt work) := by
    intro work atomic advances
    rcases adopt_cases atomic with same | ⟨machine, done, same⟩
    · rw [same]
      exact .refl grounded
    · rw [same]
      exact advances machine done
  cases call with
  | addNative signature parameters returns callback =>
    refine adopted (Work.atomic_addNative signature parameters returns callback) ?_
    intro machine done
    rw [← Machine.addNative, Machine.addNative_eq] at done
    obtain ⟨added, registered, bound⟩ := Except.bind_eq_ok done
    obtain rfl := Except.ok.inj bound
    obtain ⟨collector, modules, initializers, globals, functions⟩ := addFunction_same registered
    refine advances_registry grounded allowed collector modules initializers globals ?_
    intro function member
    exact (functions function member).imp id fun same => by rw [same]; rfl
  | addBuiltIn signature parameters returns callback =>
    refine adopted (Work.atomic_addBuiltIn signature parameters returns callback) ?_
    intro machine registered
    obtain ⟨collector, modules, initializers, globals, functions⟩ := addFunction_same registered
    refine advances_registry grounded allowed collector modules initializers globals ?_
    intro function member
    exact (functions function member).imp id fun same => by rw [same]; rfl
  | bindNative signature callback =>
    refine adopted (Work.atomic_bindNative signature callback) fun machine done => ?_
    rw [← Machine.bindNative, Machine.bindNative_eq] at done
    obtain ⟨function, _, bound⟩ := Except.bind_eq_ok done
    split at bound
    · obtain rfl := Except.ok.inj bound
      exact advances_registry grounded allowed rfl rfl rfl rfl fun _ member => .inl member
    · cases bound
  | _ => simp [Call.hooks] at hooks

/-! ## All calls -/

/-- The references in hand at the start of a call. -/
def inHand (call : Call) : Handle → Prop :=
  fun handle => ∃ value ∈ call.stored, value.handle = handle

/-- A change of the list of executions alone, which keeps no further root alive but null. -/
theorem advances_executions (grounded : vm.Grounded callbacks) {executions : List HeldExecution}
    {created : Nat}
    (entries : ∀ entry ∈ executions, entry.execution = {} ∨
      ∃ old ∈ vm.executions, old.execution = entry.execution) :
    Advances callbacks vm held { vm with executions, created } := by
  constructor
  · refine .single (.weaken ?_ fun _ none => none.elim)
    intro category handle root
    cases category with
    | constants | globals | functions => exact .inl root
    | executions =>
      obtain ⟨entry, member, root⟩ := root
      rcases entries entry member with fresh | ⟨old, inside, same⟩
      · right
        rw [fresh] at root
        have null : handle = Handle.null := by
          rcases Execution.mem_roots.mp root with ⟨reference, parameter, rfl⟩ | ⟨frame, none, _⟩
          · exact congrArg Ref.handle (Vector.mem_replicate.mp parameter).2
          · simp at none
        subst null
        refine ⟨grounded.machine.reaches_null, ?_⟩
        intro _ proxy resolved
        obtain rfl := Option.some.inj
          (grounded.machine.orderly.lawful.proxy?_null.symm.trans resolved)
        exact .inl rfl
      · exact .inl ⟨old, inside, same ▸ root⟩
  · refine ⟨grounded.machine, ?_, grounded.bindings⟩
    intro entry member
    rcases entries entry member with fresh | ⟨old, inside, same⟩
    · rw [fresh]
      intro frame none
      simp at none
    · rw [← same]
      exact grounded.executions old inside

/-- Every call that neither collects nor pins advances the virtual machine, as long as it passes no
function but a known one. -/
theorem advances_known (grounded : vm.Grounded callbacks) {call : Call}
    (known : ∀ function, call.entered = some function →
      vm.machine.registry.Knows callbacks function)
    (hooked : call.hooks = true → callbacks) (collects : call.collects = false)
    (pins : call.pins = false) : Advances callbacks vm (inHand call) (vm.perform call) := by
  have sound := grounded.machine
  have holds : ∀ {value : Ref}, value ∈ call.stored → inHand call value.handle :=
    fun member => ⟨_, member, rfl⟩
  cases call with
  | collectStep | collect | resetCollector => simp [Call.collects] at collects
  | setPinned value pinned | global name => simp [Call.pins] at pins
  | addNative signature parameters returns callback
  | addBuiltIn signature parameters returns callback
  | bindNative signature callback => exact advances_hook grounded (hooked rfl) rfl
  | load name image => exact advances_load grounded name image
  | loadContainer name bytes =>
    show Advances callbacks vm _ { vm with machine := (vm.machine.loadContainer name bytes).2 }
    unfold Machine.loadContainer
    split
    · exact advances_load grounded name _
    · exact advances_machine grounded ⟨.refl, sound_of_same sound rfl rfl, rfl⟩
  | close => exact advances_machine grounded ⟨.refl, sound_of_same sound rfl rfl, rfl⟩
  | createValue value plain =>
    obtain ⟨_, leads⟩ := Machine.leads_createValue sound plain
    exact advances_machine grounded leads
  | createArray length =>
    obtain ⟨_, leads⟩ := Machine.leads_createArray sound length
    exact advances_machine grounded leads
  | createArrayOf items =>
    refine advances_adopt grounded (Work.atomic_createArrayOf items) fun machine done => ?_
    obtain ⟨_, made⟩ := Work.result_of_changed done
    exact Machine.leads_createArrayOf sound
      (fun item member => holds (Array.mem_toList_iff.mpr member)) made
  | createObject typeName =>
    exact advances_machine grounded (Machine.leads_left_newObject sound typeName true)
  | createFunctionValue signature =>
    refine advances_adopt grounded (Work.atomic_createFunctionValue signature) ?_
    intro machine done
    obtain ⟨_, made⟩ := Work.result_of_changed done
    exact Machine.leads_createFunctionValue sound made
  | createException exception message =>
    exact advances_machine grounded
      (Machine.leads_left_newException sound exception message true)
  | createNative content =>
    obtain ⟨_, leads⟩ := Machine.leads_createNative sound content
    exact advances_machine grounded leads
  | copy reference =>
    refine advances_adopt grounded (Work.atomic_copy reference) fun machine done => ?_
    obtain ⟨_, made⟩ := Work.result_of_changed done
    exact Machine.leads_copy sound (holds List.mem_cons_self) made
  | setElement reference index value =>
    exact advances_adopt grounded (Work.atomic_setElement reference index value) fun machine done =>
      Machine.leads_putElement sound (holds List.mem_cons_self) done
  | setMember reference name value =>
    exact advances_adopt grounded (Work.atomic_setMember reference name value) fun machine done =>
      Machine.leads_putMember sound (holds List.mem_cons_self) done
  | assignGlobal name value =>
    exact advances_adopt grounded (Work.atomic_assignGlobal name value) fun machine done =>
      Machine.leads_assignGlobal sound (holds List.mem_cons_self) done
  | addGlobal name value =>
    exact advances_adopt grounded (Work.atomic_addGlobal name value) fun machine done =>
      Machine.leads_addGlobal sound (holds List.mem_cons_self) done
  | createExecution =>
    rw [perform, left_createExecution]
    split
    · exact .refl grounded
    · refine advances_executions grounded ?_
      intro entry member
      rcases List.mem_append.mp member with earlier | fresh
      · exact .inr ⟨entry, earlier, rfl⟩
      · exact .inl (by rw [List.mem_singleton.mp fresh])
  | holdExecution id =>
    refine advances_executions grounded ?_
    intro entry member
    obtain ⟨old, inside, rfl⟩ := List.mem_map.mp member
    refine .inr ⟨old, inside, ?_⟩
    split <;> rfl
  | dropExecution id =>
    refine advances_executions grounded ?_
    intro entry member
    obtain ⟨old, inside, rfl⟩ := List.mem_map.mp (List.mem_filter.mp member).1
    refine .inr ⟨old, inside, ?_⟩
    split <;> rfl
  | restart id entry =>
    refine advances_onExecution grounded
      (fun _ => Work.atomic_onSecond (Work.atomic_restart entry)) ?_
    intro execution state present done
    obtain ⟨changed, made, rfl⟩ := Work.changed_onSecond done
    exact ⟨_, Execution.leads_restart sound (grounded.fine present)
      (known entry rfl) made⟩
  | pushFrame id function =>
    refine advances_onExecution grounded
      (fun _ => Work.atomic_onSecond (Work.atomic_pushFrame function)) ?_
    intro execution state present done
    obtain ⟨pushed, changed, rfl⟩ := Work.changed_onSecond done
    obtain ⟨_, made⟩ := Work.result_of_changed changed
    exact ⟨_, Execution.leads_pushFrame sound (grounded.fine present)
      (known function rfl) made⟩
  | popFrame id =>
    refine advances_onExecution grounded (fun _ => Work.atomic_onSecond Work.atomic_popFrame) ?_
    intro execution state present done
    obtain ⟨changed, made, rfl⟩ := Work.changed_onSecond done
    exact ⟨_, Execution.leads_popFrame sound (grounded.fine present) made⟩
  | suspend id =>
    refine advances_left grounded fun execution present => ?_
    have fine := grounded.fine present
    exact ⟨_, Execution.leads_quiet sound rfl rfl (fun _ member => .inl member) fine⟩
  | setParameter id index value =>
    refine advances_onExecution grounded (fun _ => Work.atomic_setParameter index value) ?_
    intro execution state present done
    exact ⟨_, Execution.leads_setParameter sound (grounded.fine present)
      (Machine.reaches_of_held (holds List.mem_cons_self)) done⟩
  | setRegister id depth index value =>
    refine advances_onExecution grounded (fun _ => Work.atomic_storeInFrame depth value _) ?_
    intro execution state present done
    exact ⟨_, Execution.leads_storeInFrame sound (grounded.fine present)
      (Machine.reaches_of_held (holds List.mem_cons_self))
      (fun _ _ => Frame.stores_update fun _ _ => Activation.stores_setRegister) done⟩
  | setLocalValue id depth name value =>
    refine advances_onExecution grounded (fun _ => Work.atomic_storeInFrame depth value _) ?_
    intro execution state present done
    exact ⟨_, Execution.leads_storeInFrame sound (grounded.fine present)
      (Machine.reaches_of_held (holds List.mem_cons_self))
      (fun _ _ => Frame.stores_update fun _ _ => Activation.stores_setLocalValue) done⟩
  | push id depth value =>
    refine advances_onExecution grounded (fun _ => Work.atomic_storeInFrame depth value _) ?_
    intro execution state present done
    exact ⟨_, Execution.leads_storeInFrame sound (grounded.fine present)
      (Machine.reaches_of_held (holds List.mem_cons_self))
      (fun _ _ => Frame.stores_update fun _ _ => Activation.stores_push) done⟩
  | pop id depth =>
    refine advances_onExecution grounded (fun _ => Work.atomic_onSecond (Work.atomic_pop depth)) ?_
    intro execution state present done
    obtain ⟨popped, changed, rfl⟩ := Work.changed_onSecond done
    obtain ⟨_, made⟩ := Work.result_of_changed changed
    exact ⟨_, Execution.leads_pop sound (grounded.fine present) made⟩
  | raiseValue id value severity =>
    refine advances_onExecution grounded (fun _ => Work.atomic_raiseValue value severity) ?_
    intro execution state present done
    rw [← Execution.raiseValue, Execution.raiseValue_eq] at done
    split at done
    · obtain rfl := Except.ok.inj done
      exact ⟨_, Execution.leads_raise sound (grounded.fine present) severity
        (Machine.reaches_of_held (holds List.mem_cons_self))⟩
    · simp at done
  | raiseException id exception message =>
    refine advances_left grounded fun execution present => ?_
    exact ⟨_, Execution.leads_raiseException sound (grounded.fine present) exception message⟩
  | resume id =>
    simp only [perform]
    split
    · rename_i resumed prepared
      obtain ⟨execution, present, rfl⟩ := ready_eq_ok prepared
      have fine := grounded.fine present
      exact advances_setExecution grounded present (Execution.leads_quiet sound rfl rfl
        (fun _ member => .inl member) fine)
    · exact .refl grounded
  | turn id =>
    simp only [perform]
    split
    · exact .refl grounded
    · rename_i execution present
      exact advances_turn grounded present
  | leave id frame => exact advances_afterRoutine grounded id frame

/-- Every call that neither collects nor pins advances the virtual machine. -/
theorem advances_perform (grounded : vm.Grounded callbacks) {call : Call} (legal : call.Legal vm)
    (hooked : call.hooks = true → callbacks) (collects : call.collects = false)
    (pins : call.pins = false) : Advances callbacks vm (inHand call) (vm.perform call) :=
  advances_known grounded (fun function passed => grounded.knows (legal function passed)) hooked
    collects pins

end Vm

end ScriptVm
