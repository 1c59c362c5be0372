import ScriptVm.Proofs.Simulation.Collection

/-!
# Virtual machines that agree with themselves

A virtual machine that agrees with itself has only references to what they are expected to name,
and its journal blames no collector. A fresh one is of this sort, and loading modules, setting
executions up, turns of executions and work of the collector keep it so.
-/
namespace ScriptVm

/-- Either part of a sequence has failed. -/
theorem Except.bind_eq_error {ε α β : Type} {first : Except ε α} {second : α → Except ε β}
    {error : ε} (failed : first >>= second = .error error) :
    first = .error error ∨ ∃ value, first = .ok value ∧ second value = .error error := by
  cases first with
  | error other =>
    obtain rfl := Except.error.inj failed
    exact .inl rfl
  | ok value => exact .inr ⟨value, rfl, failed⟩

/-- An event that reports no fault. -/
def Event.Quiet (event : Event) : Prop := ∀ fault, event ≠ .faulted fault

/-- A refusal that reports no fault. -/
def Refusal.Quiet (refusal : Refusal) : Prop := ∀ event, refusal.event = some event → event.Quiet

/-- An error that is not reported. -/
theorem Refusal.quiet_silently {α : Type} {result : Except Error α} {refusal : Refusal}
    (failed : Refusal.silently result = .error refusal) : refusal.Quiet := by
  cases result with
  | ok value => simp [Refusal.silently] at failed
  | error error =>
    obtain rfl := Except.error.inj failed
    intro event reported
    simp at reported

/-- Building functions reports no fault. -/
theorem quiet_buildFunctions {module : Module} {built : Table Function}
    {images : List FunctionImage} {refusal : Refusal}
    (failed : buildFunctions module built images = .error refusal) : refusal.Quiet := by
  induction images generalizing built with
  | nil => simp [buildFunctions] at failed
  | cons image images hypothesis =>
    rcases Except.bind_eq_error failed with silent | ⟨function, _, rest⟩
    · exact Refusal.quiet_silently silent
    · split at rest
      · obtain rfl := Except.error.inj rest
        intro event reported fault same
        simp [same] at reported
      · exact hypothesis rest

/-- Building a module reports no fault. -/
theorem Image.quiet_build {image : Image} {module : Module} {refusal : Refusal}
    (failed : image.build module = .error refusal) : refusal.Quiet := by
  rcases Except.bind_eq_error failed with silent | ⟨schemas, _, rest⟩
  · exact Refusal.quiet_silently silent
  rcases Except.bind_eq_error rest with early | ⟨functions, _, rest⟩
  · exact quiet_buildFunctions early
  rcases Except.bind_eq_error rest with silent | ⟨body, _, rest⟩
  · exact Refusal.quiet_silently silent
  rcases Except.bind_eq_error rest with silent | ⟨initializer, _, rest⟩
  · exact Refusal.quiet_silently silent
  · cases rest

namespace Registry

/-- Keeping object types reports no fault. -/
theorem quiet_keepSchemas (owner : String) (schemas : List Schema)
    {state : Registry × List Event} (quiet : ∀ event ∈ state.2, event.Quiet) :
    ∀ event ∈ (schemas.foldl (keepSchema owner) state).2, event.Quiet := by
  induction schemas generalizing state with
  | nil => exact quiet
  | cons schema schemas hypothesis =>
    apply hypothesis
    unfold keepSchema
    dsimp only
    split
    · intro event member
      rcases List.mem_cons.mp member with rfl | earlier
      · exact fun _ => nofun
      · exact quiet event earlier
    · exact quiet

/-- Keeping globals reports no fault. -/
theorem quiet_keepGlobals (owner : String) (names : List String)
    {state : Registry × List Event} (quiet : ∀ event ∈ state.2, event.Quiet) :
    ∀ event ∈ (names.foldl (keepGlobal owner) state).2, event.Quiet := by
  induction names generalizing state with
  | nil => exact quiet
  | cons name names hypothesis =>
    apply hypothesis
    unfold keepGlobal
    dsimp only
    split
    · intro event member
      rcases List.mem_cons.mp member with rfl | earlier
      · exact fun _ => nofun
      · exact quiet event earlier
    · exact quiet

/-- Installing a module reports no fault. -/
theorem quiet_install {registry changed : Registry} {bundle : Bundle} {events : List Event}
    (done : registry.install bundle = .ok (changed, events)) :
    ∀ event ∈ events, event.Quiet := by
  unfold install at done
  dsimp only at done
  split at done
  · cases done
  · obtain ⟨_, rfl⟩ := Prod.mk.inj (Except.ok.inj done)
    exact quiet_keepGlobals _ _ (quiet_keepSchemas _ _ (by simp))

/-- Refusing to install a module reports no fault. -/
theorem quiet_install_refused {registry : Registry} {bundle : Bundle} {refusal : Refusal}
    (failed : registry.install bundle = .error refusal) : refusal.Quiet := by
  unfold install at failed
  dsimp only at failed
  split at failed
  · obtain rfl := Except.error.inj failed
    intro event reported fault same
    simp [same] at reported
  · cases failed

end Registry

/-- Refusing to allocate a module reports no fault. -/
theorem Machine.quiet_checkLoad {machine : Machine} {name : String} {image : Image}
    {refusal : Refusal} (failed : machine.checkLoad name image = .error refusal) :
    refusal.Quiet := by
  rcases Except.bind_eq_error failed with silent | ⟨_, _, rest⟩
  · exact Refusal.quiet_silently silent
  generalize image.check = checked at rest
  cases checked with
  | error flaw =>
    obtain rfl := Except.error.inj rest
    intro event reported
    simp at reported
  | ok _ =>
    generalize machine.registry.modules.contains name = known at rest
    cases known with
    | true =>
      obtain rfl := Except.error.inj rest
      intro event reported
      simp at reported
    | false =>
      dsimp only at rest
      rw [if_neg Bool.false_ne_true] at rest
      split at rest
      · obtain rfl := Except.error.inj rest
        intro event reported fault same
        simp [same] at reported
      · cases rest

namespace Machine

variable {pairing : Pairing} {room : Nat} {machine : Machine}

/-- A machine that agrees with itself does so with any room. -/
theorem Agrees.widen (agrees : machine.Agrees pairing room machine) (more : Nat) :
    machine.Agrees pairing more machine :=
  { agrees with collector := { agrees.collector with room := fun _ _ => rfl } }

/-- Entries that are paired with themselves. -/
theorem tables_self {table : Table Ref}
    (paired : ∀ reference ∈ table.values, pairing.Refs reference reference) :
    pairing.Tables table table :=
  List.forall₂_same.mpr fun entry member => ⟨rfl, paired entry.2 (List.mem_map_of_mem member)⟩

/-- References of entries that are paired with themselves. -/
theorem refs_of_tables_self {table : Table Ref} (paired : pairing.Tables table table) :
    ∀ reference ∈ table.values, pairing.Refs reference reference := by
  intro reference member
  obtain ⟨entry, inside, rfl⟩ := List.mem_map.mp member
  exact (List.forall₂_same.mp paired entry inside).2

/-- Allocating constants: they stand for themselves. -/
theorem agrees_allocateConstants (agrees : machine.Agrees pairing 0 machine) (texts : List String)
    (constants : Array Ref) (known : ∀ constant ∈ constants, pairing.Refs constant constant) :
    ∃ more, pairing.Grows more ∧
      (machine.allocateConstants texts constants).2.Agrees more 0
        (machine.allocateConstants texts constants).2 ∧
      ∀ result, (machine.allocateConstants texts constants).1 = .ok result →
        ∀ constant ∈ result, more.Refs constant constant := by
  induction texts generalizing machine pairing constants with
  | nil =>
    refine ⟨pairing, .refl pairing, agrees, ?_⟩
    intro result done
    obtain rfl := Except.ok.inj done
    exact known
  | cons text texts hypothesis =>
    unfold allocateConstants
    split
    · have leaf : (Value.string text).Agrees pairing (.string text) := .leaf trivial
      obtain ⟨more, grows, paired, made⟩ := (agrees.widen 1).allocateValue leaf false false
      have all : ∀ constant ∈ constants.push ⟨(machine.allocate (.value (.string text)) false).1⟩,
          more.Refs constant constant := by
        intro constant member
        rcases Array.mem_push.mp member with earlier | rfl
        · exact (known constant earlier).mono grows
        · exact paired
      obtain ⟨most, grows', done, results⟩ := hypothesis made _ all
      exact ⟨most, grows.trans grows', done, results⟩
    · refine ⟨pairing, .refl pairing, agrees, ?_⟩
      intro result done
      simp at done

/-- Reporting an event that is no fault. -/
theorem Agrees.quiet (agrees : machine.Agrees pairing room machine) {event : Event}
    (quiet : event.Quiet) : (machine.note event).Agrees pairing room (machine.note event) :=
  agrees.note (fun fault same => absurd same (quiet fault)) fun fault same =>
    absurd same (quiet fault)

/-- Refusing a module. -/
theorem Agrees.refuse (agrees : machine.Agrees pairing room machine) {refusal : Refusal}
    (quiet : refusal.Quiet) :
    (machine.refuse refusal).2.Agrees pairing room (machine.refuse refusal).2 := by
  unfold Machine.refuse
  dsimp only
  split
  · rename_i event reported
    exact agrees.quiet (quiet event reported)
  · exact agrees

/-- Installing a module whose constants stand for themselves. -/
theorem Agrees.install (agrees : machine.Agrees pairing room machine) {bundle : Bundle}
    {registry : Registry} {events : List Event}
    (constants : ∀ constant ∈ bundle.module.constants, pairing.Refs constant constant)
    (done : machine.registry.install bundle = .ok (registry, events)) :
    Machine.Agrees pairing room
      (events.foldr (fun event machine => machine.note event) { machine with registry })
      (events.foldr (fun event machine => machine.note event) { machine with registry }) := by
  have installs := Registry.installs done
  have quiet := Registry.quiet_install done
  have installed : Machine.Agrees pairing room { machine with registry }
      { machine with registry } := by
    refine ⟨agrees.collector, rfl, rfl, tables_self ?_, ?_, agrees.clean, agrees.clean'⟩
    · intro value member
      rcases installs.globals value member with earlier | rfl
      · exact refs_of_tables_self agrees.globals value earlier
      · exact agrees.collector.null
    · intro module loaded
      replace loaded : module ∈ registry.modules.values := loaded
      rw [installs.modules, List.mem_append, List.mem_singleton] at loaded
      rcases loaded with earlier | rfl
      · exact agrees.constants module earlier
      · exact constants
  clear done installs
  induction events with
  | nil => exact installed
  | cons event events hypothesis =>
    have rest := hypothesis fun other member => quiet other (List.mem_cons_of_mem _ member)
    exact rest.quiet (quiet event List.mem_cons_self)

/-- Loading a module. -/
theorem agrees_load (agrees : machine.Agrees pairing 0 machine) (name : String) (image : Image) :
    ∃ more, pairing.Grows more ∧
      (machine.load name image).2.Agrees more 0 (machine.load name image).2 := by
  unfold load
  split
  · rename_i refusal refused
    exact ⟨pairing, .refl pairing, agrees.refuse (quiet_checkLoad refused)⟩
  · obtain ⟨more, grows, allocated, results⟩ :=
      agrees_allocateConstants agrees image.strings #[] (by simp)
    split
    · rename_i error after outcome
      rw [outcome] at allocated
      exact ⟨more, grows, allocated.refuse fun _ reported => by simp at reported⟩
    · rename_i constants after outcome
      rw [outcome] at allocated results
      dsimp only
      split
      · rename_i refusal refused
        refine ⟨more, grows, allocated.refuse ?_⟩
        rcases Except.bind_eq_error refused with unbuilt | ⟨bundle, _, unfit⟩
        · exact Image.quiet_build unbuilt
        · exact Registry.quiet_install_refused unfit
      · rename_i registry events done
        obtain ⟨bundle, built, installed⟩ := Except.bind_eq_ok done
        obtain ⟨own, _⟩ := Image.build_own built
        refine ⟨more, grows, allocated.install ?_ installed⟩
        rw [own]
        exact results constants rfl

/-- Loading a module from its container. -/
theorem agrees_loadContainer (agrees : machine.Agrees pairing 0 machine) (name : String)
    (bytes : List UInt8) :
    ∃ more, pairing.Grows more ∧
      (machine.loadContainer name bytes).2.Agrees more 0 (machine.loadContainer name bytes).2 := by
  unfold loadContainer
  split
  · exact agrees_load agrees name _
  · refine ⟨pairing, .refl pairing, agrees.refuse ?_⟩
    intro event reported fault same
    simp [same] at reported

end Machine

namespace Vm

variable {vm : Vm} {pairing : Pairing}

/-- A virtual machine that agrees with itself. -/
def Consistent (vm : Vm) : Prop := ∃ pairing, vm.Agrees pairing 0 vm

/-- A new execution holds nothing but null. -/
theorem agrees_newExecution (null : pairing .value Handle.null Handle.null) (issued : Nat) :
    Execution.Agrees pairing { issued } { issued } := by
  refine ⟨.nil, ?_, rfl, rfl⟩
  simp only [Vector.toList_replicate]
  exact Pairing.lists_replicate null _

/-- Executions that agree with themselves are put in place of the live ones. -/
theorem Agrees.withExecutions (agrees : vm.Agrees pairing 0 vm) {entries : List HeldExecution}
    (each : ∀ entry ∈ entries, entry.execution.Agrees pairing entry.execution) (created : Nat) :
    Vm.Agrees pairing 0 { vm with executions := entries, created }
      { vm with executions := entries, created } :=
  ⟨agrees.machine, List.forall₂_same.mpr fun entry member => ⟨rfl, rfl, each entry member⟩⟩

/-- The live executions agree with themselves. -/
theorem Agrees.each (agrees : vm.Agrees pairing 0 vm) :
    ∀ entry ∈ vm.executions, entry.execution.Agrees pairing entry.execution :=
  fun entry member => (List.forall₂_same.mp agrees.executions entry member).execution

/-- A fresh virtual machine agrees with itself: nothing but null stands for anything. -/
theorem consistent_create {config : Config} {fresh : Vm} (created : create config = .ok fresh) :
    fresh.Consistent := by
  obtain ⟨registry, collector, executions, journal⟩ := create_eq created
  have grounded : fresh.Grounded False := grounded_create created
  have orderly := grounded.machine.orderly
  have clean : fresh.machine.journal.Clean := by
    rw [journal]
    intro fault member
    simp at member
  refine ⟨fun target first second => target = .value ∧ first = Handle.null ∧
    second = Handle.null, ⟨⟨orderly, orderly, ⟨rfl, rfl, rfl⟩, ?_, ?_, ?_, Nat.le_refl _,
      fun _ _ => rfl⟩, rfl, rfl, ?_, ?_, clean, clean⟩, ?_⟩
  · rintro _ _ _ _ ⟨_, _, rfl⟩ ⟨_, _, rfl⟩
    rfl
  · rintro _ _ _ _ ⟨_, rfl, _⟩ ⟨_, rfl, _⟩
    rfl
  · rintro _ _ _ ⟨rfl, rfl, rfl⟩
    exact ⟨Proxy.null, Proxy.null, orderly.lawful.proxy?_null, orderly.lawful.proxy?_null,
      .value (.leaf trivial)⟩
  · rw [registry]
    exact .nil
  · intro module loaded
    simp [registry, Registry.initial, Table.values] at loaded
  · rw [executions]
    exact .nil

end Vm

/-- The call sets modules and executions up. -/
def Call.prepares : Call → Bool
  | .load .. | .loadContainer .. | .createExecution | .holdExecution _ | .dropExecution _
  | .restart .. => true
  | _ => false

namespace Vm

variable {vm : Vm}

/-- Setting modules and executions up keeps a virtual machine agreeing with itself. -/
theorem Consistent.perform (consistent : vm.Consistent) {call : Call}
    (prepares : call.prepares = true) : (vm.perform call).Consistent := by
  obtain ⟨pairing, agrees⟩ := consistent
  have machine : ∀ {machine : Machine} {more : Pairing}, pairing.Grows more →
      machine.Agrees more 0 machine → Consistent { vm with machine } := by
    intro machine more grows machines
    refine ⟨more, machines, agrees.executions.imp ?_⟩
    intro entry entry' agree
    exact ⟨agree.id, agree.holders, agree.execution.mono grows⟩
  cases call with
  | load name image =>
    obtain ⟨more, grows, loaded⟩ := Machine.agrees_load agrees.machine name image
    exact machine grows loaded
  | loadContainer name bytes =>
    obtain ⟨more, grows, loaded⟩ := Machine.agrees_loadContainer agrees.machine name bytes
    exact machine grows loaded
  | createExecution =>
    rw [Vm.perform, left_createExecution]
    split
    · exact ⟨pairing, agrees⟩
    · refine ⟨pairing, agrees.withExecutions ?_ _⟩
      intro entry member
      rcases List.mem_append.mp member with earlier | new
      · exact agrees.each entry earlier
      · rw [List.mem_singleton.mp new]
        exact agrees_newExecution agrees.machine.collector.null 0
  | holdExecution id =>
    refine ⟨pairing, agrees.withExecutions ?_ _⟩
    intro entry member
    obtain ⟨old, inside, rfl⟩ := List.mem_map.mp member
    split
    · exact agrees.each old inside
    · exact agrees.each old inside
  | dropExecution id =>
    refine ⟨pairing, agrees.withExecutions ?_ _⟩
    intro entry member
    obtain ⟨old, inside, rfl⟩ := List.mem_map.mp (List.mem_of_mem_filter member)
    split
    · exact agrees.each old inside
    · exact agrees.each old inside
  | restart id entry =>
    simp only [Vm.perform, Vm.onExecution]
    cases vm.execution? id with
    | none => exact ⟨pairing, agrees⟩
    | some execution =>
      have null := agrees.machine.collector.null
      have cleared : execution.clear.Agrees pairing execution.clear :=
        agrees_newExecution null execution.issued
      simp only [Work.left_onSecond]
      rcases cleared.pushFrame null entry with
        ⟨full, _⟩ | ⟨_, changed, _, pushed, pushed', called⟩
      · simp [Execution.pushFrame_eq, Execution.clear, frameLimit] at full
      · obtain ⟨_, rfl⟩ := Prod.mk.inj (Except.ok.inj (pushed.symm.trans pushed'))
        have begun : execution.restart entry = .ok changed := by
          rw [Execution.restart_eq, pushed]
          rfl
        rw [Work.left_of_changed begun]
        exact ⟨pairing, agrees.machine, (agrees.setExecution called id).executions⟩
  | _ => simp [Call.prepares] at prepares

end Vm

end ScriptVm
