import ScriptVm.Proofs.Collector.Population
import ScriptVm.Proofs.Vm.Moves

/-!
# Safety of virtual machines

The calls that let the collector work come down to steps and to giving a collection up; they leave
everything else alone. With what the other calls do this gives what holds of every virtual machine
that calls bring about, and what holds as long as only reached references are stored: then whatever
is reached resolves, at any point of any collection.
-/
namespace ScriptVm

namespace Collector

/-- The collector works: it makes steps and gives collections up, any number of times. -/
abbrev Works (roots : RootSet) : Collector → Collector → Prop :=
  Relation.ReflTransGen fun collector after =>
    after = (collector.step roots).2 ∨ after = collector.reset

variable {roots : RootSet} {collector after : Collector}

/-- Steps up to the end of a collection are work. -/
theorem works_runSteps (fuel : Nat) (collector : Collector) :
    Works roots collector (runSteps roots fuel collector) := by
  induction fuel generalizing collector with
  | zero => exact .refl
  | succ fuel hypothesis =>
    rw [runSteps]
    dsimp only
    split
    · exact .single (.inl rfl)
    · exact (hypothesis _).head (.inl rfl)

/-- Work keeps the collector orderly. -/
theorem Works.orderly (works : Works roots collector after) (orderly : collector.Orderly) :
    after.Orderly := by
  induction works with
  | refl => exact orderly
  | tail _ once hypothesis =>
    rcases once with rfl | rfl
    · exact hypothesis.step
    · exact hypothesis.reset

/-- Work keeps the collector safe, as long as nothing but the roots is held. -/
theorem Works.safe (works : Works roots collector after)
    (safe : collector.Safe roots.scope unheld) : after.Safe roots.scope unheld := by
  induction works with
  | refl => exact safe
  | tail _ once hypothesis =>
    rcases once with rfl | rfl
    · exact hypothesis.step
    · exact hypothesis.reset

/-- Work makes no proxy, and it changes no cell and no pin. -/
theorem Works.proxies (works : Works roots collector after) {handle : Handle} {proxy : Proxy}
    (resolved : after.heap.proxy? handle = some proxy) :
    ∃ old, collector.heap.proxy? handle = some old ∧ old.cell = proxy.cell ∧
      old.pinned = proxy.pinned := by
  induction works generalizing proxy with
  | refl => exact ⟨proxy, resolved, rfl, rfl⟩
  | @tail middle _ _ once hypothesis =>
    rcases once with rfl | rfl
    · obtain ⟨between, named, cell, pinned⟩ := (middle.stepped roots).proxies resolved
      obtain ⟨old, known, sameCell, samePinned⟩ := hypothesis named
      exact ⟨old, known, sameCell.trans cell, samePinned.trans pinned⟩
    · exact hypothesis resolved

/-- A step keeps what is reached, as the proxies of what is reached keep their cells and pins. -/
theorem Stepped.reaches_after {completed : Bool}
    (stepped : Stepped collector roots completed after)
    (safe : collector.Safe roots.scope unheld) {handle : Handle}
    (reached : collector.Reaches roots.scope unheld handle) :
    after.Reaches roots.scope unheld handle := by
  have keeps : ∀ {other : Handle} {proxy : Proxy},
      collector.Reaches roots.scope unheld other → collector.heap.proxy? other = some proxy →
      ∃ kept, after.heap.proxy? other = some kept ∧ kept.cell = proxy.cell ∧
        kept.pinned = proxy.pinned := by
    intro other proxy reachedOther resolved
    obtain ⟨found, known, standing, _⟩ := safe.secure other reachedOther
    obtain rfl := Option.some.inj (known.symm.trans resolved)
    obtain ⟨kept, named⟩ := stepped.keeps safe.orderly.lawful known fun _ => standing
    obtain ⟨old, before, cell, pinned⟩ := stepped.proxies named
    obtain rfl := Option.some.inj (known.symm.trans before)
    exact ⟨kept, named, cell.symm, pinned.symm⟩
  induction reached with
  | start begins =>
    rcases begins with root | ⟨proxy, resolved, pinned⟩ | none
    · exact .start (.inl root)
    · obtain ⟨kept, named, _, same⟩ :=
        keeps (.start (.inr (.inl ⟨proxy, resolved, pinned⟩))) resolved
      exact .start (.inr (.inl ⟨kept, named, same.trans pinned⟩))
    · exact none.elim
  | child above resolved listed hypothesis =>
    obtain ⟨kept, named, cell, _⟩ := keeps above resolved
    exact .child hypothesis named (cell ▸ listed)

/-- Work keeps what is reached. -/
theorem Works.reaches (works : Works roots collector after)
    (safe : collector.Safe roots.scope unheld) {handle : Handle}
    (reached : collector.Reaches roots.scope unheld handle) :
    after.Reaches roots.scope unheld handle := by
  induction works with
  | refl => exact reached
  | @tail middle _ earlier once hypothesis =>
    rcases once with rfl | rfl
    · exact (middle.stepped roots).reaches_after (Works.safe earlier safe) hypothesis
    · apply reaches_of_proxies _ hypothesis
      intro _ proxy named
      exact ⟨proxy, named, rfl, id⟩

/-- Work keeps the cells of what is reached. -/
theorem Works.keeps (works : Works roots collector after)
    (safe : collector.Safe roots.scope unheld) {handle : Handle} {proxy : Proxy}
    (reached : collector.Reaches roots.scope unheld handle)
    (resolved : collector.heap.proxy? handle = some proxy) :
    ∃ kept, after.heap.proxy? handle = some kept ∧ kept.cell = proxy.cell := by
  obtain ⟨kept, named, _⟩ := (works.safe safe).secure handle (works.reaches safe reached)
  obtain ⟨old, known, cell, _⟩ := works.proxies named
  obtain rfl := Option.some.inj (resolved.symm.trans known)
  exact ⟨kept, named, cell.symm⟩

/-- Work makes no proxy. -/
theorem Works.population_le (works : Works roots collector after) (orderly : collector.Orderly) :
    after.heap.population ≤ collector.heap.population := by
  induction works with
  | refl => exact Nat.le_refl _
  | @tail middle _ earlier once hypothesis =>
    rcases once with rfl | rfl
    · obtain ⟨gone, counted, _⟩ :=
        (middle.stepped roots).disposes (Works.orderly earlier orderly)
      omega
    · exact hypothesis

end Collector

namespace Vm

variable {callbacks : Prop} {vm after : Vm}

/-- A virtual machine comes from another by the work of its collector. -/
structure Collected (vm after : Vm) : Prop where
  /-- The work. -/
  works : Collector.Works vm.roots vm.machine.collector after.machine.collector
  /-- Everything known by name stays. -/
  registry : after.machine.registry = vm.machine.registry
  /-- The executions stay. -/
  executions : after.executions = vm.executions
  /-- The settings stay. -/
  config : after.machine.config = vm.machine.config
  /-- No fault is reported. -/
  faults : ∀ fault, Event.faulted fault ∈ after.machine.journal.events →
    Event.faulted fault ∈ vm.machine.journal.events

/-- A report changes nothing but the journal. -/
theorem Collected.report (collected : Collected vm after) :
    Collected vm after.reportCollection := by
  unfold reportCollection
  dsimp only
  split
  · refine { collected with faults := ?_ }
    intro fault member
    rcases List.mem_cons.mp member with same | earlier
    · simp at same
    · exact collected.faults fault earlier
  · exact collected

/-- A collector step. -/
theorem collected_collectStep (vm : Vm) : Collected vm vm.collectStep.2 := by
  have once : Collected vm (vm.onCollector fun roots collector => collector.step roots).2 :=
    ⟨.single (.inl rfl), rfl, rfl, rfl, fun _ => id⟩
  unfold collectStep
  dsimp only
  split
  · exact once.report
  · exact once

/-- Calls that let the collector work do nothing else. -/
theorem collected_perform {call : Call} (collects : call.collects = true) :
    Collected vm (vm.perform call) := by
  cases call with
  | collectStep => exact vm.collected_collectStep
  | collect =>
    have whole : Collected vm
        (vm.onCollector fun roots collector => ((), collector.run roots)).2 :=
      ⟨Collector.works_runSteps _ _, rfl, rfl, rfl, fun _ => id⟩
    exact whole.report
  | resetCollector => exact ⟨.single (.inr rfl), rfl, rfl, rfl, fun _ => id⟩
  | _ => simp [Call.collects] at collects

/-- The roots stay while the collector works. -/
theorem Collected.roots (collected : Collected vm after) : after.roots = vm.roots := by
  unfold Vm.roots
  rw [collected.registry, collected.executions]

/-- The functions stay the known ones while the collector works. -/
theorem Grounded.collected (grounded : vm.Grounded callbacks) (collected : Collected vm after) :
    after.Grounded callbacks := by
  have sound := grounded.machine
  refine ⟨⟨collected.works.orderly sound.orderly, ?_, ?_, ?_, ?_⟩, ?_, ?_⟩
  · rw [collected.registry]
    exact sound.functions
  · rw [collected.registry]
    exact sound.initializers
  · intro handle proxy function resolved holds
    obtain ⟨old, known, cell, _⟩ := collected.works.proxies resolved
    rw [collected.registry]
    exact sound.cells handle old function known (cell.trans holds)
  · rw [collected.registry]
    exact sound.anchors
  · rw [collected.registry, collected.executions]
    exact grounded.executions
  · rw [collected.registry]
    exact grounded.bindings

/-- Calls that pin or unpin do so to one proxy at most: to the one that is asked for, or to the one
in a global, which gets a pin. -/
theorem pinned_perform {call : Call} (pins : call.pins = true) :
    vm.perform call = vm ∨ ∃ handle pinned heap,
      vm.machine.heap.setPinned handle pinned = some heap ∧
      vm.perform call = { vm with machine := vm.machine.updateHeap fun _ => heap } ∧
      (call = .setPinned ⟨handle⟩ pinned ∨ pinned = true ∧ ∃ name, call = .global name) := by
  cases call with
  | setPinned value pinned =>
    rcases adopt_cases (Work.atomic_setPinned value pinned) with same | ⟨machine, set, same⟩
    · exact .inl same
    · rw [← Machine.setPinned, Machine.setPinned_eq] at set
      split at set
      · rename_i heap done
        obtain rfl := Except.ok.inj set
        exact .inr ⟨value.handle, pinned, heap, done, same, .inl rfl⟩
      · cases set
  | global name =>
    rcases adopt_cases (Work.atomic_global name) with same | ⟨machine, changed, same⟩
    · exact .inl same
    · obtain ⟨_, read⟩ := Work.result_of_changed changed
      rw [← Machine.global, Machine.global_eq] at read
      obtain ⟨value, _, last⟩ := Except.bind_eq_ok read
      obtain ⟨-, rfl⟩ := Prod.mk.inj (Except.ok.inj last)
      unfold Machine.pin at same
      split at same
      · rename_i heap done
        exact .inr ⟨value.handle, true, heap, done, same, .inr ⟨rfl, name, rfl⟩⟩
      · exact .inl same
  | _ => simp [Call.pins] at pins

/-- The functions stay the known ones when a proxy is pinned or unpinned. -/
theorem Grounded.setPinned (grounded : vm.Grounded callbacks) {handle : Handle} {pinned : Bool}
    {heap : Heap} (done : vm.machine.heap.setPinned handle pinned = some heap) :
    Grounded callbacks { vm with machine := vm.machine.updateHeap fun _ => heap } := by
  have sound := grounded.machine
  refine ⟨⟨sound.orderly.setPinned done, sound.functions, sound.initializers, ?_, sound.anchors⟩,
    grounded.executions, grounded.bindings⟩
  intro other proxy function resolved holds
  obtain ⟨old, known, same, _⟩ := Heap.origin_setPinned done resolved
  exact sound.cells other old function known (same.trans holds)

/-- The built-in functions belong to no module, and no callback is among their routines. -/
theorem knows_builtIn {registry : Registry} {function : Function}
    (member : function ∈ BuiltIn.functions.values) : registry.Knows callbacks function := by
  have entry : ∃ signature parameters routine, function =
      (BuiltIn.entry signature parameters routine).2 ∧ ∀ number, routine ≠ .callback number := by
    obtain ⟨⟨key, found⟩, listed, rfl⟩ := List.mem_map.mp member
    rcases List.mem_append.mp listed with operator | cast
    · obtain ⟨operator, _, inside⟩ := List.mem_flatMap.mp operator
      obtain ⟨kind, _, same⟩ := List.mem_map.mp inside
      exact ⟨_, _, _, congrArg Prod.snd same.symm, by simp⟩
    · obtain ⟨target, _, inside⟩ := List.mem_flatMap.mp cast
      obtain ⟨source, _, same⟩ := List.mem_map.mp inside
      exact ⟨_, _, _, congrArg Prod.snd same.symm, by simp⟩
  obtain ⟨signature, parameters, routine, rfl, proper⟩ := entry
  constructor
  · intro module own
    simp [BuiltIn.entry, Function.module?] at own
  · intro number same
    exact absurd (Option.some.inj same) (proper number)

/-- A fresh virtual machine has built-in functions, the null value and nothing else. -/
theorem create_eq {config : Config} {fresh : Vm} (created : create config = .ok fresh) :
    fresh.machine.registry = Registry.initial ∧
      fresh.machine.collector = Collector.create config.stepBudget.toNat ∧
      fresh.executions = [] ∧ fresh.machine.journal = {} := by
  obtain ⟨machine, made, last⟩ := Except.bind_eq_ok created
  obtain ⟨_, _, done⟩ := Except.bind_eq_ok made
  obtain rfl := Except.ok.inj done
  obtain rfl := Except.ok.inj last
  exact ⟨rfl, rfl, rfl, rfl⟩

/-- The functions of a fresh virtual machine are known ones. -/
theorem grounded_create {config : Config} {fresh : Vm} (created : create config = .ok fresh) :
    fresh.Grounded callbacks := by
  obtain ⟨registry, collector, executions, _⟩ := create_eq created
  refine ⟨⟨?_, ?_, ?_, ?_, fun _ known => known.1.constants⟩, ?_, ?_⟩
  · rw [collector]
    exact Collector.orderly_create _
  · rw [registry]
    exact fun _ member => knows_builtIn member
  · intro function member
    simp [registry, Registry.initial, Table.values] at member
  · intro handle proxy function resolved holds
    rw [Machine.heap, collector] at resolved
    rw [(Heap.eq_null_of_empty resolved).2] at holds
    simp [Proxy.null] at holds
  · intro entry member
    simp [executions] at member
  · intro number member
    simp [registry, Registry.initial, Table.values] at member

/-- Every call that passes no function but a known one keeps the functions the known ones. -/
theorem Grounded.perform_known (grounded : vm.Grounded callbacks) {call : Call}
    (known : ∀ function, call.entered = some function →
      vm.machine.registry.Knows callbacks function)
    (hooked : call.hooks = true → callbacks) : (vm.perform call).Grounded callbacks := by
  cases collects : call.collects with
  | true => exact grounded.collected (collected_perform collects)
  | false =>
    cases pins : call.pins with
    | true =>
      rcases pinned_perform pins with same | ⟨_, _, _, done, changed, _⟩
      · rw [same]
        exact grounded
      · rw [changed]
        exact grounded.setPinned done
    | false => exact (advances_known grounded known hooked collects pins).grounded

/-- Every call keeps the functions the known ones. -/
theorem Grounded.perform (grounded : vm.Grounded callbacks) {call : Call} (legal : call.Legal vm)
    (hooked : call.hooks = true → callbacks) : (vm.perform call).Grounded callbacks :=
  grounded.perform_known (fun function passed => grounded.knows (legal function passed)) hooked

/-- The functions of a virtual machine that calls bring about are known ones. -/
theorem Runs.grounded (runs : Runs vm after) (grounded : vm.Grounded True) :
    after.Grounded True := by
  induction runs with
  | refl => exact grounded
  | tail _ once hypothesis =>
    obtain ⟨call, legal, rfl⟩ := once
    exact hypothesis.perform legal fun _ => trivial

/-- The functions of a reachable virtual machine are known ones. -/
theorem Reachable.grounded (reachable : vm.Reachable) : vm.Grounded True := by
  obtain ⟨config, fresh, created, runs⟩ := reachable
  exact runs.grounded (grounded_create created)

/-- What is reached from the roots of a virtual machine and from pinned proxies. -/
def Reaches (vm : Vm) : Handle → Prop := vm.machine.collector.Reaches vm.roots.scope unheld

/-- The virtual machine keeps all that is reached, and its functions are known ones. -/
structure Safe (vm : Vm) : Prop where
  /-- Nothing reached is condemned. -/
  collector : vm.machine.collector.Safe vm.roots.scope unheld
  /-- The functions. -/
  grounded : vm.Grounded True

end Vm

/-- The call stores no reference but the null reference and reached ones, and it pins nothing. -/
structure Call.Careful (call : Call) (vm : Vm) : Prop where
  /-- It passes no function but an offered one. -/
  legal : call.Legal vm
  /-- It stores only what is reached. -/
  stored : ∀ value ∈ call.stored, value = Ref.null ∨ vm.Reaches value.handle
  /-- Pins are taken away only. -/
  unpins : call.pins = true → ∃ value, call = .setPinned value false

/-- What a careful call does to a pin is taking it away. -/
theorem Call.Careful.unpinned {call : Call} {vm : Vm} (careful : call.Careful vm)
    (pins : call.pins = true) {handle : Handle} {pinned : Bool}
    (cause : call = .setPinned ⟨handle⟩ pinned ∨ pinned = true ∧ ∃ name, call = .global name) :
    pinned = false := by
  obtain ⟨value, unpins⟩ := careful.unpins pins
  rcases cause with same | ⟨_, name, other⟩
  · exact ((Call.setPinned.inj (same.symm.trans unpins)).2)
  · simp [other] at unpins

/-- A call that passes no function, stores nothing and pins nothing is careful. -/
theorem Call.Careful.of_quiet {call : Call} {vm : Vm} (passes : call.entered = none)
    (stores : call.stored = []) (pins : call.pins = false) : call.Careful vm :=
  ⟨by simp [Call.Legal, passes], by simp [stores], by simp [pins]⟩

namespace Vm

/-- A virtual machine comes from another by careful calls. -/
abbrev RunsCarefully : Vm → Vm → Prop :=
  Relation.ReflTransGen fun vm after => ∃ call : Call, call.Careful vm ∧ after = vm.perform call

/-- A fresh virtual machine is safe: nothing but null is reached. -/
theorem safe_create {config : Config} {fresh : Vm} (created : create config = .ok fresh) :
    fresh.Safe := by
  obtain ⟨registry, collector, executions, _⟩ := create_eq created
  have grounded : fresh.Grounded True := grounded_create created
  refine ⟨⟨grounded.machine.orderly, ?_, ?_⟩, grounded⟩
  · exact .of_idle (by rw [collector]; rfl)
  · intro handle reached
    have nothing : handle = Handle.null := by
      induction reached with
      | start begins =>
        rcases begins with ⟨category, root⟩ | ⟨proxy, resolved, _⟩ | none
        · rw [scope_roots, registry] at root
          cases category with
          | constants | globals =>
            simp [Registry.scope, rootsOf, Registry.initial, Table.values] at root
          | functions =>
            obtain ⟨function, _, listed⟩ := List.mem_flatMap.mp root
            obtain ⟨_, _, rfl⟩ := List.mem_map.mp listed
            rfl
          | executions => simp [Registry.scope, running, executions] at root
        · rw [collector] at resolved
          exact (Heap.eq_null_of_empty resolved).1
        · exact none.elim
      | child _ resolved listed =>
        rw [collector] at resolved
        rw [(Heap.eq_null_of_empty resolved).2] at listed
        simp [Proxy.null, Cell.children] at listed
    subst nothing
    have resolved := grounded.machine.orderly.lawful.proxy?_null
    exact ⟨Proxy.null, resolved, by decide, fun _ => .inl rfl⟩

/-- Every careful call keeps a virtual machine safe. -/
theorem Safe.perform (safe : vm.Safe) {call : Call} (careful : call.Careful vm) :
    (vm.perform call).Safe := by
  refine ⟨?_, safe.grounded.perform careful.legal fun _ => trivial⟩
  cases collects : call.collects with
  | true =>
    have collected : Collected vm (vm.perform call) := collected_perform collects
    rw [collected.roots]
    exact collected.works.safe safe.collector
  | false =>
    cases pins : call.pins with
    | true =>
      rcases pinned_perform pins with same | ⟨handle, pinned, heap, done, changed, cause⟩
      · rw [same]
        exact safe.collector
      · obtain rfl := careful.unpinned pins cause
        rw [changed]
        exact safe.collector.unpin done
    | false =>
      have advances := advances_perform safe.grounded careful.legal (fun _ => trivial) collects pins
      have start : (vm.view (inHand call)).Safe := by
        show vm.machine.collector.Safe (vm.machine.registry.scope vm.running) (inHand call)
        rw [← scope_roots]
        refine safe.collector.weaken (fun _ _ root => .inl root) ?_
        rintro _ ⟨value, member, rfl⟩
        rcases careful.stored value member with rfl | reached
        · exact Collector.reaches_null safe.collector.orderly.lawful _ _
        · exact reached
      rw [scope_roots]
      exact advances.moves.safe start

/-- Careful calls keep a virtual machine safe, however many there are. -/
theorem RunsCarefully.safe (runs : RunsCarefully vm after) (safe : vm.Safe) : after.Safe := by
  induction runs with
  | refl => exact safe
  | tail _ once hypothesis =>
    obtain ⟨call, careful, rfl⟩ := once
    exact hypothesis.perform careful

/-- Along every run of careful calls, whatever is reached resolves, and it is not condemned. -/
theorem resolves_of_reached {config : Config} {fresh : Vm} (created : create config = .ok fresh)
    (runs : RunsCarefully fresh vm) {handle : Handle} (reached : vm.Reaches handle) :
    vm.machine.heap.contains handle = true ∧ handle.index ∉ vm.machine.heap.unmarked := by
  have safe := (runs.safe (safe_create created)).collector
  obtain ⟨proxy, resolved, standing, _⟩ := safe.secure handle reached
  refine ⟨safe.contains reached, ?_⟩
  intro condemned
  have unmarked := safe.orderly.lawful.mem_unmarked.mp condemned
  rw [Heap.residenceAt?_of_proxy? resolved] at unmarked
  exact standing (Option.some.inj unmarked)

/-- A text that only a global refers to outlives a step and a whole collection. -/
theorem resolves_of_reached_global : ∃ fresh vm handle, create {} = .ok fresh ∧
    RunsCarefully fresh vm ∧ handle ≠ Handle.null ∧ vm.Reaches handle ∧
    vm.machine.heap.contains handle = true ∧ handle.index ∉ vm.machine.heap.unmarked := by
  let text : Ref := ⟨⟨1, 0⟩⟩
  let fresh : Vm := { machine := { config := {}, registry := .initial, collector := .create 32 } }
  let made := fresh.perform (.createValue (.string "text") (by simp [Value.Plain]))
  let stored := made.perform (.addGlobal "global" text)
  let loose := stored.perform (.setPinned text false)
  let stepped := loose.perform .collectStep
  let collected := stepped.perform .collect
  have created : create {} = .ok fresh := rfl
  have pinned : made.Reaches text.handle := .start (.inr (.inl ⟨_, rfl, rfl⟩))
  have runsStored : RunsCarefully fresh stored := by
    have runsMade : RunsCarefully fresh made :=
      .single ⟨.createValue (.string "text") trivial, .of_quiet rfl rfl rfl, rfl⟩
    refine runsMade.tail ⟨.addGlobal "global" text,
      ⟨by simp [Call.Legal, Call.entered], ?_, by simp [Call.pins]⟩, rfl⟩
    intro value member
    rw [List.mem_singleton.mp member]
    exact .inr pinned
  have runsLoose : RunsCarefully fresh loose := by
    refine runsStored.tail ⟨.setPinned text false,
      ⟨by simp [Call.Legal, Call.entered], ?_, ?_⟩, rfl⟩
    · simp [Call.stored]
    · exact fun _ => ⟨text, rfl⟩
  have runsStepped : RunsCarefully fresh stepped :=
    runsLoose.tail ⟨.collectStep, .of_quiet rfl rfl rfl, rfl⟩
  have runs : RunsCarefully fresh collected :=
    runsStepped.tail ⟨.collect, .of_quiet rfl rfl rfl, rfl⟩
  have reached : collected.Reaches text.handle := .start (.inl ⟨.globals, List.mem_cons_self⟩)
  exact ⟨fresh, collected, text.handle, created, runs, by decide, reached,
    resolves_of_reached created runs reached⟩

end Vm

end ScriptVm
