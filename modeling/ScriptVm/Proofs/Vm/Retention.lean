import ScriptVm.Proofs.Collector.Retention
import ScriptVm.Proofs.Vm.Collection

/-!
# What globals keep alive

A global accepts every reference that resolves. Whether it keeps the reference alive from then on is
decided at that moment: it does so exactly if the value is neither condemned nor about to be.
-/
namespace ScriptVm

namespace Collector

variable {roots : RootSet} {collector after : Collector} {handle : Handle}

/-- What is retained and held by a global stays so while the collector works. -/
theorem Works.retains (works : Works roots collector after) (orderly : collector.Orderly)
    (root : handle ∈ roots .globals) (retains : collector.Retains handle) :
    after.Retains handle := by
  induction works with
  | refl => exact retains
  | @tail middle _ before once hypothesis =>
    rcases once with rfl | rfl
    · have lawful := (Works.orderly before orderly).lawful
      exact hypothesis.stepped lawful root (middle.stepped roots)
    · exact hypothesis.reset

/-- The kind of the value that a handle names. -/
def kind? (collector : Collector) (handle : Handle) : Option Kind :=
  (collector.heap.proxy? handle).bind fun proxy => proxy.cell.kind?

/-- Kinds stay while proxies stay. -/
theorem kind?_of_proxies (contained : after.heap.contains handle = true)
    (proxies : ∀ proxy, after.heap.proxy? handle = some proxy →
      ∃ old, collector.heap.proxy? handle = some old ∧ proxy.cell.kind? = old.cell.kind?) :
    after.kind? handle = collector.kind? handle := by
  obtain ⟨proxy, resolved⟩ := Heap.contains_iff.mp contained
  obtain ⟨old, known, kind⟩ := proxies proxy resolved
  simp [kind?, resolved, known, kind]

/-- Kinds stay without steps. -/
theorem Continues.kind? (continues : Continues collector after)
    (contained : collector.heap.contains handle = true) :
    after.kind? handle = collector.kind? handle := by
  obtain ⟨proxy, resolved⟩ := Heap.contains_iff.mp contained
  obtain ⟨changed, named, _, _, kind⟩ := continues.proxies handle proxy resolved
  simp [Collector.kind?, resolved, named, kind]

end Collector

/-- The kind of a value is that of its cell. -/
theorem Machine.kind_eq (machine : Machine) (reference : Ref) :
    machine.kind reference =
      Error.invalidArgument.orElse (machine.collector.kind? reference.handle) := by
  unfold Machine.kind Machine.value Heap.value? Collector.kind? Machine.heap
  cases machine.collector.heap.proxy? reference.handle with
  | none => rfl
  | some proxy =>
    obtain ⟨residence, marked, pinned, cell⟩ := proxy
    cases cell <;> rfl

namespace Vm

variable {vm after : Vm} {name : String} {value : Ref}

/-- A global holds a reference. -/
def Holds (vm : Vm) (name : String) (value : Ref) : Prop :=
  vm.machine.registry.globals.find? name = some value

/-- A virtual machine comes from another by calls, and the global holds the reference all the
time. -/
abbrev RunsHolding (name : String) (value : Ref) : Vm → Vm → Prop :=
  Relation.ReflTransGen fun vm after =>
    (∃ call : Call, call.Legal vm ∧ after = vm.perform call) ∧ after.Holds name value

/-- A reference in a global is a root. -/
theorem Holds.root (holds : vm.Holds name value) : value.handle ∈ vm.roots .globals :=
  List.mem_map.mpr ⟨value, Table.mem_values_of_find? holds, rfl⟩

/-- Every call keeps what is retained and held by a global, and its kind. -/
theorem retains_perform (grounded : vm.Grounded True) (holds : vm.Holds name value)
    (retains : vm.machine.collector.Retains value.handle) {call : Call} (legal : call.Legal vm) :
    (vm.perform call).machine.collector.Retains value.handle ∧
      (vm.perform call).machine.collector.kind? value.handle =
        vm.machine.collector.kind? value.handle := by
  have orderly := grounded.machine.orderly
  have still : ∀ {after : Vm}, Collector.Continues vm.machine.collector after.machine.collector →
      after.machine.collector.Retains value.handle ∧
        after.machine.collector.kind? value.handle = vm.machine.collector.kind? value.handle :=
    fun continues => ⟨retains.continues continues, continues.kind? retains.resolves⟩
  cases collects : call.collects with
  | true =>
    have collected : Collected vm (vm.perform call) := collected_perform collects
    have kept := collected.works.retains orderly holds.root retains
    refine ⟨kept, Collector.kind?_of_proxies kept.resolves ?_⟩
    intro proxy resolved
    obtain ⟨old, known, cell, _⟩ := collected.works.proxies resolved
    exact ⟨old, known, by rw [cell]⟩
  | false =>
    cases pins : call.pins with
    | true =>
      rcases pinned_perform pins with same | ⟨_, _, _, done, changed, _⟩
      · rw [same]
        exact still (.refl _)
      · rw [changed]
        exact still (.setPinned done)
    | false =>
      have advances := advances_perform grounded legal (fun _ => trivial) collects pins
      exact still (Collector.continues_of_moves advances.moves orderly)

/-- Runs keep what is retained as long as a global holds it, and its kind. -/
theorem RunsHolding.retains (runs : RunsHolding name value vm after) (grounded : vm.Grounded True)
    (holds : vm.Holds name value) (retains : vm.machine.collector.Retains value.handle) :
    after.Grounded True ∧ after.Holds name value ∧
      after.machine.collector.Retains value.handle ∧
      after.machine.collector.kind? value.handle = vm.machine.collector.kind? value.handle := by
  induction runs with
  | refl => exact ⟨grounded, holds, retains, rfl⟩
  | tail _ once hypothesis =>
    obtain ⟨grounded, holds, retains, kind⟩ := hypothesis
    obtain ⟨⟨call, legal, rfl⟩, holdsAfter⟩ := once
    obtain ⟨kept, same⟩ := retains_perform grounded holds retains legal
    exact ⟨grounded.perform legal fun _ => trivial, holdsAfter, kept, same.trans kind⟩

/-- A global takes a reference: a known one gets it, or it is declared with it. -/
def Accepts (vm : Vm) (name : String) (value : Ref) (machine : Machine) : Prop :=
  vm.machine.assignGlobal name value = .ok machine ∨ vm.machine.addGlobal name value = .ok machine

/-- An accepted reference resolves, it is shaded, and the global holds it. -/
theorem Accepts.spec {machine : Machine} (accepts : vm.Accepts name value machine) :
    vm.machine.heap.contains value.handle = true ∧
      machine.collector = vm.machine.collector.shade value.handle ∧
      Holds { vm with machine } name value := by
  have checked : ∀ {result : Unit}, vm.machine.checkValue value = .ok result →
      vm.machine.heap.contains value.handle = true := by
    intro _ passed
    unfold Machine.checkValue at passed
    split at passed
    · assumption
    · simp at passed
  rcases accepts with assigned | added
  · rw [Machine.assignGlobal_eq] at assigned
    obtain ⟨_, passed, rest⟩ := Except.bind_eq_ok assigned
    split at rest
    · rename_i known
      obtain rfl := Except.ok.inj rest
      exact ⟨checked passed, rfl, Table.find?_replace known⟩
    · cases rest
  · rw [Machine.addGlobal_eq] at added
    obtain ⟨_, passed, rest⟩ := Except.bind_eq_ok added
    split at rest
    · cases rest
    · rename_i new
      obtain rfl := Except.ok.inj rest
      exact ⟨checked passed, rfl, Table.find?_add (by simpa using new)⟩

/-- Taking a reference keeps the functions known ones. -/
theorem Accepts.grounded {machine : Machine} (accepts : vm.Accepts name value machine)
    (grounded : vm.Grounded True) : Grounded True { vm with machine } := by
  rcases accepts with assigned | added
  · have performed : vm.perform (.assignGlobal name value) = { vm with machine } := by
      rw [perform, adopt, Work.left_of_changed assigned]
    rw [← performed]
    exact grounded.perform (by simp [Call.Legal, Call.entered]) fun _ => trivial
  · have performed : vm.perform (.addGlobal name value) = { vm with machine } := by
      rw [perform, adopt, Work.left_of_changed added]
    rw [← performed]
    exact grounded.perform (by simp [Call.Legal, Call.entered]) fun _ => trivial

/-- An accepted reference resolves in all later states, with its kind, as long as the global holds
it, exactly if it is not doomed when it is accepted. A doomed one is gone after one whole
collection. -/
theorem kept_iff_not_doomed (reachable : vm.Reachable) {machine : Machine}
    (accepts : vm.Accepts name value machine) :
    (∀ later, RunsHolding name value { vm with machine } later →
      later.machine.heap.contains value.handle = true ∧
        later.machine.kind value = vm.machine.kind value) ↔
      ¬ vm.machine.collector.Doomed value.handle := by
  obtain ⟨resolves, collector, holds⟩ := accepts.spec
  have grounded := accepts.grounded reachable.grounded
  constructor
  · intro kept doomed
    have once : RunsHolding name value { vm with machine } (collect { vm with machine }) := by
      have collected : Collected { vm with machine } (perform { vm with machine } .collect) :=
        collected_perform rfl
      refine .single ⟨⟨.collect, by simp [Call.Legal, Call.entered], rfl⟩, ?_⟩
      exact (congrArg (fun registry : Registry => registry.globals.find? name)
        collected.registry).trans holds
    have gone : (machine.collector.run (roots { vm with machine })).heap.contains value.handle =
        false := by
      refine Collector.Doomed.run ?_ grounded.machine.orderly _
      rw [collector]
      exact doomed.shade
    have contained := (kept _ once).1
    rw [Machine.heap, collector_collect] at contained
    exact Bool.false_ne_true (gone.symm.trans contained)
  · intro spared later runs
    have retains : machine.collector.Retains value.handle := by
      rw [collector]
      exact Collector.retains_shade resolves spared
    obtain ⟨_, _, kept, kind⟩ := runs.retains grounded holds retains
    refine ⟨kept.resolves, ?_⟩
    have shaded := (Collector.Continues.shade vm.machine.collector value.handle).kind? resolves
    rw [Machine.kind_eq, Machine.kind_eq, kind, ← shaded]
    exact congrArg _ (congrArg (Collector.kind? · value.handle) collector)

/-- A virtual machine with a text that seven steps have condemned. -/
def withCondemnedText : Vm :=
  [Call.createValue (.string "text") trivial, .setPinned ⟨⟨1, 0⟩⟩ false, .collectStep,
    .collectStep, .collectStep, .collectStep, .collectStep, .collectStep, .collectStep].foldl
    perform { machine := { config := {}, registry := .initial, collector := .create 32 } }

/-- A global takes a condemned text, and does not keep it. -/
theorem kept_iff_not_doomed_condemned : ∃ (vm : Vm) (machine : Machine) (value : Ref),
    vm.Reachable ∧ vm.Accepts "global" value machine ∧
    vm.machine.collector.Doomed value.handle ∧
    ¬ ∀ later, RunsHolding "global" value { vm with machine } later →
      later.machine.heap.contains value.handle = true ∧
        later.machine.kind value = vm.machine.kind value := by
  have reachable : withCondemnedText.Reachable :=
    ⟨{}, _, rfl, runs_calls _ (by simp [Call.entered])⟩
  have condemned : (withCondemnedText.machine.collector.heap.proxy? ⟨1, 0⟩).map Proxy.residence =
      some .unmarked := by decide +kernel
  have taken : (withCondemnedText.machine.addGlobal "global" ⟨⟨1, 0⟩⟩).isOk = true := by
    decide +kernel
  obtain ⟨proxy, resolved, unmarked⟩ := Option.map_eq_some_iff.mp condemned
  have doomed : withCondemnedText.machine.collector.Doomed ⟨1, 0⟩ :=
    ⟨proxy, resolved, .inl unmarked⟩
  cases added : withCondemnedText.machine.addGlobal "global" ⟨⟨1, 0⟩⟩ with
  | error error => simp [added, Except.isOk, Except.toBool] at taken
  | ok machine =>
    have accepts : withCondemnedText.Accepts "global" ⟨⟨1, 0⟩⟩ machine := .inr added
    refine ⟨withCondemnedText, machine, ⟨⟨1, 0⟩⟩, reachable, accepts, doomed, fun kept => ?_⟩
    exact (kept_iff_not_doomed reachable accepts).mp kept doomed

end Vm

end ScriptVm
