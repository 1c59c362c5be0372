import ScriptVm.Proofs.Collector.Pinning
import ScriptVm.Proofs.Vm.Retention

/-!
# What a pin keeps alive

Reading a global pins its value. Whether the pin keeps the value alive from then on, as long as it
is not taken away, is decided at that moment by the collection under way: a pin that is set after
the collection has looked at the value does not help it through this collection once the global
holds something else.
-/
namespace ScriptVm

/-- A proxy that is pinned is pinned. -/
theorem Heap.Lawful.pins_of_setPinned {heap after : Heap} (lawful : heap.Lawful) {handle : Handle}
    (done : heap.setPinned handle true = some after) : after.Pins handle := by
  unfold Heap.setPinned at done
  split at done
  · simp at done
  · rename_i proxy resolved
    split at done
    · rename_i immortal
      obtain rfl := lawful.eq_null_of_immortal resolved immortal
      obtain rfl := Option.some.inj done
      exact ⟨Proxy.null, lawful.proxy?_null, rfl⟩
    · obtain rfl := Option.some.inj done
      exact ⟨{ proxy with pinned := true }, by simp [Heap.proxy?_updateAt, resolved], rfl⟩

/-- What is sheltered stays so while the collector works. -/
theorem Collector.Works.shelters {roots : RootSet} {collector after : Collector} {handle : Handle}
    (works : Works roots collector after) (orderly : collector.Orderly)
    (shelters : collector.Shelters handle) : after.Shelters handle := by
  induction works with
  | refl => exact shelters
  | @tail middle _ before once hypothesis =>
    rcases once with rfl | rfl
    · exact hypothesis.stepped (Works.orderly before orderly) (middle.stepped roots)
    · exact hypothesis.reset

namespace Vm

variable {vm after : Vm} {name : String} {value : Ref}

/-- A virtual machine comes from another by calls, none of which takes the pin of a value away. -/
abbrev RunsPinning (value : Ref) : Vm → Vm → Prop :=
  Relation.ReflTransGen fun vm after =>
    ∃ call : Call, call.Legal vm ∧ call ≠ .setPinned value false ∧ after = vm.perform call

/-- Every call but the one that takes the pin away shelters what is sheltered, and leaves it its
kind. -/
theorem shelters_perform (grounded : vm.Grounded True)
    (shelters : vm.machine.collector.Shelters value.handle) {call : Call} (legal : call.Legal vm)
    (kept : call ≠ .setPinned value false) :
    (vm.perform call).machine.collector.Shelters value.handle ∧
      (vm.perform call).machine.collector.kind? value.handle =
        vm.machine.collector.kind? value.handle := by
  have orderly := grounded.machine.orderly
  have resolves := shelters.heeds.resolves
  cases collects : call.collects with
  | true =>
    have collected : Collected vm (vm.perform call) := collected_perform collects
    have still := collected.works.shelters orderly shelters
    refine ⟨still, Collector.kind?_of_proxies still.heeds.resolves ?_⟩
    intro proxy resolved
    obtain ⟨old, known, cell, _⟩ := collected.works.proxies resolved
    exact ⟨old, known, by rw [cell]⟩
  | false =>
    cases pins : call.pins with
    | true =>
      rcases pinned_perform pins with same | ⟨handle, pinned, heap, done, changed, cause⟩
      · rw [same]
        exact ⟨shelters, rfl⟩
      · have spared : handle = value.handle → pinned = true := by
          intro same
          rcases cause with asked | ⟨flag, _⟩
          · cases pinned with
            | true => rfl
            | false => exact absurd (by rw [asked, same]) kept
          · exact flag
        rw [changed]
        exact ⟨shelters.setPinned done spared, (Collector.Continues.setPinned done).kind? resolves⟩
    | false =>
      have advances := advances_perform grounded legal (fun _ => trivial) collects pins
      have continues := Collector.continues_of_moves advances.moves orderly
      exact ⟨advances.moves.shelters orderly shelters, continues.kind? resolves⟩

/-- Runs shelter what is sheltered until the pin is taken away, and leave it its kind. -/
theorem RunsPinning.shelters (runs : RunsPinning value vm after) (grounded : vm.Grounded True)
    (shelters : vm.machine.collector.Shelters value.handle) :
    after.Grounded True ∧ after.machine.collector.Shelters value.handle ∧
      after.machine.collector.kind? value.handle = vm.machine.collector.kind? value.handle := by
  induction runs with
  | refl => exact ⟨grounded, shelters, rfl⟩
  | tail _ once hypothesis =>
    obtain ⟨grounded, shelters, kind⟩ := hypothesis
    obtain ⟨call, legal, kept, rfl⟩ := once
    obtain ⟨still, same⟩ := shelters_perform grounded shelters legal kept
    exact ⟨grounded.perform legal fun _ => trivial, still, same.trans kind⟩

/-- Reading a global gives what it holds, and pins it if it resolves. -/
theorem global_spec {machine : Machine} (got : vm.machine.global name = .ok (value, machine)) :
    vm.Holds name value ∧ (machine = vm.machine ∧ vm.machine.heap.contains value.handle = false ∨
      ∃ heap, vm.machine.heap.setPinned value.handle true = some heap ∧
        machine = vm.machine.updateHeap fun _ => heap) := by
  rw [Machine.global_eq] at got
  obtain ⟨held, known, last⟩ := Except.bind_eq_ok got
  obtain ⟨rfl, rfl⟩ := Prod.mk.inj (Except.ok.inj last)
  refine ⟨Error.orElse_eq_ok.mp known, ?_⟩
  unfold Machine.pin
  split
  · rename_i heap done
    exact .inr ⟨heap, done, rfl⟩
  · rename_i absent
    refine .inl ⟨rfl, ?_⟩
    unfold Heap.setPinned at absent
    split at absent
    · rename_i unresolved
      simp [Heap.contains, unresolved]
    · split at absent <;> simp at absent

/-- A global is all that refers to a value, apart from the value itself. -/
structure SolelyHolds (vm : Vm) (name : String) (value : Ref) : Prop where
  /-- No constant does. -/
  constants : value.handle ∉ vm.roots .constants
  /-- No execution does. -/
  executions : value.handle ∉ vm.roots .executions
  /-- No other global does. -/
  globals : ∀ entry ∈ vm.machine.registry.globals.entries, entry.2 = value → entry.1 = name
  /-- No other proxy does. -/
  alone : vm.machine.collector.Alone value.handle

/-- Putting null into a known global changes nothing else. -/
theorem assignGlobal_null (lawful : vm.machine.heap.Lawful) (holds : vm.Holds name value) :
    vm.perform (.assignGlobal name Ref.null) = { vm with machine := { vm.machine with
      registry := { vm.machine.registry with
        globals := vm.machine.registry.globals.replace name Ref.null } } } := by
  have resolves : vm.machine.heap.contains Handle.null = true :=
    Heap.contains_iff.mpr ⟨Proxy.null, lawful.proxy?_null⟩
  have known : vm.machine.registry.globals.contains name = true := by
    simp [Table.contains, show vm.machine.registry.globals.find? name = some value from holds]
  have checked : vm.machine.checkValue Ref.null = .ok () := if_pos resolves
  have assigned : vm.machine.assignGlobal name Ref.null =
      .ok (vm.machine.setGlobal name Ref.null) := by
    simp [Machine.assignGlobal_eq, checked, known, Bind.bind, Except.bind, Pure.pure, Except.pure]
  have same : vm.machine.collector.shade Ref.null.handle = vm.machine.collector :=
    Collector.shade_null lawful
  simp only [perform, adopt, Work.left_of_changed assigned, Machine.setGlobal, Machine.shade, same]

/-- Once a global that solely holds a value holds null, nothing does. -/
theorem SolelyHolds.unrooted (solely : vm.SolelyHolds name value)
    (proper : value.handle ≠ Handle.null) (category : RootCategory) :
    value.handle ∉ rootsOf { vm.machine.registry with
      globals := vm.machine.registry.globals.replace name Ref.null } vm.executions category := by
  cases category with
  | constants => exact solely.constants
  | executions => exact solely.executions
  | functions =>
    intro listed
    obtain ⟨function, _, inside⟩ := List.mem_flatMap.mp listed
    obtain ⟨_, _, same⟩ := List.mem_map.mp inside
    exact proper same.symm
  | globals =>
    intro listed
    obtain ⟨held, member, same⟩ := List.mem_map.mp listed
    obtain ⟨⟨key, entry⟩, replaced, rfl⟩ := List.mem_map.mp member
    obtain ⟨⟨key', old⟩, inside, changed⟩ := List.mem_map.mp replaced
    dsimp only at changed
    split at changed
    · obtain ⟨rfl, rfl⟩ := Prod.mk.inj changed
      exact proper same.symm
    · rename_i other
      obtain ⟨rfl, rfl⟩ := Prod.mk.inj changed
      exact other (solely.globals _ inside (by cases old; cases value; exact congrArg Ref.mk same))

/-- A heeded pin keeps a value alive, with its kind, until it is taken away. -/
theorem contains_of_heeds (grounded : vm.Grounded True) {heap : Heap}
    (done : vm.machine.heap.setPinned value.handle true = some heap)
    (heeds : vm.machine.collector.Heeds value.handle) {later : Vm}
    (runs : RunsPinning value { vm with machine := vm.machine.updateHeap fun _ => heap } later) :
    later.machine.heap.contains value.handle = true ∧
      later.machine.kind value = vm.machine.kind value := by
  have shelters : Collector.Shelters { vm.machine.collector with heap } value.handle :=
    ⟨grounded.machine.orderly.lawful.pins_of_setPinned done,
      (Collector.heeds_setPinned_iff done).mpr heeds⟩
  have pinned := (Collector.Continues.setPinned done).kind? heeds.resolves
  obtain ⟨_, still, kind⟩ := runs.shelters (grounded.setPinned done) shelters
  refine ⟨still.heeds.resolves, ?_⟩
  rw [Machine.kind_eq, Machine.kind_eq, kind]
  exact congrArg _ pinned

/-- A pin that is not heeded does not keep a value alive that a global solely holds: once the global
holds null, a whole collection disposes of the value. -/
theorem lost_of_not_heeds (grounded : vm.Grounded True) (holds : vm.Holds name value) {heap : Heap}
    (done : vm.machine.heap.setPinned value.handle true = some heap)
    (solely : vm.SolelyHolds name value) (unheeded : ¬ vm.machine.collector.Heeds value.handle) :
    ∃ later, RunsPinning value { vm with machine := vm.machine.updateHeap fun _ => heap } later ∧
      later.machine.heap.contains value.handle = false := by
  have lawful := grounded.machine.orderly.lawful
  let pinned : Vm := { vm with machine := vm.machine.updateHeap fun _ => heap }
  have after : pinned.Grounded True := grounded.setPinned done
  have nulled : pinned.perform (.assignGlobal name Ref.null) = _ :=
    assignGlobal_null after.machine.orderly.lawful holds
  have proper : value.handle ≠ Handle.null := by
    intro null
    rw [null] at unheeded
    exact unheeded ⟨Proxy.null, lawful.proxy?_null, by simp [Proxy.null], by simp [Proxy.null]⟩
  obtain ⟨proxy, resolved, _⟩ := lawful.pins_of_setPinned done
  refine ⟨(pinned.perform (.assignGlobal name Ref.null)).perform .collect, ?_, ?_⟩
  · have first : RunsPinning value pinned (pinned.perform (.assignGlobal name Ref.null)) :=
      .single ⟨_, by simp [Call.Legal, Call.entered], by simp, rfl⟩
    exact first.tail ⟨.collect, by simp [Call.Legal, Call.entered], by simp, rfl⟩
  · rw [nulled]
    show (collect _).machine.collector.heap.contains value.handle = false
    rw [collector_collect]
    exact Collector.gone_of_not_heeds after.machine.orderly
      (Heap.contains_iff.mpr ⟨proxy, resolved⟩)
      (fun heeds => unheeded ((Collector.heeds_setPinned_iff done).mp heeds))
      (solely.unrooted proper) (solely.alone.setPinned done)

/-- A value that is read from a global resolves in all later states, with its kind, until its pin is
taken away, provided that the collection under way heeds the pin when it is set; and if nothing but
the global refers to the value, then only in this case. -/
theorem kept_iff_heeds (reachable : vm.Reachable) {machine : Machine}
    (got : vm.machine.global name = .ok (value, machine)) :
    (vm.machine.collector.Heeds value.handle →
      ∀ later, RunsPinning value { vm with machine } later →
        later.machine.heap.contains value.handle = true ∧
          later.machine.kind value = vm.machine.kind value) ∧
    (vm.SolelyHolds name value →
      (∀ later, RunsPinning value { vm with machine } later →
        later.machine.heap.contains value.handle = true) →
      vm.machine.collector.Heeds value.handle) := by
  obtain ⟨holds, ⟨rfl, stale⟩ | ⟨heap, done, rfl⟩⟩ := global_spec got
  · constructor
    · intro heeds
      exact absurd heeds.resolves (Bool.eq_false_iff.mp stale)
    · intro _ kept
      exact absurd (kept vm .refl) (Bool.eq_false_iff.mp stale)
  · refine ⟨fun heeds later => contains_of_heeds reachable.grounded done heeds, ?_⟩
    intro solely kept
    by_contra unheeded
    obtain ⟨later, runs, gone⟩ :=
      lost_of_not_heeds reachable.grounded holds done solely unheeded
    exact Bool.eq_false_iff.mp gone (kept later runs)

/-- A virtual machine with an unpinned text in a global, just before the roots are marked. -/
def withLateText : Vm :=
  [Call.createValue (.string "text") trivial, .addGlobal "global" ⟨⟨1, 0⟩⟩,
    .setPinned ⟨⟨1, 0⟩⟩ false, .collectStep, .collectStep].foldl perform
    { machine := { config := {}, registry := .initial, collector := .create 32 } }

/-- A text in a global that is read when marks have been cleared may be lost although it is pinned,
before any root is marked. -/
theorem kept_iff_heeds_late : ∃ (vm : Vm) (machine : Machine) (value : Ref),
    vm.Reachable ∧ vm.machine.global "global" = .ok (value, machine) ∧
    vm.machine.collector.cycle.phase = .mark .constants ∧ vm.SolelyHolds "global" value ∧
    ¬ vm.machine.collector.Heeds value.handle ∧
    ¬ ∀ later, RunsPinning value { vm with machine } later →
      later.machine.heap.contains value.handle = true := by
  have reachable : withLateText.Reachable :=
    ⟨{}, _, rfl, runs_calls _ (by simp [Call.entered])⟩
  have slots : withLateText.machine.collector.heap.slots = #[⟨0, some Proxy.null⟩,
      ⟨0, some ⟨.active, false, false, .value (.string "text")⟩⟩] := by decide +kernel
  have phase : withLateText.machine.collector.cycle = { phase := .mark .constants } := by
    decide +kernel
  have unheeded : ¬ withLateText.machine.collector.Heeds ⟨1, 0⟩ := by
    rintro ⟨proxy, resolved, _, secured⟩
    have within := Heap.proxy?_eq_some_iff.mp resolved
    rw [slots] at within
    obtain rfl : _ = proxy := by simpa using within
    simpa [Collector.Spares, phase] using secured rfl
  have solely : withLateText.SolelyHolds "global" ⟨⟨1, 0⟩⟩ := by
    refine ⟨List.not_mem_nil, List.not_mem_nil, ?_, ?_⟩
    · intro entry member _
      have only : entry = ("global", ⟨⟨1, 0⟩⟩) := List.mem_singleton.mp member
      rw [only]
    · rintro ⟨index, generation⟩ proxy resolved listed
      have within := Heap.proxy?_eq_some_iff.mp resolved
      rw [slots] at within
      rcases index with _ | _ | index
      · obtain ⟨_, rfl⟩ : 0 = generation ∧ Proxy.null = proxy := by simpa using within
        exact absurd listed List.not_mem_nil
      · obtain ⟨_, rfl⟩ : 0 = generation ∧ _ = proxy := by simpa using within
        exact absurd listed List.not_mem_nil
      · simp at within
  obtain ⟨machine, got⟩ :
      ∃ machine, withLateText.machine.global "global" = .ok (⟨⟨1, 0⟩⟩, machine) := ⟨_, rfl⟩
  exact ⟨withLateText, machine, ⟨⟨1, 0⟩⟩, reachable, got, by rw [phase], solely, unheeded,
    fun kept => unheeded ((kept_iff_heeds reachable got).2 solely kept)⟩

end Vm

end ScriptVm
