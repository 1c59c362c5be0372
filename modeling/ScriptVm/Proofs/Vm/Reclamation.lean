import ScriptVm.Proofs.Collector.Reclamation
import ScriptVm.Proofs.Vm.Collection

/-!
# Garbage is reclaimed within one collection

Calls come between the steps of a collection. As long as they store only references that are
reached, a proxy that was out of reach when the collection began is gone when it is complete.
-/
namespace ScriptVm

/-- A careful call that leaves the collection under way unfinished: it neither gives it up nor
completes it. -/
structure Call.Continuing (call : Call) (vm : Vm) : Prop where
  /-- It stores only what is reached, and pins nothing. -/
  careful : call.Careful vm
  /-- It does not give the collection up. -/
  keeps : call ≠ .resetCollector
  /-- It is no whole collection. -/
  stepwise : call ≠ .collect
  /-- A step does not complete the collection. -/
  unfinished : call = .collectStep → vm.collectStep.1 = false

namespace Vm

variable {vm after : Vm} {handle : Handle}

/-- A virtual machine comes from another by careful calls, in the course of one collection. -/
abbrev RunsContinuing : Vm → Vm → Prop :=
  Relation.ReflTransGen fun vm after => ∃ call : Call, call.Continuing vm ∧ after = vm.perform call

/-- A collector step completes a collection when the collector says so. -/
theorem completed_collectStep (vm : Vm) :
    vm.collectStep.1 = (vm.machine.collector.step vm.roots).1 := rfl

/-- The collector after a collector step. -/
theorem collector_collectStep (vm : Vm) :
    vm.collectStep.2.machine.collector = (vm.machine.collector.step vm.roots).2 := by
  unfold collectStep reportCollection
  dsimp only
  split
  · split <;> rfl
  · rfl

/-- A careful call that neither collects nor pins is a sequence of moves, with nothing in hand
before and after it. -/
theorem moves_perform (grounded : vm.Grounded True) {call : Call} (careful : call.Careful vm)
    (collects : call.collects = false) (pins : call.pins = false) :
    View.Moves (vm.view unheld) ((vm.perform call).view unheld) := by
  have advances := advances_perform grounded careful.legal (fun _ => trivial) collects pins
  have holds : ∀ other, inHand call other → (vm.view unheld).Reaches other := by
    rintro _ ⟨value, member, rfl⟩
    rcases careful.stored value member with rfl | reached
    · exact Collector.reaches_null grounded.machine.orderly.lawful _ _
    · unfold Reaches at reached
      rw [scope_roots] at reached
      exact reached
  have taken : View.Move (vm.view unheld) (vm.view (inHand call)) :=
    .weaken (fun _ _ root => .inl root) holds
  exact advances.moves.head taken

/-- The collection under way disposes of the handle's proxy, or it has done so. -/
def Forsakes (vm : Vm) (handle : Handle) : Prop :=
  vm.machine.collector.Forsakes vm.roots.scope unheld handle

/-- A call in the course of a collection leaves forsaken what is so. -/
theorem Forsakes.perform (forsakes : vm.Forsakes handle) (grounded : vm.Grounded True)
    {call : Call} (continuing : call.Continuing vm) : (vm.perform call).Forsakes handle := by
  have careful := continuing.careful
  have orderly := grounded.machine.orderly
  cases collects : call.collects with
  | true =>
    have collected : Collected vm (vm.perform call) := collected_perform collects
    unfold Forsakes
    rw [collected.roots]
    cases call with
    | collectStep =>
      have unfinished := continuing.unfinished rfl
      have stepped := vm.machine.collector.stepped vm.roots
      rw [← completed_collectStep, unfinished, ← collector_collectStep] at stepped
      exact Collector.Forsakes.stepped forsakes orderly stepped
    | collect => exact absurd rfl continuing.stepwise
    | resetCollector => exact absurd rfl continuing.keeps
    | _ => simp [Call.collects] at collects
  | false =>
    cases pins : call.pins with
    | true =>
      rcases pinned_perform pins with same | ⟨_, pinned, heap, done, changed, cause⟩
      · rw [same]
        exact forsakes
      · obtain rfl := careful.unpinned pins cause
        rw [changed]
        exact Collector.Forsakes.unpin forsakes done
    | false =>
      have moves := moves_perform grounded careful collects pins
      unfold Forsakes at forsakes ⊢
      rw [scope_roots] at forsakes ⊢
      exact moves.forsakes orderly forsakes

/-- Calls in the course of a collection leave forsaken what is so. -/
theorem RunsContinuing.forsakes (runs : RunsContinuing vm after) (grounded : vm.Grounded True)
    (forsakes : vm.Forsakes handle) : after.Grounded True ∧ after.Forsakes handle := by
  induction runs with
  | refl => exact ⟨grounded, forsakes⟩
  | tail _ once hypothesis =>
    obtain ⟨grounded, forsakes⟩ := hypothesis
    obtain ⟨call, continuing, rfl⟩ := once
    exact ⟨grounded.perform continuing.careful.legal fun _ => trivial,
      forsakes.perform grounded continuing⟩

/-- A proxy that is out of reach while no collection is under way is gone after the step that
completes the next one, whatever careful calls come before it; it is gone as well when the
collection is completed all at once. -/
theorem gone_of_unreached (reachable : vm.Reachable)
    (idle : vm.machine.collector.cycle.phase = .linkPending)
    (resolves : vm.machine.heap.contains handle = true) (unreached : ¬ vm.Reaches handle)
    (runs : RunsContinuing vm after) :
    (after.collectStep.1 = true → after.collectStep.2.machine.heap.contains handle = false) ∧
      after.collect.machine.heap.contains handle = false := by
  have orderly := reachable.grounded.machine.orderly
  have forsakes : vm.Forsakes handle :=
    Collector.forsakes_of_idle orderly idle resolves unreached
  obtain ⟨grounded, forsaken⟩ := runs.forsakes reachable.grounded forsakes
  constructor
  · intro completed
    have stepped := after.machine.collector.stepped after.roots
    rw [← completed_collectStep, completed, ← collector_collectStep] at stepped
    exact Collector.Forsakes.completed forsaken grounded.machine.orderly stepped
  · rw [Machine.heap, collector_collect]
    exact Collector.Forsakes.run forsaken grounded.machine.orderly

/-- A virtual machine with a text that nothing refers to and that is not pinned. -/
def withLooseText : Vm :=
  [Call.createValue (.string "text") trivial, .setPinned ⟨⟨1, 0⟩⟩ false].foldl perform
    { machine := { config := {}, registry := .initial, collector := .create 32 } }

/-- Nothing but null is reached there. -/
theorem eq_null_of_reaches_withLooseText (reached : withLooseText.Reaches handle) :
    handle = Handle.null := by
  have slots : withLooseText.machine.collector.heap.slots = #[⟨0, some Proxy.null⟩,
      ⟨0, some ⟨.pending, false, false, .value (.string "text")⟩⟩] := rfl
  have proxies : ∀ {other : Handle} {proxy : Proxy},
      withLooseText.machine.collector.heap.proxy? other = some proxy →
      (other = Handle.null ∨ proxy.pinned = false) ∧ proxy.cell.children = [] := by
    rintro ⟨index, generation⟩ proxy resolved
    have within := Heap.proxy?_eq_some_iff.mp resolved
    rw [slots] at within
    rcases index with _ | _ | index
    · obtain ⟨rfl, rfl⟩ : 0 = generation ∧ Proxy.null = proxy := by simpa using within
      exact ⟨.inl rfl, rfl⟩
    · obtain ⟨_, rfl⟩ : 0 = generation ∧ _ = proxy := by simpa using within
      exact ⟨.inr rfl, rfl⟩
    · simp at within
  induction reached with
  | start begins =>
    rcases begins with ⟨category, root⟩ | ⟨proxy, resolved, pinned⟩ | none
    · cases category with
      | constants | globals | executions => exact absurd root List.not_mem_nil
      | functions =>
        obtain ⟨function, _, listed⟩ := List.mem_flatMap.mp root
        obtain ⟨_, _, rfl⟩ := List.mem_map.mp listed
        rfl
    · refine (proxies resolved).1.resolve_right fun loose => ?_
      simp [loose] at pinned
    · exact none.elim
  | child _ resolved listed =>
    rw [(proxies resolved).2] at listed
    simp at listed

/-- A loose text is gone after eight steps, also when a value is created after the first one. -/
theorem gone_of_unreached_text : ∃ vm after : Vm, ∃ handle, vm.Reachable ∧
    vm.machine.collector.cycle.phase = .linkPending ∧
    vm.machine.heap.contains handle = true ∧ ¬ vm.Reaches handle ∧ RunsContinuing vm after ∧
    after.machine.heap.contains handle = true ∧ after.collectStep.1 = true ∧
    after.collectStep.2.machine.heap.contains handle = false := by
  have step : ∀ {first vm : Vm}, RunsContinuing first vm → vm.collectStep.1 = false →
      RunsContinuing first (vm.perform .collectStep) := fun runs unfinished =>
    runs.tail ⟨.collectStep, ⟨.of_quiet rfl rfl rfl, by simp, by simp, fun _ => unfinished⟩, rfl⟩
  have create : ∀ {first vm : Vm}, RunsContinuing first vm →
      RunsContinuing first (vm.perform (.createValue (.string "other") trivial)) := fun runs =>
    runs.tail ⟨.createValue (.string "other") trivial,
      ⟨.of_quiet rfl rfl rfl, by simp, by simp, by simp⟩, rfl⟩
  have reachable : withLooseText.Reachable :=
    ⟨{}, _, rfl, runs_calls _ (by simp [Call.entered])⟩
  have unreached : ¬ withLooseText.Reaches ⟨1, 0⟩ := fun reached =>
    absurd (eq_null_of_reaches_withLooseText reached) (by decide)
  have begun := create (step (.refl (a := withLooseText)) (by decide +kernel))
  have half := step (step (step begun (by decide +kernel)) (by decide +kernel))
    (by decide +kernel)
  have runs := step (step (step half (by decide +kernel)) (by decide +kernel)) (by decide +kernel)
  refine ⟨_, _, ⟨1, 0⟩, reachable, rfl, rfl, unreached, runs, by decide +kernel,
    by decide +kernel, ?_⟩
  exact (gone_of_unreached reachable rfl rfl unreached runs).1 (by decide +kernel)

end Vm

end ScriptVm
