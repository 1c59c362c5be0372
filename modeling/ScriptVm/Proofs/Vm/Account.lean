import ScriptVm.Proofs.Collector.Account
import ScriptVm.Proofs.Vm.Safety

/-!
# References that virtual machines have handed out

As long as calls store no reference of another virtual machine and pass no function of a module of
another one, whatever is reached has been handed out, also when it does not resolve any more. This
needs that no generation of a slot starts over, which takes as many disposals of its proxies as
there are 32-bit words.
-/
namespace ScriptVm

/-- The call passes only functions and references of this virtual machine, and it lets the collector
work only while no generation starts over. -/
structure Call.Honest (vm : Vm) (call : Call) : Prop where
  /-- It passes no function but one of a loaded module. -/
  loaded : ∀ function, call.entered = some function → function.Loaded vm.machine.registry
  /-- It stores only what has been handed out. -/
  stored : ∀ value ∈ call.stored, vm.machine.heap.Issued value.handle
  /-- No generation starts over. -/
  young : call.collects = true → ∀ slot ∈ vm.machine.heap.slots, slot.generation + 1 ≠ 0

/-- What an honest call passes is known. -/
theorem Call.Honest.known {vm : Vm} {call : Call} (honest : call.Honest vm) (function : Function)
    (passed : call.entered = some function) : vm.machine.registry.Knows True function :=
  ⟨honest.loaded function passed, fun _ _ => trivial⟩

/-- The work of the collector empties condemned slots, each of them once. -/
theorem Collector.Works.ages {roots : RootSet} {collector after : Collector}
    (works : Works roots collector after) (orderly : collector.Orderly) :
    collector.heap.Ages after.heap := by
  induction works with
  | refl => exact .of_stamps fun _ => rfl
  | @tail middle _ earlier once hypothesis =>
    rcases once with rfl | rfl
    · have lawful := (Works.orderly earlier orderly).lawful
      exact hypothesis.trans ((middle.stepped roots).ages lawful)
    · exact hypothesis.trans (.of_stamps fun _ => rfl)

namespace Vm

variable {vm after : Vm}

/-- Every reference has been handed out. -/
def Accounted (vm : Vm) : Prop := (vm.view unheld).Accounted

/-- Whatever is reached has been handed out. -/
theorem Accounted.issued (accounted : vm.Accounted) {handle : Handle}
    (reached : vm.Reaches handle) : vm.machine.heap.Issued handle := by
  unfold Reaches at reached
  rw [scope_roots] at reached
  exact View.Accounted.issued accounted reached

/-- In a fresh virtual machine there is no reference but null. -/
theorem accounted_create {config : Config} {fresh : Vm} (made : create config = .ok fresh) :
    fresh.Accounted := by
  have safe := (safe_create made).collector
  rw [scope_roots] at safe
  obtain ⟨_, collector, _⟩ := create_eq made
  refine ⟨?_, fun _ none => none.elim, ?_⟩
  · intro category handle root
    obtain ⟨proxy, resolved, _⟩ := safe.secure handle (.start (.inl ⟨category, root⟩))
    exact Heap.issued_of_proxy? resolved
  · intro handle proxy resolved child listed
    replace resolved : fresh.machine.collector.heap.proxy? handle = some proxy := resolved
    rw [collector] at resolved
    rw [(Heap.eq_null_of_empty resolved).2] at listed
    simp [Proxy.null, Cell.children] at listed

/-- The work of the collector keeps references accounted for. -/
theorem Accounted.collected (accounted : vm.Accounted) (collected : Collected vm after)
    (orderly : vm.machine.collector.Orderly)
    (young : ∀ slot ∈ vm.machine.heap.slots, slot.generation + 1 ≠ 0) : after.Accounted := by
  have ages := collected.works.ages orderly
  have scope : (after.view unheld).scope = (vm.view unheld).scope := by
    show after.machine.registry.scope after.running = vm.machine.registry.scope vm.running
    rw [← scope_roots, ← scope_roots, collected.roots]
  refine View.Accounted.of_issued accounted (fun _ known => known.ages ages young) ?_
    (fun _ none => none.elim) ?_
  · intro category handle root
    rw [scope] at root
    exact .inl root
  · intro handle proxy resolved child listed
    obtain ⟨old, known, cell, _⟩ := collected.works.proxies resolved
    exact .inl ⟨old, known, cell ▸ listed⟩

/-- Pinning and unpinning keep references accounted for. -/
theorem Accounted.setPinned (accounted : vm.Accounted) {handle : Handle} {pinned : Bool}
    {heap : Heap} (done : vm.machine.heap.setPinned handle pinned = some heap) :
    Accounted { vm with machine := vm.machine.updateHeap fun _ => heap } := by
  refine View.Accounted.of_issued accounted ?_ (fun _ _ root => .inl root)
    (fun _ none => none.elim) ?_
  · intro other known
    rcases Heap.setPinned_cases done with rfl | ⟨_, _, _, rfl⟩
    · exact known
    · exact known.of_stamps (Heap.stamp?_updateAt _ _ _ _)
  · intro other proxy resolved child listed
    obtain ⟨old, known, cell, _⟩ := Heap.origin_setPinned done resolved
    exact .inl ⟨old, known, cell ▸ listed⟩

/-- Every honest call keeps references accounted for. -/
theorem Accounted.perform (accounted : vm.Accounted) (grounded : vm.Grounded True) {call : Call}
    (honest : call.Honest vm) : (vm.perform call).Accounted := by
  have orderly := grounded.machine.orderly
  cases collects : call.collects with
  | true => exact accounted.collected (collected_perform collects) orderly (honest.young collects)
  | false =>
    cases pins : call.pins with
    | true =>
      rcases pinned_perform pins with same | ⟨_, _, _, done, changed, _⟩
      · rw [same]
        exact accounted
      · rw [changed]
        exact accounted.setPinned done
    | false =>
      have advances := advances_known grounded honest.known (fun _ => trivial) collects pins
      refine advances.moves.accounted orderly ⟨accounted.roots, ?_, accounted.children⟩
      rintro _ ⟨value, member, rfl⟩
      exact honest.stored value member

/-- Along runs of honest calls references stay accounted for. -/
theorem accounted_of_runs (runs : RunsBy Call.Honest vm after) (accounted : vm.Accounted)
    (grounded : vm.Grounded True) : after.Accounted := by
  have both : after.Accounted ∧ after.Grounded True := by
    induction runs with
    | refl => exact ⟨accounted, grounded⟩
    | tail _ once hypothesis =>
      obtain ⟨call, honest, rfl⟩ := once
      obtain ⟨earlier, known⟩ := hypothesis
      exact ⟨earlier.perform known honest, known.perform_known honest.known fun _ => trivial⟩
  exact both.1

end Vm

end ScriptVm
