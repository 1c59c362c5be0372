import ScriptVm.Proofs.Collector.Exactness
import ScriptVm.Proofs.Vm.Safety

/-!
# Whole collections of virtual machines

A whole collection that begins with none under way and with nothing condemned is exact: it leaves
what is reached from the roots and from pinned proxies, and it counts what it disposes of.
-/
namespace ScriptVm

namespace Vm

variable {vm : Vm}

/-- The collector after a whole collection. -/
theorem collector_collect (vm : Vm) :
    vm.collect.machine.collector = vm.machine.collector.run vm.roots := by
  unfold collect reportCollection
  dsimp only
  split <;> rfl

/-- When no collection is under way, a whole one leaves exactly what is reached from the roots and
from pinned proxies, whatever the calls so far were. -/
theorem sweeps_collect (reachable : vm.Reachable)
    (idle : vm.machine.collector.cycle.phase = .linkPending)
    (unmarked : vm.machine.heap.unmarked = []) :
    Collector.Sweeps vm.machine.collector vm.roots.scope vm.collect.machine.collector := by
  rw [collector_collect]
  exact Collector.sweeps_run reachable.grounded.machine.orderly idle unmarked vm.roots

/-- Next to null there are an array that only refers to itself and a pinned text. -/
theorem sweeps_collect_cycle : ∃ vm : Vm, vm.Reachable ∧
    vm.machine.collector.cycle.phase = .linkPending ∧ vm.machine.heap.unmarked = [] ∧
    vm.machine.heap.population = 3 ∧
    Collector.Sweeps vm.machine.collector vm.roots.scope vm.collect.machine.collector := by
  let array : Ref := ⟨⟨1, 0⟩⟩
  let fresh : Vm := { machine := { config := {}, registry := .initial, collector := .create 32 } }
  let calls : List Call := [.createArray 1, .setElement array 0 array, .setPinned array false,
    .createValue (.string "text") trivial]
  have runs : Runs fresh (calls.foldl perform fresh) :=
    runs_calls fresh (by simp [calls, Call.entered])
  have reachable : (calls.foldl perform fresh).Reachable := ⟨{}, fresh, rfl, runs⟩
  have idle : (calls.foldl perform fresh).machine.collector.cycle.phase = .linkPending := by
    decide +kernel
  have unmarked : (calls.foldl perform fresh).machine.heap.unmarked = [] := by decide +kernel
  have population : (calls.foldl perform fresh).machine.heap.population = 3 := by decide +kernel
  exact ⟨_, reachable, idle, unmarked, population, sweeps_collect reachable idle unmarked⟩

end Vm

end ScriptVm
