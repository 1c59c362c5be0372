import ScriptVm.Proofs.Machine.Litter

/-!
# Proxies that nothing refers to

What an instruction has allocated when it faults is garbage: proxies without pins, under handles
that had not been handed out, so that no reference leads to them. Allocating marks what the new
proxy refers to while roots are being marked, and nothing else of the old proxies changes.
-/
namespace ScriptVm

namespace Machine

variable {machine middle after : Machine}

/-- A machine differs from another by garbage, by marks and by its journal. -/
structure Scatters (machine after : Machine) : Prop where
  /-- All but the heap and the journal stays: what is known by name, the collection under way. -/
  rest : after.reverted machine = machine
  /-- Old proxies stay as they are, apart from their marks. -/
  proxies : ∀ handle proxy, machine.heap.proxy? handle = some proxy →
    ∃ marked, after.heap.proxy? handle = some { proxy with marked }
  /-- New proxies are not pinned, and their handles are new. -/
  fresh : ∀ handle proxy, machine.heap.proxy? handle = none →
    after.heap.proxy? handle = some proxy →
    proxy.residence = .pending ∧ proxy.pinned = false ∧ ¬machine.heap.Issued handle
  /-- No handle is taken back. -/
  issued : ∀ handle, machine.heap.Issued handle → after.heap.Issued handle

namespace Scatters

/-- There is no garbage. -/
theorem refl (machine : Machine) : machine.Scatters machine :=
  ⟨rfl, fun _ proxy resolved => ⟨proxy.marked, resolved⟩,
    fun _ _ absent resolved => by simp [absent] at resolved, fun _ issued => issued⟩

/-- More garbage is left. -/
theorem trans (first : machine.Scatters middle) (second : middle.Scatters after) :
    machine.Scatters after := by
  have rest : after.reverted machine = machine :=
    (congrArg (fun between : Machine => between.reverted machine) second.rest).trans first.rest
  refine ⟨rest, ?_, ?_, fun handle issued => second.issued handle (first.issued handle issued)⟩
  · intro handle proxy resolved
    obtain ⟨marked, between⟩ := first.proxies handle proxy resolved
    obtain ⟨darker, named⟩ := second.proxies handle _ between
    exact ⟨darker, named⟩
  · intro handle proxy absent resolved
    cases between : middle.heap.proxy? handle with
    | none =>
      obtain ⟨pending, loose, unissued⟩ := second.fresh handle proxy between resolved
      exact ⟨pending, loose, fun issued => unissued (first.issued handle issued)⟩
    | some old =>
      obtain ⟨marked, named⟩ := second.proxies handle old between
      obtain rfl := Option.some.inj (resolved.symm.trans named)
      exact first.fresh handle old absent between

/-- What is known by name stays. -/
theorem registry (scatters : machine.Scatters after) : after.registry = machine.registry := by
  have same : (after.reverted machine).registry = machine.registry := by rw [scatters.rest]
  exact same

/-- A proxy is an old one, apart from its mark, or it is garbage. -/
theorem origin (scatters : machine.Scatters after) {handle : Handle} {proxy : Proxy}
    (resolved : after.heap.proxy? handle = some proxy) :
    (∃ marked, machine.heap.proxy? handle = some { proxy with marked }) ∨
      proxy.pinned = false ∧ ¬machine.heap.Issued handle := by
  cases known : machine.heap.proxy? handle with
  | none => exact .inr (scatters.fresh handle proxy known resolved).2
  | some old =>
    obtain ⟨marked, named⟩ := scatters.proxies handle old known
    obtain rfl := Option.some.inj (resolved.symm.trans named)
    exact .inl ⟨old.marked, rfl⟩

/-- Where whatever was reached had been handed out, garbage adds nothing to what is reached: a
parent that is reached had been handed out, and so is no
garbage. -/
theorem reaches (scatters : machine.Scatters after) {scope scope' : Scope}
    (roots : ∀ category handle, scope' category handle → scope category handle)
    (accounted : ∀ handle, machine.collector.Reaches scope unheld handle →
      machine.heap.Issued handle) {handle : Handle}
    (reached : after.collector.Reaches scope' unheld handle) :
    machine.collector.Reaches scope unheld handle := by
  induction reached with
  | start begins =>
    rcases begins with ⟨category, root⟩ | ⟨proxy, resolved, pinned⟩ | none
    · exact .start (.inl ⟨category, roots category _ root⟩)
    · rcases scatters.origin resolved with ⟨marked, known⟩ | ⟨loose, _⟩
      · exact .start (.inr (.inl ⟨_, known, pinned⟩))
      · rw [loose] at pinned
        cases pinned
    · exact none.elim
  | child _ resolved listed hypothesis =>
    rcases scatters.origin resolved with ⟨marked, known⟩ | ⟨_, unissued⟩
    · exact .child hypothesis known listed
    · exact absurd (accounted _ hypothesis) unissued

end Scatters

/-- A report is no garbage. -/
theorem scatters_note (machine : Machine) (event : Event) :
    machine.Scatters (machine.note event) :=
  { Scatters.refl machine with rest := rfl }

/-- Allocating a proxy without a pin leaves it as garbage until it is stored. -/
theorem scatters_allocate (orderly : machine.collector.Orderly) (cell : Cell) :
    machine.Scatters (machine.allocate cell false).2 := by
  have unissued := machine.collector.heap.not_issued_allocate cell false orderly.lawful.vacant
  refine ⟨?_, ?_, ?_, fun handle issued => orderly.issued_allocate cell false (.inr issued)⟩
  · have collector := machine.collector.rest_allocate cell false
    exact congrArg (fun collector => { machine with collector }) collector
  · intro handle proxy resolved
    obtain ⟨marked, _, named⟩ := orderly.kept_allocate cell false resolved
    exact ⟨marked, named⟩
  · intro handle proxy absent resolved
    obtain ⟨_, ⟨rfl, placed⟩ | before⟩ := orderly.cases_allocate cell false resolved
    · exact ⟨congrArg Proxy.residence placed, congrArg Proxy.pinned placed, unissued⟩
    · exact absurd (absent.symm.trans before) (by simp)

/-- The object of an instance for which there is no room is garbage. -/
theorem scatters_withScrap (orderly : machine.collector.Orderly) (object : Object) :
    machine.Scatters (machine.withScrap object) := by
  unfold withScrap
  split
  · exact scatters_allocate orderly (.object object)
  · exact .refl machine

/-- Allocating an object with its value leaves both as garbage until the value is stored. -/
theorem scatters_newInstance (orderly : machine.collector.Orderly) (object : Object) :
    machine.Scatters (machine.newInstance object false).2 := by
  have first := scatters_allocate orderly (.object object)
  have fine : (machine.allocate (.object object) false).2.collector.Orderly :=
    orderly.allocate (.object object) false
  exact first.trans (scatters_allocate fine _)

end Machine

end ScriptVm
