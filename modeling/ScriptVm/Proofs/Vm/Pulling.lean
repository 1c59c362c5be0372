import ScriptVm.Proofs.Step.Faults
import ScriptVm.Proofs.Vm.Frames

/-!
# Pulling

Pulling a reference is loading it and then putting null where it was. Both fault in the same cases
and in the same way, before anything is changed. When the load goes on, the place that it has read
still holds the reference, so that null can be written there, whatever register the load has
overwritten.
-/
namespace ScriptVm

/-- Marking a reference and writing a register move nothing that a place stands for. -/
theorem Place.location?_shade (place : Place) (scene : Scene) (stored : Ref)
    (registers : Vector Ref registerCount) :
    place.location? { scene with
      machine := scene.machine.shade stored, frame := { scene.frame with registers } } =
      place.location? scene := by
  have darkens := scene.machine.collector.darkens_shade stored.handle
  have values : ∀ reference, (scene.machine.shade stored).heap.value? reference =
      scene.machine.heap.value? reference := darkens.value?
  have objects : ∀ reference, (scene.machine.shade stored).heap.object? reference =
      scene.machine.heap.object? reference := darkens.object?
  cases place with
  | global name | «local» name | parameter index => rfl
  | member target name => simp only [location?, values, objects]
  | element target index => simp only [location?, values]

namespace Instruction

open Step

variable {scene : Scene}

/-- Loading from a place copies what the place holds into a register, or it faults at once. -/
theorem run_load_cases (scene : Scene) (place : Place) (target : UInt32) :
    (∃ fault, (load place target).run scene = .error fault scene) ∨
      ∃ value registers, place.Holds scene value ∧
        (load place target).run scene = .ok value { scene with
          machine := scene.machine.shade value, frame := { scene.frame with registers } } := by
  unfold load
  rw [run_bind]
  rcases Place.reads_read place scene with ⟨value, goes, _⟩ | ⟨fault, stops⟩
  · rw [goes]
    dsimp only
    rw [run_bind, run_setRegister, Activation.setRegister]
    by_cases inside : target.toNat < registerCount
    · rw [if_pos inside]
      exact .inr ⟨value, _, Place.holds_of_read goes, rfl⟩
    · rw [if_neg inside]
      exact .inl ⟨_, rfl⟩
  · rw [stops]
    exact .inl ⟨fault, rfl⟩

/-- Loading and pulling with the same operands: both fault in the same way at once, or both go on,
and pulling puts null where the loaded reference was. -/
theorem run_pull_cases (lawful : scene.machine.heap.Lawful) (site : Site) (target : UInt32)
    (operands : Operands UInt32 site.shapes) :
    (∃ fault, (execute ⟨.load site, target, operands⟩).run scene = .error fault scene ∧
      (execute ⟨.pull site, target, operands⟩).run scene = .error fault scene) ∨
    ∃ place location value loaded, (Place.resolve site operands).run scene = .ok place scene ∧
      place.location? scene = some location ∧ loaded.at? location = some value ∧
      (execute ⟨.load site, target, operands⟩).run scene = .ok .proceed loaded ∧
      (place.write Ref.null).run loaded = .ok () (loaded.put location Ref.null) ∧
      (execute ⟨.pull site, target, operands⟩).run scene =
        .ok .proceed (loaded.put location Ref.null) := by
  have loads : execute ⟨.load site, target, operands⟩ =
      Place.resolve site operands >>= fun place =>
        Functor.discard (load place target) >>= fun _ => pure .proceed := rfl
  have pulls : execute ⟨.pull site, target, operands⟩ =
      Place.resolve site operands >>= fun place =>
        Functor.discard (load place target) >>= fun _ =>
          place.write Ref.null >>= fun _ => pure .proceed := rfl
  rw [loads, pulls, run_bind, run_bind]
  rcases Place.reads_resolve site operands scene with ⟨place, resolved, _⟩ | ⟨fault, stops⟩
  · rw [resolved]
    dsimp only
    rw [run_discard_bind, run_discard_bind]
    rcases run_load_cases scene place target with ⟨fault, stops⟩ | ⟨value, registers, holds, goes⟩
    · rw [stops]
      exact .inl ⟨fault, rfl, rfl⟩
    · rw [goes]
      let loaded : Scene := { scene with
        machine := scene.machine.shade value, frame := { scene.frame with registers } }
      have held : place.Holds loaded value := holds.shade value registers
      have kept : loaded.machine.heap.Lawful :=
        (scene.machine.collector.darkens_shade value.handle).lawful lawful
      obtain ⟨location, stands, there⟩ := held.exists_location
      have written := held.run_write kept stands
      rw [Place.location?_shade] at stands
      refine .inr ⟨place, location, value, loaded, rfl, stands, there, rfl, written, ?_⟩
      have rest : (place.write Ref.null >>= fun _ => pure Outcome.proceed).run loaded =
          .ok .proceed (loaded.put location Ref.null) := by
        rw [run_bind, written]
        rfl
      exact rest
  · rw [stops]
    exact .inl ⟨fault, rfl, rfl⟩

end Instruction

namespace Vm

open Instruction

/-- Pulling is loading and then clearing the source, in whatever state a virtual machine is. Pulling
faults when loading does, in the same way and before anything is changed. Otherwise null goes to the
location that was addressed before the load, and to no other. -/
theorem pull_of_runs {config : Config} {fresh vm : Vm} (made : create config = .ok fresh)
    (runs : RunsBy Call.Proper fresh vm) {scene : Scene}
    (within : scene.machine.collector = vm.machine.collector) (site : Site) (target : UInt32)
    (operands : Operands UInt32 site.shapes) :
    (∀ fault after, (execute ⟨.pull site, target, operands⟩).run scene = .error fault after ↔
      (execute ⟨.load site, target, operands⟩).run scene = .error fault after) ∧
    (∀ fault after, (execute ⟨.pull site, target, operands⟩).run scene = .error fault after →
      after = scene) ∧
    ∀ outcome loaded,
      (execute ⟨.load site, target, operands⟩).run scene = .ok outcome loaded →
      ∃ place location, (Place.resolve site operands).run scene = .ok place scene ∧
        place.location? scene = some location ∧
        (place.write Ref.null).run loaded = .ok () (loaded.put location Ref.null) ∧
        (execute ⟨.pull site, target, operands⟩).run scene =
          .ok outcome (loaded.put location Ref.null) ∧
        ∀ other, (loaded.put location Ref.null).at? other =
          if other = location then some Ref.null else loaded.at? other := by
  have lawful : scene.machine.heap.Lawful := by
    rw [Machine.heap, within]
    exact ((intact_create made).upholds_runs runs).intact.stocked.orderly.lawful
  rcases run_pull_cases lawful site target operands with ⟨fault, loads, pulls⟩ |
    ⟨place, location, value, cleared, resolved, stands, held, loads, written, pulls⟩
  · rw [loads, pulls]
    refine ⟨fun _ _ => Iff.rfl, ?_, ?_⟩
    · intro fault after stops
      cases stops
      rfl
    · intro outcome loaded goes
      cases goes
  · rw [loads, pulls]
    refine ⟨?_, ?_, ?_⟩
    · intro fault after
      constructor <;> intro stops <;> cases stops
    · intro fault after stops
      cases stops
    · intro outcome loaded goes
      cases goes
      exact ⟨place, location, resolved, stands, written, rfl, Scene.at?_put held Ref.null⟩

/-- While roots are being marked, the element of an array that contains itself is pulled into the
register that holds the array. -/
theorem pull_of_runs_itself : ∃ (fresh vm : Vm) (scene loaded : Scene) (array : Ref),
    create {} = .ok fresh ∧ RunsBy Call.Proper fresh vm ∧
    vm.machine.collector.cycle.marking = true ∧
    scene.machine.collector = vm.machine.collector ∧
    scene.at? (.register 0) = some array ∧ scene.at? (.part array.handle 0) = some array ∧
    (execute ⟨.load .element, 0, 0, 0, ()⟩).run scene = .ok .proceed loaded ∧
    (execute ⟨.pull .element, 0, 0, 0, ()⟩).run scene =
      .ok .proceed (loaded.put (.part array.handle 0) Ref.null) := by
  let array : Ref := ⟨⟨1, 0⟩⟩
  let fresh : Vm := { machine := { config := {}, registry := .initial, collector := .create 32 } }
  have made : create {} = .ok fresh := rfl
  obtain ⟨vm, runs, marking, content⟩ : ∃ vm : Vm, RunsBy Call.Proper fresh vm ∧
      vm.machine.collector.cycle.marking = true ∧
      vm.machine.heap.value? array = some (.array #[array]) := by
    let knotted := (fresh.perform (.createArrayOf #[Ref.null])).perform (.setElement array 0 array)
    have runsKnotted : RunsBy Call.Proper fresh knotted :=
      .tail (.single ⟨.createArrayOf #[Ref.null], proper_of_quiet _ _ rfl, rfl⟩)
        ⟨.setElement array 0 array, proper_of_quiet _ _ rfl, rfl⟩
    let linked := knotted.perform .collectStep
    have runsLinked : RunsBy Call.Proper fresh linked :=
      runsKnotted.tail ⟨.collectStep, proper_of_quiet _ _ rfl, rfl⟩
    let cleared := linked.perform .collectStep
    have runsCleared : RunsBy Call.Proper fresh cleared :=
      runsLinked.tail ⟨.collectStep, proper_of_quiet _ _ rfl, rfl⟩
    exact ⟨cleared.perform .collectStep,
      runsCleared.tail ⟨.collectStep, proper_of_quiet _ _ rfl, rfl⟩, by decide +kernel,
      by decide +kernel⟩
  let script : ScriptFunction := ⟨"main", 0, 0, default, ⟨0, 0, [], []⟩⟩
  let frame : Activation := { Activation.enter script with
    registers := Vector.replicate registerCount array }
  let scene : Scene := ⟨vm.machine, Vector.replicate parameterCount Ref.null, frame⟩
  have held : scene.at? (.register 0) = some array := rfl
  have taken : (#[array])[0]? = some array := rfl
  have part : scene.at? (.part array.handle 0) = some array := Heap.part?_of_array content taken
  have resolved :
      (Place.resolve .element (0, 0, ())).run scene = .ok (.element array 0) scene := rfl
  have aimed : (Place.element array 0).location? scene = some (.part array.handle 0) :=
    Place.location?_element content
  have read : (Place.element array 0).read.run scene = .ok array scene := by
    have itself : scene.machine.heap.value? array = some (.array #[array]) := content
    have found : (Step.value array).run scene = .ok (.array #[array]) scene := by
      rw [Step.run_value, Step.run_found, itself]
    rw [Place.read, Step.run_bind, found]
    rfl
  let loaded : Scene := { scene with
    machine := scene.machine.shade array
    frame := { frame with registers := frame.registers.setIfInBounds 0 array } }
  have copied : (load (.element array 0) 0).run scene = .ok array loaded := by
    rw [load, Step.run_bind, read]
    rfl
  have loads : (execute ⟨.load .element, 0, 0, 0, ()⟩).run scene = .ok .proceed loaded := by
    show (Place.resolve .element (0, 0, ()) >>= fun place =>
      Functor.discard (load place 0) >>= fun _ => pure Outcome.proceed).run scene = _
    rw [Step.run_bind, resolved]
    dsimp only
    rw [Step.run_discard_bind, copied]
    rfl
  obtain ⟨place, location, found, stands, _, pulls, _⟩ :=
    (pull_of_runs made runs (show scene.machine.collector = vm.machine.collector from rfl)
      .element 0 (0, 0, ())).2.2 .proceed loaded loads
  cases resolved.symm.trans found
  obtain rfl := Option.some.inj (aimed.symm.trans stands)
  exact ⟨fresh, vm, scene, loaded, array, made, runs, marking, rfl, held, part, loads, pulls⟩

end Vm

end ScriptVm
