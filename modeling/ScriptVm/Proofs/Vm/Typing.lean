import ScriptVm.Proofs.Execution.Edits
import ScriptVm.Proofs.Vm.Account
import ScriptVm.Proofs.Vm.Exceptions

/-!
# Kinds of members along runs

A member is checked only when it is set. That it goes on holding a value of its kind rests on what
every call does to the heap: a call that lets the collector work takes no handle back unless the
generation of a slot starts over, and every other call edits the heap.
-/
namespace ScriptVm

/-- The call is proper, and if it lets the collector work, no slot falls to an earlier
generation. -/
structure Call.Lasting (vm : Vm) (call : Call) : Prop where
  /-- It is proper. -/
  proper : call.Proper vm
  /-- No slot falls to an earlier generation. -/
  matures : call.collects = true → vm.machine.heap.Matures (vm.perform call).machine.heap

/-- The work of the collector keeps a heap typed as long as no slot falls to an earlier
generation. -/
theorem Collector.Works.typed {roots : RootSet} {collector after : Collector}
    (works : Works roots collector after) (orderly : collector.Orderly)
    (matures : collector.heap.Matures after.heap) (typed : collector.heap.Typed) :
    after.heap.Typed := by
  have origin : ∀ handle proxy, after.heap.proxy? handle = some proxy →
      ∃ old, collector.heap.proxy? handle = some old ∧ proxy.cell = old.cell := by
    intro handle proxy resolved
    obtain ⟨old, known, cell, _⟩ := works.proxies resolved
    exact ⟨old, known, cell.symm⟩
  have settles : collector.heap.Settles after.heap :=
    ⟨fun _ issued => issued.matures (works.ages orderly) matures,
      fun handle proxy _ => kinds_of_cells origin handle proxy⟩
  exact settles.typed typed fun handle proxy resolved => .inl (origin handle proxy resolved)

namespace Vm

variable {fresh vm after : Vm} {config : Config} {id : Nat} {execution : Execution}

/-- The machine of a call that may fail. -/
theorem edits_adopt {α : Type} {work : Work Machine α} (atomic : work.Atomic vm.machine)
    (edits : ∀ machine, work.changed vm.machine = .ok machine → vm.machine.Edits machine) :
    vm.machine.Edits (vm.adopt work).machine := by
  rcases adopt_cases atomic with same | ⟨machine, done, same⟩
  · rw [same]
    exact .refl vm.machine
  · rw [same]
    exact edits machine done

/-- The machine of a call that makes something, or fails to. -/
theorem edits_made {α : Type} {work : Work Machine α} (atomic : work.Atomic vm.machine)
    (edits : ∀ made, work.result vm.machine = .ok made → vm.machine.Edits made.2) :
    vm.machine.Edits (vm.adopt work).machine := by
  refine edits_adopt atomic fun machine done => ?_
  obtain ⟨first, made⟩ := Work.result_of_changed done
  exact edits (first, machine) made

/-- The machine after work on an execution, in whatever state that leaves it. -/
theorem edits_left (id : Nat) {α : Type} {work : Work (Machine × Execution) α}
    (edits : ∀ execution, vm.machine.Edits (work.left (vm.machine, execution)).1) :
    vm.machine.Edits (vm.onExecution id work).machine := by
  unfold onExecution
  split
  · exact .refl vm.machine
  · exact edits _

/-- The machine after an execution has done something that may fail. -/
theorem edits_onExecution (id : Nat) {α : Type} {work : Work (Machine × Execution) α}
    (atomic : ∀ execution, work.Atomic (vm.machine, execution))
    (edits : ∀ execution state, work.changed (vm.machine, execution) = .ok state →
      vm.machine.Edits state.1) : vm.machine.Edits (vm.onExecution id work).machine := by
  refine edits_left id fun execution => ?_
  rcases (atomic execution).left_cases with same | done
  · rw [same]
    exact .refl vm.machine
  · exact edits execution _ done

/-- The machine when only the call stack of an execution changes, or that fails. -/
theorem edits_onFrames {α : Type} (id : Nat) (work : Work Execution α) :
    vm.machine.Edits (vm.onExecution id (.onSecond work)).machine := by
  refine edits_left id fun execution => ?_
  rw [Work.left_onSecond]
  exact .refl vm.machine

/-- Pinning and unpinning. -/
theorem edits_pinned {call : Call} (pins : call.pins = true) :
    vm.machine.Edits (vm.perform call).machine := by
  rcases pinned_perform pins with same | ⟨_, _, _, done, changed, _⟩
  · rw [same]
    exact .refl vm.machine
  · rw [changed]
    exact Machine.edits_setPinned done

/-- Every call but those that let the collector work edits the heap. -/
theorem edits_perform (standard : vm.machine.Standard) (orderly : vm.machine.collector.Orderly)
    {call : Call} (quiet : call.collects = false) :
    vm.machine.collector.Edits (vm.perform call).machine.collector := by
  cases call with
  | collectStep | collect | resetCollector => cases quiet
  | load name image => exact Machine.edits_load _ name image
  | loadContainer name bytes => exact Machine.edits_loadContainer _ name bytes
  | addNative signature parameters returns callback =>
    exact (edits_adopt (Work.atomic_addNative signature parameters returns callback)
      fun _ done => Machine.edits_addNative done).collector
  | addBuiltIn signature parameters returns callback =>
    exact (edits_adopt (Work.atomic_addBuiltIn signature parameters returns callback)
      fun _ done => Machine.edits_addFunction done).collector
  | bindNative signature callback =>
    exact (edits_adopt (Work.atomic_bindNative signature callback)
      fun _ done => Machine.edits_bindNative done).collector
  | close => exact .refl
  | createValue value plain => exact (Machine.edits_createValue _ value).collector
  | createArray length => exact (Machine.edits_createArray _ length).collector
  | createArrayOf items =>
    exact (edits_made (Work.atomic_createArrayOf items)
      fun _ done => Machine.edits_createArrayOf done).collector
  | createObject typeName =>
    exact (Machine.edits_left_newObject vm.machine typeName true).collector
  | createFunctionValue signature =>
    exact (edits_made (Work.atomic_createFunctionValue signature)
      fun _ done => Machine.edits_createFunctionValue done).collector
  | createException exception message =>
    exact (standard.edits_left_newException orderly exception message true).collector
  | createNative content => exact (Machine.edits_createNative _ content).collector
  | copy reference =>
    exact (edits_made (Work.atomic_copy reference)
      fun _ done => Machine.edits_copy done).collector
  | setPinned value pinned | global name => exact (edits_pinned rfl).collector
  | setElement reference index value =>
    exact (edits_adopt (Work.atomic_setElement reference index value)
      fun _ done => Machine.edits_putElement done).collector
  | setMember reference name value =>
    exact (edits_adopt (Work.atomic_setMember reference name value)
      fun _ done => Machine.edits_putMember done).collector
  | assignGlobal name value =>
    exact (edits_adopt (Work.atomic_assignGlobal name value)
      fun _ done => Machine.edits_assignGlobal done).collector
  | addGlobal name value =>
    exact (edits_adopt (Work.atomic_addGlobal name value)
      fun _ done => Machine.edits_addGlobal done).collector
  | createExecution =>
    rw [perform, left_createExecution]
    split <;> exact .refl
  | holdExecution id | dropExecution id => exact .refl
  | restart id _ | pushFrame id _ | popFrame id | suspend id | pop id _ =>
    exact (edits_onFrames id _).collector
  | setParameter id index value =>
    exact (edits_onExecution id (fun _ => Work.atomic_setParameter index value)
      fun _ _ => Execution.edits_setParameter).collector
  | setRegister id depth index value | setLocalValue id depth name value | push id depth value =>
    exact (edits_onExecution id (fun _ => Work.atomic_storeInFrame depth value _)
      fun _ _ => Execution.edits_storeInFrame).collector
  | raiseValue id value severity =>
    exact (edits_onExecution id (fun _ => Work.atomic_raiseValue value severity)
      fun _ _ => Execution.edits_raiseValue).collector
  | raiseException id exception message =>
    exact (edits_left id fun _ =>
      Execution.edits_raiseException standard orderly exception message).collector
  | resume id =>
    simp only [perform]
    split <;> exact .refl
  | turn id =>
    cases present : vm.execution? id with
    | none =>
      simp only [perform, present]
      exact .refl
    | some execution =>
      rw [perform_turn present]
      exact (Execution.edits_turned standard orderly).collector
  | leave id frame =>
    simp only [perform, afterRoutine]
    split <;> exact .refl

/-- A heap is typed after a call if it was before. -/
theorem typed_perform (intact : vm.Intact) (standard : vm.machine.Standard)
    (typed : vm.machine.heap.Typed) {call : Call} (lasting : call.Lasting vm) :
    (vm.perform call).machine.heap.Typed := by
  have orderly := intact.stocked.orderly
  cases collects : call.collects with
  | true =>
    exact (collected_perform collects).works.typed orderly (lasting.matures collects) typed
  | false => exact (edits_perform standard orderly collects).typed orderly typed

/-- Along every run of lasting calls heaps are typed. -/
theorem typed_of_runs (made : create config = .ok fresh) (runs : RunsBy Call.Lasting fresh vm) :
    vm.machine.heap.Typed := by
  induction runs with
  | refl =>
    rw [Machine.heap, (create_eq made).2.1]
    exact Heap.typed_empty
  | tail earlier once hypothesis =>
    obtain ⟨call, lasting, rfl⟩ := once
    have proper := runsBy_mono (fun _ _ lasting => lasting.proper) earlier
    exact typed_perform ((intact_create made).upholds_runs proper).intact
      (standard_of_runs made proper) hypothesis lasting

/-- Every member of every object holds null, a reference that does not resolve any more, or a value
of the kind that is declared for the member. -/
def Fitted (vm : Vm) : Prop :=
  ∀ reference object, vm.machine.heap.object? reference = some object →
    ∀ (index : Nat) name kind, object.schema.members[index]? = some (name, kind) →
      ∃ held, object.members[index]? = some held ∧
        (held = Ref.null ∨ vm.machine.heap.contains held.handle = false ∨
          ∃ value, vm.machine.heap.value? held = some value ∧ value.kind = kind)

/-- Whatever calls are made on a fresh virtual machine, members hold values of their kinds, as long
as no slot falls to an earlier generation. -/
theorem fitted_of_runs (made : create config = .ok fresh) (runs : RunsBy Call.Lasting fresh vm) :
    vm.Fitted := by
  intro reference object found index name kind declared
  have proper := runsBy_mono (fun _ _ lasting => lasting.proper) runs
  have orderly := ((intact_create made).upholds_runs proper).intact.stocked.orderly
  obtain ⟨proxy, resolved, cell⟩ := Heap.proxy?_of_object? found
  have apart : reference.handle ≠ Handle.null := by
    intro null
    rw [null, Machine.heap, orderly.lawful.proxy?_null] at resolved
    rw [← Option.some.inj resolved] at cell
    cases cell
  have fits := typed_of_runs made runs reference.handle proxy resolved apart
  rw [cell] at fits
  obtain ⟨held, there, admits⟩ := fits index name kind declared
  refine ⟨held, there, ?_⟩
  rcases admits with null | ⟨-, kinds⟩
  · exact .inl null
  · cases behind : vm.machine.heap.proxy? held.handle with
    | none => exact .inr (.inl (by simp [Heap.contains, behind]))
    | some other =>
      obtain ⟨phase, marked, pinned, content⟩ := other
      have known := kinds _ behind
      cases content with
      | object _ => cases known
      | value value =>
        exact .inr (.inr ⟨value, by rw [Heap.value?, behind], Option.some.inj known⟩)

/-- A call other than those that let the collector work is lasting if it passes no function. -/
theorem lasting_of_quiet (vm : Vm) {call : Call} (passes : call.entered = none)
    (quiet : call.collects = false) : call.Lasting vm :=
  ⟨proper_of_quiet vm call passes, by simp [quiet]⟩

/-- A proper call is lasting as long as no generation is the last one. -/
theorem Intact.lasting_of_young (intact : vm.Intact) {call : Call} (proper : call.Proper vm)
    (young : ∀ slot ∈ vm.machine.heap.slots, slot.generation + 1 ≠ 0) : call.Lasting vm :=
  ⟨proper, fun collects =>
    ((collected_perform collects).works.ages intact.stocked.orderly).matures young⟩

/-- A member is set, and a collection disposes of another value. -/
theorem fitted_of_runs_collecting : ∃ fresh vm, create {} = .ok fresh ∧
    RunsBy Call.Lasting fresh vm ∧ vm.machine.heap.contains ⟨4, 0⟩ = false ∧
    (vm.machine.heap.object? ⟨⟨1, 0⟩⟩).map (fun object =>
      (object.schema.members, object.members)) = some ([("member", .bool)], #[⟨3, 0⟩]) ∧
    vm.Fitted := by
  let image : Image := { objects := [⟨"Type", [⟨"member", .bool⟩]⟩] }
  let fresh : Vm := { machine := { config := {}, registry := .initial, collector := .create 32 } }
  let created := ((fresh.perform (.load "main" image)).perform (.createObject "Type")).perform
    (.createValue (.bool true) trivial)
  let stored := ((created.perform (.createValue (.bool false) trivial)).perform
    (.setPinned ⟨4, 0⟩ false)).perform (.setMember ⟨2, 0⟩ "member" ⟨3, 0⟩)
  have made : create {} = .ok fresh := rfl
  have young : ∀ slot ∈ stored.machine.heap.slots, slot.generation + 1 ≠ 0 := by decide +kernel
  have runs : RunsBy Call.Lasting fresh (stored.perform .collect) := by
    have begun : RunsBy Call.Lasting fresh created :=
      .tail (.tail (.single ⟨.load "main" image, lasting_of_quiet _ rfl rfl, rfl⟩)
        ⟨.createObject "Type", lasting_of_quiet _ rfl rfl, rfl⟩)
        ⟨.createValue (.bool true) trivial, lasting_of_quiet _ rfl rfl, rfl⟩
    have kept : RunsBy Call.Lasting fresh stored :=
      .tail (.tail (begun.tail
        ⟨.createValue (.bool false) trivial, lasting_of_quiet _ rfl rfl, rfl⟩)
        ⟨.setPinned ⟨4, 0⟩ false, lasting_of_quiet _ rfl rfl, rfl⟩)
        ⟨.setMember ⟨2, 0⟩ "member" ⟨3, 0⟩, lasting_of_quiet _ rfl rfl, rfl⟩
    have proper := runsBy_mono (fun _ _ lasting => lasting.proper) kept
    have intact := ((intact_create made).upholds_runs proper).intact
    exact kept.tail ⟨.collect, intact.lasting_of_young (proper_of_quiet _ _ rfl) young, rfl⟩
  exact ⟨fresh, _, made, runs, by decide +kernel, by decide +kernel, fitted_of_runs made runs⟩

end Vm

end ScriptVm
