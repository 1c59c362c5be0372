import ScriptVm.Proofs.Execution.Keeping
import ScriptVm.Proofs.Machine.Registry
import ScriptVm.Proofs.Vm.Safety

/-!
# Call stacks along runs

Whatever calls are made, all executions stay intact, and each goes on from where it was: frames
leave its call stack at the top and come onto it with new numbers. An execution under a number is
never replaced by another. So a callback that comes back ends the very call that it was made for.
-/
namespace ScriptVm

/-- The call passes no function but one that was made or is known. -/
def Call.Proper (vm : Vm) (call : Call) : Prop :=
  ∀ function, call.entered = some function → function.Made ∨ vm.machine.registry.Offers function

namespace Vm

variable {vm middle after : Vm}

/-- All executions are intact, and they are told apart by their numbers. -/
structure Threaded (vm : Vm) : Prop where
  /-- Every execution is intact. -/
  executions : ∀ entry ∈ vm.executions, entry.execution.Intact
  /-- Numbers are distinct. -/
  ids : (vm.executions.map HeldExecution.id).Nodup
  /-- Numbers are issued upward. -/
  created : ∀ entry ∈ vm.executions, entry.id < vm.created

/-- Executions go on: each that was there before goes on from where it was. -/
structure Follows (vm after : Vm) : Prop where
  /-- Numbers are issued upward. -/
  created : vm.created ≤ after.created
  /-- An execution with an old number is the old execution. -/
  executions : ∀ entry ∈ after.executions, entry.id < vm.created →
    ∃ old ∈ vm.executions, old.id = entry.id ∧ old.execution.Follows entry.execution

/-- One thing happens after the other. -/
theorem Follows.trans (first : vm.Follows middle) (second : middle.Follows after) :
    vm.Follows after := by
  refine ⟨Nat.le_trans first.created second.created, ?_⟩
  intro entry member known
  obtain ⟨between, inside, same, goes⟩ :=
    second.executions entry member (Nat.lt_of_lt_of_le known first.created)
  obtain ⟨old, before, same', goes'⟩ := first.executions between inside (same ▸ known)
  exact ⟨old, before, same'.trans same, goes'.trans goes⟩

/-- A virtual machine comes from another, and its executions are intact. -/
structure Continues (vm after : Vm) : Prop where
  /-- The executions are intact. -/
  threaded : after.Threaded
  /-- They go on. -/
  follows : vm.Follows after

namespace Threaded

/-- The executions stay. -/
theorem continues_same (threaded : vm.Threaded) (executions : after.executions = vm.executions)
    (created : after.created = vm.created) : vm.Continues after := by
  refine ⟨⟨?_, ?_, ?_⟩, Nat.le_of_eq created.symm, ?_⟩
  · rw [executions]
    exact threaded.executions
  · rw [executions]
    exact threaded.ids
  · rw [executions, created]
    exact threaded.created
  · intro entry member _
    exact ⟨entry, executions ▸ member, rfl, .refl _⟩

/-- The entry with a number is the one that is found. -/
theorem execution?_of_mem (threaded : vm.Threaded) {entry : HeldExecution}
    (member : entry ∈ vm.executions) : vm.execution? entry.id = some entry.execution := by
  unfold execution?
  cases found : vm.executions.find? (fun held => decide (held.id = entry.id)) with
  | none => simpa using List.find?_eq_none.mp found entry member
  | some other =>
    have same : other.id = entry.id := by simpa using List.find?_some found
    have inside := List.mem_of_find?_eq_some found
    rw [List.inj_on_of_nodup_map threaded.ids inside member same]
    rfl

/-- Replacing an execution by itself changes nothing. -/
theorem setExecution_self (threaded : vm.Threaded) {id : Nat} {execution : Execution}
    (present : vm.execution? id = some execution) : vm.setExecution id execution = vm := by
  have entries : (vm.setExecution id execution).executions = vm.executions := by
    refine (List.map_congr_left fun held member => ?_).trans (List.map_id _)
    split
    · rename_i here
      have known := threaded.execution?_of_mem member
      rw [here, present] at known
      rw [Option.some.inj known]
      rfl
    · rfl
  exact congrArg (fun executions => { vm with executions }) entries

/-- Executions go on when each is an old one that goes on. -/
theorem continues_of_entries (threaded : vm.Threaded)
    (ids : (after.executions.map HeldExecution.id).Nodup) (created : after.created = vm.created)
    (entries : ∀ entry ∈ after.executions, ∃ old ∈ vm.executions,
      old.id = entry.id ∧ old.execution.Continues entry.execution) : vm.Continues after := by
  refine ⟨⟨?_, ids, ?_⟩, Nat.le_of_eq created.symm, ?_⟩
  · intro entry member
    obtain ⟨_, _, _, goes⟩ := entries entry member
    exact goes.intact
  · intro entry member
    obtain ⟨old, inside, same, _⟩ := entries entry member
    rw [← same, created]
    exact threaded.created old inside
  · intro entry member _
    obtain ⟨old, inside, same, goes⟩ := entries entry member
    exact ⟨old, inside, same, goes.follows⟩

/-- An execution goes on, and the others stay. -/
theorem continues_put (threaded : vm.Threaded) {id : Nat} {execution : Execution}
    (present : vm.execution? id = some execution) {state : Machine × Execution}
    (continues : execution.Continues state.2) : vm.Continues (vm.put id state) := by
  have ids : (vm.put id state).executions.map HeldExecution.id =
      vm.executions.map HeldExecution.id := by
    simp only [put, setExecution, updateExecution, List.map_map]
    apply List.map_congr_left
    intro held _
    simp only [Function.comp_apply]
    split <;> rfl
  refine threaded.continues_of_entries (ids ▸ threaded.ids) rfl fun entry member => ?_
  obtain ⟨old, inside, rfl⟩ := List.mem_map.mp member
  refine ⟨old, inside, ?_⟩
  split
  · rename_i here
    have same := threaded.execution?_of_mem inside
    rw [here, present] at same
    rw [← Option.some.inj same]
    exact ⟨rfl, continues⟩
  · exact ⟨rfl, .refl (threaded.executions old inside)⟩

/-- An execution is held more or less often, and entries are dropped. -/
theorem continues_held (threaded : vm.Threaded) (id : Nat) (holders : Nat → Nat)
    {executions : List HeldExecution}
    (some : executions.Sublist (vm.updateExecution id fun held =>
      { held with holders := holders held.holders }).executions) :
    vm.Continues { vm with executions } := by
  have ids : (executions.map HeldExecution.id).Sublist (vm.executions.map HeldExecution.id) := by
    have updated := some.map HeldExecution.id
    simp only [updateExecution, List.map_map] at updated
    convert updated using 1
    apply List.map_congr_left
    intro held _
    simp only [Function.comp_apply]
    split <;> rfl
  refine threaded.continues_of_entries (threaded.ids.sublist ids) rfl fun entry member => ?_
  obtain ⟨old, inside, rfl⟩ := List.mem_map.mp (some.subset member)
  refine ⟨old, inside, ?_⟩
  split <;> exact ⟨rfl, .refl (threaded.executions old inside)⟩

/-- A new execution gets a new number. -/
theorem continues_new (threaded : vm.Threaded) :
    vm.Continues { vm with
      executions := vm.executions ++ [⟨vm.created, 1, {}⟩], created := vm.created + 1 } := by
  refine ⟨⟨?_, ?_, ?_⟩, Nat.le_succ _, ?_⟩
  · intro entry member
    rcases List.mem_append.mp member with earlier | fresh
    · exact threaded.executions entry earlier
    · rw [List.mem_singleton.mp fresh]
      exact Execution.intact_new
  · rw [List.map_append, List.nodup_append]
    refine ⟨threaded.ids, by simp, ?_⟩
    intro number earlier other fresh
    obtain ⟨old, inside, rfl⟩ := List.mem_map.mp earlier
    have less := threaded.created old inside
    have last : other = vm.created := by simpa using fresh
    omega
  · intro entry member
    rcases List.mem_append.mp member with earlier | fresh
    · exact Nat.lt_succ_of_lt (threaded.created entry earlier)
    · rw [List.mem_singleton.mp fresh]
      exact Nat.lt_succ_self _
  · intro entry member known
    rcases List.mem_append.mp member with earlier | fresh
    · exact ⟨entry, earlier, rfl, .refl _⟩
    · rw [List.mem_singleton.mp fresh] at known
      exact absurd known (Nat.lt_irrefl _)

end Threaded

/-- All functions lie inside their modules, and all executions are intact. -/
structure Intact (vm : Vm) : Prop where
  /-- The functions. -/
  stocked : vm.machine.Stocked Function.Enclosed
  /-- The executions. -/
  threaded : vm.Threaded

/-- A virtual machine comes from another: what is known by name is retained, and the executions go
on. -/
structure Upholds (vm after : Vm) : Prop where
  /-- What is known by name. -/
  machine : vm.machine.Retains after.machine
  /-- The executions. -/
  continues : vm.Continues after

namespace Upholds

/-- The virtual machine after a call is intact. -/
theorem intact (upholds : vm.Upholds after) : after.Intact :=
  ⟨upholds.machine.stocked, upholds.continues.threaded⟩

/-- One thing happens after the other. -/
theorem trans (first : vm.Upholds middle) (second : middle.Upholds after) : vm.Upholds after :=
  ⟨first.machine.trans second.machine, second.continues.threaded,
    first.continues.follows.trans second.continues.follows⟩

end Upholds

namespace Intact

/-- The machine does something. -/
theorem upholds_machine (intact : vm.Intact) {machine : Machine}
    (retains : vm.machine.Retains machine) : vm.Upholds { vm with machine } :=
  ⟨retains, intact.threaded.continues_same rfl rfl⟩

/-- Nothing happens. -/
theorem upholds_refl (intact : vm.Intact) : vm.Upholds vm :=
  intact.upholds_machine ⟨.refl, intact.stocked⟩

/-- The machine does something that may fail. -/
theorem upholds_adopt (intact : vm.Intact) {α : Type} {work : Work Machine α}
    (atomic : work.Atomic vm.machine)
    (retains : ∀ machine, work.changed vm.machine = .ok machine → vm.machine.Retains machine) :
    vm.Upholds (vm.adopt work) := by
  rcases adopt_cases atomic with same | ⟨machine, done, same⟩
  · rw [same]
    exact intact.upholds_refl
  · rw [same]
    exact intact.upholds_machine (retains machine done)

/-- The machine makes something, or fails to. -/
theorem upholds_made (intact : vm.Intact) {α : Type} {work : Work Machine α}
    (atomic : work.Atomic vm.machine) (keeps : ∀ made, work.result vm.machine = .ok made →
      vm.machine.Keeps Function.Enclosed made.2) : vm.Upholds (vm.adopt work) := by
  refine intact.upholds_adopt atomic fun machine done => ?_
  obtain ⟨first, made⟩ := Work.result_of_changed done
  exact (keeps (first, machine) made).retains

/-- The execution with a number is intact. -/
theorem execution (intact : vm.Intact) {id : Nat} {execution : Execution}
    (present : vm.execution? id = some execution) : execution.Intact := by
  obtain ⟨entry, found, rfl⟩ := Option.map_eq_some_iff.mp present
  exact intact.threaded.executions entry (List.mem_of_find?_eq_some found)

/-- An execution does something. -/
theorem upholds_put (intact : vm.Intact) {id : Nat} {execution : Execution}
    (present : vm.execution? id = some execution) {state : Machine × Execution}
    (keeps : Execution.Keeps (vm.machine, execution) state) : vm.Upholds (vm.put id state) :=
  ⟨keeps.machine.retains, intact.threaded.continues_put present keeps.execution⟩

/-- An execution keeps what it should in whatever state work leaves it. -/
theorem upholds_left (intact : vm.Intact) {id : Nat} {α : Type}
    {work : Work (Machine × Execution) α}
    (keeps : ∀ execution, execution.Intact →
      Execution.Keeps (vm.machine, execution) (work.left (vm.machine, execution))) :
    vm.Upholds (vm.onExecution id work) := by
  unfold onExecution
  split
  · exact intact.upholds_refl
  · rename_i execution present
    exact intact.upholds_put present (keeps execution (intact.execution present))

/-- An execution does something that may fail. -/
theorem upholds_onExecution (intact : vm.Intact) {id : Nat} {α : Type}
    {work : Work (Machine × Execution) α}
    (atomic : ∀ execution, work.Atomic (vm.machine, execution))
    (keeps : ∀ execution state, execution.Intact →
      work.changed (vm.machine, execution) = .ok state →
      Execution.Keeps (vm.machine, execution) state) : vm.Upholds (vm.onExecution id work) := by
  refine intact.upholds_left fun execution fine => ?_
  rcases (atomic execution).left_cases with same | done
  · rw [same]
    exact Execution.keeps_refl intact.stocked fine
  · exact keeps execution _ fine done

/-- The call stack of an execution changes, or that fails. -/
theorem upholds_onFrames (intact : vm.Intact) {id : Nat} {α : Type} {work : Work Execution α}
    (atomic : ∀ execution, work.Atomic execution)
    (continues : ∀ execution changed, execution.Intact → work.changed execution = .ok changed →
      execution.Continues changed) :
    vm.Upholds (vm.onExecution id (.onSecond work)) := by
  refine intact.upholds_onExecution (fun execution => Work.atomic_onSecond (atomic execution)) ?_
  intro execution state fine done
  obtain ⟨changed, worked, rfl⟩ := Work.changed_onSecond done
  exact ⟨.refl intact.stocked, continues execution changed fine worked⟩

/-- An execution is replaced by what it goes on to. -/
theorem upholds_setExecution (intact : vm.Intact) {id : Nat} {execution changed : Execution}
    (present : vm.execution? id = some execution) (continues : execution.Continues changed) :
    vm.Upholds (vm.setExecution id changed) := by
  have keeps : Execution.Keeps (vm.machine, execution) (vm.machine, changed) :=
    ⟨.refl intact.stocked, continues⟩
  exact intact.upholds_put present keeps

/-- A host call ends. -/
theorem upholds_afterRoutine (intact : vm.Intact) (id frame : Nat) :
    vm.Upholds (vm.afterRoutine id frame) := by
  unfold afterRoutine
  split
  · rename_i execution present
    have returned := (intact.execution present).continues_returnFrom frame
    exact intact.upholds_setExecution present (returned.trans returned.intact.continues_settle)
  · exact intact.upholds_refl

/-- One turn of an execution, whose callbacks do nothing. -/
theorem upholds_turn (intact : vm.Intact) {id : Nat} {execution : Execution}
    (present : vm.execution? id = some execution) :
    vm.Upholds (turn idle id execution (vm, ())).1 := by
  have fine := intact.execution present
  have settled : ∀ {state : Machine × Execution}, Execution.Keeps (vm.machine, execution) state →
      Execution.Keeps (vm.machine, execution) (state.1, state.2.settle) :=
    fun keeps => ⟨keeps.machine, keeps.execution.trans keeps.execution.intact.continues_settle⟩
  unfold turn
  dsimp only
  split
  · exact intact.upholds_setExecution present fine.continues_settle
  · rename_i frame function _ _
    unfold callHost
    dsimp only
    split
    · rw [act_eq_put]
      exact intact.upholds_put present (settled (Execution.keeps_raiseFault intact.stocked fine _))
    · exact intact.upholds_afterRoutine id frame
    · rename_i routine _ _
      rw [act_eq_put]
      have finished : Execution.Keeps (vm.machine, execution) (execution.finishRoutine vm.machine
          (execution.routineResult vm.machine routine)) :=
        Execution.keeps_finishRoutine intact.stocked fine
          fun _ computed => Execution.routineResult_plain computed
      have kept := intact.upholds_put present finished
      exact kept.trans (kept.intact.upholds_afterRoutine id frame)
  · rename_i number activation _ stack
    rw [act_eq_put]
    exact intact.upholds_put present
      (settled (Execution.keeps_dispatch intact.stocked fine stack))

/-- The work of the collector. -/
theorem upholds_collected (intact : vm.Intact) {call : Call} (collects : call.collects = true) :
    vm.Upholds (vm.perform call) := by
  have collected : Collected vm (vm.perform call) := collected_perform collects
  have created : (vm.perform call).created = vm.created := by
    cases call with
    | collectStep =>
      simp only [perform, collectStep, reportCollection]
      split
      · split <;> rfl
      · rfl
    | collect =>
      simp only [perform, collect, reportCollection]
      split <;> rfl
    | resetCollector => rfl
    | _ => simp [Call.collects] at collects
  refine ⟨?_, intact.threaded.continues_same collected.executions created⟩
  have kept : vm.machine.Keeps Function.Enclosed (vm.perform call).machine := by
    refine intact.stocked.keeps (collected.works.orderly intact.stocked.orderly)
      (by rw [collected.registry]) (by rw [collected.registry]) ?_
    intro handle proxy function resolved holds
    obtain ⟨old, known, cell, _⟩ := collected.works.proxies resolved
    exact intact.stocked.cells handle old function known (cell.trans holds)
  exact kept.retains

/-- Pinning and unpinning. -/
theorem upholds_pinned (intact : vm.Intact) {call : Call} (pins : call.pins = true) :
    vm.Upholds (vm.perform call) := by
  rcases pinned_perform pins with same | ⟨_, _, _, done, changed, _⟩
  · rw [same]
    exact intact.upholds_refl
  · rw [changed]
    exact intact.upholds_machine (intact.stocked.keeps_setPinned done).retains

/-- A proper call passes a function that lies inside its module. -/
theorem enclosed (intact : vm.Intact) {call : Call} (proper : call.Proper vm) {function : Function}
    (passes : call.entered = some function) : function.Enclosed := by
  rcases proper function passes with made | known | ⟨script, known, rfl⟩
  · exact made.enclosed
  · exact intact.stocked.functions function known
  · exact intact.stocked.initializers script known

/-- Every proper call retains what is known by name, and the executions go on. -/
theorem upholds_perform (intact : vm.Intact) {call : Call} (proper : call.Proper vm) :
    vm.Upholds (vm.perform call) := by
  have stocked := intact.stocked
  have passed : ∀ function, call.entered = some function → function.Enclosed :=
    fun _ => intact.enclosed proper
  cases call with
  | collectStep | collect | resetCollector => exact intact.upholds_collected rfl
  | setPinned value pinned | global name => exact intact.upholds_pinned rfl
  | load name image => exact intact.upholds_machine (Machine.retains_load stocked name image)
  | loadContainer name bytes =>
    exact intact.upholds_machine (Machine.retains_loadContainer stocked name bytes)
  | addNative signature parameters returns callback =>
    exact intact.upholds_adopt (Work.atomic_addNative signature parameters returns callback)
      fun _ done => Machine.retains_addNative stocked done
  | addBuiltIn signature parameters returns callback =>
    exact intact.upholds_adopt (Work.atomic_addBuiltIn signature parameters returns callback)
      fun _ done => Machine.retains_addFunction stocked rfl done
  | bindNative signature callback =>
    exact intact.upholds_adopt (Work.atomic_bindNative signature callback)
      fun _ done => Machine.retains_bindNative stocked done
  | close =>
    have closed : vm.machine.Keeps Function.Enclosed vm.machine.close := stocked.keeps_same rfl rfl
    exact intact.upholds_machine closed.retains
  | createValue value plain =>
    exact intact.upholds_machine (stocked.keeps_createValue plain).retains
  | createArray length => exact intact.upholds_machine (stocked.keeps_createArray length).retains
  | createArrayOf items =>
    exact intact.upholds_made (Work.atomic_createArrayOf items)
      fun _ done => stocked.keeps_createArrayOf done
  | createObject typeName =>
    exact intact.upholds_machine (stocked.keeps_left_newObject typeName true).retains
  | createFunctionValue signature =>
    exact intact.upholds_made (Work.atomic_createFunctionValue signature)
      fun _ done => stocked.keeps_createFunctionValue done
  | createException exception message =>
    exact intact.upholds_machine (stocked.keeps_left_newException exception message true).retains
  | createNative content =>
    exact intact.upholds_machine (stocked.keeps_createNative content).retains
  | copy reference =>
    exact intact.upholds_made (Work.atomic_copy reference) fun _ done => stocked.keeps_copy done
  | setElement reference index value =>
    exact intact.upholds_adopt (Work.atomic_setElement reference index value)
      fun _ done => (stocked.keeps_putElement done).retains
  | setMember reference name value =>
    exact intact.upholds_adopt (Work.atomic_setMember reference name value)
      fun _ done => (stocked.keeps_putMember done).retains
  | assignGlobal name value =>
    exact intact.upholds_adopt (Work.atomic_assignGlobal name value)
      fun _ done => (stocked.keeps_assignGlobal done).retains
  | addGlobal name value =>
    exact intact.upholds_adopt (Work.atomic_addGlobal name value)
      fun _ done => Machine.retains_addGlobal stocked done
  | createExecution =>
    rw [perform, left_createExecution]
    split
    · exact intact.upholds_refl
    · exact ⟨⟨.refl, stocked⟩, intact.threaded.continues_new⟩
  | holdExecution id =>
    exact ⟨⟨.refl, stocked⟩, intact.threaded.continues_held id (· + 1) (List.Sublist.refl _)⟩
  | dropExecution id =>
    exact ⟨⟨.refl, stocked⟩, intact.threaded.continues_held id (· - 1) List.filter_sublist⟩
  | restart id entry =>
    exact intact.upholds_onFrames (fun _ => Work.atomic_restart entry) fun _ _ fine done =>
      fine.continues_restart (passed entry rfl) done
  | pushFrame id function =>
    refine intact.upholds_onFrames (fun _ => Work.atomic_pushFrame function) ?_
    intro _ _ fine done
    obtain ⟨_, pushed⟩ := Work.result_of_changed done
    exact (fine.continues_pushFrame (passed function rfl) pushed).1
  | popFrame id =>
    exact intact.upholds_onFrames (fun _ => Work.atomic_popFrame)
      fun _ _ fine done => fine.continues_popFrame done
  | suspend id =>
    exact intact.upholds_left fun _ fine => fine.keeps_quiet (.refl stocked) rfl rfl
  | setParameter id index value =>
    exact intact.upholds_onExecution (fun _ => Work.atomic_setParameter index value)
      fun _ _ fine done => Execution.keeps_setParameter stocked fine done
  | setRegister id depth index value =>
    refine intact.upholds_onExecution (fun _ => Work.atomic_storeInFrame depth value _) ?_
    intro _ _ fine done
    exact Execution.keeps_storeInFrame stocked fine
      (fun _ _ => Frame.stays_update fun _ _ => Activation.stays_setRegister) done
  | setLocalValue id depth name value =>
    refine intact.upholds_onExecution (fun _ => Work.atomic_storeInFrame depth value _) ?_
    intro _ _ fine done
    exact Execution.keeps_storeInFrame stocked fine
      (fun _ _ => Frame.stays_update fun _ _ => Activation.stays_setLocalValue) done
  | push id depth value =>
    refine intact.upholds_onExecution (fun _ => Work.atomic_storeInFrame depth value _) ?_
    intro _ _ fine done
    exact Execution.keeps_storeInFrame stocked fine
      (fun _ _ => Frame.stays_update fun _ _ => Activation.stays_push) done
  | pop id depth =>
    refine intact.upholds_onFrames (fun _ => Work.atomic_pop depth) fun _ _ fine done => ?_
    obtain ⟨_, popped⟩ := Work.result_of_changed done
    exact (Execution.keeps_pop stocked fine popped).execution
  | raiseValue id value severity =>
    exact intact.upholds_onExecution (fun _ => Work.atomic_raiseValue value severity)
      fun _ _ fine done => Execution.keeps_raiseValue stocked fine done
  | raiseException id exception message =>
    exact intact.upholds_left fun _ fine =>
      Execution.keeps_raiseException stocked fine exception message
  | resume id =>
    simp only [perform]
    split
    · rename_i resumed prepared
      obtain ⟨execution, present, rfl⟩ := ready_eq_ok prepared
      have fine := intact.execution present
      exact intact.upholds_setExecution present (fine.continues_quiet rfl rfl)
    · exact intact.upholds_refl
  | turn id =>
    simp only [perform]
    split
    · exact intact.upholds_refl
    · rename_i execution present
      exact intact.upholds_turn present
  | leave id frame => exact intact.upholds_afterRoutine id frame

end Intact

/-- A fresh virtual machine is intact. -/
theorem intact_create {config : Config} {fresh : Vm} (made : create config = .ok fresh) :
    fresh.Intact := by
  obtain ⟨registry, collector, executions, _⟩ := create_eq made
  refine ⟨⟨?_, ?_, ?_, ?_⟩, ?_, ?_, ?_⟩
  · rw [collector]
    exact Collector.orderly_create _
  · rw [registry]
    intro function member
    obtain ⟨entry, listed, rfl⟩ := List.mem_map.mp member
    obtain ⟨host, rfl, _⟩ := BuiltIn.host_of_mem listed
    exact trivial
  · simp [registry, Registry.initial, Table.values]
  · intro handle proxy function resolved holds
    rw [Machine.heap, collector] at resolved
    rw [(Heap.eq_null_of_empty resolved).2] at holds
    simp [Proxy.null] at holds
  · simp [executions]
  · simp [executions]
  · simp [executions]

/-- Proper calls retain what is known by name, and the executions go on, however many calls there
are. -/
theorem Intact.upholds_runs (intact : vm.Intact) (runs : RunsBy Call.Proper vm after) :
    vm.Upholds after := by
  induction runs with
  | refl => exact intact.upholds_refl
  | tail _ once hypothesis =>
    obtain ⟨call, proper, rfl⟩ := once
    exact hypothesis.trans (hypothesis.intact.upholds_perform proper)

/-- The executions of a virtual machine are intact and stay so. -/
structure Steady (vm : Vm) : Prop where
  /-- Every execution is intact. -/
  executions : ∀ entry ∈ vm.executions, entry.execution.Intact
  /-- Whatever calls follow, call stacks lose frames at the top and get frames with new numbers. -/
  follows : ∀ after, RunsBy Call.Proper vm after → vm.Follows after
  /-- Running an execution is making calls, whatever proper calls its callbacks make. -/
  runs : ∀ (σ : Type) (host : Host σ) (state : σ), host.Obeys Call.Proper →
    ∀ fuel id, RunsBy Call.Proper vm (run host fuel id (vm, state)).2.1
  /-- A script call returns at the end of its function, or the byte of its next instruction is
  fetched from inside the function. -/
  fetches : ∀ entry ∈ vm.executions, ∀ id activation below,
    entry.execution.frames = .script id activation :: below →
    activation.function.body.stop ≤ activation.next ∧
        entry.execution.dispatch vm.machine =
          (vm.machine, { entry.execution with frames := below }) ∨
      activation.function.body.start ≤ activation.next ∧
        activation.next < activation.function.body.stop ∧
        (∃ byte, activation.function.module.code[activation.next]? = some byte ∧
          (Cursor.ofOffset activation.function.module.code activation.next).byte? =
            some (byte, ⟨activation.function.module.code, activation.next + 1, activation.next⟩)) ∧
        entry.execution.dispatch vm.machine = entry.execution.dispatchAt vm.machine id
          { activation with start := activation.next } below
  /-- After a callback, whatever calls it made, the frame that was called is removed if it is on
  top, with all frames below it as they were; otherwise no frame is removed. -/
  returns : ∀ (σ : Type) (host : Host σ) (state : σ), host.Obeys Call.Proper →
    ∀ entry ∈ vm.executions, ∀ frame function below callback,
    entry.execution.frames = .host frame function :: below →
    vm.machine.registry.routine? function = some (.callback callback) →
    (turn host entry.id entry.execution (vm, state)).1 =
        (host callback entry.id (vm, state)).1.afterRoutine entry.id frame ∧
      ∀ execution, (host callback entry.id (vm, state)).1.execution? entry.id = some execution →
        execution.labels = entry.execution.labels ∧
            execution.returnFrom frame = { execution with frames := execution.frames.tail } ∨
          (∀ top ∈ execution.frames.head?, top.id ≠ frame) ∧
            execution.returnFrom frame = execution

/-- A call that passes no function is proper. -/
theorem proper_of_quiet (vm : Vm) (call : Call) (passes : call.entered = none) :
    call.Proper vm := by
  simp [Call.Proper, passes]

/-- An execution with an old number comes from the one that had the number. -/
theorem Follows.execution (follows : vm.Follows after) (threaded : vm.Threaded)
    {entry : HeldExecution} (member : entry ∈ vm.executions) {execution : Execution}
    (present : after.execution? entry.id = some execution) :
    entry.execution.Follows execution := by
  obtain ⟨later, found, rfl⟩ := Option.map_eq_some_iff.mp present
  have number : later.id = entry.id := by simpa using List.find?_some found
  have known : later.id < vm.created := number ▸ threaded.created entry member
  obtain ⟨old, inside, same, goes⟩ :=
    follows.executions later (List.mem_of_find?_eq_some found) known
  rwa [List.inj_on_of_nodup_map threaded.ids inside member (same.trans number)] at goes

/-- Whatever proper calls are made on a fresh virtual machine, its executions are intact and stay
so. -/
theorem steady_of_runs {config : Config} {fresh : Vm} (made : create config = .ok fresh)
    (runs : RunsBy Call.Proper fresh vm) : vm.Steady := by
  have intact := ((intact_create made).upholds_runs runs).intact
  refine ⟨intact.threaded.executions, ?_, ?_, ?_, ?_⟩
  · intro after later
    exact (intact.upholds_runs later).continues.follows
  · intro σ host state obeys fuel id
    exact runsBy_run proper_of_quiet obeys fuel id (vm, state)
  · intro entry member id activation below stack
    exact (intact.threaded.executions entry member).dispatch_cases vm.machine stack
  · intro σ host state obeys entry member frame function below callback stack routine
    constructor
    · simp [turn, stack, callHost, routine]
    · intro execution found
      have later : RunsBy Call.Proper vm (host callback entry.id (vm, state)).1 :=
        obeys callback entry.id (vm, state)
      have follows := (intact.upholds_runs later).continues.follows.execution intact.threaded member
        found
      exact Execution.returnFrom_cases follows (intact.threaded.executions entry member) stack

/-- An execution whose script call has called a host function. -/
theorem steady_of_runs_nested : ∃ fresh vm, create {} = .ok fresh ∧
    RunsBy Call.Proper fresh vm ∧
    (vm.execution? 0).map (fun execution => execution.frames.map Frame.id) = some [2, 1] ∧
    vm.Steady := by
  let module : Module := ⟨"module", [], #[], #[], #[0, 0, 0], 0⟩
  let body : Body := ⟨1, 3, ["local"], [⟨1, 2, [⟨.values .string, 2⟩]⟩]⟩
  let script : ScriptFunction := ⟨"script", 0, 0, module, body⟩
  let host : HostFunction := ⟨"host", 0, 0, none, some (.callback 7)⟩
  let fresh : Vm := { machine := { config := {}, registry := .initial, collector := .create 32 } }
  have made : create {} = .ok fresh := rfl
  let started := fresh.perform .createExecution
  let entered := started.perform (.restart 0 (.script script))
  have runsStarted : RunsBy Call.Proper fresh started :=
    .single ⟨.createExecution, proper_of_quiet _ _ rfl, rfl⟩
  have runsEntered : RunsBy Call.Proper fresh entered := by
    refine runsStarted.tail ⟨.restart 0 (.script script), ?_, rfl⟩
    rintro function ⟨rfl⟩
    exact .inl ⟨1, 2, ["local"], body.blocks, "script", 0, 0, module, body, by decide, rfl, rfl⟩
  have runs : RunsBy Call.Proper fresh (entered.perform (.pushFrame 0 (.host host))) := by
    refine runsEntered.tail ⟨.pushFrame 0 (.host host), ?_, rfl⟩
    rintro function ⟨rfl⟩
    exact .inl trivial
  exact ⟨fresh, _, made, runs, by decide +kernel, steady_of_runs made runs⟩

end Vm

end ScriptVm
