import ScriptVm.Proofs.Execution.Turns
import ScriptVm.Proofs.Vm.Frames

/-!
# One execution along calls

What a call does to one execution. Most calls leave it alone: those that work on the machine only,
and those that work on another execution. A turn is a function of the machine and the execution. No
call but a restart takes back that an execution was run or has ended, and no call but one that
reaches into the call stack from outside changes a frame below the innermost one, unless a raised
value is caught there.
-/
namespace ScriptVm

namespace Call

/-- The execution that a call works on. -/
def subject : Call → Option Nat
  | .restart id _ | .pushFrame id _ | .popFrame id | .suspend id | .setParameter id _ _
  | .setRegister id _ _ _ | .setLocalValue id _ _ _ | .push id _ _ | .pop id _
  | .raiseValue id _ _ | .raiseException id _ _ | .resume id | .turn id | .leave id _ => some id
  | _ => none

/-- The execution that a call starts over. -/
def restarted : Call → Option Nat
  | .restart id _ => some id
  | _ => none

/-- The execution whose call stack a call reaches into from outside. The end of a callback is such a
call, too. -/
def accessed : Call → Option Nat
  | .restart id _ | .pushFrame id _ | .popFrame id | .setRegister id _ _ _
  | .setLocalValue id _ _ _ | .push id _ _ | .pop id _ | .raiseValue id _ _
  | .raiseException id _ _ | .leave id _ => some id
  | _ => none

end Call

namespace Vm

variable {vm after : Vm} {id : Nat} {execution later : Execution}

/-- What is found after a machine and an execution have been replaced. -/
theorem execution?_put (vm : Vm) (id other : Nat) (state : Machine × Execution) :
    (vm.put id state).execution? other =
      if other = id then (vm.execution? id).map fun _ => state.2 else vm.execution? other :=
  execution?_setExecution vm id other state.2

/-- An execution that was replaced is the new one. -/
theorem execution?_put_self (present : vm.execution? id = some execution)
    (state : Machine × Execution) : (vm.put id state).execution? id = some state.2 := by
  rw [execution?_put, if_pos rfl, present]
  rfl

/-- The last replacement counts. -/
theorem put_put (vm : Vm) (id : Nat) (first second : Machine × Execution) :
    (vm.put id first).put id second = vm.put id second := by
  simp only [put, setExecution, updateExecution, List.map_map]
  congr 1
  apply List.map_congr_left
  intro held _
  simp only [Function.comp_apply]
  by_cases here : held.id = id
  · rw [if_pos here, if_pos here, if_pos here]
  · rw [if_neg here, if_neg here]

/-- The end of a host call after its execution has been replaced. -/
theorem afterRoutine_put (present : vm.execution? id = some execution)
    (state : Machine × Execution) (frame : Nat) :
    (vm.put id state).afterRoutine id frame =
      vm.put id (state.1, (state.2.returnFrom frame).settle) := by
  unfold afterRoutine
  rw [execution?_put_self present]
  exact put_put vm id state (state.1, (state.2.returnFrom frame).settle)

/-- The end of a host call. -/
theorem afterRoutine_eq (present : vm.execution? id = some execution) (frame : Nat) :
    vm.afterRoutine id frame = vm.put id (vm.machine, (execution.returnFrom frame).settle) := by
  unfold afterRoutine
  rw [present]
  rfl

/-- A turn replaces the machine and the execution by what they are after it. -/
theorem perform_turn (present : vm.execution? id = some execution) :
    vm.perform (.turn id) = vm.put id (execution.turned vm.machine) := by
  simp only [perform, present, turn, Execution.turned]
  cases execution.frames with
  | nil => rfl
  | cons top below =>
    cases top with
    | script number activation => rfl
    | host number function =>
      simp only [callHost]
      cases vm.machine.registry.routine? function with
      | none => rfl
      | some routine =>
        cases routine with
        | callback callback => exact afterRoutine_eq present number
        | operator operator | cast target => exact afterRoutine_put present _ number

/-- An execution after its turn. -/
theorem execution?_turn (present : vm.execution? id = some execution) :
    (vm.perform (.turn id)).execution? id = some (execution.turned vm.machine).2 := by
  rw [perform_turn present]
  exact execution?_put_self present _

/-- What is found after work on an execution is what that leaves. -/
theorem execution?_left (present : vm.execution? id = some execution) {α : Type}
    {work : Work (Machine × Execution) α}
    (found : (vm.onExecution id work).execution? id = some later) :
    later = (work.left (vm.machine, execution)).2 := by
  simp only [onExecution, present, execution?_put_self present] at found
  exact (Option.some.inj found).symm

/-- What is found after a call that may fail has worked on an execution. -/
theorem execution?_onExecution (present : vm.execution? id = some execution) {α : Type}
    {work : Work (Machine × Execution) α} (atomic : work.Atomic (vm.machine, execution))
    (found : (vm.onExecution id work).execution? id = some later) :
    later = execution ∨
      ∃ machine, work.changed (vm.machine, execution) = .ok (machine, later) := by
  rw [execution?_left present found]
  rcases atomic.left_cases with same | done
  · exact .inl (congrArg Prod.snd same)
  · exact .inr ⟨_, done⟩

/-- Work on an execution leaves other executions alone. -/
theorem execution?_onExecution_of_ne {other : Nat} (different : id ≠ other) {α : Type}
    (work : Work (Machine × Execution) α) :
    (vm.onExecution other work).execution? id = vm.execution? id := by
  unfold onExecution
  split
  · rfl
  · rw [execution?_put, if_neg different]

/-- The entry of an execution that is there. -/
theorem exists_entry (present : vm.execution? id = some execution) :
    ∃ entry ∈ vm.executions, entry.id = id ∧ entry.execution = execution := by
  obtain ⟨entry, found, rfl⟩ := Option.map_eq_some_iff.mp present
  exact ⟨entry, List.mem_of_find?_eq_some found, by simpa using List.find?_some found, rfl⟩

/-- The number of an execution that is there has been given. -/
theorem Threaded.lt_created (threaded : vm.Threaded) (present : vm.execution? id = some execution) :
    id < vm.created := by
  obtain ⟨entry, inside, rfl, _⟩ := exists_entry present
  exact threaded.created entry inside

/-- An execution that comes from an entry of before is the one of before. -/
theorem Threaded.eq_of_origin (threaded : vm.Threaded)
    (present : vm.execution? id = some execution) (found : after.execution? id = some later)
    (origin : ∀ entry ∈ after.executions, entry.id = id →
      ∃ old ∈ vm.executions, old.id = id ∧ old.execution = entry.execution) :
    later = execution := by
  obtain ⟨entry, inside, number, rfl⟩ := exists_entry found
  obtain ⟨old, member, same, kept⟩ := origin entry inside number
  have known := threaded.execution?_of_mem member
  rw [same, present] at known
  rw [← kept, Option.some.inj known]

/-- Counting the holders of an execution leaves all executions as they are. -/
theorem origin_updateExecution {entry : HeldExecution} (count : Nat → Nat) {other : Nat}
    (member : entry ∈ (vm.updateExecution other fun held =>
      { held with holders := count held.holders }).executions) (number : entry.id = id) :
    ∃ old ∈ vm.executions, old.id = id ∧ old.execution = entry.execution := by
  obtain ⟨old, inside, rfl⟩ := List.mem_map.mp member
  refine ⟨old, inside, ?_⟩
  split at number <;> rename_i chosen
  · rw [if_pos chosen]
    exact ⟨number, rfl⟩
  · rw [if_neg chosen]
    exact ⟨number, rfl⟩

/-- A new execution has a new number. -/
theorem origin_createExecution {entry : HeldExecution}
    (member : entry ∈ (vm.perform .createExecution).executions) (known : entry.id < vm.created) :
    entry ∈ vm.executions := by
  rw [perform, left_createExecution] at member
  split at member
  · exact member
  · rcases List.mem_append.mp member with earlier | fresh
    · exact earlier
    · have newest : entry.id = vm.created := by rw [List.mem_singleton.mp fresh]
      omega

/-- A call that works on nothing or on another execution leaves an execution as it is. -/
theorem Threaded.eq_of_elsewhere (threaded : vm.Threaded)
    (present : vm.execution? id = some execution) {call : Call}
    (elsewhere : call.subject ≠ some id)
    (found : (vm.perform call).execution? id = some later) : later = execution := by
  have same : (vm.perform call).execution? id = vm.execution? id → later = execution := by
    intro unchanged
    rw [unchanged, present] at found
    exact (Option.some.inj found).symm
  have different : ∀ other, call.subject = some other → id ≠ other :=
    fun other works equal => elsewhere (works.trans (congrArg some equal.symm))
  cases call with
  | collectStep | collect | resetCollector =>
    apply same
    unfold execution?
    rw [(collected_perform rfl).executions]
  | load | loadContainer | close | createValue | createArray | createNative | addNative | addBuiltIn
  | bindNative | createArrayOf | createObject | createFunctionValue | createException | copy
  | setPinned | setElement | setMember | global | assignGlobal | addGlobal => exact same rfl
  | createExecution =>
    refine threaded.eq_of_origin present found fun entry member number => ?_
    have known : entry.id < vm.created := number ▸ threaded.lt_created present
    exact ⟨entry, origin_createExecution member known, number, rfl⟩
  | holdExecution other =>
    exact threaded.eq_of_origin present found fun entry member =>
      origin_updateExecution (· + 1) member
  | dropExecution other =>
    exact threaded.eq_of_origin present found fun entry member =>
      origin_updateExecution (· - 1) (List.mem_of_mem_filter member)
  | restart other | pushFrame other | popFrame other | suspend other | setParameter other
  | setRegister other | setLocalValue other | push other | pop other | raiseValue other
  | raiseException other => exact same (execution?_onExecution_of_ne (different other rfl) _)
  | resume other =>
    apply same
    simp only [perform]
    split
    · rw [execution?_setExecution, if_neg (different other rfl)]
    · rfl
  | turn other =>
    apply same
    cases taken : vm.execution? other with
    | none => simp only [perform, taken]
    | some acting => rw [perform_turn taken, execution?_put, if_neg (different other rfl)]
  | leave other frame =>
    apply same
    simp only [perform]
    unfold afterRoutine
    split
    · rw [execution?_setExecution, if_neg (different other rfl)]
    · rfl

/-- An execution is resumed, or it stays as it was. -/
theorem execution?_resume (present : vm.execution? id = some execution)
    (found : (vm.perform (.resume id)).execution? id = some later) :
    later = execution ∨ later = execution.resume := by
  simp only [perform] at found
  split at found
  · rename_i resumed prepared
    obtain ⟨_, known, rfl⟩ := ready_eq_ok prepared
    rw [present] at known
    obtain rfl := Option.some.inj known
    rw [execution?_setExecution, if_pos rfl, present] at found
    exact .inr (Option.some.inj found).symm
  · rw [present] at found
    exact .inl (Option.some.inj found).symm

/-- A call that may fail keeps what holds of an execution, if it keeps it when it succeeds. -/
theorem kept_onExecution (kept : Execution → Prop) (present : vm.execution? id = some execution)
    (start : kept execution) {α : Type} {work : Work (Machine × Execution) α}
    (atomic : work.Atomic (vm.machine, execution))
    (step : ∀ machine, work.changed (vm.machine, execution) = .ok (machine, later) → kept later)
    (found : (vm.onExecution id work).execution? id = some later) : kept later := by
  rcases execution?_onExecution present atomic found with rfl | ⟨machine, done⟩
  · exact start
  · exact step machine done

/-- A call that changes the call stack keeps what holds of an execution, if it keeps it when it
succeeds. -/
theorem kept_onFrames (kept : Execution → Prop) (present : vm.execution? id = some execution)
    (start : kept execution) {α : Type} {work : Work Execution α} (atomic : work.Atomic execution)
    (step : ∀ value, work.result execution = .ok (value, later) → kept later)
    (found : (vm.onExecution id (.onSecond work)).execution? id = some later) : kept later := by
  refine kept_onExecution kept present start (Work.atomic_onSecond atomic) (fun _ done => ?_) found
  obtain ⟨changed, worked, same⟩ := Work.changed_onSecond done
  obtain ⟨_, rfl⟩ := Prod.mk.inj same
  obtain ⟨value, made⟩ := Work.result_of_changed worked
  exact step value made

/-- No call but a restart takes back that an execution was run or has ended. -/
theorem Intact.lasts_perform (intact : vm.Intact) (present : vm.execution? id = some execution)
    {call : Call} (kept : call.restarted ≠ some id)
    (found : (vm.perform call).execution? id = some later) :
    execution.flags.Lasts later.flags := by
  by_cases own : call.subject = some id
  · cases call with
    | restart => exact absurd own kept
    | pushFrame other function =>
      obtain rfl := Option.some.inj own
      exact kept_onFrames (execution.flags.Lasts ·.flags) present (.refl _)
        (Work.atomic_pushFrame function) (fun _ => Execution.lasts_pushFrame) found
    | popFrame other =>
      obtain rfl := Option.some.inj own
      exact kept_onFrames (execution.flags.Lasts ·.flags) present (.refl _) Work.atomic_popFrame
        (fun _ made => Execution.lasts_popFrame (Work.changed_of_result made)) found
    | suspend other =>
      obtain rfl := Option.some.inj own
      rw [execution?_left present found]
      exact Execution.lasts_suspend execution
    | setParameter other index value =>
      obtain rfl := Option.some.inj own
      exact kept_onExecution (execution.flags.Lasts ·.flags) present (.refl _)
        (Work.atomic_setParameter index value) (fun _ => Execution.lasts_setParameter) found
    | setRegister other depth _ value | setLocalValue other depth _ value
    | push other depth value =>
      obtain rfl := Option.some.inj own
      exact kept_onExecution (execution.flags.Lasts ·.flags) present (.refl _)
        (Work.atomic_storeInFrame depth value _) (fun _ => Execution.lasts_storeInFrame) found
    | pop other depth =>
      obtain rfl := Option.some.inj own
      exact kept_onFrames (execution.flags.Lasts ·.flags) present (.refl _)
        (Work.atomic_pop depth) (fun _ => Execution.lasts_pop) found
    | raiseValue other value severity =>
      obtain rfl := Option.some.inj own
      exact kept_onExecution (execution.flags.Lasts ·.flags) present (.refl _)
        (Work.atomic_raiseValue value severity) (fun _ => Execution.lasts_raiseValue) found
    | raiseException other exception message =>
      obtain rfl := Option.some.inj own
      rw [execution?_left present found]
      exact (Execution.raised_raiseException vm.machine execution exception message).flags
    | resume other =>
      obtain rfl := Option.some.inj own
      rcases execution?_resume present found with rfl | rfl
      · exact .refl _
      · exact Execution.lasts_resume _
    | turn other =>
      obtain rfl := Option.some.inj own
      rw [execution?_turn present] at found
      rw [← Option.some.inj found]
      exact (Execution.advanced_turned vm.machine (intact.execution present)).flags
    | leave other frame =>
      obtain rfl := Option.some.inj own
      rw [perform, afterRoutine_eq present, execution?_put_self present] at found
      rw [← Option.some.inj found]
      have lasts := Execution.lasts_settle (execution.returnFrom frame)
      rwa [Execution.flags_returnFrom] at lasts
    | _ => simp [Call.subject] at own
  · rw [intact.threaded.eq_of_elsewhere present own found]
    exact .refl _

/-- No call but one that reaches into a call stack from outside changes a frame below the innermost
one, unless a raised value is caught there. -/
theorem Intact.spares_perform (intact : vm.Intact) (present : vm.execution? id = some execution)
    {call : Call} (apart : call.accessed ≠ some id)
    (found : (vm.perform call).execution? id = some later) :
    Execution.Spares execution.frames later.frames := by
  have same : later.frames = execution.frames →
      Execution.Spares execution.frames later.frames := by
    intro equal
    rw [equal]
    exact .stays (List.tail_suffix _)
  by_cases own : call.subject = some id
  · cases call with
    | suspend other =>
      obtain rfl := Option.some.inj own
      have frames := congrArg Execution.frames (execution?_left present found)
      exact same frames
    | setParameter other index value =>
      obtain rfl := Option.some.inj own
      rcases execution?_onExecution present (Work.atomic_setParameter index value) found with
        rfl | ⟨machine, done⟩
      · exact same rfl
      · rw [← Execution.setParameter, Execution.setParameter_eq] at done
        split at done
        · obtain ⟨_, rfl⟩ := Prod.mk.inj (Except.ok.inj done)
          exact same rfl
        · simp at done
    | resume other =>
      obtain rfl := Option.some.inj own
      rcases execution?_resume present found with rfl | rfl
      · exact same rfl
      · exact same rfl
    | turn other =>
      obtain rfl := Option.some.inj own
      rw [execution?_turn present] at found
      rw [← Option.some.inj found]
      exact (Execution.advanced_turned vm.machine (intact.execution present)).frames
    | restart | pushFrame | popFrame | setRegister | setLocalValue | push | pop | raiseValue
    | raiseException | leave => exact absurd own apart
    | _ => simp [Call.subject] at own
  · exact same (congrArg Execution.frames (intact.threaded.eq_of_elsewhere present own found))

/-- An execution goes on from where it was. -/
theorem Upholds.follows_execution (upholds : vm.Upholds after) (intact : vm.Intact)
    (present : vm.execution? id = some execution) (found : after.execution? id = some later) :
    execution.Follows later := by
  obtain ⟨entry, member, rfl, rfl⟩ := exists_entry present
  exact upholds.continues.follows.execution intact.threaded member found

/-- An execution with an old number was there before. -/
theorem Upholds.existed (upholds : vm.Upholds after) (intact : vm.Intact)
    (known : id < vm.created) (found : after.execution? id = some later) :
    ∃ execution, vm.execution? id = some execution := by
  obtain ⟨entry, member, rfl, _⟩ := exists_entry found
  obtain ⟨old, inside, same, _⟩ := upholds.continues.follows.executions entry member known
  exact ⟨old.execution, same ▸ intact.threaded.execution?_of_mem inside⟩

/-- A run of calls that are allowed is a run of calls of which more are allowed. -/
theorem runsBy_mono {allowed more : Vm → Call → Prop}
    (weaker : ∀ vm call, allowed vm call → more vm call) (runs : RunsBy allowed vm after) :
    RunsBy more vm after := by
  induction runs with
  | refl => exact .refl
  | tail _ once hypothesis =>
    obtain ⟨call, allows, result⟩ := once
    exact hypothesis.tail ⟨call, weaker _ call allows, result⟩

/-- What every call keeps of an execution, a run keeps. -/
theorem Intact.along_runs {allowed : Vm → Call → Prop} {motive : Execution → Prop}
    (proper : ∀ vm call, allowed vm call → call.Proper vm)
    (step : ∀ {vm : Vm} {call : Call} {execution later : Execution}, vm.Intact →
      allowed vm call → vm.execution? id = some execution →
      (vm.perform call).execution? id = some later → execution.Follows later →
      motive execution → motive later)
    (intact : vm.Intact) (present : vm.execution? id = some execution) (start : motive execution)
    (runs : RunsBy allowed vm after) (found : after.execution? id = some later) :
    motive later := by
  have known := intact.threaded.lt_created present
  induction runs generalizing later with
  | refl =>
    rw [present] at found
    rwa [← Option.some.inj found]
  | tail runs once hypothesis =>
    obtain ⟨call, allows, rfl⟩ := once
    have reached := intact.upholds_runs (runsBy_mono proper runs)
    have called := reached.intact.upholds_perform (proper _ call allows)
    have issued := Nat.lt_of_lt_of_le known reached.continues.follows.created
    obtain ⟨between, there⟩ := called.existed reached.intact issued found
    exact step reached.intact allows there found
      (called.follows_execution reached.intact there found) (hypothesis there)

end Vm

end ScriptVm
