import ScriptVm.Proofs.Execution.Frames
import ScriptVm.Vm.Run

/-!
# Turns of an execution

What one turn can do to an execution, whatever instruction or routine it is. A raised value unwinds
the call stack, and everything else happens at its top: frames below the innermost one change only
when a raised value is caught by one of them. Flags that tell what an execution has gone through are
not taken back.
-/
namespace ScriptVm

/-- Flags come from others: an execution that was run or has ended stays one that was run or has
ended. Only waiting is given up again. -/
structure Flags.Lasts (flags after : Flags) : Prop where
  /-- It has been run. -/
  started : flags.started = true → after.started = true
  /-- Its first call has ended. -/
  finished : flags.finished = true → after.finished = true
  /-- It was ended by an exception. -/
  exception : flags.exception = true → after.exception = true
  /-- It was aborted. -/
  aborted : flags.aborted = true → after.aborted = true

namespace Flags.Lasts

variable {flags middle after : Flags}

/-- Nothing happens. -/
theorem refl (flags : Flags) : flags.Lasts flags := ⟨id, id, id, id⟩

/-- One thing happens after the other. -/
theorem trans (first : flags.Lasts middle) (second : middle.Lasts after) : flags.Lasts after :=
  ⟨second.started ∘ first.started, second.finished ∘ first.finished,
    second.exception ∘ first.exception, second.aborted ∘ first.aborted⟩

end Flags.Lasts

namespace Execution

variable {machine : Machine} {execution middle after : Execution}

/-- An execution that has ended stays so. -/
theorem ended_of_lasts (lasts : execution.flags.Lasts after.flags)
    (ended : execution.ended = true) : after.ended = true := by
  simp only [Execution.ended, Bool.or_eq_true] at ended ⊢
  exact ended.imp (Or.imp lasts.finished lasts.exception) lasts.aborted

/-- An execution that has ended has stopped. -/
theorem stopped_of_ended (ended : execution.ended = true) : execution.flags.stopped = true := by
  simp only [Execution.ended, Bool.or_eq_true] at ended
  simp only [Flags.stopped, Bool.or_eq_true]
  rcases ended with (finished | raised) | aborted
  · exact .inl (.inl (.inl finished))
  · exact .inl (.inr raised)
  · exact .inr aborted

/-- An execution that has not stopped has not ended. -/
theorem not_ended (awake : execution.flags.stopped = false) : execution.ended = false :=
  Bool.eq_false_iff.mpr fun ended => by
    rw [stopped_of_ended ended] at awake
    cases awake

/-- Marking a finished execution takes no flag back. -/
theorem lasts_settle (execution : Execution) : execution.flags.Lasts execution.settle.flags := by
  unfold settle
  split
  · exact ⟨id, fun _ => rfl, id, id⟩
  · exact .refl _

/-- Resuming an execution takes back that it waits. -/
theorem lasts_resume (execution : Execution) : execution.flags.Lasts execution.resume.flags :=
  ⟨fun _ => rfl, id, id, id⟩

/-- Marking a finished execution leaves its call stack. -/
@[simp] theorem frames_settle (execution : Execution) :
    execution.settle.frames = execution.frames := by
  unfold settle
  split <;> rfl

/-- After settling, an execution without calls has stopped. -/
theorem stopped_settle (empty : execution.frames = []) :
    execution.settle.flags.stopped = true := by
  unfold settle
  split
  · simp [Flags.stopped]
  · rename_i going
    have reason : execution.flags.exception = true ∨ execution.flags.aborted = true := by
      by_cases raised : execution.flags.exception = true
      · exact .inl raised
      · simp only [empty, List.isEmpty_nil, Bool.true_and, Bool.and_eq_true, Bool.not_eq_true',
          not_and, Bool.not_eq_false] at going
        exact .inr (going (Bool.eq_false_iff.mpr raised))
    rcases reason with raised | aborted
    · simp [Flags.stopped, raised]
    · simp [Flags.stopped, aborted]

/-- Ending a host call leaves all flags. -/
@[simp] theorem flags_returnFrom (execution : Execution) (id : Nat) :
    (execution.returnFrom id).flags = execution.flags := by
  unfold returnFrom
  split
  · split <;> rfl
  · rfl

/-- Ending a host call drops the innermost frame or none. -/
theorem tail_suffix_returnFrom (execution : Execution) (id : Nat) :
    execution.frames.tail <:+ (execution.returnFrom id).frames := by
  unfold returnFrom
  split
  · rename_i top below stack
    split
    · rw [stack]
      exact List.suffix_rfl
    · exact List.tail_suffix _
  · exact List.tail_suffix _

/-- A frame with an old number was there before. -/
theorem Follows.mem_ids (follows : execution.Follows after) {number : Nat}
    (known : number ≤ execution.issued) (member : number ∈ after.frames.map Frame.id) :
    number ∈ execution.frames.map Frame.id := by
  obtain ⟨_, kept, _, suffix, olds⟩ := follows.exists_kept
  obtain ⟨frame, inside, rfl⟩ := List.mem_map.mp member
  obtain ⟨old, there, same⟩ := List.mem_map.mp (suffix.subset (olds frame inside known))
  exact List.mem_map.mpr ⟨old, there, congrArg Prod.fst same⟩

/-- What raising leaves of a call stack. -/
inductive Unwinds (frames : List Frame) : List Frame → Prop where
  /-- A fatal raise leaves all of it, and so does a routine whose exception cannot be made. -/
  | whole : Unwinds frames frames
  /-- Nothing catches the value. -/
  | emptied : Unwinds frames []
  /-- A frame catches the value. -/
  | caught {kind : Kind} {className : Option String} {rest : List Frame}
    (caught : unwind kind className frames = some rest) : Unwinds frames rest

/-- A frame that goes on at a handler is still the same call. -/
theorem label_catch? {frame handling : Frame} {kind : Kind} {className : Option String}
    (caught : frame.catch? kind className = some handling) : handling.label = frame.label := by
  cases frame with
  | host id function => simp [Frame.catch?] at caught
  | script id activation =>
    obtain ⟨changed, made, rfl⟩ := Option.map_eq_some_iff.mp caught
    obtain ⟨target, _, rfl⟩ := Option.map_eq_some_iff.mp made
    rfl

/-- Frames above some others either hold the one that catches a raised value, or the others are
unwound. -/
theorem unwind_append {kind : Kind} {className : Option String} {upper base rest : List Frame}
    (caught : unwind kind className (upper ++ base) = some rest) :
    base <:+ rest ∨ unwind kind className base = some rest := by
  induction upper with
  | nil => exact .inr caught
  | cons frame upper hypothesis =>
    rw [List.cons_append, unwind] at caught
    split at caught
    · rename_i handling _
      obtain rfl := Option.some.inj caught
      exact .inl ⟨handling :: upper, rfl⟩
    · exact hypothesis caught

/-- The frames that are left are the same calls as before. -/
theorem labels_unwind {kind : Kind} {className : Option String} {frames rest : List Frame}
    (caught : unwind kind className frames = some rest) :
    rest.map Frame.label <:+ frames.map Frame.label := by
  induction frames with
  | nil => simp [unwind] at caught
  | cons frame frames hypothesis =>
    unfold unwind at caught
    split at caught
    · rename_i handling found
      obtain rfl := Option.some.inj caught
      rw [List.map_cons, List.map_cons, label_catch? found]
    · exact (hypothesis caught).trans (List.suffix_cons _ _)

/-- The frames that raising leaves are the same calls as before. -/
theorem Unwinds.labels {frames rest : List Frame} (unwinds : Unwinds frames rest) :
    rest.map Frame.label <:+ frames.map Frame.label := by
  cases unwinds with
  | whole => exact List.suffix_rfl
  | emptied => exact List.nil_suffix
  | caught caught => exact labels_unwind caught

/-- An execution after a raise. -/
structure Raised (execution after : Execution) : Prop where
  /-- The call stack is unwound. -/
  frames : Unwinds execution.frames after.frames
  /-- No flag is taken back. -/
  flags : execution.flags.Lasts after.flags

/-- Raising a value. -/
theorem raised_raise (machine : Machine) (execution : Execution) (value : Ref)
    (severity : Severity) : execution.Raised (execution.raise machine value severity).2 := by
  cases severity with
  | fatal => exact ⟨.whole, id, id, fun _ => rfl, fun _ => rfl⟩
  | normal =>
    simp only [raise]
    split
    · rename_i frames caught
      exact ⟨.caught caught, .refl _⟩
    · exact ⟨.emptied, id, id, fun _ => rfl, id⟩

/-- Raising a new exception. -/
theorem raised_raiseNew (machine : Machine) (execution : Execution) (template : Object × Nat)
    (message : String) : execution.Raised (execution.raiseNew machine template message).2 :=
  raised_raise _ _ _ _

/-- Raising the exception of a fault. -/
theorem raised_raiseFault (machine : Machine) (execution : Execution) (fault : Fault) :
    execution.Raised (execution.raiseFault machine fault).2 := by
  rw [raiseFault_eq]
  split
  · exact raised_raiseNew _ _ _ _
  · exact raised_raise _ _ _ _

/-- Storing the result of a routine, or raising its fault. -/
theorem raised_finishRoutine (machine : Machine) (execution : Execution)
    (result : Except Fault Value) :
    execution.Raised (execution.finishRoutine machine result).2 := by
  rw [finishRoutine_eq]
  split
  · exact ⟨.whole, .refl _⟩
  · split
    · exact raised_raiseNew _ _ _ _
    · exact ⟨.whole, .refl _⟩

/-- Raising a standard exception from outside, or failing to. -/
theorem raised_raiseException (machine : Machine) (execution : Execution)
    (exception : ExceptionClass) (message : String) :
    execution.Raised ((Work.raiseException exception message).left (machine, execution)).2 := by
  unfold Work.left
  rw [outcome_raiseException]
  split
  · exact raised_raiseNew _ _ _ _
  · exact ⟨.whole, .refl _⟩

/-- Suspending an execution takes no flag back. -/
theorem lasts_suspend (execution : Execution) : execution.flags.Lasts execution.suspend.flags :=
  ⟨id, id, id, id⟩

/-- Pushing a call takes no flag back. -/
theorem lasts_pushFrame {function : Function} {made : Nat × Execution}
    (done : execution.pushFrame function = .ok made) :
    execution.flags.Lasts made.2.flags := by
  rw [pushFrame_eq] at done
  split at done
  · obtain rfl := Except.ok.inj done
    exact .refl _
  · simp at done

/-- Popping a call takes no flag back. -/
theorem lasts_popFrame (done : execution.popFrame = .ok after) :
    execution.flags.Lasts after.flags := by
  rw [popFrame_eq] at done
  split at done
  · simp at done
  · obtain rfl := Except.ok.inj done
    exact .refl _

/-- Writing a parameter register takes no flag back. -/
theorem lasts_setParameter {index : Nat} {value : Ref} {changed : Machine}
    (done : execution.setParameter machine index value = .ok (changed, after)) :
    execution.flags.Lasts after.flags := by
  rw [setParameter_eq] at done
  split at done
  · obtain ⟨_, rfl⟩ := Prod.mk.inj (Except.ok.inj done)
    exact .refl _
  · simp at done

/-- Storing into a frame takes no flag back. -/
theorem lasts_storeInFrame {depth : Nat} {value : Ref} {store : Frame → Except Error Frame}
    {changed : Machine}
    (done : execution.storeInFrame machine depth value store = .ok (changed, after)) :
    execution.flags.Lasts after.flags := by
  rw [storeInFrame_eq] at done
  obtain ⟨frame, _, rest⟩ := Except.bind_eq_ok done
  obtain ⟨stored, _, last⟩ := Except.bind_eq_ok rest
  obtain ⟨_, rfl⟩ := Prod.mk.inj (Except.ok.inj last)
  exact .refl _

/-- Popping an operand takes no flag back. -/
theorem lasts_pop {depth : Nat} {made : Ref × Execution} (done : execution.pop depth = .ok made) :
    execution.flags.Lasts made.2.flags := by
  rw [pop_eq] at done
  obtain ⟨frame, _, rest⟩ := Except.bind_eq_ok done
  obtain ⟨popped, _, last⟩ := Except.bind_eq_ok rest
  obtain rfl := Except.ok.inj last
  exact .refl _

/-- Raising a value from outside takes no flag back. -/
theorem lasts_raiseValue {value : Ref} {severity : Severity} {changed : Machine}
    (done : execution.raiseValue machine value severity = .ok (changed, after)) :
    execution.flags.Lasts after.flags := by
  rw [raiseValue_eq] at done
  split at done
  · have raised := raised_raise machine execution value severity
    rw [Except.ok.inj done] at raised
    exact raised.flags
  · simp at done

/-- What happens at the top of a call stack: the frames below the innermost one stay, or a raised
value unwinds them. -/
inductive Spares (frames after : List Frame) : Prop where
  /-- They stay. -/
  | stays (suffix : frames.tail <:+ after)
  /-- They are unwound. -/
  | unwound (unwinds : Unwinds frames.tail after)

/-- Raising after the innermost frame has changed. -/
theorem Unwinds.spares {frames rest : List Frame} {top : Frame}
    (unwinds : Unwinds (top :: frames.tail) rest) : Spares frames rest := by
  cases unwinds with
  | whole => exact .stays (List.suffix_cons _ _)
  | emptied => exact .unwound .emptied
  | caught caught =>
    have split : [top] ++ frames.tail = top :: frames.tail := rfl
    rcases unwind_append (split ▸ caught) with stays | deeper
    · exact .stays stays
    · exact .unwound (.caught deeper)

/-- Raising. -/
theorem Unwinds.spares_self {frames rest : List Frame} (unwinds : Unwinds frames rest) :
    Spares frames rest := by
  cases frames with
  | nil => exact .stays List.nil_suffix
  | cons top below => exact Unwinds.spares unwinds

/-- A part of the call stack that is not on top is left as it is, or the frames above it and
possibly more are gone. -/
theorem Spares.base {frames after upper base : List Frame} (spares : Spares frames after)
    (covered : upper ≠ []) (stack : frames = upper ++ base) :
    base <:+ after ∨ after.map Frame.label <:+ base.map Frame.label := by
  obtain ⟨top, upper, rfl⟩ := List.exists_cons_of_ne_nil covered
  subst stack
  cases spares with
  | stays suffix => exact .inl ((List.suffix_append upper base).trans suffix)
  | unwound unwinds =>
    cases unwinds with
    | whole => exact .inl (List.suffix_append upper base)
    | emptied => exact .inr List.nil_suffix
    | caught caught => exact (unwind_append caught).imp_right labels_unwind

/-- An execution after one turn. -/
structure Advanced (execution after : Execution) : Prop where
  /-- The frames below the innermost one stay or are unwound. -/
  frames : Spares execution.frames after.frames
  /-- No flag is taken back. -/
  flags : execution.flags.Lasts after.flags

/-- Raising. -/
theorem Raised.advanced (raised : execution.Raised after) : execution.Advanced after :=
  ⟨raised.frames.spares_self, raised.flags⟩

/-- Raising after the innermost frame has changed. -/
theorem Raised.advanced_top (raised : middle.Raised after) {top : Frame}
    (frames : middle.frames = top :: execution.frames.tail)
    (flags : middle.flags = execution.flags) : execution.Advanced after := by
  refine ⟨?_, flags ▸ raised.flags⟩
  have unwinds := raised.frames
  rw [frames] at unwinds
  exact unwinds.spares

/-- Settling after a turn. -/
theorem Advanced.settle (advanced : execution.Advanced after) :
    execution.Advanced after.settle :=
  ⟨by rw [frames_settle]; exact advanced.frames, advanced.flags.trans (lasts_settle after)⟩

/-- The frames below the innermost one stay. -/
theorem advanced_of_suffix (suffix : execution.frames.tail <:+ after.frames)
    (flags : execution.flags.Lasts after.flags) : execution.Advanced after :=
  ⟨.stays suffix, flags⟩

/-- Going on after an instruction of the innermost call. -/
theorem advanced_proceed (machine : Machine) {top : Frame}
    (frames : middle.frames = top :: execution.frames.tail)
    (flags : middle.flags = execution.flags) (outcome : Outcome) :
    execution.Advanced (middle.proceed machine outcome).2 := by
  have below : execution.frames.tail <:+ middle.frames := by
    rw [frames]
    exact List.suffix_cons _ _
  have same : execution.flags.Lasts middle.flags := flags ▸ .refl _
  have failed : ∀ fault, execution.Advanced (middle.fail machine fault).2 :=
    fun fault => (raised_raiseFault _ middle fault).advanced_top frames flags
  cases outcome with
  | proceed => exact advanced_of_suffix below same
  | leave =>
    refine advanced_of_suffix ?_ same
    simp only [proceed, frames, List.tail_cons]
    exact List.suffix_rfl
  | call function =>
    simp only [proceed]
    split
    · rename_i pushed
      rw [pushFrame_eq] at pushed
      split at pushed
      · obtain ⟨_, rfl⟩ := Prod.mk.inj (Except.ok.inj pushed)
        exact advanced_of_suffix (below.trans (List.suffix_cons _ _)) same
      · simp at pushed
    · exact failed _
    · exact failed _
  | raise value => exact (raised_raise machine middle value .normal).advanced_top frames flags
  | yield => exact advanced_of_suffix below (same.trans ⟨id, id, id, id⟩)
  | abort => exact advanced_of_suffix below (same.trans ⟨id, id, id, fun _ => rfl⟩)

/-- Performing what an instruction of the innermost call does, whose frame may have changed. -/
theorem advanced_perform (machine : Machine) (flags : middle.flags = execution.flags) (id : Nat)
    (frame : Activation) {below : List Frame} (tail : execution.frames.tail = below)
    (effect : Effect) :
    execution.Advanced (middle.perform machine id frame below effect).2 := by
  subst tail
  unfold perform
  split
  · rename_i scene _
    have frames : (middle.withScene id execution.frames.tail scene).frames =
      .script id scene.frame :: execution.frames.tail := rfl
    exact advanced_proceed _ frames flags _
  · exact (raised_raiseFault _ _ _).advanced_top rfl flags

/-- One instruction of the innermost call. -/
theorem advanced_dispatch (machine : Machine) (execution : Execution) :
    execution.Advanced (execution.dispatch machine).2 := by
  unfold dispatch
  split
  · rename_i id frame below stack
    have tail : execution.frames.tail = below := by rw [stack, List.tail_cons]
    have failed : ∀ machine fault (top : Frame),
        execution.Advanced (fail machine { execution with frames := top :: below } fault).2 :=
      fun machine fault top => (raised_raiseFault _ _ fault).advanced_top (by rw [tail]) rfl
    dsimp only
    split
    · exact advanced_of_suffix (tail ▸ List.suffix_rfl) (.refl _)
    · unfold dispatchAt
      dsimp only
      split
      · exact failed _ _ _
      · split
        · exact failed _ _ _
        · split
          · exact failed _ _ _
          · exact advanced_perform _ (Eq.refl execution.flags) id _ tail _
  · exact advanced_of_suffix (List.tail_suffix _) (.refl _)

/-- The machine and the execution after a turn in which callbacks do nothing. -/
def turned (machine : Machine) (execution : Execution) : Machine × Execution :=
  match execution.frames with
  | [] => (machine, execution.settle)
  | .host frame function :: _ =>
    match machine.registry.routine? function with
    | none =>
      let (machine, execution) :=
        execution.raiseFault machine (.unboundFunction function.signature)
      (machine, execution.settle)
    | some (.callback _) => (machine, (execution.returnFrom frame).settle)
    | some routine =>
      let (machine, execution) :=
        execution.finishRoutine machine (execution.routineResult machine routine)
      (machine, (execution.returnFrom frame).settle)
  | .script _ _ :: _ =>
    let (machine, execution) := execution.dispatch machine
    (machine, execution.settle)

/-- A host call whose frame has been unwound does not end another one: the frame that catches the
value was below it, and so has a lower number. -/
theorem spares_returnFrom (intact : execution.Intact) {id : Nat} {function : HostFunction}
    {below : List Frame} (stack : execution.frames = .host id function :: below)
    (unwinds : Unwinds execution.frames after.frames) :
    Spares execution.frames (after.returnFrom id).frames := by
  rw [stack] at unwinds ⊢
  generalize frames : after.frames = rest at unwinds
  cases unwinds with
  | whole =>
    have suffix := tail_suffix_returnFrom after id
    rw [frames] at suffix
    exact .stays suffix
  | emptied =>
    simp only [returnFrom, frames]
    exact .unwound .emptied
  | caught caught =>
    have deeper : unwind _ _ below = some rest := caught
    cases rest with
    | nil =>
      simp only [returnFrom, frames]
      exact .unwound .emptied
    | cons top rest =>
      have lower : top.id ≠ id := by
        have known := (labels_unwind deeper).subset List.mem_cons_self
        obtain ⟨old, member, same⟩ := List.mem_map.mp known
        have ids := intact.ids
        rw [stack, List.map_cons, List.pairwise_cons] at ids
        have less : old.id < id := ids.1 old.id (List.mem_map_of_mem member)
        have number : old.id = top.id := congrArg Prod.fst same
        omega
      simp only [returnFrom, frames, if_neg lower]
      exact .unwound (.caught deeper)

/-- One turn in which callbacks do nothing. -/
theorem advanced_turned (machine : Machine) (intact : execution.Intact) :
    execution.Advanced (execution.turned machine).2 := by
  unfold turned
  split
  · exact (advanced_of_suffix (List.tail_suffix _) (.refl _)).settle
  · rename_i frame function below stack
    split
    · exact (raised_raiseFault _ _ _).advanced.settle
    · refine (advanced_of_suffix (tail_suffix_returnFrom _ _) ?_).settle
      rw [flags_returnFrom]
      exact .refl _
    · rename_i routine _ _
      have raised := raised_finishRoutine machine execution
        (execution.routineResult machine routine)
      refine Advanced.settle ⟨spares_returnFrom intact stack raised.frames, ?_⟩
      rw [flags_returnFrom]
      exact raised.flags
  · exact (advanced_dispatch machine execution).settle

end Execution

end ScriptVm
