import ScriptVm.Proofs.Vm.Executions

/-!
# Running and stepping

An execution can be run until it stops, or one turn at a time. Running until it stops is running one
turn again and again, until that fails or the execution has stopped: both end in the same world with
the same result, whatever callbacks do, as long as they do not start the execution over.
-/
namespace ScriptVm

/-- A proper call that neither starts an execution over nor lets it go. An execution that is being
run is held by whoever runs it. -/
structure Call.Aloof (id : Nat) (vm : Vm) (call : Call) : Prop where
  /-- The call is proper. -/
  proper : call.Proper vm
  /-- The execution is not started over. -/
  kept : call.restarted ≠ some id
  /-- The execution is still there after the call. -/
  held : (vm.execution? id).isSome → ((vm.perform call).execution? id).isSome

/-- Callbacks that an execution runs neither start it over nor let it go. -/
def Host.Aloof {σ : Type} (host : Host σ) (id : Nat) : Prop :=
  ∀ number world, Vm.RunsBy (Call.Aloof id) world.1 (host number id world).1

namespace Vm

variable {σ : Type} {host : Host σ} {id : Nat} {vm : Vm} {execution later : Execution}

/-- An execution has stopped. -/
def Stopped (vm : Vm) (id : Nat) : Prop :=
  ∃ execution, vm.execution? id = some execution ∧ execution.flags.stopped = true

/-- Running one turn again and again, at least once, until that fails or the execution has stopped.
The result is that of the last time. -/
inductive Steps (host : Host σ) (id : Nat) : Vm × σ → Except Error Unit → Vm × σ → Prop where
  /-- The last time. -/
  | last {world after : Vm × σ} {result : Except Error Unit}
    (once : runStep host id world = (result, after))
    (ends : (∃ error, result = .error error) ∨ after.1.Stopped id) :
    Steps host id world result after
  /-- Not yet the last time. -/
  | more {world middle after : Vm × σ} {result : Except Error Unit}
    (once : runStep host id world = (.ok (), middle)) (goes : ¬ middle.1.Stopped id)
    (rest : Steps host id middle result after) : Steps host id world result after

/-- Running an execution until it stops comes to an end. -/
def Halts (host : Host σ) (id : Nat) (world : Vm × σ) (result : Except Error Unit)
    (after : Vm × σ) : Prop :=
  ∃ fuel, run host fuel id world = (result.map fun _ => true, after)

/-- An execution that has been run, has calls and has not stopped. -/
structure Going (vm : Vm) (id : Nat) (execution : Execution) : Prop where
  /-- It is there. -/
  present : vm.execution? id = some execution
  /-- It has been run. -/
  started : execution.flags.started = true
  /-- It has not stopped. -/
  awake : execution.flags.stopped = false
  /-- It has calls. -/
  occupied : execution.frames ≠ []

/-- An execution that is on its way is already resumed. -/
theorem Going.resume_eq (going : vm.Going id execution) : execution.resume = execution := by
  have waiting : execution.flags.yielded = false := by
    have awake := going.awake
    simp only [Flags.stopped, Bool.or_eq_false_iff] at awake
    exact awake.1.1.2
  have flags : { execution.flags with started := true, yielded := false } = execution.flags := by
    rw [← going.started, ← waiting]
  unfold Execution.resume
  rw [flags]

/-- An execution that is to be run has calls and has not ended; otherwise nothing is run. -/
theorem ready_cases (vm : Vm) (id : Nat) :
    (∃ error, vm.ready id = .error error) ∨
      ∃ execution, vm.execution? id = some execution ∧
        (execution.ended = true ∧ vm.ready id = .ok none ∨
          execution.ended = false ∧ execution.frames ≠ [] ∧
            vm.ready id = .ok (some execution.resume)) := by
  unfold ready
  cases present : vm.execution? id with
  | none => exact .inl ⟨_, rfl⟩
  | some execution =>
    dsimp only
    by_cases ended : execution.ended = true
    · rw [if_pos ended]
      exact .inr ⟨execution, rfl, .inl ⟨ended, rfl⟩⟩
    · rw [if_neg ended]
      cases stack : execution.frames with
      | nil => exact .inl ⟨_, rfl⟩
      | cons top below =>
        refine .inr ⟨execution, rfl, .inr ⟨Bool.eq_false_iff.mpr ended, ?_, rfl⟩⟩
        rw [stack]
        exact List.cons_ne_nil _ _

/-- An execution that has been made ready is on its way. -/
theorem going_resumed (present : vm.execution? id = some execution)
    (fresh : execution.ended = false) (occupied : execution.frames ≠ []) :
    (vm.setExecution id execution.resume).Going id execution.resume := by
  refine ⟨?_, rfl, ?_, occupied⟩
  · rw [execution?_setExecution, if_pos rfl, present]
    rfl
  · simp only [Execution.ended, Bool.or_eq_false_iff] at fresh
    simp [Execution.resume, Flags.stopped, fresh.1.1, fresh.1.2, fresh.2]

/-- Running one turn of an execution that is on its way takes the turn, and nothing else. -/
theorem Going.runStep_eq (host : Host σ) (going : vm.Going id execution) (threaded : vm.Threaded)
    (state : σ) : runStep host id (vm, state) = (.ok (), turn host id execution (vm, state)) := by
  have prepared : vm.ready id = .ok (some execution) := by
    simp [ready, going.present, Execution.not_ended going.awake, going.occupied, going.resume_eq]
  simp only [runStep, prepared, threaded.setExecution_self going.present]

/-- Callbacks leave an execution there, and what it has gone through is not taken back. -/
theorem Intact.kept_aloof {after : Vm} (intact : vm.Intact)
    (present : vm.execution? id = some execution) (runs : RunsBy (Call.Aloof id) vm after) :
    ∃ later, after.execution? id = some later ∧ execution.flags.Lasts later.flags := by
  have there : (after.execution? id).isSome := by
    induction runs with
    | refl => exact present ▸ rfl
    | tail _ once hypothesis =>
      obtain ⟨call, aloof, rfl⟩ := once
      exact aloof.held hypothesis
  obtain ⟨later, found⟩ := Option.isSome_iff_exists.mp there
  refine ⟨later, found, ?_⟩
  refine Intact.along_runs (motive := fun other => execution.flags.Lasts other.flags)
    (fun _ _ aloof => aloof.proper) ?_ intact present (.refl _) runs found
  intro vm call execution later intact aloof present found _ lasts
  exact lasts.trans (intact.lasts_perform present aloof.kept found)

/-- Every turn settles the execution. -/
theorem settled_turned (machine : Machine) (execution : Execution) :
    ∃ before : Execution, (execution.turned machine).2 = before.settle := by
  unfold Execution.turned
  split
  · exact ⟨_, rfl⟩
  · split
    · exact ⟨_, rfl⟩
    · exact ⟨_, rfl⟩
    · exact ⟨_, rfl⟩
  · exact ⟨_, rfl⟩

/-- A settled execution that has not stopped has calls. -/
theorem occupied_settle {before : Execution} (awake : before.settle.flags.stopped = false) :
    before.settle.frames ≠ [] := by
  intro empty
  rw [Execution.frames_settle] at empty
  rw [Execution.stopped_settle empty] at awake
  cases awake

/-- After a turn an execution has stopped or is on its way. -/
theorem Going.turn (going : vm.Going id execution) (intact : vm.Intact) (aloof : host.Aloof id)
    (state : σ) :
    (turn host id execution (vm, state)).1.Intact ∧
      ∃ later, (turn host id execution (vm, state)).1.execution? id = some later ∧
        (later.flags.stopped = true ∨
          (turn host id execution (vm, state)).1.Going id later) := by
  have ends : ∀ {after : Vm} {before : Execution}, after.execution? id = some before.settle →
      execution.flags.Lasts before.settle.flags →
      ∃ later, after.execution? id = some later ∧
        (later.flags.stopped = true ∨ after.Going id later) := by
    intro after before found lasts
    refine ⟨before.settle, found, ?_⟩
    cases awake : before.settle.flags.stopped with
    | true => exact .inl rfl
    | false => exact .inr ⟨found, lasts.started going.started, awake, occupied_settle awake⟩
  rcases turn_cases host going.present state with once | ⟨frame, _, _, callback, _, _, result⟩
  · rw [once]
    refine ⟨(intact.upholds_perform (proper_of_quiet vm (.turn id) rfl)).intact, ?_⟩
    obtain ⟨before, settled⟩ := settled_turned vm.machine execution
    have lasts := (Execution.advanced_turned vm.machine (intact.execution going.present)).flags
    have found := execution?_turn going.present
    rw [settled] at lasts found
    exact ends found lasts
  · rw [result]
    have runs := aloof callback (vm, state)
    have proper := runsBy_mono (fun _ _ (aloof : Call.Aloof id _ _) => aloof.proper) runs
    have left := (intact.upholds_runs proper).intact
    refine ⟨(left.upholds_perform (proper_of_quiet _ (.leave id frame) rfl)).intact, ?_⟩
    obtain ⟨later, found, lasts⟩ := intact.kept_aloof going.present runs
    have ended : ((host callback id (vm, state)).1.perform (.leave id frame)).execution? id =
        some (later.returnFrom frame).settle := by
      simp only [perform]
      rw [afterRoutine_eq found]
      exact execution?_put_self found _
    refine ends ended (lasts.trans ?_)
    have settled := Execution.lasts_settle (later.returnFrom frame)
    rwa [Execution.flags_returnFrom] at settled

/-- An execution that is on its way takes a turn, and then the others. -/
theorem Going.turns_succ (going : vm.Going id execution) (state : σ) (fuel : Nat) :
    turns host id (fuel + 1) (vm, state) =
      turns host id fuel (Vm.turn host id execution (vm, state)) := by
  rw [turns]
  simp [going.present, going.awake, going.occupied]

/-- An execution that has stopped takes no turn. -/
theorem turns_stopped {world : Vm × σ} (stopped : world.1.Stopped id) (fuel : Nat) :
    turns host id (fuel + 1) world = (true, world) := by
  obtain ⟨execution, present, flagged⟩ := stopped
  rw [turns]
  simp [present, flagged]

/-- An execution that is on its way has not stopped. -/
theorem Going.not_stopped (going : vm.Going id execution) : ¬ vm.Stopped id := by
  rintro ⟨other, present, stopped⟩
  rw [going.present] at present
  obtain rfl := Option.some.inj present
  rw [going.awake] at stopped
  cases stopped

/-- Turns until an execution stops are single turns. -/
theorem Going.steps_of_turns (aloof : host.Aloof id) {fuel : Nat} {state : σ} {after : Vm × σ}
    (going : vm.Going id execution) (intact : vm.Intact)
    (halts : turns host id fuel (vm, state) = (true, after)) :
    Steps host id (vm, state) (.ok ()) after := by
  induction fuel generalizing vm execution state with
  | zero => simp [turns] at halts
  | succ fuel hypothesis =>
    have once := going.runStep_eq host intact.threaded state
    rw [going.turns_succ] at halts
    obtain ⟨whole, later, found, stopped | goes⟩ := going.turn intact aloof state
    · cases fuel with
      | zero => simp [turns] at halts
      | succ fuel =>
        have halted : (Vm.turn host id execution (vm, state)).1.Stopped id :=
          ⟨later, found, stopped⟩
        rw [turns_stopped halted] at halts
        obtain ⟨_, rfl⟩ := Prod.mk.inj halts
        exact .last once (.inr halted)
    · exact .more once goes.not_stopped (hypothesis goes whole halts)

/-- Single turns until an execution stops are turns until it stops. -/
theorem Going.turns_of_steps (aloof : host.Aloof id) {world after : Vm × σ}
    {result : Except Error Unit} (going : world.1.Going id execution) (intact : world.1.Intact)
    (steps : Steps host id world result after) :
    result = .ok () ∧ after.1.Stopped id ∧ ∃ fuel, turns host id fuel world = (true, after) := by
  induction steps generalizing execution with
  | last once ends =>
    rename_i world after result
    rw [going.runStep_eq host intact.threaded world.2] at once
    obtain ⟨rfl, rfl⟩ := Prod.mk.inj once
    rcases ends with ⟨error, failed⟩ | halted
    · cases failed
    · exact ⟨rfl, halted, 2, by rw [going.turns_succ, turns_stopped halted]⟩
  | more once goes rest hypothesis =>
    rename_i world middle after result
    rw [going.runStep_eq host intact.threaded world.2] at once
    obtain ⟨_, rfl⟩ := Prod.mk.inj once
    obtain ⟨whole, later, found, stopped | further⟩ := going.turn intact aloof world.2
    · exact absurd ⟨later, found, stopped⟩ goes
    · obtain ⟨succeeds, halted, fuel, halts⟩ := hypothesis further whole
      exact ⟨succeeds, halted, fuel + 1, by rw [going.turns_succ, halts]⟩

/-- Running an execution until it stops and running it one turn at a time come to the same. -/
structure Stepwise (host : Host σ) (id : Nat) (world : Vm × σ) : Prop where
  /-- Running until the execution stops ends where single turns end, with their last result. -/
  halts : ∀ result after, Halts host id world result after ↔ Steps host id world result after
  /-- Either way of running that succeeds leaves calls in an execution that has not stopped. -/
  occupied : ∀ after execution,
    runStep host id world = (.ok (), after) ∨ Halts host id world (.ok ()) after →
    after.1.execution? id = some execution → execution.flags.stopped = false →
    execution.frames ≠ []
  /-- Running until the execution stops, when it succeeds, leaves an execution that has stopped. -/
  stops : ∀ after, Halts host id world (.ok ()) after → after.1.Stopped id
  /-- An execution that has ended is not run any more, and nothing changes. -/
  ended : ∀ execution, world.1.execution? id = some execution → execution.ended = true →
    runStep host id world = (.ok (), world) ∧ ∀ fuel, run host fuel id world = (.ok true, world)

/-- Running an execution that has ended does nothing. -/
theorem idle_of_ended (host : Host σ) (state : σ) (present : vm.execution? id = some execution)
    (ended : execution.ended = true) :
    runStep host id (vm, state) = (.ok (), (vm, state)) ∧
      ∀ fuel, run host fuel id (vm, state) = (.ok true, (vm, state)) := by
  have finished : vm.ready id = .ok none := by simp [ready, present, ended]
  exact ⟨by simp [runStep, finished], fun fuel => by simp [run, finished]⟩

/-- An execution that has stopped is not awake. -/
theorem Stopped.not_awake (stopped : vm.Stopped id) (found : vm.execution? id = some execution) :
    execution.flags.stopped ≠ false := by
  obtain ⟨other, present, flagged⟩ := stopped
  obtain rfl := Option.some.inj (found.symm.trans present)
  simp [flagged]

/-- Where both ways of running do nothing, they agree. -/
theorem stepwise_of_idle {world : Vm × σ} {answer : Except Error Unit}
    (once : runStep host id world = (answer, world))
    (always : ∀ fuel, run host fuel id world = (answer.map fun _ => true, world))
    (ends : (∃ error, answer = .error error) ∨ world.1.Stopped id) : Stepwise host id world := by
  have halted : ∀ {result after}, Halts host id world result after →
      answer = result ∧ after = world := by
    rintro result after ⟨fuel, halts⟩
    obtain ⟨same, rfl⟩ := Prod.mk.inj ((always fuel).symm.trans halts)
    refine ⟨?_, rfl⟩
    cases answer <;> cases result <;> simp_all [Except.map]
  have stopped : answer = .ok () → world.1.Stopped id := by
    rintro rfl
    rcases ends with ⟨error, failed⟩ | halted
    · cases failed
    · exact halted
  refine ⟨?_, ?_, ?_, fun _ => idle_of_ended host world.2⟩
  · intro result after
    constructor
    · intro halts
      obtain ⟨rfl, rfl⟩ := halted halts
      exact .last once ends
    · intro steps
      cases steps with
      | last again _ =>
        obtain ⟨rfl, rfl⟩ := Prod.mk.inj (once.symm.trans again)
        exact ⟨0, always 0⟩
      | more again goes _ =>
        obtain ⟨succeeds, rfl⟩ := Prod.mk.inj (once.symm.trans again)
        exact absurd (stopped succeeds) goes
  · rintro after other (succeeds | halts) found awake
    · obtain ⟨result, rfl⟩ := Prod.mk.inj (once.symm.trans succeeds)
      exact absurd awake ((stopped result).not_awake found)
    · obtain ⟨result, rfl⟩ := halted halts
      exact absurd awake ((stopped result).not_awake found)
  · intro after halts
    obtain ⟨result, rfl⟩ := halted halts
    exact stopped result

/-- The first of the single turns decides about all of them. -/
theorem steps_congr {world other after : Vm × σ} {result : Except Error Unit}
    (same : runStep host id world = runStep host id other)
    (steps : Steps host id world result after) : Steps host id other result after := by
  cases steps with
  | last once ends => exact .last (same ▸ once) ends
  | more once goes rest => exact .more (same ▸ once) goes rest

/-- An execution that is ready is resumed once, and then it takes its turns. -/
theorem Intact.stepwise_of_ready (intact : vm.Intact) (aloof : host.Aloof id)
    (present : vm.execution? id = some execution) (unended : execution.ended = false)
    (occupied : execution.frames ≠ []) (prepared : vm.ready id = .ok (some execution.resume))
    (state : σ) : Stepwise host id (vm, state) := by
  let world := (vm.setExecution id execution.resume, state)
  have going : world.1.Going id execution.resume := going_resumed present unended occupied
  have whole : world.1.Intact := by
    have resumed := intact.upholds_perform (proper_of_quiet vm (.resume id) rfl)
    rw [(Vm.resumed prepared).1] at resumed
    exact resumed.intact
  have stepped := going.runStep_eq host whole.threaded state
  have once : runStep host id (vm, state) = runStep host id world := by
    rw [stepped]
    simp [runStep, prepared, world]
  have turned : ∀ fuel, run host fuel id (vm, state) =
      (.ok (turns host id fuel world).1, (turns host id fuel world).2) := by
    intro fuel
    simp [run, prepared, world]
  have halts : ∀ result after, Halts host id (vm, state) result after ↔
      Steps host id (vm, state) result after := by
    intro result after
    constructor
    · rintro ⟨fuel, halts⟩
      rw [turned] at halts
      obtain ⟨succeeds, reached⟩ := Prod.mk.inj halts
      cases result with
      | error error => cases succeeds
      | ok _ =>
        have ends : turns host id fuel world = (true, after) :=
          Prod.ext (Except.ok.inj succeeds) reached
        exact steps_congr once.symm (going.steps_of_turns aloof whole ends)
    · intro steps
      obtain ⟨rfl, _, fuel, ends⟩ := going.turns_of_steps aloof whole (steps_congr once steps)
      exact ⟨fuel, by rw [turned, ends]; rfl⟩
  have stops : ∀ after, Halts host id (vm, state) (.ok ()) after → after.1.Stopped id := by
    intro after ends
    exact (going.turns_of_steps aloof whole (steps_congr once ((halts _ _).mp ends))).2.1
  refine ⟨halts, ?_, stops, fun _ => idle_of_ended host state⟩
  rintro after other (succeeds | ends) found awake
  · obtain ⟨_, rfl⟩ := Prod.mk.inj ((once.trans stepped).symm.trans succeeds)
    obtain ⟨_, later, there, stopped | goes⟩ := going.turn whole aloof state
    · exact absurd awake (Stopped.not_awake ⟨later, there, stopped⟩ found)
    · obtain rfl := Option.some.inj (found.symm.trans there)
      exact goes.occupied
  · exact absurd awake ((stops after ends).not_awake found)

/-- Whatever proper calls were made before, running an execution until it stops is running it one
turn at a time, as long as its callbacks neither start it over nor let it go. -/
theorem stepwise_of_runs {config : Config} {fresh : Vm} (made : create config = .ok fresh)
    (runs : RunsBy Call.Proper fresh vm) (aloof : host.Aloof id) (state : σ) :
    Stepwise host id (vm, state) := by
  have intact := ((intact_create made).upholds_runs runs).intact
  rcases ready_cases vm id with
    ⟨error, failed⟩ | ⟨execution, present, ⟨ended, _⟩ | ⟨unended, occupied, prepared⟩⟩
  · have once : runStep host id (vm, state) = (.error error, (vm, state)) := by
      simp [runStep, failed]
    exact stepwise_of_idle once (fun fuel => by simp [run, failed, Except.map])
      (.inl ⟨error, rfl⟩)
  · obtain ⟨once, always⟩ := idle_of_ended host state present ended
    exact stepwise_of_idle once always (.inr ⟨execution, present, Execution.stopped_of_ended ended⟩)
  · exact intact.stepwise_of_ready aloof present unended occupied prepared state

/-- A callback that lets its execution wait. -/
def pausing : Host Nat := fun _ id world => (world.1.perform (.suspend id), world.2 + 1)

/-- A callback that lets its execution wait neither starts it over nor lets it go. -/
theorem aloof_pausing (id : Nat) : pausing.Aloof id := by
  intro number world
  refine .single ⟨.suspend id, ⟨proper_of_quiet _ _ rfl, by simp [Call.restarted], ?_⟩, rfl⟩
  intro there
  obtain ⟨execution, present⟩ := Option.isSome_iff_exists.mp there
  simp only [perform, onExecution, present]
  rw [execution?_put_self present]
  rfl

/-- Of two host calls with a callback that lets the execution wait, one is run. -/
theorem stepwise_of_runs_pausing : ∃ fresh vm, create {} = .ok fresh ∧
    RunsBy Call.Proper fresh vm ∧ pausing.Aloof 0 ∧ Stepwise pausing 0 (vm, 0) ∧
    ∃ after, Steps pausing 0 (vm, 0) (.ok ()) after ∧ after.2 = 1 ∧
      (after.1.execution? 0).map (fun execution => (execution.status, execution.frames.length)) =
        some (.yielded, 1) := by
  let host : Function := .host ⟨"host", 0, 0, none, some (.callback 7)⟩
  let fresh : Vm := { machine := { config := {}, registry := .initial, collector := .create 32 } }
  have made : create {} = .ok fresh := rfl
  have passes : ∀ vm, (Call.restart 0 host).Proper vm ∧ (Call.pushFrame 0 host).Proper vm := by
    intro vm
    constructor <;> rintro function ⟨rfl⟩ <;> exact .inl trivial
  let vm := ((fresh.perform .createExecution).perform (.restart 0 host)).perform (.pushFrame 0 host)
  have runs : RunsBy Call.Proper fresh vm :=
    .tail (.tail (.single ⟨.createExecution, proper_of_quiet _ _ rfl, rfl⟩)
      ⟨.restart 0 host, (passes _).1, rfl⟩) ⟨.pushFrame 0 host, (passes _).2, rfl⟩
  have stepwise := stepwise_of_runs made runs (aloof_pausing 0) 0
  have succeeds : (run pausing 2 0 (vm, 0)).1 = .ok true := by decide +kernel
  have halts : Halts pausing 0 (vm, 0) (.ok ()) (run pausing 2 0 (vm, 0)).2 := by
    refine ⟨2, ?_⟩
    generalize run pausing 2 0 (vm, 0) = outcome at succeeds ⊢
    exact Prod.ext succeeds rfl
  exact ⟨fresh, vm, made, runs, aloof_pausing 0, stepwise, _, (stepwise.halts _ _).mp halts,
    by decide +kernel, by decide +kernel⟩

end Vm

end ScriptVm
