import ScriptVm.Proofs.Vm.Executions

/-!
# Invocations of callbacks

A host call runs its routine when its frame is the innermost one, and then the frame goes. It stays
when its callback has pushed further frames and left them there, and once these are gone the routine
runs again. That is the only way: the routine of a host call runs a second time if and only if a
callback leaves its frame under others in an execution that has not ended.
-/
namespace ScriptVm

namespace Registry

variable {registry changed : Registry} {function : HostFunction}

/-- A change leaves a host function bound. -/
theorem Change.routine?_isSome (change : registry.Change changed)
    (bound : (registry.routine? function).isSome) : (changed.routine? function).isSome := by
  cases own : function.routine with
  | some routine => simp [routine?, own]
  | none =>
    have known : registry.bindings.contains function.signature = true := by
      simpa [routine?, own, Table.contains] using bound
    have kept : changed.bindings.contains function.signature = true := by
      cases change with
      | assigned | declared | registered | installed => exact known
      | bound signature routine =>
        rw [Table.contains_iff] at known ⊢
        dsimp only [Table.put]
        split
        · rw [Table.names_replace]
          exact known
        · rw [Table.names_add]
          exact List.mem_append_left _ known
    simpa [routine?, own, Table.contains] using kept

/-- A host function that is bound stays bound. -/
theorem Changes.routine?_isSome (changes : registry.Changes changed)
    (bound : (registry.routine? function).isSome) : (changed.routine? function).isSome := by
  induction changes with
  | refl => exact bound
  | tail _ change hypothesis => exact change.routine?_isSome hypothesis

end Registry

namespace Execution

variable {execution after : Execution} {number : Nat} {function : HostFunction}
  {below : List Frame}

/-- A frame on top has another number than those below it. -/
theorem Intact.not_mem_below (intact : execution.Intact)
    (stack : execution.frames = .host number function :: below) :
    number ∉ below.map Frame.id := by
  have ids := intact.ids
  rw [stack, List.map_cons, List.pairwise_cons] at ids
  exact fun member => Nat.lt_irrefl _ (ids.1 number member)

/-- A host call on top that ends takes its number from the call stack, if frames were only
dropped. -/
theorem Intact.not_mem_returnFrom (intact : execution.Intact)
    (stack : execution.frames = .host number function :: below)
    (dropped : after.labels <:+ execution.labels) :
    number ∉ (after.returnFrom number).frames.map Frame.id := by
  have fewer : after.frames.map Frame.id <:+ number :: below.map Frame.id := by
    have ids := dropped.map Prod.fst
    simp only [labels, List.map_map, stack, List.map_cons] at ids
    exact ids
  have apart := intact.not_mem_below stack
  cases frames : after.frames with
  | nil => simp [returnFrom, frames]
  | cons top rest =>
    rw [frames, List.map_cons] at fewer
    by_cases same : top.id = number
    · simp only [returnFrom, frames, if_pos same]
      rcases List.suffix_cons_iff.mp fewer with whole | deeper
      · rw [(List.cons.inj whole).2]
        exact apart
      · exact absurd (deeper.subset (same ▸ List.mem_cons_self)) apart
    · simp only [returnFrom, frames, if_neg same, List.map_cons]
      rcases List.suffix_cons_iff.mp fewer with whole | deeper
      · exact absurd (List.cons.inj whole).1 same
      · exact fun member => apart (deeper.subset member)

/-- A frame with the number of a host call is the frame of that host call. -/
theorem Follows.eq_host (follows : execution.Follows after) (intact : execution.Intact)
    (stack : execution.frames = .host number function :: below) {frame : Frame}
    (member : frame ∈ after.frames) (same : frame.id = number) :
    frame = .host number function := by
  have known : number ≤ execution.issued :=
    intact.issued (.host number function) (stack ▸ List.mem_cons_self)
  obtain ⟨_, _, _, suffix, olds⟩ := follows.exists_kept
  have older : frame.label ∈ execution.labels := suffix.subset (olds frame member (same ▸ known))
  rw [Execution.labels, stack, List.map_cons] at older
  rcases List.mem_cons.mp older with here | lower
  · cases frame with
    | script id activation => cases congrArg Prod.snd here
    | host id other =>
      obtain ⟨rfl, called⟩ := Prod.mk.inj here
      exact congrArg (Frame.host id) (Function.host.inj called)
  · obtain ⟨other, there, equal⟩ := List.mem_map.mp lower
    have number : other.id = number := (congrArg Prod.fst equal).trans same
    exact absurd (number ▸ List.mem_map_of_mem there) (intact.not_mem_below stack)

end Execution

/-- A proper call that does not run an execution. -/
def Call.Outside (id : Nat) (vm : Vm) (call : Call) : Prop :=
  call.Proper vm ∧ call ≠ .turn id

/-- The callbacks that an execution runs do not run it themselves. -/
def Host.Outside {σ : Type} (host : Host σ) (id : Nat) : Prop :=
  ∀ number world, Vm.RunsBy (Call.Outside id) world.1 (host number id world).1

namespace Vm

variable {σ : Type} {host : Host σ} {id number : Nat} {vm : Vm} {execution : Execution}
  {start world : Vm × σ} {numbers : List Nat}

/-- The frame whose routine the next turn of an execution runs. -/
def invocation? (vm : Vm) (id : Nat) : Option Nat :=
  match (vm.execution? id).map Execution.frames with
  | some (.host number function :: _) =>
    if (vm.machine.registry.routine? function).isSome then some number else none
  | _ => none

/-- What happens to a virtual machine from some point on, with the frames of an execution whose
routines are run: the embedding program makes calls, and the execution takes turns as long as it has
not stopped. -/
inductive History (host : Host σ) (id : Nat) (start : Vm × σ) : List Nat → Vm × σ → Prop where
  /-- Nothing has happened. -/
  | none : History host id start [] start
  /-- The embedding program makes a call, and its own state changes. -/
  | call {numbers : List Nat} {world : Vm × σ} (history : History host id start numbers world)
    {call : Call} (outside : call.Outside id world.1) (state : σ) :
    History host id start numbers (world.1.perform call, state)
  /-- The execution takes a turn. -/
  | turn {numbers : List Nat} {world : Vm × σ} (history : History host id start numbers world)
    {execution : Execution} (present : world.1.execution? id = some execution)
    (awake : execution.flags.stopped = false) :
    History host id start (numbers ++ (world.1.invocation? id).toList)
      (Vm.turn host id execution world)

/-- Running an execution is part of a history: it is resumed, and it takes turns. -/
theorem History.turns (history : History host id start numbers world) (fuel : Nat) :
    ∃ more, History host id start more (Vm.turns host id fuel world).2 := by
  induction fuel generalizing numbers world with
  | zero => exact ⟨numbers, history⟩
  | succ fuel hypothesis =>
    unfold Vm.turns
    split
    · exact ⟨numbers, history⟩
    · rename_i execution present
      split
      · exact ⟨numbers, history⟩
      · rename_i awake
        have once := history.turn present (Bool.eq_false_iff.mpr awake)
        split
        · rename_i empty
          have nothing : execution.frames = [] := List.isEmpty_iff.mp empty
          simp only [Vm.turn, nothing] at once
          exact ⟨_, once⟩
        · exact hypothesis once

/-- Running an execution until it stops is a history. -/
theorem history_run (host : Host σ) (id fuel : Nat) (world : Vm × σ) :
    ∃ numbers, History host id world numbers (run host fuel id world).2 := by
  unfold run
  split
  · exact ⟨[], .none⟩
  · exact ⟨[], .none⟩
  · rename_i execution prepared
    have outside : Call.Outside id world.1 (.resume id) := ⟨proper_of_quiet _ _ rfl, nofun⟩
    have resumed : History host id world [] (world.1.perform (.resume id), world.2) :=
      .call .none outside world.2
    rw [(Vm.resumed prepared).1] at resumed
    exact resumed.turns fuel

/-- Callbacks that do not run their execution make proper calls. -/
theorem proper_of_outside (outside : host.Outside id) (callback : Nat) (world : Vm × σ) :
    RunsBy Call.Proper world.1 (host callback id world).1 :=
  runsBy_mono (fun _ _ allows => allows.1) (outside callback world)

/-- A turn makes proper calls. -/
theorem runsBy_turn_outside (outside : host.Outside id)
    (present : vm.execution? id = some execution) (state : σ) :
    RunsBy Call.Proper vm (turn host id execution (vm, state)).1 :=
  runsBy_turn proper_of_quiet (proper_of_outside outside) present state

/-- A history makes proper calls. -/
theorem History.runs (outside : host.Outside id)
    (history : History host id start numbers world) : RunsBy Call.Proper start.1 world.1 := by
  induction history with
  | none => exact .refl
  | call _ allows state hypothesis => exact hypothesis.tail ⟨_, allows.1, rfl⟩
  | turn _ present awake hypothesis =>
    exact hypothesis.trans (runsBy_turn_outside outside present _)

/-- A routine that was run was run in a turn. -/
theorem History.exists_turn (outside : host.Outside id)
    (history : History host id start numbers world) (member : number ∈ numbers) :
    ∃ vm execution, RunsBy Call.Proper start.1 vm ∧ vm.execution? id = some execution ∧
      execution.flags.stopped = false ∧ number ∈ execution.frames.map Frame.id := by
  induction history with
  | none => cases member
  | call _ _ _ hypothesis => exact hypothesis member
  | turn history present awake hypothesis =>
    rename_i world execution
    rcases List.mem_append.mp member with earlier | now
    · exact hypothesis earlier
    · refine ⟨world.1, execution, history.runs outside, present, awake, ?_⟩
      have chosen := Option.mem_toList.mp now
      simp only [invocation?, present, Option.map_some] at chosen
      split at chosen
      · rename_i stack
        split at chosen
        · obtain rfl := Option.some.inj chosen
          rw [Option.some.inj stack]
          exact List.mem_cons_self
        · cases chosen
      · cases chosen

/-- The only frame after a restart has a new number. -/
theorem ids_restart {later : Execution} {entry : Function}
    (done : execution.restart entry = .ok later) :
    later.frames.map Frame.id = [execution.issued + 1] := by
  rw [Execution.restart_eq] at done
  obtain ⟨⟨frame, pushed⟩, made, last⟩ := Except.bind_eq_ok done
  obtain rfl := Except.ok.inj last
  rw [Execution.pushFrame_eq] at made
  split at made
  · obtain ⟨_, rfl⟩ := Prod.mk.inj (Except.ok.inj made)
    cases entry <;> rfl
  · simp at made

/-- As long as an old frame is on the call stack, an execution that has ended is not started
over. -/
theorem Intact.ended_perform {later : Execution} {call : Call} (intact : vm.Intact)
    (present : vm.execution? id = some execution)
    (found : (vm.perform call).execution? id = some later) (known : number ≤ execution.issued)
    (member : number ∈ later.frames.map Frame.id) (ended : execution.ended = true) :
    later.ended = true := by
  by_cases restarts : call.restarted = some id
  · cases call with
    | restart other entry =>
      obtain rfl := Option.some.inj restarts
      rcases execution?_onExecution present (Work.atomic_onSecond (Work.atomic_restart entry)) found
        with rfl | ⟨machine, done⟩
      · exact ended
      · obtain ⟨changed, worked, same⟩ := Work.changed_onSecond done
        obtain ⟨_, rfl⟩ := Prod.mk.inj same
        rw [ids_restart worked, List.mem_singleton] at member
        omega
    | _ => simp [Call.restarted] at restarts
  · exact Execution.ended_of_lasts (intact.lasts_perform present restarts found) ended

/-- As long as an old frame is on the call stack, an execution that has ended stays so. -/
theorem Intact.ended_runs {later : Execution} {after : Vm} (intact : vm.Intact)
    (present : vm.execution? id = some execution) (known : number ≤ execution.issued)
    (ended : execution.ended = true) (runs : RunsBy Call.Proper vm after)
    (found : after.execution? id = some later) (member : number ∈ later.frames.map Frame.id) :
    later.ended = true := by
  have kept : number ≤ later.issued ∧
      (number ∈ later.frames.map Frame.id → later.ended = true) := by
    refine Intact.along_runs (motive := fun execution => number ≤ execution.issued ∧
      (number ∈ execution.frames.map Frame.id → execution.ended = true))
      (fun _ _ proper => proper) ?_ intact present ⟨known, fun _ => ended⟩ runs found
    intro vm call execution later intact _ present found follows kept
    refine ⟨Nat.le_trans kept.1 follows.issued, fun there => ?_⟩
    exact intact.ended_perform present found kept.1 there (kept.2 (follows.mem_ids kept.1 there))
  exact kept.2 member

/-- A routine is run again only for a frame that is still on the call stack of an execution that has
not ended. -/
theorem Intact.exists_of_history (intact : start.1.Intact) (outside : host.Outside id)
    (known : id < start.1.created)
    (issued : ∀ execution, start.1.execution? id = some execution → number ≤ execution.issued)
    (history : History host id start numbers world) (member : number ∈ numbers) :
    ∃ execution, start.1.execution? id = some execution ∧
      number ∈ execution.frames.map Frame.id ∧ execution.ended = false := by
  obtain ⟨vm, later, runs, found, awake, there⟩ := history.exists_turn outside member
  have upholds := intact.upholds_runs runs
  obtain ⟨execution, present⟩ := upholds.existed intact known found
  have follows := upholds.follows_execution intact present found
  refine ⟨execution, present, follows.mem_ids (issued execution present) there, ?_⟩
  refine Bool.eq_false_iff.mpr fun ended => ?_
  have still := intact.ended_runs present (issued execution present) ended runs found there
  rw [Execution.not_ended awake] at still
  cases still

/-- Frames above others are popped from outside. -/
theorem History.pops {above base : List Frame} (history : History host id start numbers world)
    (present : world.1.execution? id = some execution) (stack : execution.frames = above ++ base) :
    ∃ after popped, History host id start numbers after ∧
      after.1.machine = world.1.machine ∧ after.1.execution? id = some popped ∧
      popped.frames = base ∧ popped.flags = execution.flags := by
  induction above generalizing world execution with
  | nil => exact ⟨world, execution, history, rfl, present, stack, rfl⟩
  | cons top above hypothesis =>
    let popped : Execution := { execution with frames := above ++ base }
    have outside : Call.Outside id world.1 (.popFrame id) := ⟨proper_of_quiet _ _ rfl, nofun⟩
    have once : world.1.perform (.popFrame id) = world.1.put id (world.1.machine, popped) := by
      have left : Work.popFrame.left execution = popped := by
        have done : execution.popFrame = .ok popped := by rw [Execution.popFrame_eq, stack]; rfl
        exact Work.left_of_changed done
      simp only [perform, onExecution, present, Work.left_onSecond, left]
    have next : History host id start numbers
        (world.1.put id (world.1.machine, popped), world.2) :=
      once ▸ history.call outside world.2
    have rest := hypothesis next (execution?_put_self present _) rfl
    exact rest

/-- A frame of a bound host function on top of the call stack of an execution that has not ended is
run, once the execution is resumed. -/
theorem History.runs_again {function : HostFunction} {below : List Frame}
    (history : History host id start numbers world)
    (present : world.1.execution? id = some execution)
    (stack : execution.frames = .host number function :: below) (unended : execution.ended = false)
    (bound : (world.1.machine.registry.routine? function).isSome) :
    ∃ after, History host id start (numbers ++ [number]) after := by
  have outside : Call.Outside id world.1 (.resume id) := ⟨proper_of_quiet _ _ rfl, nofun⟩
  have prepared : world.1.ready id = .ok (some execution.resume) := by
    simp [ready, present, unended, stack]
  have resumed := history.call outside world.2
  rw [(Vm.resumed prepared).1] at resumed
  have awake : execution.resume.flags.stopped = false := by
    simp only [Execution.ended, Bool.or_eq_false_iff] at unended
    simp [Execution.resume, Flags.stopped, unended.1.1, unended.1.2, unended.2]
  have turned := resumed.turn (Vm.resumed prepared).2 awake
  have chosen : (world.1.setExecution id execution.resume).invocation? id = some number := by
    have frames : execution.resume.frames = .host number function :: below := stack
    have kept : ((world.1.setExecution id execution.resume).machine.registry.routine?
      function).isSome := bound
    simp only [invocation?, (Vm.resumed prepared).2, Option.map_some, frames, if_pos kept]
  rw [chosen] at turned
  exact ⟨_, turned⟩

/-- An execution whose innermost frame is another one does not lose it when a host call ends. -/
theorem settle_returnFrom_of_covered {left : Execution} (intact : left.Intact)
    {above below : List Frame} {frame : Frame} (covered : above ≠ [])
    (stack : left.frames = above ++ frame :: below) :
    (left.returnFrom frame.id).settle = left := by
  obtain ⟨top, above, rfl⟩ := List.exists_cons_of_ne_nil covered
  have other : top.id ≠ frame.id := by
    have ids := intact.ids
    rw [stack, List.cons_append, List.map_cons, List.pairwise_cons] at ids
    have less := ids.1 frame.id (List.mem_map_of_mem (by simp))
    omega
  have stays : left.returnFrom frame.id = left := by
    simp [Execution.returnFrom, stack, other]
  rw [stays]
  simp [Execution.settle, stack]

/-- The turn of a host call whose routine is a callback. -/
theorem turn_callback {function : HostFunction} {below : List Frame} {callback : Nat}
    (stack : execution.frames = .host number function :: below)
    (bound : vm.machine.registry.routine? function = some (.callback callback)) (state : σ) :
    (turn host id execution (vm, state)).1 =
      (host callback id (vm, state)).1.perform (.leave id number) := by
  simp [turn, stack, callHost, bound, perform]

/-- A routine that the machine does by itself takes the number of its frame from the call stack. -/
theorem Intact.not_mem_turned (intact : vm.Intact) (present : vm.execution? id = some execution)
    {function : HostFunction} {below : List Frame}
    (stack : execution.frames = .host number function :: below) {routine : Routine}
    (bound : vm.machine.registry.routine? function = some routine)
    (own : ∀ callback, routine ≠ .callback callback) :
    number ∉ (execution.turned vm.machine).2.frames.map Frame.id := by
  have finished := Execution.raised_finishRoutine vm.machine execution
    (execution.routineResult vm.machine routine)
  have gone := (intact.execution present).not_mem_returnFrom stack finished.frames.labels
  cases routine with
  | callback callback => exact absurd rfl (own callback)
  | operator operator | cast target => simpa [Execution.turned, stack, bound] using gone

/-- The number of a host call is still on the call stack after its callback only if the callback
left the frame under others. -/
theorem Intact.covered_of_mem (intact : vm.Intact) (present : vm.execution? id = some execution)
    {function : HostFunction} {below : List Frame}
    (stack : execution.frames = .host number function :: below) {after : Vm}
    (runs : RunsBy Call.Proper vm after) {left : Execution}
    (found : after.execution? id = some left)
    (member : number ∈ (left.returnFrom number).frames.map Frame.id) :
    ∃ above rest, left.frames = above ++ .host number function :: rest ∧ above ≠ [] := by
  have fine := intact.execution present
  have follows := (intact.upholds_runs runs).follows_execution intact present found
  rcases Execution.returnFrom_cases follows fine stack with ⟨labels, _⟩ | ⟨other, same⟩
  · exact absurd member (fine.not_mem_returnFrom stack (labels ▸ List.suffix_rfl))
  · rw [same] at member
    obtain ⟨frame, inside, numbered⟩ := List.mem_map.mp member
    obtain ⟨above, rest, frames⟩ := List.append_of_mem inside
    obtain rfl := follows.eq_host fine stack inside numbered
    refine ⟨above, rest, frames, ?_⟩
    rintro rfl
    rw [List.nil_append] at frames
    exact other _ (by rw [frames]; exact rfl) rfl

/-- A routine that is run again is a callback that left its frame under others. -/
theorem Intact.covered_of_history (intact : vm.Intact) (outside : host.Outside id)
    (present : vm.execution? id = some execution) {function : HostFunction} {below : List Frame}
    (stack : execution.frames = .host number function :: below) {routine : Routine}
    (bound : vm.machine.registry.routine? function = some routine) {state : σ}
    (history : History host id (turn host id execution (vm, state)) numbers world)
    (member : number ∈ numbers) :
    ∃ callback left above rest, routine = .callback callback ∧
      (host callback id (vm, state)).1.execution? id = some left ∧
      left.frames = above ++ .host number function :: rest ∧ above ≠ [] ∧ left.ended = false := by
  have known := intact.threaded.lt_created present
  have issued : number ≤ execution.issued :=
    (intact.execution present).issued (.host number function) (stack ▸ List.mem_cons_self)
  have upholds := intact.upholds_runs (runsBy_turn_outside outside present state)
  obtain ⟨turned, there, still, unended⟩ := upholds.intact.exists_of_history outside
    (Nat.lt_of_lt_of_le known upholds.continues.follows.created)
    (fun _ found => Nat.le_trans issued (upholds.follows_execution intact present found).issued)
    history member
  cases routine with
  | callback callback =>
    have calls := proper_of_outside outside callback (vm, state)
    have reached := intact.upholds_runs calls
    have ends := reached.intact.upholds_perform
      (proper_of_quiet (host callback id (vm, state)).1 (.leave id number) rfl)
    rw [turn_callback stack bound] at there
    obtain ⟨left, found⟩ := ends.existed reached.intact
      (Nat.lt_of_lt_of_le known reached.continues.follows.created) there
    simp only [perform] at there
    rw [afterRoutine_eq found, execution?_put_self found] at there
    obtain rfl := Option.some.inj there
    rw [Execution.frames_settle] at still
    obtain ⟨above, rest, frames, covered⟩ := intact.covered_of_mem present stack calls found still
    refine ⟨callback, left, above, rest, rfl, found, frames, covered, ?_⟩
    refine Bool.eq_false_iff.mpr fun ended => ?_
    have lasts := Execution.lasts_settle (left.returnFrom number)
    rw [Execution.flags_returnFrom] at lasts
    rw [Execution.ended_of_lasts lasts ended] at unended
    cases unended
  | operator operator | cast target =>
    have once : (turn host id execution (vm, state)).1 = vm.perform (.turn id) := by
      rcases turn_cases host present state with once | ⟨_, other, _, callback, top, hooked, _⟩
      · exact once
      · rw [stack] at top
        obtain ⟨rfl, rfl⟩ := Frame.host.inj (List.cons.inj top).1
        cases bound.symm.trans hooked
    rw [once, execution?_turn present] at there
    rw [← Option.some.inj there] at still
    exact absurd still (intact.not_mem_turned present stack bound fun _ equal => by cases equal)

/-- A callback that left its frame under others is run again, once these are popped and the
execution is resumed. -/
theorem Intact.history_of_covered (intact : vm.Intact) (outside : host.Outside id)
    {function : HostFunction} {below : List Frame}
    (stack : execution.frames = .host number function :: below) {callback : Nat}
    (bound : vm.machine.registry.routine? function = some (.callback callback)) (state : σ)
    {left : Execution} (found : (host callback id (vm, state)).1.execution? id = some left)
    {above rest : List Frame} (frames : left.frames = above ++ .host number function :: rest)
    (covered : above ≠ []) (unended : left.ended = false) :
    ∃ later, History host id (turn host id execution (vm, state)) [number] later := by
  let called := (host callback id (vm, state)).1
  let world := turn host id execution (vm, state)
  have reached := intact.upholds_runs (proper_of_outside outside callback (vm, state))
  have ended : world.1 = called.put id (called.machine, left) := by
    have settled : (left.returnFrom number).settle = left :=
      settle_returnFrom_of_covered (reached.intact.execution found) covered frames
    have eq := afterRoutine_eq found number
    rw [settled] at eq
    exact (turn_callback stack bound state).trans eq
  have there : world.1.execution? id = some left := by
    rw [ended]
    exact execution?_put_self found _
  have machine : world.1.machine = called.machine := by
    rw [ended]
    rfl
  have hooked : (called.machine.registry.routine? function).isSome :=
    reached.machine.changes.routine?_isSome (bound ▸ rfl)
  have begun : History host id world [] world := .none
  obtain ⟨after, popped, history, same, present, top, flags⟩ := begun.pops there frames
  have still : popped.ended = false := by
    rw [← unended, Execution.ended, Execution.ended, flags]
  rw [← machine, ← same] at hooked
  exact history.runs_again present top still hooked

/-- The routine of a host call that has been run is run again, whatever happens later, if and only
if it is a callback that leaves its frame under others in an execution that has not ended. Running
an execution is one of the things that can happen. -/
theorem invoked_again_iff {config : Config} {fresh : Vm} (made : create config = .ok fresh)
    (runs : RunsBy Call.Proper fresh vm) (outside : host.Outside id)
    (present : vm.execution? id = some execution) {function : HostFunction} {below : List Frame}
    (stack : execution.frames = .host number function :: below) {routine : Routine}
    (bound : vm.machine.registry.routine? function = some routine) (state : σ) :
    ((∃ numbers later, History host id (turn host id execution (vm, state)) numbers later ∧
        number ∈ numbers) ↔
      ∃ callback left above rest, routine = .callback callback ∧
        (host callback id (vm, state)).1.execution? id = some left ∧
        left.frames = above ++ .host number function :: rest ∧ above ≠ [] ∧ left.ended = false) ∧
      ∀ world fuel, ∃ numbers, History host id world numbers (run host fuel id world).2 := by
  have intact := ((intact_create made).upholds_runs runs).intact
  refine ⟨⟨?_, ?_⟩, fun world fuel => history_run host id fuel world⟩
  · rintro ⟨numbers, later, history, member⟩
    exact intact.covered_of_history outside present stack bound history member
  · rintro ⟨callback, left, above, rest, rfl, found, frames, covered, unended⟩
    obtain ⟨later, history⟩ :=
      intact.history_of_covered outside stack bound state found frames covered unended
    exact ⟨[number], later, history, List.mem_singleton.mpr rfl⟩

/-- A host function whose routine is a callback. -/
def hooked (signature : String) (callback : Nat) : HostFunction :=
  ⟨signature, 0, 0, none, some (.callback callback)⟩

/-- Callbacks that note their numbers. The first one pushes a call of a function with another one,
and leaves it there. -/
def pushing : Host (List Nat) := fun number id world =>
  match number with
  | 0 => (world.1.perform (.pushFrame id (.host (hooked "leaf" 1))), world.2 ++ [0])
  | number => (world.1, world.2 ++ [number])

/-- Callbacks that push a call do not run their execution. -/
theorem outside_pushing (id : Nat) : pushing.Outside id := by
  intro number world
  unfold pushing
  split
  · refine .single ⟨.pushFrame id (.host (hooked "leaf" 1)), ⟨?_, nofun⟩, rfl⟩
    rintro function ⟨rfl⟩
    exact .inl trivial
  · exact .refl

/-- A callback that pushes a call and leaves it there is run twice for its one frame, also when
nothing but turns follows. -/
theorem invoked_again_iff_pushing : ∃ fresh vm execution, create {} = .ok fresh ∧
    RunsBy Call.Proper fresh vm ∧ pushing.Outside 0 ∧ vm.execution? 0 = some execution ∧
    execution.frames = [.host 1 (hooked "host" 0)] ∧
    (∃ numbers later, History pushing 0 (turn pushing 0 execution (vm, [])) numbers later ∧
      1 ∈ numbers) ∧
    ((turns pushing 0 3 (vm, [])).2).2 = [0, 1, 0] := by
  let fresh : Vm := { machine := { config := {}, registry := .initial, collector := .create 32 } }
  have made : create {} = .ok fresh := rfl
  let vm := (fresh.perform .createExecution).perform (.restart 0 (.host (hooked "host" 0)))
  have runs : RunsBy Call.Proper fresh vm := by
    refine .tail (.single ⟨.createExecution, proper_of_quiet _ _ rfl, rfl⟩)
      ⟨.restart 0 (.host (hooked "host" 0)), ?_, rfl⟩
    rintro function ⟨rfl⟩
    exact .inl trivial
  let execution : Execution := { frames := [.host 1 (hooked "host" 0)], issued := 1 }
  let left : Execution :=
    { frames := [.host 2 (hooked "leaf" 1), .host 1 (hooked "host" 0)], issued := 2 }
  have present : vm.execution? 0 = some execution := rfl
  have bound : vm.machine.registry.routine? (hooked "host" 0) = some (.callback 0) := rfl
  have found : (pushing 0 0 (vm, [])).1.execution? 0 = some left := rfl
  have again := (invoked_again_iff made runs (outside_pushing 0) present rfl bound []).1
  exact ⟨fresh, vm, execution, made, runs, outside_pushing 0, present, rfl,
    again.mpr ⟨0, left, [.host 2 (hooked "leaf" 1)], [], rfl, found, rfl, by simp, rfl⟩,
    by decide +kernel⟩

end Vm

end ScriptVm
