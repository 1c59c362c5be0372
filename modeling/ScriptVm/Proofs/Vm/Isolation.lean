import ScriptVm.Proofs.Execution.Positions
import ScriptVm.Proofs.Step.Reading
import ScriptVm.Proofs.Vm.Executions

/-!
# Calls and returns

A script call that calls a function finds itself as it was when the called function returns: the
same frame, with the registers, local variables and operands that it had, at the instruction after
the call. What runs in between may take turns of any kind, wait and be resumed, call, raise and
catch, and collect, as long as nobody reaches into the call stack from outside.
-/
namespace ScriptVm

namespace Execution

variable {machine : Machine} {execution after : Execution}

/-- A single operand of one word takes four bytes. -/
theorem next_of_operand {shape : Shape} {cursor after : Cursor}
    {operands : Operands UInt32 [shape]}
    (decoded : Operands.decode [shape] cursor = .ok (operands, after))
    (word : ∀ {operand : shape.Carrier UInt32} {last : Cursor},
      shape.decode cursor = .ok (operand, last) → last.next = cursor.next + 4) :
    after.next = cursor.next + 4 := by
  obtain ⟨⟨operand, last⟩, read, rest⟩ := Except.bind_eq_ok decoded
  obtain ⟨none, ended, made⟩ := Except.bind_eq_ok rest
  obtain rfl := Except.ok.inj ended
  obtain ⟨_, rfl⟩ := Prod.mk.inj (Except.ok.inj made)
  exact word read

/-- A 32-bit operand takes four bytes. -/
theorem next_of_word {cursor after : Cursor} {word : UInt32}
    (read : Reading.word cursor = .ok (word, after)) : after.next = cursor.next + 4 :=
  Cursor.next_of_word? (Reading.ofOption_eq_ok_iff.mp read)

/-- An instruction that calls a function takes five bytes. -/
theorem following_of_call {activation : Activation} {instruction : Instruction UInt32}
    {following : Nat} (fetched : activation.fetch? = some (instruction, following))
    (calls : instruction.opcode = .call ∨ instruction.opcode = .callValue) :
    following = activation.next + 5 := by
  obtain ⟨_, byte, cursor, last, taken, _, decoded, rfl⟩ := Activation.fetch?_eq_some fetched
  have first : cursor.next = activation.next + 1 := Cursor.next_of_byte? taken
  obtain ⟨opcode, operands⟩ := instruction
  have rest : last.next = cursor.next + 4 := by
    rcases calls with rfl | rfl
    · exact next_of_operand decoded next_of_word
    · exact next_of_operand decoded next_of_word
  omega

/-- An instruction that calls a function pushes the new frame on that of the caller, which goes on
after the instruction; or its fault is raised, and no frame is new. -/
theorem dispatch_call (machine : Machine) {number : Nat} {caller : Activation} {below : List Frame}
    (stack : execution.frames = .script number caller :: below)
    {instruction : Instruction UInt32} {following : Nat}
    (fetched : caller.fetch? = some (instruction, following))
    (calls : instruction.opcode = .call ∨ instruction.opcode = .callValue) :
    (∃ callee, (execution.dispatch machine).2.frames =
        Frame.enter (execution.issued + 1) callee ::
          .script number (caller.begun.moveTo following) :: below) ∨
      (execution.dispatch machine).2.labels <:+ execution.labels := by
  have reads : instruction.execute.Reads Instruction.Calls := by
    obtain ⟨opcode, operands⟩ := instruction
    rcases calls with rfl | rfl
    · exact Instruction.reads_call operands.1
    · exact Instruction.reads_callValue operands.1
  rw [dispatch_eq, attempt_of_fetch? stack fetched, attemptInstruction, attemptEffect]
  generalize machine.note (.dispatched caller.next instruction.opcode) = noted
  let moved := execution.withScene number below
    (execution.scene noted (caller.begun.moveTo following))
  have failed : ∀ fault, (moved.fail noted fault).2.labels <:+ execution.labels := by
    intro fault
    have unwound := (raised_raiseFault (noted.note (.faulted fault)) moved fault).frames.labels
    have same : moved.labels = execution.labels := by
      simp only [labels, stack]
      rfl
    rw [← same]
    exact unwound
  rcases reads (execution.scene noted (caller.begun.moveTo following)) with
    ⟨_, goes, callee, rfl⟩ | ⟨fault, stops⟩
  · rw [goes]
    simp only [attemptOutcome]
    split
    · rename_i pushed
      rw [pushFrame_eq] at pushed
      split at pushed
      · obtain ⟨_, rfl⟩ := Prod.mk.inj (Except.ok.inj pushed)
        exact .inl ⟨callee, rfl⟩
      · simp at pushed
    · exact .inr (failed _)
    · exact .inr (failed _)
  · rw [stops]
    exact .inr (failed fault)

/-- The innermost call is about to return. -/
inductive Returns (machine : Machine) (execution : Execution) : Prop where
  /-- A script call is at the end of its function. -/
  | atEnd {id : Nat} {activation : Activation} {below : List Frame}
    (stack : execution.frames = .script id activation :: below)
    (finished : activation.function.body.stop ≤ activation.next)
  /-- A script call is at the instruction that ends it. -/
  | byInstruction {id : Nat} {activation : Activation} {below : List Frame}
    (stack : execution.frames = .script id activation :: below)
    {instruction : Instruction UInt32} {following : Nat}
    (fetched : activation.fetch? = some (instruction, following))
    (leaves : instruction.opcode = .leave)
  /-- A built-in function completes without raising: its routine has a result, or the exception for
  its fault cannot be made. -/
  | byRoutine {id : Nat} {function : HostFunction} {below : List Frame}
    (stack : execution.frames = .host id function :: below) {routine : Routine}
    (bound : machine.registry.routine? function = some routine)
    (own : ∀ callback, routine ≠ .callback callback)
    (completes : ∀ fault, execution.routineResult machine routine = .error fault →
      ∃ error, machine.exceptionTemplate fault.exception = .error error)

/-- A routine that does not raise leaves the call stack. -/
theorem frames_finishRoutine (execution : Execution) {result : Except Fault Value}
    (completes : ∀ fault, result = .error fault →
      ∃ error, machine.exceptionTemplate fault.exception = .error error) :
    (execution.finishRoutine machine result).2.frames = execution.frames := by
  rw [finishRoutine_eq]
  cases result with
  | ok value => rfl
  | error fault =>
    obtain ⟨error, unmade⟩ := completes fault rfl
    simp only [unmade]

/-- When the innermost call returns, its frame goes and all others stay. -/
theorem Returns.frames_turned (returns : Returns machine execution) :
    (execution.turned machine).2.frames = execution.frames.tail := by
  cases returns with
  | atEnd stack finished => simp [turned, stack, dispatch, finished]
  | byInstruction stack fetched leaves =>
    rename_i id activation below instruction following
    obtain ⟨opcode, operands⟩ := instruction
    obtain rfl : opcode = .leave := leaves
    have left : (execution.dispatch machine).2.frames = below := by
      rw [dispatch_eq, attempt_of_fetch? stack fetched]
      rfl
    simp [turned, stack, left]
  | byRoutine stack bound own completes =>
    rename_i id function below routine
    have kept := frames_finishRoutine execution completes
    rw [stack] at kept
    have ends : ((execution.finishRoutine machine
        (execution.routineResult machine routine)).2.returnFrom id).frames = below := by
      simp [returnFrom, kept, Frame.id]
    cases routine with
    | callback callback => exact absurd rfl (own callback)
    | operator operator | cast target => simp [turned, stack, bound, ends]

/-- For as long as a frame is on the call stack, some frames stay at its bottom as they are. -/
def Shelters (number : Nat) (base : List Frame) (execution : Execution) : Prop :=
  number ∈ execution.frames.map Frame.id → base <:+ execution.frames

/-- Frames that are not on top stay sheltered: a frame that unwinding leaves had its number before,
and is none of the sheltered ones. -/
theorem Shelters.step {number : Nat} {base : List Frame} (shelters : execution.Shelters number base)
    (apart : number ∉ base.map Frame.id) (known : number ≤ execution.issued)
    (follows : execution.Follows after) (spares : Spares execution.frames after.frames) :
    after.Shelters number base := by
  intro member
  have earlier := follows.mem_ids known member
  obtain ⟨upper, stack⟩ := shelters earlier
  have covered : upper ≠ [] := by
    rintro rfl
    rw [← stack] at earlier
    exact apart earlier
  rcases spares.base covered stack.symm with stays | unwound
  · exact stays
  · obtain ⟨frame, inside, rfl⟩ := List.mem_map.mp member
    obtain ⟨old, there, same⟩ := List.mem_map.mp (unwound.subset (List.mem_map_of_mem inside))
    exact absurd (List.mem_map.mpr ⟨old, there, congrArg Prod.fst same⟩) apart

/-- When the sheltering frame is on top again, the sheltered frames are all that is below it. -/
theorem Shelters.tail_eq {pushed top : Frame} {base rest : List Frame} (fine : execution.Intact)
    (before : execution.frames = pushed :: base) (follows : execution.Follows after)
    (frames : after.frames = top :: rest) (same : top.id = pushed.id)
    (shelters : after.Shelters pushed.id base) : rest = base := by
  have labels := follows.labels_eq fine before frames same
  have lengths : base.length = rest.length := by
    have equal := congrArg List.length labels
    simp only [Execution.labels, frames, before, List.length_map, List.length_cons] at equal
    exact (Nat.succ.inj equal).symm
  have suffix := shelters (by rw [frames, List.map_cons, same]; exact List.mem_cons_self)
  rw [frames] at suffix
  rcases List.suffix_cons_iff.mp suffix with whole | deeper
  · rw [whole, List.length_cons] at lengths
    exact absurd lengths (Nat.succ_ne_self _)
  · exact (deeper.eq_of_length lengths).symm

end Execution

/-- A call that leaves the call stack of an execution to the virtual machine: turns of any
execution, resuming, the collector, and whatever works on something else. -/
def Call.Apart (id : Nat) (vm : Vm) (call : Call) : Prop :=
  call.Proper vm ∧ call.accessed ≠ some id

namespace Vm

variable {vm later : Vm} {id : Nat} {execution current : Execution}

/-- Resuming leaves the call stack to the virtual machine. -/
theorem apart_resume (vm : Vm) : Call.Apart id vm (.resume id) :=
  ⟨proper_of_quiet _ _ rfl, by simp [Call.accessed]⟩

/-- A turn without callbacks leaves the call stack to the virtual machine. -/
theorem apart_turn (present : vm.execution? id = some execution) (state : Unit) :
    RunsBy (Call.Apart id) vm (turn idle id execution (vm, state)).1 := by
  have once : (turn idle id execution (vm, state)).1 = vm.perform (.turn id) := by
    simp only [perform, present]
  rw [once]
  exact .single ⟨.turn id, ⟨proper_of_quiet _ _ rfl, by simp [Call.accessed]⟩, rfl⟩

/-- Running one turn without callbacks leaves the call stack to the virtual machine. -/
theorem apart_runStep (vm : Vm) (id : Nat) :
    RunsBy (Call.Apart id) vm (runStep idle id (vm, ())).2.1 :=
  driven_runStep apart_resume apart_turn (vm, ())

/-- Running an execution without callbacks leaves its call stack to the virtual machine. -/
theorem apart_run (vm : Vm) (id fuel : Nat) :
    RunsBy (Call.Apart id) vm (run idle fuel id (vm, ())).2.1 :=
  driven_run apart_resume apart_turn fuel (vm, ())

/-- Frames that a call shelters stay as they are for as long as its frame is on the call stack. -/
theorem Intact.shelters_runs (intact : vm.Intact) (present : vm.execution? id = some execution)
    {number : Nat} {base : List Frame} (shelters : execution.Shelters number base)
    (apart : number ∉ base.map Frame.id) (known : number ≤ execution.issued)
    (runs : RunsBy (Call.Apart id) vm later) (found : later.execution? id = some current) :
    current.Shelters number base := by
  have kept : number ≤ current.issued ∧ current.Shelters number base := by
    refine Intact.along_runs
      (motive := fun execution => number ≤ execution.issued ∧ execution.Shelters number base)
      (fun _ _ allows => allows.1) ?_ intact present ⟨known, shelters⟩ runs found
    intro vm call execution later intact allows present found follows kept
    exact ⟨Nat.le_trans kept.1 follows.issued,
      kept.2.step apart kept.1 follows (intact.spares_perform present allows.2 found)⟩
  exact kept.2

/-- The number of the innermost frame of an execution. -/
def innermost? (vm : Vm) (id : Nat) : Option Nat :=
  (vm.execution? id).bind fun execution => execution.frames.head?.map Frame.id

/-- When a frame is the innermost one again, below it is what was below it. -/
theorem Intact.tail_of_innermost (intact : vm.Intact) (present : vm.execution? id = some execution)
    {pushed : Frame} {base : List Frame} (before : execution.frames = pushed :: base)
    (runs : RunsBy (Call.Apart id) vm later) (found : later.execution? id = some current)
    (innermost : later.innermost? id = some pushed.id) : current.frames.tail = base := by
  have fine := intact.execution present
  have apart : pushed.id ∉ base.map Frame.id := by
    have ids := fine.ids
    rw [before, List.map_cons, List.pairwise_cons] at ids
    exact fun member => Nat.lt_irrefl _ (ids.1 _ member)
  have sheltered : execution.Shelters pushed.id base := by
    intro _
    rw [before]
    exact List.suffix_cons _ _
  have known := fine.issued pushed (before ▸ List.mem_cons_self)
  have kept := intact.shelters_runs present sheltered apart known runs found
  have upholds := intact.upholds_runs (runsBy_mono (fun _ _ allows => allows.1) runs)
  have follows := upholds.follows_execution intact present found
  simp only [innermost?, found, Option.bind_some] at innermost
  obtain ⟨top, head, same⟩ := Option.map_eq_some_iff.mp innermost
  obtain ⟨rest, frames⟩ := List.head?_eq_some_iff.mp head
  rw [frames, List.tail_cons]
  exact kept.tail_eq fine before follows frames same

/-- A call that succeeds pushes one frame, and the caller goes on after the instruction. A call that
fails leaves only frames with old numbers. -/
theorem Intact.frames_call (intact : vm.Intact) (present : vm.execution? id = some execution)
    {number : Nat} {caller : Activation} {below : List Frame}
    (stack : execution.frames = .script number caller :: below)
    {instruction : Instruction UInt32} {following : Nat}
    (fetched : caller.fetch? = some (instruction, following))
    (calls : instruction.opcode = .call ∨ instruction.opcode = .callValue)
    (entered : (vm.perform (.turn id)).innermost? id = some (execution.issued + 1)) :
    ∃ called callee, (vm.perform (.turn id)).execution? id = some called ∧
      called.frames = Frame.enter (execution.issued + 1) callee ::
        .script number (caller.begun.moveTo following) :: below := by
  have turned : (execution.turned vm.machine).2.frames =
      (execution.dispatch vm.machine).2.frames := by
    simp [Execution.turned, stack]
  have there := execution?_turn present
  rcases Execution.dispatch_call vm.machine stack fetched calls with ⟨callee, pushed⟩ | unwound
  · exact ⟨_, callee, there, turned.trans pushed⟩
  · simp only [innermost?, there, Option.bind_some, turned] at entered
    obtain ⟨top, head, newest⟩ := Option.map_eq_some_iff.mp entered
    have listed := unwound.subset (List.mem_map_of_mem (List.mem_of_mem_head? head))
    obtain ⟨old, member, same⟩ := List.mem_map.mp listed
    have bound := (intact.execution present).issued old member
    have number : old.id = top.id := congrArg Prod.fst same
    omega

/-- When a called function returns, its caller is the innermost call again, as it was before the
call, and goes on after the instruction that called, which is inside the code, and so at a 32-bit
position where the code has fewer than `2 ^ 32` bytes. Whatever happened in between, nobody but the
virtual machine touched the call stack; running the execution in either way and the work of the
collector are such happenings. -/
theorem caller_of_returns {config : Config} {fresh : Vm} (made : create config = .ok fresh)
    (runs : RunsBy Call.Proper fresh vm) (present : vm.execution? id = some execution)
    {number : Nat} {caller : Activation} {below : List Frame}
    (stack : execution.frames = .script number caller :: below)
    {instruction : Instruction UInt32} {following : Nat}
    (fetched : caller.fetch? = some (instruction, following))
    (calls : instruction.opcode = .call ∨ instruction.opcode = .callValue)
    (entered : (vm.perform (.turn id)).innermost? id = some (execution.issued + 1))
    (continues : RunsBy (Call.Apart id) (vm.perform (.turn id)) later)
    (found : later.execution? id = some current)
    (innermost : later.innermost? id = some (execution.issued + 1))
    (returns : current.Returns later.machine) :
    (∃ returned, (later.perform (.turn id)).execution? id = some returned ∧
        returned.frames =
          .script number { caller with start := caller.next, next := caller.next + 5 } :: below) ∧
      caller.next + 5 ≤ caller.function.module.code.size ∧
      (∀ vm fuel, RunsBy (Call.Apart id) vm (run idle fuel id (vm, ())).2.1) ∧
      (∀ vm, RunsBy (Call.Apart id) vm (runStep idle id (vm, ())).2.1) ∧
      ∀ vm, RunsBy (Call.Apart id) vm vm.collectStep.2 := by
  have following_eq := Execution.following_of_call fetched calls
  refine ⟨?_, following_eq ▸ Activation.following_le_of_fetch? fetched,
    fun vm fuel => apart_run vm id fuel, fun vm => apart_runStep vm id, fun vm =>
      .single ⟨.collectStep, ⟨proper_of_quiet _ _ rfl, by simp [Call.accessed]⟩, rfl⟩⟩
  have intact := ((intact_create made).upholds_runs runs).intact
  have turned := intact.upholds_perform (proper_of_quiet vm (.turn id) rfl)
  obtain ⟨called, callee, there, pushed⟩ := intact.frames_call present stack fetched calls entered
  have numbered : (Frame.enter (execution.issued + 1) callee).id = execution.issued + 1 :=
    congrArg Prod.fst (Frame.label_enter _ callee)
  have restored := turned.intact.tail_of_innermost there pushed continues found
    (numbered.symm ▸ innermost)
  refine ⟨(current.turned later.machine).2, execution?_turn found, ?_⟩
  rw [returns.frames_turned, restored]
  simp only [Activation.moveTo, Activation.begun, following_eq]

/-- The frames of an execution by number, each with the operation it is about to execute and the
offset after it. -/
def positions (vm : Vm) (id : Nat) : Option (List (Nat × Option (Opcode × Nat))) :=
  (vm.execution? id).map fun execution => execution.frames.map fun frame =>
    (frame.id, do
      let activation ← frame.activation?
      let (instruction, following) ← activation.fetch?
      return (instruction.opcode, following))

/-- A script call on top that is about to execute an instruction. -/
theorem exists_of_positions {number following : Nat} {opcode : Opcode}
    {rest : List (Nat × Option (Opcode × Nat))}
    (shown : vm.positions id = some ((number, some (opcode, following)) :: rest)) :
    ∃ execution activation below instruction, vm.execution? id = some execution ∧
      execution.frames = .script number activation :: below ∧
      activation.fetch? = some (instruction, following) ∧ instruction.opcode = opcode ∧
      below.length = rest.length := by
  obtain ⟨execution, present, listed⟩ := Option.map_eq_some_iff.mp shown
  obtain ⟨frame, below, stack, top, others⟩ := List.map_eq_cons_iff.mp listed
  obtain ⟨rfl, position⟩ := Prod.mk.inj top
  obtain ⟨activation, script, rest⟩ := Option.bind_eq_some_iff.mp position
  obtain ⟨⟨instruction, offset⟩, fetched, last⟩ := Option.bind_eq_some_iff.mp rest
  obtain ⟨rfl, rfl⟩ := Prod.mk.inj (Option.some.inj last)
  have lengths := congrArg List.length others
  rw [List.length_map] at lengths
  cases frame with
  | host number function => simp [Frame.activation?] at script
  | script number found =>
    obtain rfl := Option.some.inj script
    exact ⟨execution, found, below, instruction, present, stack, fetched, rfl, lengths⟩

/-- A script call calls a function of another module, the collector works, and the called function
returns. -/
theorem caller_of_returns_leaf : ∃ fresh vm execution caller instruction, create {} = .ok fresh ∧
    RunsBy Call.Proper fresh vm ∧ vm.execution? 0 = some execution ∧
    execution.frames = [.script 1 caller] ∧ caller.fetch? = some (instruction, 5) ∧
    instruction.opcode = .call ∧
    ((vm.perform (.turn 0)).perform .collectStep).innermost? 0 = some 2 ∧
    ∃ returned, (((vm.perform (.turn 0)).perform .collectStep).perform (.turn 0)).execution? 0 =
        some returned ∧
      returned.frames =
        [.script 1 { caller with start := caller.next, next := caller.next + 5 }] := by
  let leaf : Image := { code := [2], functions := [⟨"leaf", false, 0, 0, 0, 1, [], []⟩] }
  let module : Module := ⟨"main", [], #["leaf"], #[], #[4, 0, 0, 0, 0, 2], 0⟩
  let body : Body := ⟨0, 6, [], []⟩
  let script : ScriptFunction := ⟨"main", 0, 0, module, body⟩
  let fresh : Vm := { machine := { config := {}, registry := .initial, collector := .create 32 } }
  have made : create {} = .ok fresh := rfl
  let ready := (fresh.perform (.load "leaf" leaf)).perform .createExecution
  have runsReady : RunsBy Call.Proper fresh ready :=
    .tail (.single ⟨.load "leaf" leaf, proper_of_quiet _ _ rfl, rfl⟩)
      ⟨.createExecution, proper_of_quiet _ _ rfl, rfl⟩
  let vm := ready.perform (.restart 0 (.script script))
  have runs : RunsBy Call.Proper fresh vm := by
    refine runsReady.tail ⟨.restart 0 (.script script), ?_, rfl⟩
    rintro function ⟨rfl⟩
    exact .inl ⟨0, 6, [], [], "main", 0, 0, module, body, by decide, rfl, rfl⟩
  have calling : vm.positions 0 = some [(1, some (.call, 5))] := by decide +kernel
  have issued : (vm.execution? 0).map Execution.issued = some 1 := by decide +kernel
  have entered : (vm.perform (.turn 0)).innermost? 0 = some 2 := by decide +kernel
  have leaving : ((vm.perform (.turn 0)).perform .collectStep).positions 0 =
      some [(2, some (.leave, 1)), (1, some (.leave, 6))] := by decide +kernel
  have innermost : ((vm.perform (.turn 0)).perform .collectStep).innermost? 0 = some 2 := by
    decide +kernel
  have continues : RunsBy (Call.Apart 0) (vm.perform (.turn 0))
      ((vm.perform (.turn 0)).perform .collectStep) :=
    .single ⟨.collectStep, ⟨proper_of_quiet _ _ rfl, by simp [Call.accessed]⟩, rfl⟩
  obtain ⟨execution, caller, below, instruction, present, stack, fetched, calls, alone⟩ :=
    exists_of_positions calling
  obtain ⟨current, _, _, _, found, top, next, leaves, _⟩ := exists_of_positions leaving
  obtain rfl := List.length_eq_zero_iff.mp alone
  have first : execution.issued = 1 := by simpa [present] using issued
  have restored := caller_of_returns made runs present stack fetched (.inl calls)
    (by rw [first]; exact entered) continues found (by rw [first]; exact innermost)
    (.byInstruction top next leaves)
  exact ⟨fresh, vm, execution, caller, instruction, made, runs, present, stack, fetched, calls,
    innermost, restored.1⟩

end Vm

end ScriptVm
