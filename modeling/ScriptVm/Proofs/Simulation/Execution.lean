import ScriptVm.Proofs.Execution.Checks
import ScriptVm.Proofs.Simulation.Step
import ScriptVm.Vm.Run

/-!
# Executions that agree

Executions agree when they have the same flags and the same calls at the same positions, and hold
paired references. They raise, unwind and dispatch in the same way, and go on agreeing under more
pairs.
-/
namespace ScriptVm

/-- The same call, whose references are paired. -/
inductive Frame.Agrees (pairing : Pairing) : Frame → Frame → Prop where
  | script (id : Nat) {left right : Activation} (agrees : left.Agrees pairing right) :
    Agrees pairing (.script id left) (.script id right)
  | host (id : Nat) (function : HostFunction) :
    Agrees pairing (.host id function) (.host id function)

/-- Call stacks of the same calls. -/
abbrev Frame.Stacks (pairing : Pairing) : List Frame → List Frame → Prop :=
  List.Forall₂ (Frame.Agrees pairing)

/-- Executions that have come equally far, whose references are paired. -/
structure Execution.Agrees (pairing : Pairing) (left right : Execution) : Prop where
  /-- The call stacks. -/
  frames : Frame.Stacks pairing left.frames right.frames
  /-- The parameter registers. -/
  parameters : pairing.Lists left.parameters.toList right.parameters.toList
  /-- The flags. -/
  flags : right.flags = left.flags
  /-- The count of frames made so far. -/
  issued : right.issued = left.issued

namespace Frame

variable {pairing more : Pairing} {left right : Frame} {frames frames' : List Frame}

/-- Calls that agree do so under more pairs. -/
theorem Agrees.mono (agrees : left.Agrees pairing right) (grows : pairing.Grows more) :
    left.Agrees more right := by
  cases agrees with
  | script id agrees => exact .script id (agrees.mono grows)
  | host id function => exact .host id function

/-- Calls that agree have the same number. -/
theorem Agrees.id_eq (agrees : left.Agrees pairing right) : right.id = left.id := by
  cases agrees <;> rfl

/-- The same handler catches a raised value. -/
theorem Agrees.catch? (agrees : left.Agrees pairing right) (kind : Kind)
    (className : Option String) :
    (left.catch? kind className = none ∧ right.catch? kind className = none) ∨
      ∃ handling handling', left.catch? kind className = some handling ∧
        right.catch? kind className = some handling' ∧ handling.Agrees pairing handling' := by
  cases agrees with
  | host id function => exact .inl ⟨rfl, rfl⟩
  | @script id first second agrees =>
    simp only [Frame.catch?, Activation.catch?, agrees.function, agrees.start]
    cases first.function.body.findHandler? first.start kind className with
    | none => exact .inl ⟨rfl, rfl⟩
    | some offset => exact .inr ⟨_, _, rfl, rfl, .script id (agrees.moveTo offset)⟩

/-- Call stacks that agree do so under more pairs. -/
theorem Stacks.mono (agrees : Stacks pairing frames frames') (grows : pairing.Grows more) :
    Stacks more frames frames' :=
  agrees.imp fun _ _ agree => agree.mono grows

/-- The calls below the innermost ones. -/
theorem Stacks.tail (agrees : Stacks pairing frames frames') :
    Stacks pairing frames.tail frames'.tail := by
  cases agrees with
  | nil => exact .nil
  | cons head rest => exact rest

/-- The same call is found for a raised value. -/
theorem Stacks.unwind (agrees : Stacks pairing frames frames') (kind : Kind)
    (className : Option String) :
    (Execution.unwind kind className frames = none ∧
        Execution.unwind kind className frames' = none) ∨
      ∃ rest rest', Execution.unwind kind className frames = some rest ∧
        Execution.unwind kind className frames' = some rest' ∧ Stacks pairing rest rest' := by
  induction agrees with
  | nil => exact .inl ⟨rfl, rfl⟩
  | cons head tail hypothesis =>
    simp only [Execution.unwind]
    rcases head.catch? kind className with ⟨none, none'⟩ | ⟨handling, handling', some, some', agree⟩
    · rw [none, none']
      exact hypothesis
    · rw [some, some']
      exact .inr ⟨_, _, rfl, rfl, .cons agree tail⟩

/-- A new call of the same function. -/
theorem agrees_enter (null : pairing .value Handle.null Handle.null) (id : Nat)
    (function : Function) : (enter id function).Agrees pairing (enter id function) := by
  cases function with
  | host function => exact .host id function
  | script function =>
    refine .script id ⟨rfl, ?_, ?_, .nil, rfl, rfl⟩
    · simp only [Activation.enter, Vector.toList_replicate]
      exact Pairing.lists_replicate null _
    · simp only [Activation.enter, Pairing.Tables, List.forall₂_map_left_iff,
        List.forall₂_map_right_iff]
      exact List.forall₂_same.mpr fun name _ => ⟨rfl, null⟩

end Frame

namespace Execution

/-- A machine with an execution on both sides, which agree under more pairs. -/
def Both (pairing : Pairing) (room : Nat) (state state' : Machine × Execution) : Prop :=
  ∃ more, pairing.Grows more ∧ state.1.Agrees more room state'.1 ∧ state.2.Agrees more state'.2

variable {pairing more : Pairing} {room : Nat} {machine machine' : Machine}
  {execution execution' : Execution} {first second : Ref}

/-- Executions that agree do so under more pairs. -/
theorem Agrees.mono (agrees : execution.Agrees pairing execution') (grows : pairing.Grows more) :
    execution.Agrees more execution' :=
  ⟨agrees.frames.mono grows, agrees.parameters.mono grows, agrees.flags, agrees.issued⟩

/-- What agrees under more pairs agrees. -/
theorem Both.trans {state state' : Machine × Execution} (both : Both more room state state')
    (grows : pairing.Grows more) : Both pairing room state state' := by
  obtain ⟨most, grows', machines, executions⟩ := both
  exact ⟨most, grows.trans grows', machines, executions⟩

/-- Paired references are put into the first parameter register. -/
theorem Agrees.setResult (agrees : execution.Agrees pairing execution')
    (paired : pairing.Refs first second) :
    (execution.setResult first).Agrees pairing (execution'.setResult second) := by
  refine { agrees with parameters := ?_ }
  simp only [Execution.setResult, Vector.toList_setIfInBounds]
  exact agrees.parameters.set paired 0

/-- Paired references are raised. -/
theorem both_raise (machines : machine.Agrees pairing room machine')
    (executions : execution.Agrees pairing execution') (paired : pairing.Refs first second)
    (severity : Severity) :
    Both pairing room (execution.raise machine first severity)
      (execution'.raise machine' second severity) := by
  have shaded := machines.shade first second
  have stored := executions.setResult paired
  cases severity with
  | fatal =>
    refine ⟨pairing, .refl pairing, shaded.note (by simp) (by simp), ?_⟩
    refine { stored with flags := ?_ }
    simp only [raise, stored.flags]
  | normal =>
    unfold raise
    dsimp only
    rw [shaded.thrown paired]
    generalize (machine.shade first).thrown first = raised
    obtain ⟨kind, className⟩ := raised
    dsimp only
    rcases stored.frames.unwind kind className with ⟨none, none'⟩ | ⟨_, _, some, some', frames⟩
    · rw [none, none']
      refine ⟨pairing, .refl pairing, shaded.note (by simp) (by simp), ?_⟩
      refine { stored with frames := .nil, flags := ?_ }
      simp only [stored.flags]
    · rw [some, some']
      exact ⟨pairing, .refl pairing, shaded, { stored with frames }⟩

/-- A new exception is raised. -/
theorem both_raiseNew (machines : machine.Agrees pairing (room + 3) machine')
    (executions : execution.Agrees pairing execution') {template : Object × Nat}
    (objects : template.1.Agrees pairing template.1) (message : String) :
    Both pairing room (execution.raiseNew machine template message)
      (execution'.raiseNew machine' template message) := by
  obtain ⟨more, grows, paired, made⟩ := machines.newException objects message false false
  exact (both_raise made (executions.mono grows) paired .normal).trans grows

/-- The template of a standard exception agrees with itself. -/
theorem template_agrees (machines : machine.Agrees pairing room machine')
    {exception : ExceptionClass} {template : Object × Nat}
    (found : machine.exceptionTemplate exception = .ok template) :
    template.1.Agrees pairing template.1 := by
  obtain ⟨schema, blank⟩ := Machine.exceptionTemplate_blank found
  rw [blank]
  exact machines.blank schema

/-- The exception of a fault is raised. -/
theorem both_raiseFault (machines : machine.Agrees pairing (room + 3) machine')
    (executions : execution.Agrees pairing execution') (fault : Fault) :
    Both pairing room (execution.raiseFault machine fault)
      (execution'.raiseFault machine' fault) := by
  rw [raiseFault_eq, raiseFault_eq, machines.exceptionTemplate]
  cases found : machine.exceptionTemplate fault.exception with
  | ok template =>
    exact both_raiseNew machines executions (template_agrees machines found) fault.message
  | error error =>
    obtain ⟨more, grows, scraps⟩ := machines.left_newException fault.exception fault.message
    have null : more.Refs Ref.null Ref.null := scraps.collector.null
    exact (both_raise (scraps.note (by simp) (by simp)) (executions.mono grows) null .fatal).trans
      grows

/-- A fault that does not blame the collector is reported and raised. -/
theorem both_fail (machines : machine.Agrees pairing (room + 3) machine')
    (executions : execution.Agrees pairing execution') {fault : Fault}
    (blameless : fault.blamesCollector = false) :
    Both pairing room (execution.fail machine fault) (execution'.fail machine' fault) := by
  have fine : ∀ other, Event.faulted fault = .faulted other → other.blamesCollector = false := by
    rintro _ ⟨⟩
    exact blameless
  exact both_raiseFault (machines.note fine fine) executions fault

/-- The innermost calls are replaced by the calls of two scenes that agree. -/
theorem Agrees.withScene (agrees : execution.Agrees pairing execution') {scene scene' : Scene}
    (scenes : scene.Agrees more room scene') (grows : pairing.Grows more) (id : Nat)
    {below below' : List Frame} (rest : Frame.Stacks pairing below below') :
    (execution.withScene id below scene).Agrees more
      (execution'.withScene id below' scene') :=
  ⟨.cons (.script id scenes.frame) (rest.mono grows), scenes.parameters, agrees.flags,
    agrees.issued⟩

/-- A call of the same function is pushed, or neither call stack has room for it. -/
theorem Agrees.pushFrame (agrees : execution.Agrees pairing execution')
    (null : pairing .value Handle.null Handle.null) (function : Function) :
    (execution.pushFrame function = .error .stackFull ∧
        execution'.pushFrame function = .error .stackFull) ∨
      ∃ id called called', execution.pushFrame function = .ok (id, called) ∧
        execution'.pushFrame function = .ok (id, called') ∧ called.Agrees pairing called' := by
  have length : execution'.frames.length = execution.frames.length :=
    agrees.frames.length_eq.symm
  rw [execution.pushFrame_eq, execution'.pushFrame_eq, length, agrees.issued]
  split
  · refine .inr ⟨_, _, _, rfl, rfl, ?_⟩
    have frames : Frame.Stacks pairing (.enter (execution.issued + 1) function :: execution.frames)
        (.enter (execution.issued + 1) function :: execution'.frames) :=
      .cons (Frame.agrees_enter null _ function) agrees.frames
    exact { agrees with frames, issued := rfl }
  · exact .inl ⟨rfl, rfl⟩

/-- Going on in the same way. -/
theorem both_proceed (machines : machine.Agrees pairing (room + 3) machine')
    (executions : execution.Agrees pairing execution') {outcome outcome' : Outcome}
    (outcomes : outcome.Agrees pairing outcome') :
    Both pairing room (execution.proceed machine outcome)
      (execution'.proceed machine' outcome') := by
  have same : machine.Agrees pairing room machine' := machines.less (by omega)
  cases outcomes with
  | raise paired => exact both_raise same executions paired .normal
  | same outcome quiet =>
    cases outcome with
    | proceed => exact ⟨pairing, .refl pairing, same, executions⟩
    | leave =>
      have frames := Frame.Stacks.tail executions.frames
      exact ⟨pairing, .refl pairing, same, { executions with frames }⟩
    | call function =>
      simp only [proceed]
      rcases executions.pushFrame machines.collector.null function with
        ⟨full, full'⟩ | ⟨id, called, called', pushed, pushed', agree⟩
      · rw [full, full']
        exact both_fail machines executions rfl
      · rw [pushed, pushed']
        exact ⟨pairing, .refl pairing, same, agree⟩
    | raise value => exact absurd rfl (quiet value)
    | yield =>
      refine ⟨pairing, .refl pairing, same, { executions with flags := ?_ }⟩
      simp only [proceed, suspend, executions.flags]
    | abort =>
      refine ⟨pairing, .refl pairing, same, { executions with flags := ?_ }⟩
      simp only [proceed, executions.flags]

variable {frame frame' : Activation} {below below' : List Frame}

/-- The same instruction is executed. -/
theorem both_perform (machines : machine.Agrees pairing (room + 5) machine')
    (executions : execution.Agrees pairing execution') (frames : frame.Agrees pairing frame')
    (constants : frame.function.module.Anchored pairing) (rest : Frame.Stacks pairing below below')
    (id : Nat) (instruction : Instruction UInt32) :
    Both pairing room (execution.perform machine id frame below instruction.execute)
      (execution'.perform machine' id frame' below' instruction.execute) := by
  have scenes : (execution.scene machine frame).Agrees pairing (room + 3 + 2)
      (execution'.scene machine' frame') :=
    ⟨machines, executions.parameters, frames, constants⟩
  have ends := Instruction.agrees_execute pairing instruction (.refl pairing) scenes
  unfold perform
  generalize instruction.execute.run (execution.scene machine frame) = result at ends
  generalize instruction.execute.run (execution'.scene machine' frame') = result' at ends
  cases ends with
  | ok grows outcomes after =>
    have executions := executions.withScene after grows id rest
    exact (both_proceed after.machine executions outcomes).trans grows
  | error grows blameless after =>
    have executions := executions.withScene after grows id rest
    exact (both_fail after.machine executions blameless).trans grows

/-- No misread operand blames the collector. -/
theorem Misread.blameless (misread : Misread) : misread.fault.blamesCollector = false := by
  cases misread <;> rfl

/-- The instruction at the same position is executed. -/
theorem both_dispatchAt (machines : machine.Agrees pairing (room + 5) machine')
    (executions : execution.Agrees pairing execution') (frames : frame.Agrees pairing frame')
    (constants : frame.function.module.Anchored pairing) (rest : Frame.Stacks pairing below below')
    (id : Nat) :
    Both pairing room (execution.dispatchAt machine id frame below)
      (execution'.dispatchAt machine' id frame' below') := by
  have replaced : Execution.Agrees pairing { execution with frames := .script id frame :: below }
      { execution' with frames := .script id frame' :: below' } :=
    { executions with frames := .cons (.script id frames) rest }
  have failed : ∀ {machine machine' : Machine} {fault : Fault},
      machine.Agrees pairing (room + 5) machine' → fault.blamesCollector = false →
      Both pairing room
        (fail machine { execution with frames := .script id frame :: below } fault)
        (fail machine' { execution' with frames := .script id frame' :: below' } fault) :=
    fun machines blameless => both_fail (machines.less (by omega)) replaced blameless
  have cursor : frame'.cursor = frame.cursor := by
    unfold Activation.cursor
    rw [frames.function, frames.next, frames.start]
  rw [dispatchAt_by_table, dispatchAt_by_table]
  dsimp only
  rw [cursor, frames.start]
  split
  · exact failed machines rfl
  · split
    · exact failed machines rfl
    · rename_i opcode _
      have noted : (machine.note (.dispatched frame.start opcode)).Agrees pairing (room + 5)
          (machine'.note (.dispatched frame.start opcode)) :=
        machines.note (by simp) (by simp)
      split
      · exact failed noted (Misread.blameless _)
      · rename_i operands cursor _
        exact both_perform noted replaced (frames.moveTo cursor.next) constants rest id
          ⟨opcode, operands⟩

/-- One instruction of the innermost call. -/
theorem both_dispatch (machines : machine.Agrees pairing (room + 5) machine')
    (executions : execution.Agrees pairing execution')
    (constants : ∀ id activation, .script id activation ∈ execution.frames →
      activation.function.module.Anchored pairing) :
    Both pairing room (execution.dispatch machine) (execution'.dispatch machine') := by
  have same : machine.Agrees pairing room machine' := machines.less (by omega)
  have both := executions.frames
  unfold dispatch
  generalize before : execution.frames = frames at both
  generalize execution'.frames = frames' at both
  cases both with
  | nil => exact ⟨pairing, .refl pairing, same, executions⟩
  | cons head rest =>
    cases head with
    | host id function => exact ⟨pairing, .refl pairing, same, executions⟩
    | @script id frame frame' agree =>
      have started : Activation.Agrees pairing { frame with start := frame.next }
          { frame' with start := frame'.next } :=
        { agree with start := agree.next }
      dsimp only
      rw [agree.function, agree.next] at started ⊢
      split
      · exact ⟨pairing, .refl pairing, same, { executions with frames := rest }⟩
      · refine both_dispatchAt machines executions started ?_ rest id
        apply constants id frame
        rw [before]
        exact List.mem_cons_self

/-- Both executions have ended, or neither. -/
theorem Agrees.settle (agrees : execution.Agrees pairing execution') :
    execution.settle.Agrees pairing execution'.settle := by
  have empty : execution'.frames.isEmpty = execution.frames.isEmpty := by
    have both := agrees.frames
    generalize execution.frames = frames at both
    generalize execution'.frames = frames' at both
    cases both <;> rfl
  unfold Execution.settle
  rw [empty, agrees.flags]
  split
  · exact { agrees with flags := rfl }
  · exact agrees

/-- Both executions have ended, or neither, next to their machines. -/
theorem Both.settle {state state' : Machine × Execution} (both : Both pairing room state state') :
    Both pairing room (state.1, state.2.settle) (state'.1, state'.2.settle) := by
  obtain ⟨more, grows, machines, executions⟩ := both
  exact ⟨more, grows, machines, executions.settle⟩

/-- Both executions are marked as run. -/
theorem Agrees.resume (agrees : execution.Agrees pairing execution') :
    execution.resume.Agrees pairing execution'.resume := by
  refine { agrees with flags := ?_ }
  simp only [Execution.resume, agrees.flags]

/-- The same call of a host function ends. -/
theorem Agrees.returnFrom (agrees : execution.Agrees pairing execution') (id : Nat) :
    (execution.returnFrom id).Agrees pairing (execution'.returnFrom id) := by
  have both := agrees.frames
  unfold Execution.returnFrom
  generalize execution.frames = frames at both
  generalize execution'.frames = frames' at both
  cases both with
  | nil => exact agrees
  | cons head rest =>
    dsimp only
    rw [head.id_eq]
    split
    · exact { agrees with frames := rest }
    · exact agrees

/-- Routines have agreeing operands. -/
theorem Agrees.operand (agrees : execution.Agrees pairing execution')
    (machines : machine.Agrees pairing room machine') (index : Nat) :
    (∃ fault, execution.operand machine index = .error fault ∧
        execution'.operand machine' index = .error fault) ∨
      ∃ value value', execution.operand machine index = .ok value ∧
        execution'.operand machine' index = .ok value' ∧ value.Agrees pairing value' := by
  have both := agrees.parameters.getElem? index
  simp only [Vector.getElem?_toList] at both
  unfold Execution.operand parameter
  rcases both with ⟨none, none'⟩ | ⟨first, second, some, some', paired⟩
  · rw [none, none']
    exact .inl ⟨_, rfl, rfl⟩
  · obtain ⟨value, value', known, known', agree⟩ := machines.value? paired
    rw [some, some']
    simp only [Error.orElse, known, known']
    exact .inr ⟨value, value', rfl, rfl, agree⟩

/-- Routines have the same result. -/
theorem Agrees.routineResult (agrees : execution.Agrees pairing execution')
    (machines : machine.Agrees pairing room machine') (routine : Routine) :
    execution'.routineResult machine' routine = execution.routineResult machine routine := by
  cases routine with
  | callback number => rfl
  | cast target =>
    simp only [Execution.routineResult, Bind.bind, Except.bind]
    rcases agrees.operand machines 0 with ⟨fault, left, right⟩ | ⟨value, value', left, right, agree⟩
    · rw [left, right]
    · rw [left, right]
      exact agree.convert target
  | operator operator =>
    simp only [Execution.routineResult, Bind.bind, Except.bind]
    rcases agrees.operand machines 0 with ⟨fault, left, right⟩ | ⟨value, value', left, right, agree⟩
    · rw [left, right]
    · rw [left, right]
      rcases agrees.operand machines 1 with ⟨fault, left, right⟩ | ⟨_, _, left, right, agree'⟩
      · simp only [left, right]
      · simp only [left, right]
        exact agree.apply agree' operator

/-- The same plain result of a routine is stored, or the same fault is raised. -/
theorem both_finishRoutine (machines : machine.Agrees pairing (room + 3) machine')
    (executions : execution.Agrees pairing execution') {result : Except Fault Value}
    (plain : ∀ value, result = .ok value → value.Plain) :
    Both pairing room (execution.finishRoutine machine result)
      (execution'.finishRoutine machine' result) := by
  rw [finishRoutine_eq, finishRoutine_eq]
  cases result with
  | ok value =>
    have leaf : value.Agrees pairing value := .leaf (plain value rfl).leaf
    have start : machine.Agrees pairing (room + 1) machine' := machines.less (by omega)
    obtain ⟨more, grows, paired, made⟩ := start.newValue leaf false false
    exact ⟨more, grows, made.shade _ _, (executions.mono grows).setResult paired⟩
  | error fault =>
    dsimp only
    rw [machines.exceptionTemplate]
    cases found : machine.exceptionTemplate fault.exception with
    | ok template =>
      exact both_raiseNew machines executions (template_agrees machines found) fault.message
    | error error =>
      obtain ⟨more, grows, scraps⟩ := machines.left_newException fault.exception fault.message
      exact ⟨more, grows, scraps.note (by simp) (by simp), executions.mono grows⟩

end Execution

end ScriptVm
