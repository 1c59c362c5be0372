import ScriptVm.Proofs.Instruction.Patching
import ScriptVm.Proofs.Vm.Exceptions

/-!
# Where branches land

A branch that is taken leads exactly to what the assembler aimed it at, when that is inside the
function, and is a runtime error otherwise. A branch that is not taken leads to the instruction that
was written after it. This holds for forward and backward branches, on a condition or not, in
whatever order the assembler wrote and patched them.
-/
namespace ScriptVm

/-- A call takes a branch under a condition, or it does not: a branch without a condition is taken,
and another one when the value of the register has a truth value, and that is the expected one. -/
def Activation.Decides (activation : Activation) (heap : Heap) :
    Option (Bool × UInt32) → Bool → Prop
  | none, taken => taken = true
  | some (expected, source), taken => ∃ value content condition,
    activation.register source.toNat = .ok value ∧ heap.value? value = some content ∧
      content.condition? = some condition ∧ taken = decide (condition = expected)

/-- A branch that is taken goes on at its distance inside the function. -/
theorem Instruction.run_taken (scene : Scene) (distance : Distance) :
    (jump distance >>= fun _ => pure Outcome.proceed).run scene =
      if (scene.frame.function.body.start : Int) ≤ scene.frame.start + distance.toInt ∧
          scene.frame.start + distance.toInt < scene.frame.function.body.stop then
        .ok .proceed { scene with
          frame := scene.frame.moveTo (scene.frame.start + distance.toInt).toNat }
      else .error (.branchOutside (scene.frame.start + distance.toInt)
        scene.frame.function.body.start scene.frame.function.body.stop) scene := by
  rw [Step.run_bind, run_jump]
  by_cases range : (scene.frame.function.body.start : Int) ≤ scene.frame.start + distance.toInt ∧
      scene.frame.start + distance.toInt < scene.frame.function.body.stop
  · simp only [if_pos range]
    rfl
  · simp only [if_neg range]

/-- A branch is taken, or it goes on right after itself. -/
theorem Instruction.run_branching {scene : Scene} {condition : Option (Bool × UInt32)}
    {taken : Bool} (decides : scene.frame.Decides scene.machine.heap condition taken)
    (distance : Distance) :
    (branching condition distance).execute.run scene =
      if taken then (jump distance >>= fun _ => pure Outcome.proceed).run scene
      else .ok .proceed scene := by
  rcases condition with _ | ⟨expected, source⟩
  · obtain rfl : taken = true := decides
    rfl
  · obtain ⟨value, content, condition, read, shown, found, rfl⟩ := decides
    have unfolded : (branching (some (expected, source)) distance).execute.run scene =
        (Step.register source >>= fun value => Step.value value >>= fun content =>
          Step.found (.unmet .condition content.kind) content.condition? >>= fun condition =>
            if condition = expected then jump distance >>= fun _ => pure Outcome.proceed
            else pure Outcome.proceed).run scene := rfl
    rw [unfolded, Step.run_bind, Step.run_register, Step.run_orFault, read]
    dsimp only
    rw [Step.run_bind, Step.run_value, Step.run_found, shown]
    dsimp only
    rw [Step.run_bind, Step.run_found, found]
    by_cases same : condition = expected
    · simp only [if_pos same, decide_eq_true same, if_true]
    · simp only [if_neg same, decide_eq_false same, Bool.false_eq_true, if_false]
      rfl

namespace Execution

variable {machine : Machine} {execution : Execution} {id : Nat} {activation : Activation}
  {below : List Frame} {condition : Option (Bool × UInt32)} {distance : Distance} {taken : Bool}

/-- An execution whose innermost call goes on at an offset, having begun its next instruction. -/
def goesTo (execution : Execution) (id : Nat) (activation : Activation) (below : List Frame)
    (offset : Nat) : Execution :=
  { execution with frames := .script id (activation.begun.moveTo offset) :: below }

/-- What an attempt at a branch comes to. -/
theorem attempt_branching (stack : execution.frames = .script id activation :: below)
    {following : Nat}
    (fetched : activation.fetch? = some (.branching condition distance, following))
    (decides : activation.Decides machine.heap condition taken) :
    ∃ event, execution.attempt machine =
      if taken then
        if (activation.function.body.start : Int) ≤ activation.next + distance.toInt ∧
            activation.next + distance.toInt < activation.function.body.stop then
          .ok (machine.note event, execution.goesTo id activation below
            (activation.next + distance.toInt).toNat)
        else .error (.branchOutside (activation.next + distance.toInt)
            activation.function.body.start activation.function.body.stop,
          machine.note event, execution.goesTo id activation below following)
      else .ok (machine.note event, execution.goesTo id activation below following) := by
  let event : Event := .dispatched activation.next
    (Instruction.branching condition distance : Instruction UInt32).opcode
  let scene := execution.scene (machine.note event) (activation.begun.moveTo following)
  have chosen : scene.frame.Decides scene.machine.heap condition taken := by
    rcases condition with _ | ⟨expected, source⟩ <;> exact decides
  have runs := Instruction.run_branching chosen distance
  rw [Instruction.run_taken] at runs
  refine ⟨event, (attempt_of_fetch? stack fetched).trans ?_⟩
  rw [attemptInstruction, attemptEffect, runs]
  cases taken with
  | false => rfl
  | true =>
    have same : (scene.frame.start : Int) = activation.next := rfl
    have body : scene.frame.function.body = activation.function.body := rfl
    simp only [if_true, same, body]
    by_cases range : (activation.function.body.start : Int) ≤ activation.next + distance.toInt ∧
        activation.next + distance.toInt < activation.function.body.stop
    · simp only [if_pos range]
      rfl
    · simp only [if_neg range]
      rfl

end Execution

namespace Vm

open Draft (after offsetAfter)

variable {config : Config} {fresh vm : Vm} {id number : Nat} {execution : Execution}
  {activation : Activation} {below : List Frame} {before rest : List Assembler.Call}
  {call : Assembler.Call} {condition : Option (Bool × UInt32)} {target : Nat}

/-- A call whose code the assembler has written is about to execute a branch that stands at its
position. -/
theorem fetch?_aimed (aims : call.Aims before rest condition target)
    (small : offsetAfter (before ++ call :: rest) < 2 ^ 31)
    (coded : activation.function.module.code = (after (before ++ call :: rest)).assembler.code)
    (here : activation.next = offsetAfter before)
    (inside : activation.next < activation.function.body.stop) :
    ∃ distance, activation.fetch? =
        some (.branching condition distance, offsetAfter (before ++ [call])) ∧
      (activation.next : Int) + distance.toInt = target := by
  obtain ⟨distance, has, leads⟩ := Draft.has_aimed aims small
  have sees := has.sees
  rw [← coded, ← here] at sees
  refine ⟨distance, Activation.fetch?_eq_some_iff.mpr
    ⟨inside, ⟨_, Instruction.spelled_encode _, sees⟩, ?_⟩, here ▸ leads⟩
  rw [here, Draft.offsetAfter_aimed aims distance]

/-- Branches land where the assembler aimed them. Whatever calls have written less than two
gigabytes of code, raw bytes included, a call of a function over that code that is at a branch goes
on exactly at what the branch was aimed at, if it takes the branch and this is inside the function.
If it is outside, then a runtime error is raised, and if the branch is not taken, the call goes on
at the instruction written next. Patches change the distances of their own branches at most. -/
theorem lands_where_aimed (made : create config = .ok fresh) (runs : RunsBy Call.Proper fresh vm)
    (present : vm.execution? id = some execution)
    (stack : execution.frames = .script number activation :: below)
    (aims : call.Aims before rest condition target)
    (small : offsetAfter (before ++ call :: rest) < 2 ^ 31)
    (coded : activation.function.module.code = (after (before ++ call :: rest)).assembler.code)
    (here : activation.next = offsetAfter before)
    (inside : activation.next < activation.function.body.stop) :
    (∀ taken, activation.Decides vm.machine.heap condition taken →
      if taken then
        if activation.function.body.start ≤ target ∧ target < activation.function.body.stop then
          (vm.perform (.turn id)).execution? id =
            some (execution.goesTo number activation below target)
        else
          ∃ fault middle faulted, execution.Faults vm.machine fault middle faulted ∧
            fault = .branchOutside target activation.function.body.start
              activation.function.body.stop ∧
            fault.exception = .runtime ∧
            (middle.heap.hasRoom (1 + Machine.instanceSize) = true →
              ∃ value state, faulted.Throws middle fault value state ∧
                vm.perform (.turn id) = vm.put id (state.1, state.2.settle))
      else
        (vm.perform (.turn id)).execution? id =
          some (execution.goesTo number activation below (offsetAfter (before ++ [call])))) ∧
    ∀ calls number jump, (after calls).jumps[number]? = some jump →
      Draft.PatchesOnly calls number jump := by
  refine ⟨fun taken decides => ?_, fun _ _ _ found => Draft.patchesOnly found⟩
  obtain ⟨distance, fetched, leads⟩ := fetch?_aimed aims small coded here inside
  obtain ⟨event, attempted⟩ := Execution.attempt_branching stack fetched decides
  rw [leads, Int.toNat_natCast] at attempted
  simp only [Int.ofNat_le, Int.ofNat_lt] at attempted
  cases taken with
  | false =>
    simp only [Bool.false_eq_true, if_false] at attempted ⊢
    rw [execution?_turn present, Execution.turned_of_attempt_ok stack attempted,
      Execution.settle_of_cons rfl]
  | true =>
    simp only [if_true] at attempted ⊢
    split
    · rename_i range
      rw [if_pos range] at attempted
      rw [execution?_turn present, Execution.turned_of_attempt_ok stack attempted,
        Execution.settle_of_cons rfl]
    · rename_i range
      rw [if_neg range] at attempted
      have faults := Execution.Faults.instruction attempted
      refine ⟨_, _, _, faults, rfl, rfl, fun room => ?_⟩
      have orderly := ((intact_create made).upholds_runs runs).intact.stocked.orderly
      obtain ⟨value, state, throws, turned⟩ :=
        faults.throws (standard_of_runs made runs) orderly room
      exact ⟨value, state, throws, (perform_turn present).trans (by rw [turned])⟩

/-- A forward branch on a false condition passes over an instruction and a branch back, is patched
after both, and is taken because the register is null. -/
theorem lands_where_aimed_forward : ∃ fresh vm execution activation, create {} = .ok fresh ∧
    RunsBy Call.Proper fresh vm ∧ vm.execution? 0 = some execution ∧
    execution.frames = [.script 1 activation] ∧
    activation.function.module.code = (after [.write (.branch (some (false, 0))),
      .write (.emit ⟨.nop, ()⟩), .write (.branchTo 0), .write (.patch 0), .byte 2]).assembler.code ∧
    activation.next = 0 ∧ activation.Decides vm.machine.heap (some (false, 0)) true ∧
    (vm.perform (.turn 0)).execution? 0 = some (execution.goesTo 1 activation [] 15) := by
  let calls : List Assembler.Call := [.write (.branch (some (false, 0))),
    .write (.emit ⟨.nop, ()⟩), .write (.branchTo 0), .write (.patch 0), .byte 2]
  let module : Module := ⟨"main", [], #[], #[], (after calls).assembler.code, 0⟩
  let function : ScriptFunction := ⟨"script", 0, 0, module, ⟨0, 16, [], []⟩⟩
  let fresh : Vm := { machine := { config := {}, registry := .initial, collector := .create 32 } }
  let vm := (fresh.perform .createExecution).perform (.restart 0 (.script function))
  let activation := Activation.enter function
  let execution : Execution := { frames := [.script 1 activation], issued := 1 }
  have made : create {} = .ok fresh := rfl
  have begun : (Function.script function).Made :=
    ⟨0, 16, [], [], "script", 0, 0, module, _, by decide +kernel, rfl, by decide +kernel⟩
  have runs : RunsBy Call.Proper fresh vm :=
    .tail (.single ⟨.createExecution, proper_of_quiet _ _ rfl, rfl⟩)
      ⟨.restart 0 (.script function), fun _ passed => .inl (Option.some.inj passed ▸ begun), rfl⟩
  have present : vm.execution? 0 = some execution := rfl
  have aims : Assembler.Call.Aims [] (.write (.branch (some (false, 0)))) calls.tail
      (some (false, 0)) (offsetAfter (calls.take 3)) :=
    @Assembler.Call.Aims.forward [] (some (false, 0))
      [.write (.emit ⟨.nop, ()⟩), .write (.branchTo 0)] [.byte 2] (by simp)
  have decides : activation.Decides vm.machine.heap (some (false, 0)) true :=
    ⟨Ref.null, .null, false, rfl, by decide +kernel, rfl, rfl⟩
  have lands := (lands_where_aimed made runs present rfl aims (by decide +kernel) rfl
    (by decide +kernel) (by decide +kernel)).1 true decides
  rw [if_pos rfl, if_pos (by decide +kernel)] at lands
  exact ⟨fresh, vm, execution, activation, made, runs, present, rfl, rfl, rfl, decides, lands⟩

end Vm

end ScriptVm
