import ScriptVm.Proofs.Execution.Attempts
import ScriptVm.Proofs.Execution.Checks
import ScriptVm.Proofs.Instruction.Listing
import ScriptVm.Proofs.Step.Edits

/-!
# Where instructions lead

An instruction that goes through has been decoded from the bytes at the position of its call: the
byte of the operation and the operands that the table lists for it. The call then stands right after
these bytes, unless the instruction has branched, ended the call, or raised a value. A listing of
the function shows the same instruction at that offset, and its next line is where the call stands.
-/
namespace ScriptVm

namespace Activation

variable {activation : Activation} {instruction : Instruction UInt32} {following : Nat}

/-- The decode cursor at the next instruction of a call. -/
def site (activation : Activation) : Cursor :=
  Cursor.ofOffset activation.function.module.code activation.next

/-- The next instruction of a call is the one that is spelled at its position, and the bytes of its
spelling are passed over. -/
theorem fetch?_eq_some_iff :
    activation.fetch? = some (instruction, following) ↔
      activation.next < activation.function.body.stop ∧ activation.site.Holds instruction ∧
        following = activation.next + instruction.size := by
  constructor
  · intro fetched
    obtain ⟨inside, byte, middle, last, taken, known, decoded, rfl⟩ := fetch?_eq_some fetched
    have found : activation.site.Holds instruction ∧ last = _ :=
      Cursor.holds_iff.mpr ⟨byte, middle, taken, known, decoded⟩
    obtain ⟨holds, rfl⟩ := found
    exact ⟨inside, holds, rfl⟩
  · rintro ⟨inside, holds, rfl⟩
    obtain ⟨byte, middle, taken, known, decoded⟩ := Cursor.holds_iff.mp ⟨holds, rfl⟩
    replace taken : activation.begun.cursor.byte? = some (byte, middle) := taken
    unfold fetch?
    rw [if_pos inside, taken]
    simp only [Option.bind_eq_bind, Option.bind_some, known, decoded]
    rfl

/-- What follows an instruction is inside the code. -/
theorem following_le_of_fetch? (fetched : activation.fetch? = some (instruction, following)) :
    following ≤ activation.function.module.code.size := by
  obtain ⟨-, holds, rfl⟩ := fetch?_eq_some_iff.mp fetched
  exact holds.fits

end Activation

namespace Execution

variable {machine after : Machine} {execution changed : Execution} {id : Nat}
  {activation : Activation} {below : List Frame} {instruction : Instruction UInt32}

/-- An attempt that goes through is one at an instruction that can be fetched. -/
theorem fetch?_of_attempt (stack : execution.frames = .script id activation :: below)
    (inside : activation.next < activation.function.body.stop)
    (done : execution.attempt machine = .ok (after, changed)) :
    ∃ instruction following, activation.fetch? = some (instruction, following) := by
  have proper : ¬activation.function.body.stop ≤ activation.next := Nat.not_le.mpr inside
  simp only [attempt, stack, if_neg proper, attemptAt_by_table] at done
  unfold Activation.fetch?
  rw [if_pos inside]
  cases taken : activation.begun.cursor.byte? with
  | none => simp [taken] at done
  | some found =>
    obtain ⟨byte, cursor⟩ := found
    simp only [taken] at done
    cases known : Opcode.ofByte? byte with
    | none => simp [known] at done
    | some opcode =>
      simp only [known] at done
      cases decoded : Operands.decode opcode.shapes cursor with
      | error misread => simp [decoded] at done
      | ok operands =>
        refine ⟨⟨opcode, operands.1⟩, operands.2.next, ?_⟩
        simp only [Option.bind_eq_bind, Option.bind_some, known, decoded]
        rfl

end Execution

namespace Instruction

variable {scene after : Scene}

/-- A jump that goes through sets the position of the call. -/
theorem of_jump {distance : Distance} {result : Unit}
    (goes : (jump distance).run scene = .ok result after) :
    ∃ target : Nat, (target : Int) = scene.frame.start + distance.toInt ∧
      after = { scene with frame := scene.frame.moveTo target } := by
  rw [run_jump] at goes
  split at goes
  · rename_i range
    cases goes
    refine ⟨(scene.frame.start + distance.toInt).toNat, ?_, rfl⟩
    omega
  · cases goes

/-- A branch that goes through is taken. -/
theorem of_branch {distance : Distance} {outcome : Outcome}
    (goes : (execute ⟨.branch, distance, ()⟩).run scene = .ok outcome after) :
    outcome = .proceed ∧ ∃ target : Nat, (target : Int) = scene.frame.start + distance.toInt ∧
      after = { scene with frame := scene.frame.moveTo target } := by
  obtain ⟨_, middle, jumps, rest⟩ := Step.of_bind goes
  cases rest
  exact ⟨rfl, of_jump jumps⟩

/-- A branch on a condition that goes through is taken exactly when the condition is the expected
one. -/
theorem of_branchIf {expected : Bool} {source : UInt32} {distance : Distance} {outcome : Outcome}
    (goes : (execute ⟨.branchIf expected, source, distance, ()⟩).run scene = .ok outcome after) :
    outcome = .proceed ∧ ∃ value content condition,
      scene.frame.register source.toNat = .ok value ∧
      scene.machine.heap.value? value = some content ∧ content.condition? = some condition ∧
      if condition = expected then
        ∃ target : Nat, (target : Int) = scene.frame.start + distance.toInt ∧
          after = { scene with frame := scene.frame.moveTo target }
      else after = scene := by
  obtain ⟨value, _, read, more⟩ := Step.of_bind goes
  obtain ⟨named, rfl⟩ := Step.of_orFault ((Step.run_register _ source).symm.trans read)
  obtain ⟨content, _, looked, rest⟩ := Step.of_bind more
  obtain ⟨shown, rfl⟩ := Step.of_found ((Step.run_value _ value).symm.trans looked)
  obtain ⟨condition, _, tested, last⟩ := Step.of_bind rest
  obtain ⟨found, rfl⟩ := Step.of_found tested
  by_cases same : condition = expected
  · rw [if_pos same] at last
    obtain ⟨_, _, jumps, ended⟩ := Step.of_bind last
    cases ended
    refine ⟨rfl, value, content, condition, named, shown, found, ?_⟩
    rw [if_pos same]
    exact of_jump jumps
  · rw [if_neg same] at last
    cases last
    refine ⟨rfl, value, content, condition, named, shown, found, ?_⟩
    rw [if_neg same]

end Instruction

/-- The operation leaves its call on top of the call stack and goes on right after itself. -/
def Opcode.straight : Opcode → Bool
  | .leave | .raise | .call | .callValue | .branch | .branchIf _ => false
  | _ => true

/-- An operation that goes on right after itself proceeds, waits or aborts. -/
theorem Opcode.ends_of_straight {opcode : Opcode} {outcome : Outcome}
    (straight : opcode.straight = true) (ends : opcode.Ends outcome) :
    outcome = .proceed ∨ outcome = .yield ∨ outcome = .abort := by
  cases opcode <;> simp_all [Opcode.straight, Opcode.Ends]

/-- A call that has passed over its next instruction. -/
def Activation.past (activation : Activation) (instruction : Instruction UInt32) : Activation :=
  activation.begun.moveTo (activation.next + instruction.size)

/-- What becomes of a call stack when an instruction of its innermost call goes through, given the
heap before it and the machine after it. -/
inductive Instruction.Lands (heap : Heap) (after : Machine) (issued id : Nat)
    (activation : Activation) (below : List Frame) : Instruction UInt32 → List Frame → Prop where
  /-- The call goes on after the instruction. -/
  | falls {instruction : Instruction UInt32} {frame : Activation}
    (straight : instruction.opcode.straight = true)
    (rests : (activation.past instruction).Rests frame) :
    Lands heap after issued id activation below instruction (.script id frame :: below)
  /-- The call waits after the instruction while another one runs. -/
  | calls {instruction : Instruction UInt32} {callee : Function}
    (opcode : instruction.opcode = .call ∨ instruction.opcode = .callValue) :
    Lands heap after issued id activation below instruction
      (Frame.enter (issued + 1) callee :: .script id (activation.past instruction) :: below)
  /-- The call goes on at the distance. -/
  | branches {distance : Distance} {target : Nat}
    (there : (target : Int) = activation.next + distance.toInt) :
    Lands heap after issued id activation below ⟨.branch, distance, ()⟩
      (.script id (activation.begun.moveTo target) :: below)
  /-- The condition is the expected one, and the call goes on at the distance. -/
  | branchesIf {expected : Bool} {source : UInt32} {distance : Distance} {value : Ref}
    {content : Value} {target : Nat} (read : activation.register source.toNat = .ok value)
    (shown : heap.value? value = some content)
    (condition : content.condition? = some expected)
    (there : (target : Int) = activation.next + distance.toInt) :
    Lands heap after issued id activation below ⟨.branchIf expected, source, distance, ()⟩
      (.script id (activation.begun.moveTo target) :: below)
  /-- The condition is not the expected one, and the call goes on after the instruction. -/
  | passes {expected : Bool} {source : UInt32} {distance : Distance} {value : Ref}
    {content : Value} (read : activation.register source.toNat = .ok value)
    (shown : heap.value? value = some content)
    (condition : content.condition? = some (!expected)) :
    Lands heap after issued id activation below ⟨.branchIf expected, source, distance, ()⟩
      (.script id (activation.past ⟨.branchIf expected, source, distance, ()⟩) :: below)
  /-- The call has ended. -/
  | leaves : Lands heap after issued id activation below ⟨.leave, ()⟩ below
  /-- The call catches the raised value and goes on at its handler. -/
  | catches {source : UInt32} {value : Ref} {kind : Kind} {className : Option String}
    {handler : Nat} (read : activation.register source.toNat = .ok value)
    (thrown : after.thrown value = (kind, className))
    (handles : activation.function.body.findHandler? activation.next kind className =
      some handler) :
    Lands heap after issued id activation below ⟨.raise, source, ()⟩
      (.script id (activation.begun.moveTo handler) :: below)
  /-- The call does not catch the raised value, and it is gone. -/
  | escapes {source : UInt32} {value : Ref} {kind : Kind} {className : Option String}
    (read : activation.register source.toNat = .ok value)
    (thrown : after.thrown value = (kind, className))
    (unhandled : activation.function.body.findHandler? activation.next kind className = none) :
    Lands heap after issued id activation below ⟨.raise, source, ()⟩
      ((Execution.unwind kind className below).getD [])

namespace Execution

variable {machine after : Machine} {execution changed : Execution} {id : Nat}
  {activation : Activation} {below : List Frame} {instruction : Instruction UInt32}

/-- Raising a value unwinds the call stack by what the value is. -/
theorem frames_raise (machine : Machine) (execution : Execution) (value : Ref) :
    ∃ kind className, (execution.raise machine value .normal).1.thrown value = (kind, className) ∧
      (execution.raise machine value .normal).2.frames =
        (unwind kind className execution.frames).getD [] := by
  refine ⟨((machine.shade value).thrown value).1, ((machine.shade value).thrown value).2, ?_⟩
  simp only [raise, setResult]
  split
  · rename_i frames unwound
    exact ⟨rfl, by rw [unwound]; rfl⟩
  · rename_i unwound
    exact ⟨rfl, by rw [unwound]; rfl⟩

/-- An instruction that raises a value leads to the handler of the call, or the call is gone. -/
theorem lands_raise {source : UInt32} {value : Ref}
    (read : activation.register source.toNat = .ok value)
    (done : (execution.withScene id below (execution.scene machine
      (activation.past ⟨.raise, source, ()⟩))).attemptOutcome machine (.raise value) =
        .ok (after, changed)) :
    Instruction.Lands machine.heap after execution.issued id activation below ⟨.raise, source, ()⟩
      changed.frames := by
  obtain ⟨rfl, rfl⟩ := Prod.mk.inj (Except.ok.inj done)
  obtain ⟨kind, className, thrown, frames⟩ := frames_raise machine
    (execution.withScene id below (execution.scene machine
      (activation.past ⟨.raise, source, ()⟩))) value
  show Instruction.Lands machine.heap _ execution.issued id activation below _
    (Execution.raise machine _ value .normal).2.frames
  rw [frames]
  cases handles : activation.function.body.findHandler? activation.next kind className with
  | some handler =>
    have caught : (Frame.script id (activation.past ⟨.raise, source, ()⟩)).catch? kind className =
        some (.script id (activation.begun.moveTo handler)) := by
      show ((activation.function.body.findHandler? activation.next kind className).map _).map _ = _
      rw [handles]
      rfl
    simp only [withScene, scene, unwind, caught]
    exact .catches read thrown handles
  | none =>
    have uncaught : (Frame.script id (activation.past ⟨.raise, source, ()⟩)).catch? kind className =
        none := by
      show ((activation.function.body.findHandler? activation.next kind className).map _).map _ = _
      rw [handles]
      rfl
    simp only [withScene, scene, unwind, uncaught]
    exact .escapes read thrown handles

/-- An instruction that begins a call leaves its own call waiting after the instruction. -/
theorem lands_call (opcode : instruction.opcode = .call ∨ instruction.opcode = .callValue)
    (reads : instruction.execute.Reads Instruction.Calls) {outcome : Outcome} {scene : Scene}
    (goes : instruction.execute.run (execution.scene machine (activation.past instruction)) =
      .ok outcome scene)
    (done : (execution.withScene id below scene).attemptOutcome scene.machine outcome =
      .ok (after, changed)) :
    instruction.Lands machine.heap after execution.issued id activation below changed.frames := by
  rcases reads (execution.scene machine (activation.past instruction)) with
    ⟨_, runs, callee, rfl⟩ | ⟨fault, stops⟩
  · obtain ⟨rfl, rfl⟩ := EStateM.Result.ok.inj (runs.symm.trans goes)
    simp only [attemptOutcome] at done
    split at done
    · rename_i number pushed begun
      obtain ⟨-, rfl⟩ := Prod.mk.inj (Except.ok.inj done)
      rw [pushFrame_eq] at begun
      split at begun
      · obtain ⟨-, rfl⟩ := Prod.mk.inj (Except.ok.inj begun)
        exact .calls opcode
      · cases begun
    · cases done
    · cases done
  · rw [stops] at goes
    cases goes

/-- An instruction that goes on right after itself leaves its call there. -/
theorem lands_straight (straight : instruction.opcode.straight = true) {outcome : Outcome}
    {scene : Scene} (goes : instruction.execute.run (execution.scene machine
      (activation.past instruction)) = .ok outcome scene)
    (done : (execution.withScene id below scene).attemptOutcome scene.machine outcome =
      .ok (after, changed)) :
    instruction.Lands machine.heap after execution.issued id activation below changed.frames := by
  have unbranching : instruction.opcode.branches = false := by
    cases opcode : instruction.opcode <;> simp_all [Opcode.straight, Opcode.branches]
  have edits : instruction.execute.Edits (execution.scene machine (activation.past instruction))
      instruction.opcode.Ends := Instruction.edits_execute instruction unbranching
  unfold Step.Edits at edits
  rw [goes] at edits
  have frames : changed.frames = .script id scene.frame :: below := by
    rcases Opcode.ends_of_straight straight edits.2 with rfl | rfl | rfl <;>
      obtain ⟨-, rfl⟩ := Prod.mk.inj (Except.ok.inj done) <;> rfl
  rw [frames]
  exact .falls straight edits.1.frame

/-- An attempt at an instruction that has been decoded runs it in the call that has passed over
it. -/
theorem lands_attemptInstruction
    (done : execution.attemptInstruction machine id (activation.past instruction) below
      instruction = .ok (after, changed)) :
    instruction.Lands machine.heap after execution.issued id activation below changed.frames := by
  unfold attemptInstruction attemptEffect at done
  cases goes : instruction.execute.run (execution.scene machine (activation.past instruction)) with
  | error fault scene => simp [goes] at done
  | ok outcome scene =>
    simp only [goes] at done
    match instruction with
    | ⟨.branch, distance, ()⟩ =>
      obtain ⟨rfl, target, there, rfl⟩ := Instruction.of_branch goes
      obtain ⟨-, rfl⟩ := Prod.mk.inj (Except.ok.inj done)
      exact .branches there
    | ⟨.branchIf expected, source, distance, ()⟩ =>
      obtain ⟨rfl, value, content, condition, read, shown, found, rest⟩ :=
        Instruction.of_branchIf goes
      obtain ⟨-, rfl⟩ := Prod.mk.inj (Except.ok.inj done)
      by_cases same : condition = expected
      · rw [if_pos same] at rest
        obtain ⟨target, there, rfl⟩ := rest
        exact .branchesIf read shown (same ▸ found) there
      · rw [if_neg same] at rest
        obtain rfl := rest
        have other : condition = !expected := by
          cases condition <;> cases expected <;> simp_all
        exact .passes read shown (other ▸ found)
    | ⟨.raise, source, ()⟩ =>
      obtain ⟨value, _, read, rest⟩ := Step.of_bind goes
      obtain ⟨named, rfl⟩ := Step.of_orFault ((Step.run_register _ source).symm.trans read)
      cases rest
      exact lands_raise named done
    | ⟨.call, signature, ()⟩ =>
      exact lands_call (.inl rfl) (Instruction.reads_call signature) goes done
    | ⟨.callValue, source, ()⟩ =>
      exact lands_call (.inr rfl) (Instruction.reads_callValue source) goes done
    | ⟨.leave, ()⟩ =>
      cases goes
      obtain ⟨-, rfl⟩ := Prod.mk.inj (Except.ok.inj done)
      exact .leaves
    | ⟨.nop, _⟩ | ⟨.abort, _⟩ | ⟨.yield, _⟩ | ⟨.loadConstant, _⟩ | ⟨.load _, _⟩ | ⟨.store _, _⟩
    | ⟨.pull _, _⟩ | ⟨.push, _⟩ | ⟨.pop, _⟩ | ⟨.initObject, _⟩ | ⟨.initArray, _⟩
    | ⟨.initFunction, _⟩ | ⟨.arithmetic _, _⟩ => exact lands_straight rfl goes done

/-- The executor, the table of operands and the listing agree on an instruction of an innermost
call, from one machine and execution to others. -/
structure Accords (machine : Machine) (execution : Execution) (id : Nat) (activation : Activation)
    (below : List Frame) (instruction : Instruction UInt32) (after : Machine)
    (changed : Execution) : Prop where
  /-- The bytes at the position of the call spell the instruction: the byte of the operation, then
  the operands that the table lists for it. -/
  spelled : ∃ bytes, instruction.Spelled bytes ∧ activation.site.Sees bytes ∧
    bytes.length = instruction.size
  /-- The operation reads these operands and no more, and what it does then is done with them. -/
  reads : instruction.opcode.handle (activation.site.moveTo (activation.next + 1)) =
    .ok (instruction.execute, activation.site.moveTo (activation.next + instruction.size))
  /-- The instruction runs with these operands, in the call that has passed over the bytes. -/
  executed : execution.attempt machine = execution.attemptInstruction
    (machine.note (.dispatched activation.next instruction.opcode)) id
    (activation.past instruction) below instruction
  /-- The call stack lands where the instruction leads. -/
  lands : instruction.Lands machine.heap after execution.issued id activation below changed.frames
  /-- In code whose size is a word, so is the position after the bytes. -/
  word : activation.function.module.code.size < 2 ^ 32 →
    activation.next + instruction.size < 2 ^ 32
  /-- A text of the listing that begins with the position shows the instruction, and the next text
  begins with the position after the bytes, or the function ends there. -/
  listed : ∀ texts, (Function.script activation.function).listing = .ok texts →
    ∀ index text, texts[index]? = some text → Text.Opens activation.next text →
      text = instruction.shown (nameIn activation.function.module.strings) activation.next ∧
      (∀ following, texts[index + 1]? = some following →
        Text.Opens (activation.next + instruction.size) following) ∧
      (texts[index + 1]? = none →
        activation.function.body.stop ≤ activation.next + instruction.size)

/-- Dispatching an instruction without a fault executes the instruction that the table of operands
and the listing of the function find at the position of the call. -/
theorem accords_of_attempt (stack : execution.frames = .script id activation :: below)
    (inside : activation.next < activation.function.body.stop)
    (done : execution.attempt machine = .ok (after, changed)) :
    execution.dispatch machine = (after, changed) ∧
      ∃ instruction, execution.Accords machine id activation below instruction after changed := by
  have dispatched : execution.dispatch machine = (after, changed) := by
    rw [dispatch_eq, done]
    rfl
  obtain ⟨instruction, following, fetched⟩ := fetch?_of_attempt stack inside done
  obtain ⟨-, holds, rfl⟩ := Activation.fetch?_eq_some_iff.mp fetched
  obtain ⟨byte, middle, taken, -, decoded⟩ := Cursor.holds_iff.mp ⟨holds, rfl⟩
  obtain ⟨-, rfl⟩ := Cursor.byte?_eq_some_iff.mp taken
  have fits := holds.fits
  obtain ⟨bytes, spelled, sees⟩ := holds
  have attempted : execution.attempt machine = _ := attempt_of_fetch? stack fetched
  have landed : instruction.Lands (machine.note _).heap after execution.issued id activation below
      changed.frames := lands_attemptInstruction (attempted.symm.trans done)
  refine ⟨dispatched, instruction, ⟨bytes, spelled, sees, spelled.length⟩, ?_, attempted, landed,
    Nat.lt_of_le_of_lt fits, ?_⟩
  · rw [Opcode.handle_eq]
    show Operands.decode _ (activation.site.moveTo (activation.site.next + 1)) >>= _ = _
    rw [decoded]
    rfl
  · intro texts listed index text found opens
    obtain ⟨lines, covers, looks⟩ := Line.listing_eq_ok_iff.mp listed
    obtain ⟨shown, shows, rfl, next, last⟩ := covers.text looks found opens
    have holds : activation.site.Shows (.instruction instruction) := ⟨bytes, spelled, sees⟩
    obtain rfl := Line.shows_unique shows holds
    exact ⟨rfl, next, last⟩

/-- A function that loads a truth value, spelled by a byte other than one, and then returns. -/
theorem accords_of_attempt_loading : ∃ machine execution activation after changed,
    execution.frames = [.script 1 activation] ∧
    activation.next < activation.function.body.stop ∧
    execution.attempt machine = .ok (after, changed) ∧
    (Function.script activation.function).listing =
      .ok ["000001 LOAD_CONSTANT   r3, bool true", "000008 RETURN"] ∧
    execution.dispatch machine = (after, changed) ∧
    ∃ instruction, Accords machine execution 1 activation [] instruction after changed := by
  let module : Module := ⟨"module", [], #[], #[], #[0, 7, 3, 0, 0, 0, 1, 2, 2], 0⟩
  let body : Body := ⟨1, 9, [], []⟩
  let activation := Activation.enter ⟨"script", 0, 0, module, body⟩
  let machine : Machine := { config := {}, registry := .initial, collector := .create 32 }
  let execution : Execution := { frames := [.script 1 activation] }
  have done : ∃ after changed, execution.attempt machine = .ok (after, changed) := ⟨_, _, rfl⟩
  obtain ⟨after, changed, done⟩ := done
  have accords := accords_of_attempt (rfl : execution.frames = [.script 1 activation])
    (by decide) done
  exact ⟨machine, execution, activation, after, changed, rfl, by decide, done, by decide +kernel,
    accords⟩

end Execution

end ScriptVm
