import ScriptVm.Proofs.Instruction.Assembling

/-!
# Where branches are aimed

An assembler may be made to write raw bytes between instructions, and then its code need not be a
sequence of instructions. Its branches are still where they were written: a patch changes the four
bytes of the distance of its own branch and no others, and no other call changes bytes that have
been written. So a branch back stays aimed at its target, and a forward branch at the offset of its
last patch.
-/
namespace ScriptVm

namespace Assembler

variable {assembler patched : Assembler} {jump : Jump} {start : Nat} {bytes : List UInt8}

/-- Bytes stand in the code from an offset on. -/
def Has (assembler : Assembler) (start : Nat) (bytes : List UInt8) : Prop :=
  ∀ index byte, bytes[index]? = some byte → assembler.code[start + index]? = some byte

/-- The bytes from an offset on are seen by a cursor there. -/
theorem Has.sees (has : assembler.Has start bytes) :
    (Cursor.ofOffset assembler.code start).Sees bytes := by
  refine List.prefix_iff_getElem?.mpr fun index inside => ?_
  have there := has index _ (List.getElem?_eq_getElem inside)
  rwa [← Array.getElem?_toList, ← List.getElem?_drop] at there

/-- A patch writes the distance over four bytes and leaves all others. -/
theorem getElem?_patch (done : assembler.patch jump = .ok patched) (index : Nat) :
    patched.code[index]? =
      if jump.operand ≤ index ∧ index < jump.operand + 4 then
        (littleBytes 4 (UInt32.ofNat assembler.offset - UInt32.ofNat jump.start).toNat)[
          index - jump.operand]?
      else assembler.code[index]? := by
  unfold patch at done
  dsimp only at done
  split at done
  · cases done
  · rename_i inside
    obtain rfl := Except.ok.inj done
    have front : (assembler.code.extract 0 jump.operand).size = jump.operand := by
      rw [Array.size_extract]
      omega
    have word (value : Nat) : (littleBytes 4 value).toArray.size = 4 := by
      rw [List.size_toArray, length_littleBytes]
    rw [Array.getElem?_append, Array.getElem?_append, Array.size_append, front, word]
    rcases Nat.lt_or_ge index jump.operand with before | from_
    · rw [if_pos (by omega), if_pos before, if_neg (by omega), Array.getElem?_extract,
        if_pos (by omega), Nat.zero_add]
    · rcases Nat.lt_or_ge index (jump.operand + 4) with within | past
      · rw [if_pos within, if_neg (by omega), if_pos ⟨from_, within⟩, List.getElem?_toArray]
      · rw [if_neg (by omega), if_neg (by omega), Array.getElem?_extract]
        split
        · rw [Nat.add_sub_cancel' past]
        · exact (Array.getElem?_eq_none (by omega)).symm

end Assembler

/-- A call of an assembler, raw bytes included. -/
inductive Assembler.Call where
  /-- Any other call. -/
  | write (writing : Writing)
  /-- Writes a byte as it is. -/
  | byte (value : UInt8)

namespace Draft

open Assembler (Call)

variable {draft : Draft} {before calls rest : List Call} {call last : Call} {number : Nat}
  {jump : Jump} {condition : Option (Bool × UInt32)} {distance : Distance} {bytes : List UInt8}

/-- Makes a call. -/
def make (draft : Draft) : Call → Draft
  | .write writing => draft.write writing
  | .byte value => { draft with assembler := draft.assembler.byte value }

/-- What calls make of a fresh assembler. -/
def after (calls : List Call) : Draft := calls.foldl make {}

/-- The offset that an assembler reports after calls. -/
def offsetAfter (calls : List Call) : Nat := (after calls).assembler.offset

/-- The last call is made after the others. -/
theorem after_concat (calls : List Call) (last : Call) :
    after (calls ++ [last]) = (after calls).make last := by
  rw [after, List.foldl_append]
  rfl

/-- A call shortens no code. -/
theorem offset_le_make (draft : Draft) (call : Call) :
    draft.assembler.offset ≤ (draft.make call).assembler.offset := by
  cases call with
  | write writing => exact (draft.grows_write writing).1
  | byte value =>
    simp only [make, Assembler.offset, Assembler.byte, Array.size_push]
    omega

/-- Calls shorten no code. -/
theorem offsetAfter_le (before rest : List Call) :
    offsetAfter before ≤ offsetAfter (before ++ rest) := by
  induction rest using List.reverseRecOn with
  | nil => rw [List.append_nil]
  | append_singleton rest last hypothesis =>
    rw [← List.append_assoc, offsetAfter, offsetAfter, after_concat]
    exact Nat.le_trans hypothesis (offset_le_make _ _)

/-- What a call has written is part of what all calls have written. -/
theorem offsetAfter_concat_le (before : List Call) (call : Call) (rest : List Call) :
    offsetAfter (before ++ [call]) ≤ offsetAfter (before ++ call :: rest) := by
  rw [← List.singleton_append (l := rest), ← List.append_assoc]
  exact offsetAfter_le _ _

/-- A branch takes as many bytes as it has. -/
theorem offsetAfter_branch (before : List Call) (condition : Option (Bool × UInt32)) :
    offsetAfter (before ++ [.write (.branch condition)]) =
      offsetAfter before + (Instruction.forkBytes condition).length + 4 := by
  rw [offsetAfter, after_concat]
  simp only [make, write, Assembler.branch_eq]
  rw [Assembler.offset_emit, Instruction.numbered_branching, Instruction.size_branching,
    ← Nat.add_assoc]
  rfl

/-- The forward branches that were written are those from before a call, and the one of the call. -/
theorem jumps_make (draft : Draft) (call : Call) :
    (∃ condition, call = .write (.branch condition) ∧
      (draft.make call).jumps = draft.jumps ++
        [⟨draft.assembler.offset,
          draft.assembler.offset + (Instruction.forkBytes condition).length⟩]) ∨
    (∀ condition, call ≠ .write (.branch condition)) ∧ (draft.make call).jumps = draft.jumps := by
  cases call with
  | byte value => exact .inr ⟨by simp, rfl⟩
  | write writing =>
    cases writing with
    | branch condition =>
      refine .inl ⟨condition, rfl, ?_⟩
      simp only [make, write, Assembler.branch_eq]
    | patch number =>
      refine .inr ⟨by simp, ?_⟩
      simp only [make, write]
      split
      · rfl
      · split <;> rfl
    | emit | branchTo | name => exact .inr ⟨by simp, rfl⟩

/-- A forward branch that was written was written by a call, with its number and with the place of
its distance. -/
theorem exists_branch (found : (after calls).jumps[number]? = some jump) :
    ∃ before condition rest, calls = before ++ .write (.branch condition) :: rest ∧
      (after before).jumps.length = number ∧
      jump = ⟨offsetAfter before,
        offsetAfter before + (Instruction.forkBytes condition).length⟩ := by
  induction calls using List.reverseRecOn with
  | nil => simp [after] at found
  | append_singleton calls last hypothesis =>
    have earlier : (after calls).jumps[number]? = some jump →
        ∃ before condition rest,
          calls ++ [last] = before ++ .write (.branch condition) :: rest ∧
          (after before).jumps.length = number ∧
          jump = ⟨offsetAfter before,
            offsetAfter before + (Instruction.forkBytes condition).length⟩ := by
      intro known
      obtain ⟨before, condition, rest, rfl, numbered, placed⟩ := hypothesis known
      exact ⟨before, condition, rest ++ [last], by simp, numbered, placed⟩
    rw [after_concat] at found
    rcases (after calls).jumps_make last with ⟨condition, rfl, more⟩ | ⟨-, same⟩
    · rw [more] at found
      rcases getElem?_concat found with known | ⟨numbered, placed⟩
      · exact earlier known
      · exact ⟨calls, condition, [], rfl, numbered, placed.symm⟩
    · rw [same] at found
      exact earlier found

/-- A forward branch stays written. -/
theorem jumps_branch (before rest : List Call) (condition : Option (Bool × UInt32)) :
    (after (before ++ .write (.branch condition) :: rest)).jumps[(after before).jumps.length]? =
      some ⟨offsetAfter before,
        offsetAfter before + (Instruction.forkBytes condition).length⟩ := by
  induction rest using List.reverseRecOn with
  | nil =>
    rw [after_concat]
    simp only [make, write, Assembler.branch_eq]
    rw [List.getElem?_append_right (Nat.le_refl _), Nat.sub_self]
    rfl
  | append_singleton rest last hypothesis =>
    rw [← List.cons_append, ← List.append_assoc, after_concat]
    rcases (after (before ++ .write (.branch condition) :: rest)).jumps_make last with
      ⟨_, -, more⟩ | ⟨-, same⟩
    · rw [more, List.getElem?_append_left (List.getElem?_eq_some_iff.mp hypothesis).1]
      exact hypothesis
    · rw [same]
      exact hypothesis

/-- Writing an instruction leaves the bytes before it. -/
theorem getElem?_emit (assembler : Assembler) (instruction : Instruction String) {index : Nat}
    (inside : index < assembler.offset) :
    (assembler.emit instruction).code[index]? = assembler.code[index]? := by
  rw [← Array.getElem?_toList, ← Array.getElem?_toList, Assembler.code_emit,
    List.getElem?_append_left (by rwa [Array.length_toList])]

/-- A call leaves a byte that has been written, unless it patches that byte. -/
theorem getElem?_make {index : Nat} (inside : index < draft.assembler.offset)
    (apart : ∀ number jump, call = .write (.patch number) → draft.jumps[number]? = some jump →
      index < jump.operand ∨ jump.operand + 4 ≤ index) :
    (draft.make call).assembler.code[index]? = draft.assembler.code[index]? := by
  cases call with
  | byte value =>
    exact (Array.getElem?_push_lt inside).trans (Array.getElem?_eq_getElem inside).symm
  | write writing =>
    cases writing with
    | emit instruction => exact getElem?_emit _ _ inside
    | branchTo target =>
      simp only [make, write, Assembler.branchTo_eq]
      exact getElem?_emit _ _ inside
    | branch condition =>
      simp only [make, write, Assembler.branch_eq]
      exact getElem?_emit _ _ inside
    | patch number =>
      simp only [make, write]
      split
      · rfl
      · rename_i jump found
        have outside := apart number jump rfl found
        split
        · rename_i patched done
          rw [Assembler.getElem?_patch done, if_neg (by omega)]
        · rfl
    | name text => rfl

/-- Two members of a list are the same one, or one of them stands before the other. -/
theorem split_cases {α : Type} {first second front back : List α} {one another : α}
    (same : first ++ one :: front = second ++ another :: back) :
    (first = second ∧ one = another) ∨ (∃ middle, second = first ++ one :: middle) ∨
      ∃ middle, first = second ++ another :: middle := by
  rcases List.append_eq_append_iff.mp same with ⟨between, shape, rest⟩ | ⟨between, shape, rest⟩
  · cases between with
    | nil => exact .inl ⟨by rw [shape, List.append_nil], (List.cons.inj rest).1⟩
    | cons head middle =>
      obtain ⟨rfl, -⟩ := List.cons.inj rest
      exact .inr (.inl ⟨middle, shape⟩)
  · cases between with
    | nil => exact .inl ⟨by rw [shape, List.append_nil], (List.cons.inj rest).1.symm⟩
    | cons head middle =>
      obtain ⟨rfl, -⟩ := List.cons.inj rest
      exact .inr (.inr ⟨middle, shape⟩)

/-- What a call wrote stays when another call follows, other than a patch of the branch that it
wrote. A patch may be of a branch written by this call, by an earlier one or by a later one. -/
theorem has_concat (split : calls = before ++ call :: rest)
    (has : (after calls).assembler.Has (offsetAfter before) bytes)
    (fits : offsetAfter before + bytes.length ≤ offsetAfter (before ++ [call])) (last : Call)
    (other : ∀ condition, call = .write (.branch condition) →
      last ≠ .write (.patch (after before).jumps.length)) :
    (after (calls ++ [last])).assembler.Has (offsetAfter before) bytes := by
  intro index byte known
  have inside : index < bytes.length := (List.getElem?_eq_some_iff.mp known).1
  have written : offsetAfter (before ++ [call]) ≤ offsetAfter calls :=
    split ▸ offsetAfter_concat_le before call rest
  rw [after_concat, getElem?_make (Nat.lt_of_lt_of_le (by omega) written), has index byte known]
  rintro number jump rfl found
  obtain ⟨first, condition, more, shape, numbered, rfl⟩ := exists_branch found
  have whole := offsetAfter_branch first condition
  rcases split_cases (split.symm.trans shape) with ⟨rfl, rfl⟩ | ⟨middle, rfl⟩ | ⟨middle, rfl⟩
  · exact absurd (congrArg (fun number => Call.write (.patch number)) numbered.symm)
      (other condition rfl)
  · have later := offsetAfter_concat_le before call middle
    exact .inl (by dsimp only; omega)
  · have earlier := offsetAfter_concat_le first (.write (.branch condition)) middle
    exact .inr (by dsimp only; omega)

/-- A patch of a branch replaces its distance by the one to the current offset. -/
theorem has_patched (split : calls = before ++ .write (.branch condition) :: rest)
    (has : (after calls).assembler.Has (offsetAfter before)
      (Instruction.branching condition distance : Instruction UInt32).encode)
    (small : offsetAfter calls < 2 ^ 31) :
    (after (calls ++ [.write (.patch (after before).jumps.length)])).assembler.Has
      (offsetAfter before) (Instruction.branching condition
        (Integer.ofInt _ ((offsetAfter calls : Int) - offsetAfter before)) :
          Instruction UInt32).encode := by
  have found : (after calls).jumps[(after before).jumps.length]? = _ :=
    split ▸ jumps_branch before rest condition
  have written : offsetAfter (before ++ [.write (.branch condition)]) ≤ offsetAfter calls :=
    split ▸ offsetAfter_concat_le before _ rest
  rw [offsetAfter_branch] at written
  obtain ⟨word, pattern⟩ := Assembler.toNat_distance
    (show offsetAfter before ≤ offsetAfter calls by omega) small
  have size : (after calls).assembler.code.size = offsetAfter calls := rfl
  obtain ⟨patched, done⟩ : ∃ patched, (after calls).assembler.patch ⟨offsetAfter before,
      offsetAfter before + (Instruction.forkBytes condition).length⟩ = .ok patched := by
    have distance : (UInt32.ofNat (after calls).assembler.offset -
        UInt32.ofNat (offsetAfter before)).toNat = offsetAfter calls - offsetAfter before := word
    simp only [Assembler.patch, distance, size, UInt32.size]
    rw [if_neg (by omega)]
    exact ⟨_, rfl⟩
  rw [after_concat]
  simp only [make, write, found, done]
  intro index byte known
  rw [Instruction.encode_branching, pattern] at known
  rw [Assembler.getElem?_patch done]
  change (if offsetAfter before + (Instruction.forkBytes condition).length ≤
      offsetAfter before + index ∧ offsetAfter before + index <
        offsetAfter before + (Instruction.forkBytes condition).length + 4 then
      (littleBytes 4 (UInt32.ofNat (offsetAfter calls) -
        UInt32.ofNat (offsetAfter before)).toNat)[offsetAfter before + index -
          (offsetAfter before + (Instruction.forkBytes condition).length)]?
    else _) = _
  rw [word]
  rcases Nat.lt_or_ge index (Instruction.forkBytes condition).length with opening | distance
  · rw [if_neg (by omega)]
    refine has index byte ?_
    rwa [Instruction.encode_branching, List.getElem?_append_left opening,
      ← List.getElem?_append_left opening]
  · rw [List.getElem?_append_right distance] at known
    have inside := (List.getElem?_eq_some_iff.mp known).1
    rw [length_littleBytes] at inside
    rw [if_pos (by omega), ← known]
    congr 1
    omega

/-- A branch has been written at the offset of its call. -/
theorem has_emit (assembler : Assembler) (condition : Option (Bool × UInt32))
    (distance : Distance) :
    (assembler.emit (.branching condition distance)).Has assembler.offset
      (Instruction.branching condition distance : Instruction UInt32).encode := by
  intro index byte known
  rw [← Array.getElem?_toList, Assembler.code_emit, Instruction.numbered_branching,
    List.getElem?_append_right (by rw [Array.length_toList]; exact Nat.le_add_right _ _),
    Array.length_toList, Assembler.offset, Nat.add_sub_cancel_left]
  exact known

/-- A forward branch stays where it was written, with some distance. -/
theorem has_branch (before rest : List Call) (condition : Option (Bool × UInt32))
    (small : offsetAfter (before ++ .write (.branch condition) :: rest) < 2 ^ 31) :
    ∃ distance, (after (before ++ .write (.branch condition) :: rest)).assembler.Has
      (offsetAfter before)
      (Instruction.branching condition distance : Instruction UInt32).encode := by
  induction rest using List.reverseRecOn with
  | nil =>
    refine ⟨Integer.ofInt _ 0, ?_⟩
    rw [after_concat]
    simp only [make, write, Assembler.branch_eq]
    exact has_emit _ condition _
  | append_singleton rest last hypothesis =>
    have shape : before ++ .write (.branch condition) :: (rest ++ [last]) =
        before ++ .write (.branch condition) :: rest ++ [last] := by simp
    rw [shape] at small ⊢
    have shorter := Nat.lt_of_le_of_lt (offsetAfter_le _ _) small
    obtain ⟨distance, has⟩ := hypothesis shorter
    by_cases own : last = .write (.patch (after before).jumps.length)
    · exact own ▸ ⟨_, has_patched rfl has shorter⟩
    · refine ⟨distance, has_concat rfl has ?_ last fun _ _ => own⟩
      rw [offsetAfter_branch, Instruction.encode_branching, List.length_append,
        length_littleBytes, Nat.add_assoc]

/-- What a call wrote stays when other calls follow, none of which patches the branch that it
wrote. -/
theorem has_append (split : calls = before ++ call :: rest)
    (has : (after calls).assembler.Has (offsetAfter before) bytes)
    (fits : offsetAfter before + bytes.length ≤ offsetAfter (before ++ [call]))
    (more : List Call) (unpatched : ∀ condition, call = .write (.branch condition) →
      .write (.patch (after before).jumps.length) ∉ more) :
    (after (calls ++ more)).assembler.Has (offsetAfter before) bytes := by
  induction more using List.reverseRecOn with
  | nil => rwa [List.append_nil]
  | append_singleton more last hypothesis =>
    have kept := hypothesis fun condition same member =>
      unpatched condition same (List.mem_append_left _ member)
    rw [← List.append_assoc]
    have shape : calls ++ more = before ++ call :: (rest ++ more) := by
      rw [split, List.append_assoc, List.cons_append]
    refine has_concat shape kept fits last ?_
    rintro condition same rfl
    exact unpatched condition same (List.mem_append_right _ (List.mem_singleton_self _))

end Draft

open Draft in
/-- A call among others writes a branch under a condition that is aimed at a target: a branch back
at its target, and a forward branch at the offset at which it was patched last. -/
inductive Assembler.Call.Aims (before : List Assembler.Call) :
    Assembler.Call → List Assembler.Call → Option (Bool × UInt32) → Nat → Prop where
  /-- The target of a branch back has been reached. -/
  | back {target : UInt32} {rest : List Assembler.Call}
    (reached : target.toNat ≤ offsetAfter before) :
    Aims before (.write (.branchTo target)) rest none target.toNat
  /-- A forward branch is patched for the last time. -/
  | forward {condition : Option (Bool × UInt32)} {middle rest : List Assembler.Call}
    (last : .write (.patch (after before).jumps.length) ∉ rest) :
    Aims before (.write (.branch condition))
      (middle ++ .write (.patch (after before).jumps.length) :: rest) condition
      (offsetAfter (before ++ .write (.branch condition) :: middle))

namespace Draft

open Assembler (Call)

variable {before : List Call}

/-- A branch back has been written with the distance to its target. -/
theorem has_branchTo {target : UInt32} (reached : target.toNat ≤ offsetAfter before)
    (rest : List Call) (small : offsetAfter before < 2 ^ 31) :
    ∃ distance, (after (before ++ .write (.branchTo target) :: rest)).assembler.Has
        (offsetAfter before)
        (Instruction.branching none distance : Instruction UInt32).encode ∧
      (offsetAfter before : Int) + distance.toInt = target.toNat := by
  let distance : Distance := Integer.ofInt _ ((target.toNat : Int) - offsetAfter before)
  have made : (after (before ++ [.write (.branchTo target)])).assembler =
      (after before).assembler.emit (.branching none distance) := by
    rw [after_concat]
    exact Assembler.branchTo_eq _ _
  have has : (after (before ++ [.write (.branchTo target)])).assembler.Has (offsetAfter before)
      (Instruction.branching none distance : Instruction UInt32).encode := by
    rw [made]
    exact has_emit _ none distance
  have fits : offsetAfter before +
      (Instruction.branching none distance : Instruction UInt32).encode.length ≤
        offsetAfter (before ++ [.write (.branchTo target)]) := by
    rw [offsetAfter, offsetAfter, made, Assembler.offset_emit, Instruction.numbered_branching,
      (Instruction.spelled_encode _).length]
  refine ⟨distance, ?_, ?_⟩
  · rw [List.append_cons]
    exact has_append rfl has fits rest nofun
  · rw [toInt_distance small (by omega)]
    omega

/-- A forward branch that is patched for the last time has the distance to the offset of then. -/
theorem has_last_patch {condition : Option (Bool × UInt32)} {through rest : List Call}
    {middle : List Call} (split : through = before ++ .write (.branch condition) :: middle)
    (small : offsetAfter through < 2 ^ 31)
    (last : .write (.patch (after before).jumps.length) ∉ rest) :
    ∃ distance, (after (through ++ [.write (.patch (after before).jumps.length)] ++
        rest)).assembler.Has (offsetAfter before)
        (Instruction.branching condition distance : Instruction UInt32).encode ∧
      (offsetAfter before : Int) + distance.toInt = offsetAfter through := by
  have ordered : offsetAfter before ≤ offsetAfter through := split ▸ offsetAfter_le _ _
  obtain ⟨_, has⟩ := has_branch before middle condition (split ▸ small)
  have patched := has_patched split (split ▸ has) small
  have shape : through ++ [.write (.patch (after before).jumps.length)] =
      before ++ .write (.branch condition) ::
        (middle ++ [.write (.patch (after before).jumps.length)]) := by
    rw [split, List.append_assoc, List.cons_append]
  refine ⟨_, has_append shape patched ?_ rest fun _ _ => last, ?_⟩
  · rw [offsetAfter_branch, Instruction.encode_branching, List.length_append, length_littleBytes,
      Nat.add_assoc]
  · rw [toInt_distance (by omega) small]
    omega

/-- After the call of a branch, the assembler reports the offset right after the branch. -/
theorem offsetAfter_aimed {rest : List Call} {call : Call} {condition : Option (Bool × UInt32)}
    {target : Nat} (aims : call.Aims before rest condition target) (distance : Distance) :
    offsetAfter (before ++ [call]) = offsetAfter before +
      (Instruction.branching condition distance : Instruction UInt32).size := by
  rw [Instruction.size_branching, ← Nat.add_assoc]
  cases aims with
  | @back target _ reached =>
    rw [offsetAfter, after_concat]
    simp only [make, write, Assembler.branchTo_eq]
    rw [Assembler.offset_emit, Instruction.numbered_branching, Instruction.size_branching,
      ← Nat.add_assoc]
    rfl
  | forward => exact offsetAfter_branch before condition

/-- The code has the branch at the offset of its call, with the distance to what it is aimed at. -/
theorem has_aimed {rest : List Call} {call : Call} {condition : Option (Bool × UInt32)}
    {target : Nat} (aims : call.Aims before rest condition target)
    (small : offsetAfter (before ++ call :: rest) < 2 ^ 31) :
    ∃ distance, (after (before ++ call :: rest)).assembler.Has (offsetAfter before)
        (Instruction.branching condition distance : Instruction UInt32).encode ∧
      (offsetAfter before : Int) + distance.toInt = target := by
  cases aims with
  | @back target _ reached =>
    exact has_branchTo reached rest (Nat.lt_of_le_of_lt (offsetAfter_le before _) small)
  | @forward _ middle later last =>
    have shape : before ++ .write (.branch condition) ::
        (middle ++ .write (.patch (after before).jumps.length) :: later) =
          before ++ .write (.branch condition) :: middle ++
            [.write (.patch (after before).jumps.length)] ++ later := by simp
    rw [shape] at small ⊢
    refine has_last_patch rfl (Nat.lt_of_le_of_lt ?_ small) last
    rw [List.append_assoc]
    exact offsetAfter_le _ _

/-- A patch of a branch, told by its number, changes the distance of that branch at most. -/
structure PatchesOnly (calls : List Call) (number : Nat) (jump : Jump) : Prop where
  /-- The four bytes are the last ones of the branch with that number. -/
  own : ∃ before condition rest, calls = before ++ .write (.branch condition) :: rest ∧
    (after before).jumps.length = number ∧
    jump.operand + 4 = offsetAfter (before ++ [.write (.branch condition)])
  /-- The code is as long as before. -/
  offset : offsetAfter (calls ++ [.write (.patch number)]) = offsetAfter calls
  /-- All other bytes are as before. -/
  others : ∀ index, index < jump.operand ∨ jump.operand + 4 ≤ index →
    (after (calls ++ [.write (.patch number)])).assembler.code[index]? =
      (after calls).assembler.code[index]?
  /-- A patch that is refused leaves every byte. -/
  refused : ∀ error, (after calls).assembler.patch jump = .error error →
    (after (calls ++ [.write (.patch number)])).assembler.code = (after calls).assembler.code

/-- Whatever calls were made, a patch of a branch changes the distance of that branch at most. -/
theorem patchesOnly {calls : List Call} {number : Nat} {jump : Jump}
    (found : (after calls).jumps[number]? = some jump) : PatchesOnly calls number jump := by
  have accepted : ∀ patched, (after calls).assembler.patch jump = .ok patched →
      (after (calls ++ [.write (.patch number)])).assembler = patched := by
    intro patched done
    simp only [after_concat, make, write, found, done]
  have refused : ∀ error, (after calls).assembler.patch jump = .error error →
      (after (calls ++ [.write (.patch number)])).assembler = (after calls).assembler := by
    intro error stopped
    simp only [after_concat, make, write, found, stopped]
  constructor
  case own =>
    obtain ⟨before, condition, rest, split, numbered, rfl⟩ := exists_branch found
    exact ⟨before, condition, rest, split, numbered, (offsetAfter_branch before condition).symm⟩
  case offset =>
    rw [offsetAfter]
    cases done : (after calls).assembler.patch jump with
    | ok patched =>
      rw [accepted patched done]
      exact (Assembler.of_patch done).1
    | error error =>
      rw [refused error done]
      rfl
  case others =>
    intro index outside
    cases done : (after calls).assembler.patch jump with
    | ok patched => rw [accepted patched done, Assembler.getElem?_patch done, if_neg (by omega)]
    | error error => rw [refused error done]
  case refused => exact fun error stopped => congrArg Assembler.code (refused error stopped)

end Draft

end ScriptVm
