import Mathlib.Data.List.Induction
import ScriptVm.Proofs.Instruction.Listing
import ScriptVm.Proofs.Instruction.Resolving

/-!
# What calls of an assembler write

Code is written by calls of an assembler: instructions are appended, and forward branches are
pointed at the current offset some time later. Whatever the calls are, the code is a sequence of
encoded instructions, one for each call that writes one. A patch replaces the distance of one of
them and leaves everything else in its place.
-/
namespace ScriptVm

/-! ## Calls of an assembler -/

/-- A call of an assembler, other than the one that writes a raw byte. -/
inductive Writing where
  /-- Writes an instruction. -/
  | emit (instruction : Instruction String)
  /-- Writes a branch back to an offset. -/
  | branchTo (target : UInt32)
  /-- Writes a forward branch, taken always or when a register holds a condition. -/
  | branch (condition : Option (Bool × UInt32))
  /-- Points a forward branch, told by how many were written before it, at the current offset. -/
  | patch (number : Nat)
  /-- Looks up the index of a text. -/
  | name (text : String)

namespace Writing

/-- The call writes an instruction. -/
def instructs : Writing → Bool
  | .emit _ | .branchTo _ | .branch _ => true
  | .patch _ | .name _ => false

/-- The call writes a forward branch. -/
def forks : Writing → Bool
  | .branch _ => true
  | _ => false

end Writing

/-- An assembler, and the forward branches that were written. -/
structure Draft where
  /-- The assembler. -/
  assembler : Assembler := {}
  /-- The forward branches, first written first. -/
  jumps : List Jump := []

namespace Draft

/-- Makes a call. A branch that has not been written cannot be patched. -/
def write (draft : Draft) : Writing → Draft
  | .emit instruction => { draft with assembler := draft.assembler.emit instruction }
  | .branchTo target => { draft with assembler := draft.assembler.branchTo target.toNat }
  | .branch condition =>
    let (jump, assembler) := draft.assembler.branch condition
    ⟨assembler, draft.jumps ++ [jump]⟩
  | .patch number =>
    match draft.jumps[number]? with
    | none => draft
    | some jump =>
      match draft.assembler.patch jump with
      | .ok assembler => { draft with assembler }
      | .error _ => draft
  | .name text => { draft with assembler := (draft.assembler.string text).2 }

/-- What calls make of a fresh assembler. -/
def of (writings : List Writing) : Draft := writings.foldl write {}

/-- The offset that an assembler reports after calls. -/
def offset (writings : List Writing) : Nat := (of writings).assembler.offset

/-- The string table after calls. -/
def strings (writings : List Writing) : Array String := (of writings).assembler.strings

/-- The last call is made after the others. -/
theorem of_concat (writings : List Writing) (writing : Writing) :
    of (writings ++ [writing]) = (of writings).write writing := by
  rw [of, List.foldl_append]
  rfl

end Draft

/-- A branch by a distance, taken always or when a register holds a condition. -/
def Instruction.branching {ν : Type} (condition : Option (Bool × UInt32)) (distance : Distance) :
    Instruction ν :=
  match condition with
  | none => ⟨.branch, distance, ()⟩
  | some (expected, register) => ⟨.branchIf expected, register, distance, ()⟩

/-- What a call is to write, in terms of the calls before and after it. A branch back leads to its
target, and a forward branch to the offset at which it was patched last. -/
def Writing.Yields (before after : List Writing) (source : Instruction String) : Writing → Prop
  | .emit instruction => source = instruction
  | .branchTo target => ∃ distance, source = .branching none distance ∧
    (target.toNat ≤ Draft.offset before →
      (Draft.offset before : Int) + distance.toInt = target.toNat)
  | .branch condition => ∃ distance, source = .branching condition distance ∧
    ∀ middle rest, after = middle ++ .patch (Draft.of before).jumps.length :: rest →
      .patch (Draft.of before).jumps.length ∉ rest →
      (Draft.offset before : Int) + distance.toInt =
        Draft.offset (before ++ .branch condition :: middle)
  | .patch _ | .name _ => False

/-! ## Positions in lists -/

/-- Two members that meet a condition are at one place when equally many before them meet it. -/
theorem eq_of_countP {α : Type} {meets : α → Bool} {before other after more : List α}
    {one another : α} (same : before ++ one :: after = other ++ another :: more)
    (first : meets one = true) (second : meets another = true)
    (count : before.countP meets = other.countP meets) : before = other := by
  rcases List.append_eq_append_iff.mp same with ⟨between, shape, rest⟩ | ⟨between, shape, rest⟩
  · cases between with
    | nil => rw [shape, List.append_nil]
    | cons head tail =>
      obtain ⟨rfl, -⟩ := List.cons.inj rest
      rw [shape, List.countP_append, List.countP_cons_of_pos first] at count
      omega
  · cases between with
    | nil => rw [shape, List.append_nil]
    | cons head tail =>
      obtain ⟨rfl, -⟩ := List.cons.inj rest
      rw [shape, List.countP_append, List.countP_cons_of_pos second] at count
      omega

/-- A member of a list with one more is a member of the list, or it is that one. -/
theorem getElem?_concat {α : Type} {list : List α} {last member : α} {index : Nat}
    (found : (list ++ [last])[index]? = some member) :
    list[index]? = some member ∨ list.length = index ∧ last = member := by
  grind

/-! ## Branches -/

namespace Instruction

/-- The bytes of a branch before its distance. -/
def forkBytes : Option (Bool × UInt32) → List UInt8
  | none => [Opcode.branch.toByte]
  | some (expected, register) => (Opcode.branchIf expected).toByte :: littleBytes 4 register.toNat

variable {condition : Option (Bool × UInt32)} {distance : Distance}

/-- The distance is the last word of a branch. -/
theorem encode_branching :
    (branching condition distance : Instruction UInt32).encode =
      forkBytes condition ++ littleBytes 4 distance.bits.toNat := by
  rcases condition with _ | ⟨expected, register⟩ <;>
    simp [branching, encode, forkBytes, Operands.encode, Shape.encode]

/-- A branch is as long whatever its distance is. -/
theorem size_branching :
    (branching condition distance : Instruction UInt32).size =
      (forkBytes condition).length + 4 := by
  rw [← (spelled_encode _).length, encode_branching, List.length_append, length_littleBytes]

/-- A branch has no names. -/
theorem resolve_branching (strings : Array String) :
    (branching condition distance : Instruction UInt32).resolve strings =
      some (branching condition distance) := by
  rcases condition with _ | ⟨expected, register⟩ <;> rfl

/-- What resolves to a branch is that branch. -/
theorem eq_branching {strings : Array String} {instruction : Instruction UInt32}
    (resolved : instruction.resolve strings = some (branching condition distance)) :
    instruction = branching condition distance := by
  obtain ⟨opcode, operands⟩ := instruction
  obtain ⟨looked, found, same⟩ := Option.map_eq_some_iff.mp resolved
  rcases condition with _ | ⟨expected, register⟩
  · obtain ⟨rfl, known⟩ := Instruction.mk.inj same
    rw [eq_of_heq known] at found
    cases found
    rfl
  · obtain ⟨rfl, known⟩ := Instruction.mk.inj same
    rw [eq_of_heq known] at found
    cases found
    rfl

/-- A branch stays as it is when texts are replaced. -/
theorem numbered_branching (strings : Array String) :
    (branching condition distance : Instruction String).numbered strings =
      branching condition distance := by
  rcases condition with _ | ⟨expected, register⟩ <;> rfl

end Instruction

/-- A distance stands for the difference of any two offsets of short code. -/
theorem toInt_distance {start stop : Nat} (first : start < 2 ^ 31) (last : stop < 2 ^ 31) :
    Integer.toInt (Integer.ofInt ⟨true, .w32⟩ ((stop : Int) - start)) = stop - start := by
  show (BitVec.ofInt 32 ((stop : Int) - start)).toInt = stop - start
  rw [BitVec.toInt_ofInt]
  exact Int.bmod_eq_of_le_mul_two (by omega) (by omega)

namespace Assembler

variable (assembler : Assembler)

/-- Writing an instruction adds its bytes to the code. -/
theorem code_emit (instruction : Instruction String) :
    (assembler.emit instruction).code.toList =
      assembler.code.toList ++ (instruction.numbered assembler.strings).encode := by
  simp [emit_eq]

/-- Writing an instruction takes as many bytes as it has. -/
theorem offset_emit (instruction : Instruction String) :
    (assembler.emit instruction).offset =
      assembler.offset + (instruction.numbered assembler.strings).size := by
  rw [← (Instruction.spelled_encode _).length]
  simp [offset, emit_eq]

/-- Writing an instruction enlarges the string table. -/
theorem enlarges_emit (instruction : Instruction String) :
    Enlarges assembler.strings (assembler.emit instruction).strings := by
  rw [emit_eq]
  exact Operands.enlarges_number _ _ _

/-- A branch back is written by its distance. -/
theorem branchTo_eq (target : Nat) :
    assembler.branchTo target = assembler.emit
      (.branching none (Integer.ofInt _ ((target : Int) - assembler.offset))) := rfl

/-- A forward branch is written with no distance, and the place of its distance is told. -/
theorem branch_eq (condition : Option (Bool × UInt32)) :
    assembler.branch condition =
      (⟨assembler.offset, assembler.offset + (Instruction.forkBytes condition).length⟩,
        assembler.emit (.branching condition (Integer.ofInt _ 0))) := by
  rcases condition with _ | ⟨expected, register⟩
  · have place : (assembler.op .branch).offset =
        assembler.offset + (Instruction.forkBytes none).length := by
      simp [op, byte, offset, Instruction.forkBytes]
    exact Prod.ext (congrArg (Jump.mk assembler.offset) place) rfl
  · have place : ((assembler.op (.branchIf expected)).word register).offset =
        assembler.offset + (Instruction.forkBytes (some (expected, register))).length := by
      simp [op, byte, word, bytes, offset, Instruction.forkBytes, Nat.add_comm]
    exact Prod.ext (congrArg (Jump.mk assembler.offset) place) rfl

/-- The distance between two offsets is written as a word. -/
theorem toNat_distance {start stop : Nat} (ordered : start ≤ stop) (small : stop < 2 ^ 31) :
    (UInt32.ofNat stop - UInt32.ofNat start).toNat = stop - start ∧
      (Integer.ofInt ⟨true, .w32⟩ ((stop : Int) - start)).bits.toNat = stop - start := by
  have first : (UInt32.ofNat start).toNat = start := UInt32.toNat_ofNat_of_lt' (by
    simp only [UInt32.size]; omega)
  have second : (UInt32.ofNat stop).toNat = stop := UInt32.toNat_ofNat_of_lt' (by
    simp only [UInt32.size]; omega)
  constructor
  · rw [UInt32.toNat_sub_of_le _ _ (UInt32.le_iff_toNat_le.mpr (by omega)), first, second]
  · show (BitVec.ofInt 32 ((stop : Int) - start)).toNat = stop - start
    rw [BitVec.toNat_ofInt]
    omega

/-- Pointing a branch at the current offset replaces its distance. -/
theorem patch_eq {assembler : Assembler} {front back : List UInt8}
    {condition : Option (Bool × UInt32)} {distance : Distance}
    (code : assembler.code.toList =
      front ++ (Instruction.branching condition distance : Instruction UInt32).encode ++ back)
    (small : assembler.offset < 2 ^ 31) :
    assembler.patch ⟨front.length, front.length + (Instruction.forkBytes condition).length⟩ =
      .ok { assembler with code := (front ++ (Instruction.branching condition
        (Integer.ofInt _ ((assembler.offset : Int) - front.length)) : Instruction UInt32).encode ++
          back).toArray } := by
  have shape : assembler.code.toList =
      (front ++ Instruction.forkBytes condition) ++
        (littleBytes 4 distance.bits.toNat ++ back) := by
    rw [code, Instruction.encode_branching]
    simp only [List.append_assoc]
  have size : assembler.offset =
      front.length + (Instruction.forkBytes condition).length + (4 + back.length) := by
    rw [offset, ← Array.length_toList, shape]
    simp only [List.length_append, length_littleBytes]
  obtain ⟨word, pattern⟩ := toNat_distance (show front.length ≤ assembler.offset by omega) small
  have inside : ¬(UInt32.size / 2 ≤ assembler.offset - front.length ∨ assembler.code.size <
      front.length + (Instruction.forkBytes condition).length + 4) := by
    have same : assembler.code.size = assembler.offset := rfl
    simp only [UInt32.size]
    omega
  have kept : (assembler.code.extract 0
      (front.length + (Instruction.forkBytes condition).length)).toList =
      front ++ Instruction.forkBytes condition := by
    rw [Array.toList_extract, List.extract_eq_take_drop, shape, Nat.sub_zero, List.drop_zero,
      ← List.length_append, List.take_left]
  have rest : (assembler.code.extract
      (front.length + (Instruction.forkBytes condition).length + 4) assembler.code.size).toList =
      back := by
    have opening : (front ++ Instruction.forkBytes condition ++
        littleBytes 4 distance.bits.toNat).length =
        front.length + (Instruction.forkBytes condition).length + 4 := by
      simp only [List.length_append, length_littleBytes]
    rw [Array.toList_extract, List.extract_eq_take_drop, shape, ← List.append_assoc,
      List.drop_left' opening]
    refine List.take_of_length_le ?_
    rw [show assembler.code.size = assembler.offset from rfl]
    omega
  simp only [patch, word, if_neg inside, Instruction.encode_branching, pattern]
  refine congrArg Except.ok (congrArg (fun bytes => Assembler.mk bytes assembler.strings) ?_)
  apply Array.ext'
  simp only [Array.toList_append, kept, rest, List.append_assoc]

/-- A patch leaves the string table and the length of the code. -/
theorem of_patch {assembler patched : Assembler} {jump : Jump}
    (done : assembler.patch jump = .ok patched) :
    patched.offset = assembler.offset ∧ patched.strings = assembler.strings := by
  unfold patch at done
  dsimp only at done
  split at done
  · cases done
  · rename_i inside
    obtain rfl := Except.ok.inj done
    refine ⟨?_, rfl⟩
    simp only [offset, Array.size_append, Array.size_extract, List.size_toArray,
      length_littleBytes]
    omega

end Assembler

/-! ## Replacing an instruction -/

namespace Instruction

variable {lines : List (Instruction UInt32)} {index : Nat} {old : Instruction UInt32}

/-- Instructions are written one after the other. -/
theorem length_flatMap_encode (lines : List (Instruction UInt32)) :
    (lines.flatMap encode).length = (lines.map size).sum := by
  induction lines with
  | nil => rfl
  | cons line rest hypothesis =>
    rw [List.flatMap_cons, List.length_append, hypothesis, (spelled_encode line).length]
    rfl

/-- The count of bytes of the instructions before one. -/
def offsetIn (lines : List (Instruction UInt32)) (index : Nat) : Nat :=
  ((lines.map size).take index).sum

/-- The bytes of the instructions before one are as many as is its offset. -/
theorem length_front (lines : List (Instruction UInt32)) (index : Nat) :
    ((lines.take index).flatMap encode).length = offsetIn lines index := by
  rw [length_flatMap_encode, List.map_take]
  rfl

/-- The bytes of an instruction stand between those of the instructions before and after it. -/
theorem encode_set (here : lines[index]? = some old) (new : Instruction UInt32) :
    (lines.set index new).flatMap encode = (lines.take index).flatMap encode ++ new.encode ++
      (lines.drop (index + 1)).flatMap encode := by
  have inside : index < lines.length := (List.getElem?_eq_some_iff.mp here).1
  rw [List.set_eq_take_append_cons_drop, if_pos inside, List.flatMap_append, List.flatMap_cons,
    List.append_assoc]

/-- Putting an instruction where it is changes nothing. -/
theorem set_self (here : lines[index]? = some old) : lines.set index old = lines := by
  obtain ⟨inside, rfl⟩ := List.getElem?_eq_some_iff.mp here
  exact List.set_getElem_self inside

/-- Offsets stay when an instruction is replaced by one of its size. -/
theorem offsetIn_set (here : lines[index]? = some old) {new : Instruction UInt32}
    (same : new.size = old.size) (position : Nat) :
    offsetIn (lines.set index new) position = offsetIn lines position := by
  have sizes : (lines.set index new).map size = lines.map size := by
    rw [List.map_set, same, ← List.map_set, set_self here]
  rw [offsetIn, sizes]
  rfl

end Instruction

/-! ## Growth of drafts -/

namespace Draft

/-- A call shortens no code and takes no text away. -/
theorem grows_write (draft : Draft) (writing : Writing) :
    draft.assembler.offset ≤ (draft.write writing).assembler.offset ∧
      Enlarges draft.assembler.strings (draft.write writing).assembler.strings := by
  have emits : ∀ source : Instruction String,
      draft.assembler.offset ≤ (draft.assembler.emit source).offset ∧
        Enlarges draft.assembler.strings (draft.assembler.emit source).strings := fun source =>
    ⟨by rw [Assembler.offset_emit]; omega, draft.assembler.enlarges_emit source⟩
  cases writing with
  | emit instruction => exact emits instruction
  | branchTo target =>
    simp only [write, Assembler.branchTo_eq]
    exact emits _
  | branch condition =>
    simp only [write, Assembler.branch_eq]
    exact emits _
  | patch number =>
    simp only [write]
    split
    · exact ⟨Nat.le_refl _, .refl _⟩
    · split
      · rename_i patched done
        obtain ⟨length, texts⟩ := Assembler.of_patch done
        exact ⟨Nat.le_of_eq length.symm, texts ▸ .refl _⟩
      · exact ⟨Nat.le_refl _, .refl _⟩
  | name text => exact ⟨Nat.le_refl _, enlarges_indexOfText _ text⟩

/-- Calls shorten no code and take no text away. -/
theorem grows (before after : List Writing) :
    offset before ≤ offset (before ++ after) ∧
      Enlarges (strings before) (strings (before ++ after)) := by
  induction after using List.reverseRecOn with
  | nil =>
    rw [List.append_nil]
    exact ⟨Nat.le_refl _, .refl _⟩
  | append_singleton after last hypothesis =>
    have once := (of (before ++ after)).grows_write last
    rw [← of_concat, List.append_assoc] at once
    exact ⟨Nat.le_trans hypothesis.1 once.1, hypothesis.2.trans once.2⟩

/-- A forward branch is numbered by those written before it. -/
theorem length_jumps (writings : List Writing) :
    (of writings).jumps.length = writings.countP Writing.forks := by
  induction writings using List.reverseRecOn with
  | nil => rfl
  | append_singleton writings last hypothesis =>
    rw [of_concat, List.countP_append, ← hypothesis]
    cases last with
    | branch condition => simp [write, Writing.forks]
    | patch number =>
      simp only [write]
      split
      · rfl
      · split <;> rfl
    | _ => rfl

end Draft

/-! ## The instructions of a draft -/

namespace Writing

variable {before after writings : List Writing} {writing last : Writing}
  {source : Instruction String} {strings more : Array String}
  {lines changed : List (Instruction UInt32)}

/-- The instruction of a call is in its place: it stands at the offset that was reported before the
call, and with its names looked up it is what the call is to write. -/
structure Stands (before after : List Writing) (strings : Array String)
    (lines : List (Instruction UInt32)) (writing : Writing) : Prop where
  /-- Its offset. -/
  offset : Draft.offset before = Instruction.offsetIn lines (before.countP instructs)
  /-- What it is. -/
  found : ∃ instruction source, lines[before.countP instructs]? = some instruction ∧
    instruction.resolve strings = some source ∧ writing.Yields before after source

/-- What a call is to write changes only when its branch is patched. -/
theorem Yields.later (yields : writing.Yields before after source)
    (other : ∀ condition, writing = .branch condition →
      last ≠ .patch (Draft.of before).jumps.length) :
    writing.Yields before (after ++ [last]) source := by
  cases writing with
  | branch condition =>
    obtain ⟨distance, shape, patched⟩ := yields
    refine ⟨distance, shape, fun middle rest split unpatched => ?_⟩
    rcases List.eq_nil_or_concat rest with rfl | ⟨rest, final, rfl⟩
    · exact absurd (List.append_inj' split rfl).2 (by simpa using other condition rfl)
    · rw [List.concat_eq_append] at split unpatched
      have regrouped : after ++ [last] =
          (middle ++ .patch (Draft.of before).jumps.length :: rest) ++ [final] := by
        rw [split, List.append_assoc, List.cons_append]
      exact patched middle rest (List.append_inj' regrouped rfl).1
        fun member => unpatched (List.mem_append_left _ member)
  | _ => exact yields

/-- A branch that has just been patched leads to the current offset. -/
theorem yields_patched {condition : Option (Bool × UInt32)}
    (split : writings = before ++ .branch condition :: after)
    (small : Draft.offset writings < 2 ^ 31) :
    (branch condition).Yields before (after ++ [.patch (Draft.of before).jumps.length])
      (.branching condition
        (Integer.ofInt _ ((Draft.offset writings : Int) - Draft.offset before))) := by
  have ordered : Draft.offset before ≤ Draft.offset writings := by
    rw [split]
    exact (Draft.grows before _).1
  refine ⟨_, rfl, fun middle rest shape unpatched => ?_⟩
  rcases List.eq_nil_or_concat rest with rfl | ⟨rest, final, rfl⟩
  · obtain ⟨rfl, -⟩ := List.append_inj' shape rfl
    rw [toInt_distance (by omega) (by omega), ← split]
    omega
  · rw [List.concat_eq_append] at shape unpatched
    have regrouped : after ++ [.patch (Draft.of before).jumps.length] =
        (middle ++ .patch (Draft.of before).jumps.length :: rest) ++ [final] := by
      rw [shape, List.append_assoc, List.cons_append]
    obtain ⟨-, same⟩ := List.append_inj' regrouped rfl
    rw [(List.cons.inj same).1] at unpatched
    exact absurd (List.mem_append_right rest (List.mem_singleton_self final)) unpatched

/-- The instruction of a call stays in its place when nothing happens to it. -/
theorem Stands.later (stands : writing.Stands before after strings lines)
    (enlarges : Enlarges strings more)
    (same : changed[before.countP instructs]? = lines[before.countP instructs]?)
    (place : Instruction.offsetIn changed (before.countP instructs) =
      Instruction.offsetIn lines (before.countP instructs))
    (other : ∀ condition, writing = .branch condition →
      last ≠ .patch (Draft.of before).jumps.length) :
    writing.Stands before (after ++ [last]) more changed := by
  obtain ⟨instruction, source, found, resolved, yields⟩ := stands.found
  exact ⟨stands.offset.trans place.symm, instruction, source, same.trans found,
    enlarges.resolve resolved, yields.later other⟩

/-- A call among others and a last one is the last one, or it is among the others. -/
theorem split_concat (split : writings ++ [last] = before ++ writing :: after) :
    (before = writings ∧ writing = last ∧ after = []) ∨
      ∃ rest, after = rest ++ [last] ∧ writings = before ++ writing :: rest := by
  rcases List.eq_nil_or_concat after with rfl | ⟨rest, final, rfl⟩
  · obtain ⟨rfl, same⟩ := List.append_inj' split rfl
    exact .inl ⟨rfl, (List.cons.inj same).1.symm, rfl⟩
  · rw [List.concat_eq_append] at split ⊢
    have regrouped : writings ++ [last] = (before ++ writing :: rest) ++ [final] := by
      rw [split, List.append_assoc, List.cons_append]
    obtain ⟨rfl, same⟩ := List.append_inj' regrouped rfl
    exact .inr ⟨rest, by rw [same], rfl⟩

end Writing

/-- A forward branch was written by a call, with its number and with the place of its distance. -/
def Draft.Forks (writings : List Writing) (number : Nat) (jump : Jump) : Prop :=
  ∃ before condition after, writings = before ++ .branch condition :: after ∧
    (Draft.of before).jumps.length = number ∧
    jump = ⟨Draft.offset before, Draft.offset before + (Instruction.forkBytes condition).length⟩

/-- A forward branch stays written. -/
theorem Draft.Forks.later {writings : List Writing} {number : Nat} {jump : Jump}
    (forks : Draft.Forks writings number jump) (last : Writing) :
    Draft.Forks (writings ++ [last]) number jump := by
  obtain ⟨before, condition, after, rfl, numbered, placed⟩ := forks
  exact ⟨before, condition, after ++ [last], by simp, numbered, placed⟩

/-- Calls have written instructions one after the other. -/
structure Assembled (writings : List Writing) (lines : List (Instruction UInt32)) : Prop where
  /-- The code is their bytes. -/
  code : (Draft.of writings).assembler.code.toList = lines.flatMap Instruction.encode
  /-- There is one for each call that writes one. -/
  count : lines.length = writings.countP Writing.instructs
  /-- No text is in the string table twice. -/
  distinct : (Draft.strings writings).toList.Nodup
  /-- All names are found. -/
  resolves : ∀ instruction ∈ lines, ∃ source,
    instruction.resolve (Draft.strings writings) = some source
  /-- The instruction of each call is in its place. -/
  stands : ∀ before writing after, writings = before ++ writing :: after →
    writing.instructs = true → writing.Stands before after (Draft.strings writings) lines
  /-- Every forward branch was written by a call. -/
  jumps : ∀ number jump, (Draft.of writings).jumps[number]? = some jump →
    Draft.Forks writings number jump

namespace Assembled

variable {writings : List Writing} {lines : List (Instruction UInt32)} {last : Writing}

/-- Nothing has been written. -/
theorem nil : Assembled [] [] := by
  refine ⟨rfl, rfl, List.nodup_nil, by simp, ?_, ?_⟩
  · intro before writing after split
    simp at split
  · intro number jump found
    simp [Draft.of] at found

/-- The code is as long as all instructions together. -/
theorem offset_eq (assembled : Assembled writings lines) :
    Draft.offset writings = (lines.map Instruction.size).sum := by
  rw [← Instruction.length_flatMap_encode, ← assembled.code, Array.length_toList]
  rfl

/-- A call that writes nothing into the code leaves the instructions. -/
theorem keep (assembled : Assembled writings lines) (quiet : last.instructs = false)
    (code : (Draft.of (writings ++ [last])).assembler.code = (Draft.of writings).assembler.code)
    (jumps : (Draft.of (writings ++ [last])).jumps = (Draft.of writings).jumps)
    (other : ∀ before condition after, writings = before ++ .branch condition :: after →
      last ≠ .patch (Draft.of before).jumps.length) :
    Assembled (writings ++ [last]) lines := by
  have enlarges := (Draft.grows writings [last]).2
  refine ⟨by rw [code, assembled.code], ?_, enlarges.distinct assembled.distinct, ?_, ?_, ?_⟩
  · simp [List.countP_append, quiet, assembled.count]
  · intro instruction member
    obtain ⟨source, resolved⟩ := assembled.resolves instruction member
    exact ⟨source, enlarges.resolve resolved⟩
  · intro before writing after split instructs
    rcases Writing.split_concat split with ⟨-, rfl, -⟩ | ⟨rest, rfl, inner⟩
    · rw [quiet] at instructs
      cases instructs
    · exact (assembled.stands before writing rest inner instructs).later enlarges rfl rfl
        fun condition same => other before condition rest (same ▸ inner)
  · intro number jump found
    rw [jumps] at found
    exact (assembled.jumps number jump found).later last

/-- Fewer instructions are written before a call that writes one than by all calls. -/
theorem countP_lt {before after : List Writing} {writing : Writing}
    (assembled : Assembled writings lines) (split : writings = before ++ writing :: after)
    (instructs : writing.instructs = true) :
    before.countP Writing.instructs < lines.length := by
  rw [assembled.count, split, List.countP_append, List.countP_cons_of_pos instructs]
  omega

/-- An instruction stays in its place when others are added after it. -/
theorem stands_append (assembled : Assembled writings lines) {before rest : List Writing}
    {writing : Writing} (split : writings = before ++ writing :: rest)
    (shown : writing.instructs = true) (instructs : last.instructs = true) {more : Array String}
    (enlarges : Enlarges (Draft.strings writings) more) (added : List (Instruction UInt32)) :
    writing.Stands before (rest ++ [last]) more (lines ++ added) := by
  have inside := assembled.countP_lt split shown
  refine (assembled.stands before writing rest split shown).later enlarges
    (List.getElem?_append_left inside) ?_ ?_
  · rw [Instruction.offsetIn, List.map_append,
      List.take_append_of_le_length (by simpa using Nat.le_of_lt inside)]
    rfl
  · rintro condition - rfl
    cases instructs

/-- The instruction of the last call follows all others. -/
theorem stands_last (assembled : Assembled writings lines) {instruction : Instruction UInt32}
    {source : Instruction String} {more : Array String}
    (resolved : instruction.resolve more = some source) (yields : last.Yields writings [] source) :
    last.Stands writings [] more (lines ++ [instruction]) := by
  refine ⟨?_, instruction, source, ?_, resolved, yields⟩
  · rw [← assembled.count, Instruction.offsetIn, List.map_append,
      List.take_left' (by rw [List.length_map]), ← assembled.offset_eq]
  · rw [← assembled.count, List.getElem?_append_right (Nat.le_refl _), Nat.sub_self]
    rfl

/-- A call that writes an instruction adds it to the others. -/
theorem emit (assembled : Assembled writings lines) {source : Instruction String}
    (instructs : last.instructs = true)
    (written : (Draft.of (writings ++ [last])).assembler =
      (Draft.of writings).assembler.emit source)
    (few : (Draft.strings (writings ++ [last])).size ≤ UInt32.size)
    (yields : last.Yields writings [] source)
    (jumps : ∀ number jump, (Draft.of (writings ++ [last])).jumps[number]? = some jump →
      (Draft.of writings).jumps[number]? = some jump ∨
        Draft.Forks (writings ++ [last]) number jump) :
    Assembled (writings ++ [last])
      (lines ++ [source.numbered (Draft.strings writings)]) := by
  have enlarges := (Draft.grows writings [last]).2
  have resolved : (source.numbered (Draft.strings writings)).resolve
      (Draft.strings (writings ++ [last])) = some source := by
    rw [Draft.strings, written, Assembler.emit_eq] at few ⊢
    exact Instruction.resolve_numbered few
  refine ⟨?_, ?_, enlarges.distinct assembled.distinct, ?_, ?_, ?_⟩
  · rw [written, Assembler.code_emit, assembled.code, List.flatMap_append]
    simp [Draft.strings]
  · simp [List.countP_append, instructs, assembled.count]
  · intro instruction member
    rcases List.mem_append.mp member with earlier | new
    · obtain ⟨known, found⟩ := assembled.resolves instruction earlier
      exact ⟨known, enlarges.resolve found⟩
    · rw [List.mem_singleton.mp new]
      exact ⟨source, resolved⟩
  · intro before writing after split shown
    rcases Writing.split_concat split with ⟨rfl, rfl, rfl⟩ | ⟨rest, rfl, inner⟩
    · exact assembled.stands_last resolved yields
    · exact assembled.stands_append inner shown instructs enlarges _
  · intro number jump found
    rcases jumps number jump found with earlier | new
    · exact (assembled.jumps number jump earlier).later last
    · exact new

/-- A patch succeeds: its branch is one of the instructions, and only the distance is replaced. -/
theorem patch_eq (assembled : Assembled writings lines) (small : Draft.offset writings < 2 ^ 31)
    {number : Nat} {jump : Jump} (found : (Draft.of writings).jumps[number]? = some jump) :
    ∃ before condition after distance, writings = before ++ .branch condition :: after ∧
      (Draft.of before).jumps.length = number ∧
      lines[before.countP Writing.instructs]? = some (.branching condition distance) ∧
      (Draft.of writings).assembler.patch jump = .ok { (Draft.of writings).assembler with
        code := ((lines.set (before.countP Writing.instructs) (.branching condition (Integer.ofInt _
          ((Draft.offset writings : Int) - Draft.offset before)))).flatMap
            Instruction.encode).toArray } := by
  obtain ⟨before, condition, after, split, numbered, rfl⟩ := assembled.jumps number jump found
  obtain ⟨place, instruction, _, here, resolved, distance, rfl, -⟩ :=
    assembled.stands before (.branch condition) after split rfl
  obtain rfl := Instruction.eq_branching resolved
  refine ⟨before, condition, after, distance, split, numbered, here, ?_⟩
  have code := Instruction.encode_set here (.branching condition distance)
  rw [Instruction.set_self here, ← assembled.code] at code
  have patched := Assembler.patch_eq code small
  rw [Instruction.length_front, ← place] at patched
  rw [patched, Instruction.encode_set here]
  rfl

/-- All instructions stay in their places when a branch is patched, and only the branch changes. -/
theorem stands_set (assembled : Assembled writings lines) (small : Draft.offset writings < 2 ^ 31)
    {before after : List Writing} {condition : Option (Bool × UInt32)} {distance : Distance}
    (split : writings = before ++ .branch condition :: after)
    (here : lines[before.countP Writing.instructs]? = some (.branching condition distance))
    {other rest : List Writing} {writing : Writing} (inner : writings = other ++ writing :: rest)
    (shown : writing.instructs = true) {more : Array String}
    (enlarges : Enlarges (Draft.strings writings) more) :
    writing.Stands other (rest ++ [.patch (Draft.of before).jumps.length]) more
      (lines.set (before.countP Writing.instructs) (.branching condition (Integer.ofInt _
        ((Draft.offset writings : Int) - Draft.offset before)))) := by
  have stands := assembled.stands other writing rest inner shown
  let new : Instruction UInt32 := .branching condition
    (Integer.ofInt _ ((Draft.offset writings : Int) - Draft.offset before))
  have place : ∀ position, Instruction.offsetIn (lines.set (before.countP Writing.instructs) new)
      position = Instruction.offsetIn lines position :=
    Instruction.offsetIn_set here (by rw [Instruction.size_branching, Instruction.size_branching])
  have both := split.symm.trans inner
  by_cases same : before.countP Writing.instructs = other.countP Writing.instructs
  · obtain rfl := eq_of_countP both rfl shown same
    obtain ⟨rfl, rfl⟩ := List.cons.inj (List.append_cancel_left both)
    obtain ⟨inside, -⟩ := List.getElem?_eq_some_iff.mp here
    exact ⟨stands.offset.trans (place _).symm, new, _, List.getElem?_set_self inside,
      Instruction.resolve_branching _, Writing.yields_patched split small⟩
  · refine stands.later enlarges (List.getElem?_set_ne same) (place _) ?_
    rintro _ rfl number
    rw [Draft.length_jumps, Draft.length_jumps] at number
    obtain rfl := eq_of_countP both rfl rfl (Writing.patch.inj number)
    exact same rfl

/-- A patch replaces the distance of its branch by the one to the current offset. -/
theorem patch (assembled : Assembled writings lines) (small : Draft.offset writings < 2 ^ 31)
    {number : Nat} {jump : Jump} (found : (Draft.of writings).jumps[number]? = some jump) :
    ∃ changed, Assembled (writings ++ [.patch number]) changed := by
  obtain ⟨before, condition, after, distance, split, numbered, here, patched⟩ :=
    assembled.patch_eq small found
  let new : Instruction UInt32 := .branching condition
    (Integer.ofInt _ ((Draft.offset writings : Int) - Draft.offset before))
  have written : Draft.of (writings ++ [.patch number]) = ⟨{ (Draft.of writings).assembler with
      code := ((lines.set (before.countP Writing.instructs) new).flatMap
        Instruction.encode).toArray }, (Draft.of writings).jumps⟩ := by
    rw [Draft.of_concat]
    simp only [Draft.write, found, patched]
    rfl
  have enlarges := (Draft.grows writings [.patch number]).2
  refine ⟨lines.set (before.countP Writing.instructs) new, ?_, ?_,
    enlarges.distinct assembled.distinct, ?_, ?_, ?_⟩
  · rw [written]
  · simp [List.countP_append, Writing.instructs, assembled.count]
  · intro instruction member
    rcases List.mem_or_eq_of_mem_set member with earlier | rfl
    · obtain ⟨known, looked⟩ := assembled.resolves instruction earlier
      exact ⟨known, enlarges.resolve looked⟩
    · exact ⟨_, Instruction.resolve_branching _⟩
  · intro other writing later split' shown
    rcases Writing.split_concat split' with ⟨-, rfl, -⟩ | ⟨rest, rfl, inner⟩
    · cases shown
    · subst numbered
      exact assembled.stands_set small split here inner shown enlarges
  · intro position other found'
    rw [written] at found'
    exact (assembled.jumps position other found').later _

/-- A forward branch that has not been written is patched by no call. -/
theorem patch_ne {number : Nat} (missing : (Draft.of writings).jumps[number]? = none)
    (before : List Writing) (condition : Option (Bool × UInt32)) (after : List Writing)
    (split : writings = before ++ .branch condition :: after) :
    Writing.patch number ≠ .patch (Draft.of before).jumps.length := by
  intro same
  have past := List.getElem?_eq_none_iff.mp missing
  have forks : (Writing.branch condition).forks = true := rfl
  rw [Writing.patch.inj same, Draft.length_jumps, Draft.length_jumps, split, List.countP_append,
    List.countP_cons_of_pos forks] at past
  omega

/-- Whatever the calls are, they write instructions one after the other, as long as the code and the
string table do not outgrow their words. The last call leaves the instructions of the others in
their places. -/
theorem of_writings (writings : List Writing) (small : Draft.offset writings < 2 ^ 31)
    (few : (Draft.strings writings).size ≤ UInt32.size) :
    ∃ lines, Assembled writings lines := by
  induction writings using List.reverseRecOn with
  | nil => exact ⟨[], .nil⟩
  | append_singleton writings last hypothesis =>
    obtain ⟨longer, enlarges⟩ := Draft.grows writings [last]
    have shorter : Draft.offset writings < 2 ^ 31 := Nat.lt_of_le_of_lt longer small
    obtain ⟨lines, assembled⟩ := hypothesis shorter (Nat.le_trans enlarges.size_le few)
    have made := Draft.of_concat writings last
    cases last with
    | emit instruction =>
      refine ⟨_, assembled.emit rfl (by rw [made]; rfl) few rfl fun number jump found => ?_⟩
      rw [made] at found
      exact .inl found
    | branchTo target =>
      refine ⟨_, assembled.emit rfl (by rw [made]; exact Assembler.branchTo_eq _ _) few
        ⟨_, rfl, fun back => ?_⟩ fun number jump found => ?_⟩
      · have here : (Draft.of writings).assembler.offset = Draft.offset writings := rfl
        rw [toInt_distance (by omega) (by omega)]
        omega
      · rw [made] at found
        exact .inl found
    | branch condition =>
      simp only [Draft.write, Assembler.branch_eq] at made
      refine ⟨_, assembled.emit rfl (by rw [made]) few
        ⟨_, rfl, fun middle rest shape => ?_⟩ fun number jump found => ?_⟩
      · simp at shape
      · rw [made] at found
        rcases getElem?_concat found with earlier | ⟨rfl, rfl⟩
        · exact .inl earlier
        · exact .inr ⟨writings, condition, [], rfl, rfl, rfl⟩
    | patch number =>
      cases found : (Draft.of writings).jumps[number]? with
      | some jump => exact assembled.patch shorter found
      | none =>
        have ignored : (Draft.of writings).write (.patch number) = Draft.of writings := by
          simp only [Draft.write, found]
        rw [ignored] at made
        exact ⟨lines, assembled.keep rfl (by rw [made]) (by rw [made]) (patch_ne found)⟩
    | name text =>
      exact ⟨lines, assembled.keep rfl (by rw [made]; rfl) (by rw [made]; rfl) fun _ _ _ _ => nofun⟩

end Assembled

end ScriptVm
