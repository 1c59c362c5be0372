import ScriptVm.Proofs.Instruction.Assembling

/-!
# Listings of what was assembled

A listing of encoded instructions has one line for each of them, at its offset. So a listing of what
calls of an assembler wrote shows one instruction for each call that writes one, in order, at the
offset that the assembler reported before the call.
-/
namespace ScriptVm

namespace Line

/-- The lines of instructions that stand one after the other from an offset on. -/
def standing : Nat → List (Instruction UInt32) → List Line
  | _, [] => []
  | offset, instruction :: rest =>
    ⟨offset, .instruction instruction⟩ :: standing (offset + instruction.size) rest

/-- There is one line for each instruction. -/
theorem length_standing (offset : Nat) (lines : List (Instruction UInt32)) :
    (standing offset lines).length = lines.length := by
  induction lines generalizing offset with
  | nil => rfl
  | cons instruction rest hypothesis => exact congrArg (· + 1) (hypothesis _)

/-- The line of an instruction is at the offset of the instruction. -/
theorem getElem?_standing {offset index : Nat} {lines : List (Instruction UInt32)}
    {instruction : Instruction UInt32} (found : lines[index]? = some instruction) :
    (standing offset lines)[index]? =
      some ⟨offset + Instruction.offsetIn lines index, .instruction instruction⟩ := by
  induction lines generalizing offset index with
  | nil => simp at found
  | cons first rest hypothesis =>
    cases index with
    | zero =>
      obtain rfl := Option.some.inj found
      rfl
    | succ index =>
      have later := @hypothesis (offset + first.size) index found
      rw [Nat.add_assoc] at later
      exact later

/-- Where encoded instructions follow other bytes, their lines cover the rest of the code. -/
theorem covers_standing {code : Array UInt8} {front : List UInt8}
    {lines : List (Instruction UInt32)}
    (shape : code.toList = front ++ lines.flatMap Instruction.encode) :
    Covers code code.size front.length (standing front.length lines) := by
  induction lines generalizing front with
  | nil =>
    rw [← Array.length_toList, shape]
    simp [standing, Covers]
  | cons instruction rest hypothesis =>
    have length := (Instruction.spelled_encode instruction).length
    have regrouped : code.toList =
        (front ++ instruction.encode) ++ rest.flatMap Instruction.encode := by
      rw [shape, List.flatMap_cons, List.append_assoc]
    have covers := hypothesis regrouped
    rw [List.length_append, length] at covers
    have total : code.size = (front ++ instruction.encode ++
        rest.flatMap Instruction.encode).length := by
      rw [← regrouped, Array.length_toList]
    have positive : 0 < instruction.size := size_pos (.instruction instruction)
    refine ⟨?_, rfl, ⟨instruction.encode, Instruction.spelled_encode instruction, ?_⟩, covers⟩
    · rw [total, List.length_append, List.length_append, length]
      omega
    · refine ⟨rest.flatMap Instruction.encode, ?_⟩
      show _ = code.toList.drop front.length
      rw [shape, List.drop_left, List.flatMap_cons]

/-- The constants of instructions are found when their names are. -/
theorem found_standing {strings : Array String} {lines : List (Instruction UInt32)}
    (resolves : ∀ instruction ∈ lines, ∃ source, instruction.resolve strings = some source)
    (offset : Nat) : ∀ line ∈ standing offset lines, line.Found strings := by
  induction lines generalizing offset with
  | nil => exact List.forall_mem_nil _
  | cons instruction rest hypothesis =>
    obtain ⟨⟨source, resolved⟩, others⟩ := List.forall_mem_cons.mp resolves
    obtain ⟨operands, found, -⟩ := Option.map_eq_some_iff.mp resolved
    exact List.forall_mem_cons.mpr ⟨Operands.found_of_resolve _ _ found, hypothesis others _⟩

end Line

/-- The texts of a listing show what calls wrote: there is one for each call that writes an
instruction, in order. At the offset that the assembler reported before the call stands an
instruction. With its names looked up in a string table without repetitions it is what the call is
to write, and so it looks. -/
structure Draft.ShownBy (writings : List Writing) (strings : Array String) (code : Array UInt8)
    (texts : List String) : Prop where
  /-- There is one text for each call that writes an instruction. -/
  count : texts.length = writings.countP Writing.instructs
  /-- No text is in the string table twice. -/
  distinct : strings.toList.Nodup
  /-- The text of each call shows what it is to write. -/
  shows : ∀ before writing after, writings = before ++ writing :: after →
    writing.instructs = true → ∃ instruction source,
      (Cursor.ofOffset code (Draft.offset before)).Holds instruction ∧
      instruction.resolve strings = some source ∧ writing.Yields before after source ∧
      texts[before.countP Writing.instructs]? = some (source.shown quote (Draft.offset before))

/-- Every forward branch that was written can be patched at the point where a call does so. -/
def Draft.Patchable (writings : List Writing) : Prop :=
  ∀ before number after jump, writings = before ++ .patch number :: after →
    (Draft.of before).jumps[number]? = some jump →
    ∃ patched, (Draft.of before).assembler.patch jump = .ok patched

variable {writings : List Writing}

/-- The code that calls wrote is listed as what they wrote. -/
theorem Assembled.listing {lines : List (Instruction UInt32)}
    (assembled : Assembled writings lines) :
    ∃ texts, listing (Draft.strings writings) (Draft.of writings).assembler.code 0
        (Draft.offset writings) = .ok texts ∧
      Draft.ShownBy writings (Draft.strings writings) (Draft.of writings).assembler.code texts := by
  have covers := Line.covers_standing (assembled.code.trans (List.nil_append _).symm)
  have found := Line.found_standing assembled.resolves 0
  have listed : List.Forall₂ (Line.Listed (Draft.strings writings)) (Line.standing 0 lines)
      ((Line.standing 0 lines).map (Line.text (Draft.strings writings))) :=
    List.forall₂_map_right_iff.mpr (List.forall₂_same.mpr fun line member =>
      ⟨found line member, rfl⟩)
  refine ⟨_, Line.listing_eq_ok_iff.mpr ⟨_, covers, listed⟩, ?_⟩
  refine ⟨?_, assembled.distinct, ?_⟩
  · rw [List.length_map, Line.length_standing, assembled.count]
  intro before writing after split instructs
  have stands := assembled.stands before writing after split instructs
  obtain ⟨instruction, source, member, resolved, yields⟩ := stands.found
  have line := @Line.getElem?_standing 0 _ _ _ member
  rw [Nat.zero_add, ← stands.offset] at line
  refine ⟨instruction, source, (covers.line line).1, resolved, yields, ?_⟩
  rw [List.getElem?_map, line]
  exact congrArg some (Instruction.shown_of_resolve resolved _)

/-- A forward branch over an instruction, and a branch back to the start. -/
example :
    let writings : List Writing := [.emit ⟨.loadConstant, 3, .string "text", ()⟩,
      .branch (some (true, 7)), .emit ⟨.store .member, 0, "name", 2, ()⟩, .patch 0, .branchTo 0]
    listing (Draft.strings writings) (Draft.of writings).assembler.code 0
        (Draft.offset writings) =
      .ok ["000000 LOAD_CONSTANT   r3, string \"text\"",
        "000010 BRANCH_IF_TRUE  r7, +22 -> 000032", "000019 STORE_OBJECT    r0, \"name\", r2",
        "000032 BRANCH          -32 -> 000000"] := by decide +kernel

/-- Patches succeed, as long as the code and the string table do not outgrow their words. -/
theorem Draft.patchable (small : Draft.offset writings < 2 ^ 31)
    (few : (Draft.strings writings).size ≤ UInt32.size) : Draft.Patchable writings := by
  intro before number after jump split found
  obtain ⟨longer, enlarges⟩ := Draft.grows before (.patch number :: after)
  rw [← split] at longer enlarges
  have shorter := Nat.lt_of_le_of_lt longer small
  obtain ⟨lines, assembled⟩ :=
    Assembled.of_writings before shorter (Nat.le_trans enlarges.size_le few)
  obtain ⟨_, _, _, _, _, _, _, patched⟩ := assembled.patch_eq shorter found
  exact ⟨_, patched⟩

end ScriptVm
