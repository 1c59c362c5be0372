import ScriptVm.Proofs.Instruction.Layout

/-!
# Names of instructions

Texts are replaced by indices into a string table when an instruction is written, and the table
grows by texts that it does not have. Looking the indices up again gives the texts back, in that
table and in every table that it grows into.
-/
namespace ScriptVm

/-- A string table grows into another one: texts are added at its end, and none twice. -/
structure Enlarges (strings more : Array String) : Prop where
  /-- What was there keeps its place. -/
  kept : strings.toList <+: more.toList
  /-- Texts stay distinct. -/
  distinct : strings.toList.Nodup → more.toList.Nodup

namespace Enlarges

variable {strings middle more : Array String}

/-- Nothing is added. -/
theorem refl (strings : Array String) : Enlarges strings strings := ⟨List.prefix_rfl, id⟩

/-- Texts are added twice. -/
theorem trans (first : Enlarges strings middle) (second : Enlarges middle more) :
    Enlarges strings more :=
  ⟨first.kept.trans second.kept, second.distinct ∘ first.distinct⟩

/-- The table does not shrink. -/
theorem size_le (enlarges : Enlarges strings more) : strings.size ≤ more.size := by
  simpa using enlarges.kept.length_le

/-- Texts are found where they were. -/
theorem getElem? (enlarges : Enlarges strings more) {index : Nat} {text : String}
    (found : strings[index]? = some text) : more[index]? = some text := by
  rw [← Array.getElem?_toList] at found ⊢
  obtain ⟨added, shape⟩ := enlarges.kept
  obtain ⟨inside, -⟩ := List.getElem?_eq_some_iff.mp found
  rw [← shape, List.getElem?_append_left inside]
  exact found

end Enlarges

/-- Looking up the index of a text adds the text if it is new. -/
theorem enlarges_indexOfText (strings : Array String) (text : String) :
    Enlarges strings (indexOfText strings text).2 := by
  unfold indexOfText
  split
  · exact .refl strings
  · rename_i absent
    have new : text ∉ strings.toList := by
      simpa [Array.idxOf?_eq_none_iff] using absent
    refine ⟨⟨[text], by simp⟩, fun distinct => ?_⟩
    rw [Array.toList_push, List.nodup_append]
    refine ⟨distinct, by simp, ?_⟩
    rintro other inside _ same rfl
    rw [List.mem_singleton.mp same] at inside
    exact new inside

/-- A text is found at its index, as long as the table has no more texts than there are indices. -/
theorem getElem?_indexOfText {strings : Array String} {text : String}
    (few : (indexOfText strings text).2.size ≤ UInt32.size) :
    (indexOfText strings text).2[(indexOfText strings text).1.toNat]? = some text := by
  unfold indexOfText at few ⊢
  cases known : strings.idxOf? text with
  | some index =>
    simp only [known] at few ⊢
    rw [Array.idxOf?_eq_map_finIdxOf?_val] at known
    obtain ⟨position, found, rfl⟩ := Option.map_eq_some_iff.mp known
    have inside := position.isLt
    have same : strings[position] = text := (Array.finIdxOf?_eq_some_iff.mp found).1
    rw [UInt32.toNat_ofNat', Nat.mod_eq_of_lt (show position.val < 2 ^ 32 from by
      simp only [UInt32.size] at few; omega)]
    exact Array.getElem?_eq_some_iff.mpr ⟨inside, same⟩
  | none =>
    simp only [known, Array.size_push] at few ⊢
    rw [UInt32.toNat_ofNat', Nat.mod_eq_of_lt (show strings.size < 2 ^ 32 from by
      simp only [UInt32.size] at few; omega)]
    simp

/-- A constant with the text of its name. -/
def Constant.resolve (strings : Array String) : Constant UInt32 → Option (Constant String)
  | .null => some .null
  | .bool value => some (.bool value)
  | .integer kind value => some (.integer kind value)
  | .binary kind value => some (.binary kind value)
  | .string name => strings[name.toNat]?.map .string

/-- An operand with the texts of its names. -/
def Shape.resolve (strings : Array String) :
    (shape : Shape) → shape.Carrier UInt32 → Option (shape.Carrier String)
  | .register, word => some word
  | .name, word => strings[word.toNat]?
  | .parameter, word => some word
  | .index, word => some word
  | .offset, distance => some distance
  | .constant, value => value.resolve strings

/-- Operands with the texts of their names. -/
def Operands.resolve (strings : Array String) :
    (shapes : List Shape) → Operands UInt32 shapes → Option (Operands String shapes)
  | [], () => some ()
  | shape :: rest, (operand, operands) => do
    return (← shape.resolve strings operand, ← Operands.resolve strings rest operands)

/-- An instruction with the texts of its names: the same operation, the same constants and the same
words where they are no names. -/
def Instruction.resolve (strings : Array String) (instruction : Instruction UInt32) :
    Option (Instruction String) :=
  (Operands.resolve strings _ instruction.operands).map fun operands =>
    ⟨instruction.opcode, operands⟩

section Growth

variable {strings more : Array String} (enlarges : Enlarges strings more)

include enlarges

/-- A constant keeps its text. -/
theorem Enlarges.resolve_constant {constant : Constant UInt32} {source : Constant String}
    (resolved : constant.resolve strings = some source) :
    constant.resolve more = some source := by
  cases constant with
  | string name =>
    obtain ⟨text, found, rfl⟩ := Option.map_eq_some_iff.mp resolved
    exact Option.map_eq_some_iff.mpr ⟨text, enlarges.getElem? found, rfl⟩
  | _ => exact resolved

/-- An operand keeps its texts. -/
theorem Enlarges.resolve_shape (shape : Shape) {operand : shape.Carrier UInt32}
    {source : shape.Carrier String} (resolved : shape.resolve strings operand = some source) :
    shape.resolve more operand = some source := by
  cases shape with
  | name => exact enlarges.getElem? resolved
  | constant => exact enlarges.resolve_constant resolved
  | _ => exact resolved

/-- Operands keep their texts. -/
theorem Enlarges.resolve_operands : (shapes : List Shape) → {operands : Operands UInt32 shapes} →
    {source : Operands String shapes} → Operands.resolve strings shapes operands = some source →
    Operands.resolve more shapes operands = some source
  | [], (), _, resolved => resolved
  | shape :: rest, (operand, operands), source, resolved => by
    obtain ⟨first, front, others⟩ := Option.bind_eq_some_iff.mp resolved
    obtain ⟨second, back, made⟩ := Option.bind_eq_some_iff.mp others
    rw [Operands.resolve, enlarges.resolve_shape shape front,
      Enlarges.resolve_operands rest back]
    exact made

/-- An instruction keeps its texts. -/
theorem Enlarges.resolve {instruction : Instruction UInt32} {source : Instruction String}
    (resolved : instruction.resolve strings = some source) :
    instruction.resolve more = some source := by
  obtain ⟨operands, found, rfl⟩ := Option.map_eq_some_iff.mp resolved
  exact Option.map_eq_some_iff.mpr ⟨operands, enlarges.resolve_operands _ found, rfl⟩

end Growth

variable {strings : Array String}

/-- Replacing the text of an operand enlarges the table. -/
theorem Shape.enlarges_number (strings : Array String) (shape : Shape)
    (operand : shape.Carrier String) : Enlarges strings (shape.number strings operand).2 := by
  cases shape with
  | name => exact enlarges_indexOfText strings operand
  | constant =>
    cases operand with
    | string text => exact enlarges_indexOfText strings text
    | _ => exact .refl strings
  | _ => exact .refl strings

/-- The text of an operand is found again. -/
theorem Shape.resolve_number (shape : Shape) {operand : shape.Carrier String}
    (few : (shape.number strings operand).2.size ≤ UInt32.size) :
    shape.resolve (shape.number strings operand).2 (shape.number strings operand).1 =
      some operand := by
  cases shape with
  | name => exact getElem?_indexOfText few
  | constant =>
    cases operand with
    | string text => exact Option.map_eq_some_iff.mpr ⟨text, getElem?_indexOfText few, rfl⟩
    | _ => rfl
  | _ => rfl

/-- Replacing the texts of operands enlarges the table. -/
theorem Operands.enlarges_number : (strings : Array String) → (shapes : List Shape) →
    (operands : Operands String shapes) → Enlarges strings (number strings shapes operands).2
  | strings, [], () => .refl strings
  | strings, shape :: rest, (operand, operands) =>
    (shape.enlarges_number strings operand).trans (enlarges_number _ rest operands)

/-- The texts of operands are found again. -/
theorem Operands.resolve_number : {strings : Array String} → (shapes : List Shape) →
    {operands : Operands String shapes} →
    (number strings shapes operands).2.size ≤ UInt32.size →
    resolve (number strings shapes operands).2 shapes (number strings shapes operands).1 =
      some operands
  | _, [], (), _ => rfl
  | strings, shape :: rest, (operand, operands), few => by
    have later := enlarges_number (shape.number strings operand).2 rest operands
    have back := @resolve_number (shape.number strings operand).2 rest operands few
    have front := later.resolve_shape shape
      (shape.resolve_number (Nat.le_trans later.size_le few))
    simp only [number, resolve, front, back]
    rfl

/-- The texts of an instruction are found again in the table that it leaves. -/
theorem Instruction.resolve_numbered {instruction : Instruction String}
    (few : (Operands.number strings _ instruction.operands).2.size ≤ UInt32.size) :
    (instruction.numbered strings).resolve (Operands.number strings _ instruction.operands).2 =
      some instruction := by
  unfold resolve numbered
  rw [Operands.resolve_number _ few]
  rfl

end ScriptVm
