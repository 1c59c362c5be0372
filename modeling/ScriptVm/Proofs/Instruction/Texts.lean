import ScriptVm.Instruction.Listing
import ScriptVm.Proofs.Instruction.Layout
import ScriptVm.Proofs.Instruction.Resolving
import ScriptVm.Proofs.Text.Columns

/-!
# How instructions look in a listing

A line has an offset of at least six digits, the name of the operation in sixteen columns, and the
operands that the table lists, with commas between them. A line without operands ends with the name.
Names are shown in some way: between quotes where they are texts, and by their texts in a string
table where they are indices.
-/
namespace ScriptVm

section Shown

variable {ν : Type} (name : ν → String)

/-- How the value of a constant looks. -/
def Constant.shownValue : Constant ν → String
  | .null => "null"
  | .bool value => toString value
  | .integer _ value => toString value.toInt
  | .binary _ value => value.text
  | .string text => name text

/-- How a constant looks: its kind and its value. -/
def Constant.shown (constant : Constant ν) : String :=
  constant.kind.name ++ " " ++ constant.shownValue name

/-- How a distance looks in an instruction at an offset: with its sign, and with its target. -/
def Distance.shown (start : Nat) (distance : Distance) : String :=
  let target := start + distance.toInt
  (if distance.toInt < 0 then "" else "+") ++ toString distance.toInt ++ " -> " ++
    if target < 0 then "-" ++ (toString target.natAbs).leftpad 5 '0'
    else (toString target.natAbs).leftpad 6 '0'

/-- How an operand of an instruction at an offset looks. -/
def Shape.shown (start : Nat) : (shape : Shape) → shape.Carrier ν → String
  | .register, word => "r" ++ toString word.toNat
  | .parameter, word => "p" ++ toString word.toNat
  | .index, word => "#" ++ toString word.toNat
  | .name, text => name text
  | .offset, distance => Distance.shown start distance
  | .constant, value => value.shown name

/-- How operands of an instruction at an offset look. -/
def Operands.shown (start : Nat) : (shapes : List Shape) → Operands ν shapes → List String
  | [], () => []
  | shape :: rest, (operand, operands) =>
    shape.shown name start operand :: Operands.shown start rest operands

/-- How an operation with operands looks: its name in sixteen columns, when operands follow. -/
def Opcode.shownWith (opcode : Opcode) : List String → String
  | [] => opcode.mnemonic
  | operands => opcode.mnemonic.rightpad 16 ' ' ++ ", ".intercalate operands

/-- How an instruction at an offset looks. -/
def Instruction.shown (offset : Nat) (instruction : Instruction ν) : String :=
  (toString offset).leftpad 6 '0' ++ " " ++
    instruction.opcode.shownWith (Operands.shown name offset _ instruction.operands)

end Shown

section Trimming

variable {ν : Type} {name : ν → String} (tight : ∀ value, Text.Tight (name value))

include tight

/-- A constant does not end with a blank. -/
theorem Constant.tight_shown (constant : Constant ν) : Text.Tight (constant.shown name) := by
  refine Text.Tight.append _ ?_
  cases constant with
  | null => exact Text.tight_of_getLast? (show "null".toList.getLast?.any _ = true by decide)
  | bool value =>
    refine Text.tight_of_getLast? (show (toString value).toList.getLast?.any _ = true from ?_)
    cases value <;> decide
  | integer kind value =>
    rw [shownValue, ← Text.signed_eq]
    exact Text.tight_signed value.toInt
  | binary kind value => exact value.tight_text
  | string text => exact tight text

/-- An operand does not end with a blank. -/
theorem Shape.tight_shown (start : Nat) (shape : Shape) (operand : shape.Carrier ν) :
    Text.Tight (shape.shown name start operand) := by
  have word (front : String) (value : Nat) : Text.Tight (front ++ toString value) :=
    .append front (Text.decimal_eq value ▸ Text.tight_decimal value)
  cases shape with
  | register => exact word "r" _
  | parameter => exact word "p" _
  | index => exact word "#" _
  | name => exact tight operand
  | offset =>
    refine .append _ ?_
    rw [← Text.signedOffset_eq]
    exact Text.tight_signedOffset _
  | constant => exact operand.tight_shown tight

/-- No operand ends with a blank. -/
theorem Operands.tight_shown (start : Nat) : (shapes : List Shape) →
    (operands : Operands ν shapes) → ∀ text ∈ shown name start shapes operands, Text.Tight text
  | [], () => List.forall_mem_nil _
  | shape :: rest, (operand, operands) =>
    List.forall_mem_cons.mpr
      ⟨shape.tight_shown tight start operand, tight_shown start rest operands⟩

end Trimming

/-- The name of an operation does not end with a blank. -/
theorem Opcode.tight_mnemonic (opcode : Opcode) : Text.Tight opcode.mnemonic := by
  refine Text.tight_of_getLast? ?_
  cases opcode with
  | load site | store site | pull site => cases site <;> decide
  | branchIf expected => cases expected <;> decide
  | arithmetic operator => cases operator <;> decide
  | _ => decide

/-- Texts with commas between them do not end with a blank when none of them does. -/
theorem tight_intercalate {text : String} {texts : List String}
    (tight : ∀ other ∈ text :: texts, Text.Tight other) :
    Text.Tight (", ".intercalate (text :: texts)) := by
  induction texts generalizing text with
  | nil => simpa using tight
  | cons next rest hypothesis =>
    rw [String.intercalate_cons_of_ne_nil (List.cons_ne_nil _ _)]
    exact (hypothesis (List.forall_mem_cons.mp tight).2).append _

/-- Trimming takes away the blanks behind the name of an operation without operands. -/
theorem trimEnd_line (front : String) (opcode : Opcode) {operands : List String}
    (tight : ∀ text ∈ operands, Text.Tight text) :
    Text.trimEnd (front ++ String.ofList (Text.spacePadded 16 opcode.mnemonic.toList) ++
        Text.trimEnd (", ".intercalate operands)) =
      front ++ opcode.shownWith operands := by
  have padded : String.ofList (Text.spacePadded 16 opcode.mnemonic.toList) =
      opcode.mnemonic.rightpad 16 ' ' := by
    rw [Text.spacePadded, String.ofList_append, String.ofList_toList, String.length_toList]
    rfl
  rw [padded]
  cases operands with
  | nil =>
    have blank : ∀ character ∈ List.replicate (16 - opcode.mnemonic.length) ' ',
        Text.isBlank character := by
      intro character among
      rw [List.eq_of_mem_replicate among]
      decide
    rw [show Text.trimEnd (", ".intercalate []) = "" by decide, String.append_empty,
      String.rightpad, ← String.append_assoc]
    exact (opcode.tight_mnemonic.append front).trimEnd_append blank
  | cons text texts =>
    have ends := tight_intercalate tight
    rw [ends.trimEnd, (ends.append _).trimEnd, String.append_assoc]
    rfl

/-- How a text looks that is a name. -/
def quote (text : String) : String := "\"" ++ text ++ "\""

/-- A text between quotes does not end with a blank. -/
theorem tight_quote (text : String) : Text.Tight (quote text) :=
  .append _ (Text.tight_of_getLast? (by decide))

/-- How a name looks that is an index into a string table. -/
def nameIn (strings : Array String) (index : UInt32) : String :=
  match strings[index.toNat]? with
  | some text => quote text
  | none => "s" ++ toString index.toNat

/-- An index into a string table does not end with a blank. -/
theorem tight_nameIn (strings : Array String) (index : UInt32) :
    Text.Tight (nameIn strings index) := by
  unfold nameIn
  split
  · exact tight_quote _
  · exact .append _ (Text.decimal_eq _ ▸ Text.tight_decimal _)

/-- Trimming a line takes away the blanks behind the name of an operation without operands, so that
it looks as it should. -/
theorem Instruction.trimEnd_eq {ν : Type} {name : ν → String}
    (tight : ∀ value, Text.Tight (name value)) (instruction : Instruction ν) (offset : Nat) :
    Text.trimEnd (Text.offset offset ++ " " ++
        String.ofList (Text.spacePadded 16 instruction.opcode.mnemonic.toList) ++
        Text.trimEnd (", ".intercalate
          (Operands.shown name offset _ instruction.operands))) =
      instruction.shown name offset := by
  rw [trimEnd_line _ _ (Operands.tight_shown tight offset _ instruction.operands), Text.offset_eq,
    shown]

section Resolving

variable {strings : Array String}

/-- A constant looks as the one does of which it has the index. -/
theorem Constant.shown_of_resolve {constant : Constant UInt32} {source : Constant String}
    (resolved : constant.resolve strings = some source) :
    constant.shown (nameIn strings) = source.shown quote := by
  cases constant with
  | string index =>
    obtain ⟨text, found, rfl⟩ := Option.map_eq_some_iff.mp resolved
    simp only [shown, shownValue, nameIn, found]
    rfl
  | _ =>
    obtain rfl := Option.some.inj resolved
    rfl

/-- Operands look as those do of which they have the indices. -/
theorem Operands.shown_of_resolve : (shapes : List Shape) → {operands : Operands UInt32 shapes} →
    {source : Operands String shapes} → resolve strings shapes operands = some source →
    (start : Nat) → shown (nameIn strings) start shapes operands = shown quote start shapes source
  | [], (), (), _, _ => rfl
  | shape :: rest, (operand, operands), source, resolved, start => by
    obtain ⟨first, front, others⟩ := Option.bind_eq_some_iff.mp resolved
    obtain ⟨second, back, made⟩ := Option.bind_eq_some_iff.mp others
    obtain rfl := Option.some.inj made
    have same : shape.shown (nameIn strings) start operand = shape.shown quote start first := by
      cases shape with
      | name =>
        have found : strings[operand.toNat]? = some first := front
        simp only [Shape.shown, nameIn, found]
      | constant => exact Constant.shown_of_resolve front
      | _ =>
        obtain rfl := Option.some.inj front
        rfl
    exact List.cons_eq_cons.mpr ⟨same, shown_of_resolve rest back start⟩

/-- An instruction looks as the one does of which it has the indices. -/
theorem Instruction.shown_of_resolve {instruction : Instruction UInt32}
    {source : Instruction String} (resolved : instruction.resolve strings = some source)
    (offset : Nat) :
    instruction.shown (nameIn strings) offset = source.shown quote offset := by
  obtain ⟨operands, found, rfl⟩ := Option.map_eq_some_iff.mp resolved
  simp only [shown, Operands.shown_of_resolve _ found]

end Resolving

end ScriptVm
