import ScriptVm.Proofs.Instruction.Layout
import ScriptVm.Step.Dispatch

/-!
# What handlers read

Every operation reads its operands in the layout that the table lists for it, and it acts on these
operands. So an instruction is executed by decoding what the table lists.
-/
namespace ScriptVm

/-- The place that the operands of a site address. -/
def Place.resolve : (site : Site) → Operands UInt32 site.shapes → Step Place
  | .global, (name, ()) => ofGlobal name
  | .local, (name, ()) => ofLocal name
  | .parameter, (index, ()) => ofParameter index
  | .member, (register, name, ()) => ofMember register name
  | .element, (register, index, ()) => ofElement register index

/-- Executes an instruction whose operands are laid out by the table. -/
def Instruction.execute : Instruction UInt32 → Effect
  | ⟨.nop, ()⟩ => return .proceed
  | ⟨.abort, ()⟩ => return .abort
  | ⟨.leave, ()⟩ => return .leave
  | ⟨.yield, ()⟩ => return .yield
  | ⟨.call, signature, ()⟩ => Effect.call signature
  | ⟨.callValue, source, ()⟩ => Effect.callValue source
  | ⟨.raise, source, ()⟩ => Effect.raise source
  | ⟨.loadConstant, target, value, ()⟩ => Effect.loadConstant target value
  | ⟨.load site, target, operands⟩ => Effect.load target (Place.resolve site operands)
  | ⟨.store site, operands⟩ =>
    let (operands, source) := Operands.splitLast site.shapes operands
    Effect.store (Place.resolve site operands) source
  | ⟨.pull site, target, operands⟩ => Effect.pull target (Place.resolve site operands)
  | ⟨.push, source, ()⟩ => Effect.push source
  | ⟨.pop, target, ()⟩ => Effect.pop target
  | ⟨.initObject, target, typeName, ()⟩ => Effect.initObject target typeName
  | ⟨.initArray, target, length, ()⟩ => Effect.initArray target length
  | ⟨.initFunction, target, signature, ()⟩ => Effect.initFunction target signature
  | ⟨.branch, distance, ()⟩ => Effect.branch distance
  | ⟨.branchIf expected, source, distance, ()⟩ => Effect.branchIf expected source distance
  | ⟨.arithmetic operator, target, left, right, ()⟩ => Effect.arithmetic operator target left right

/-- Every operation reads its operands as the table lists them, and acts on them. -/
theorem Opcode.handle_eq (opcode : Opcode) (cursor : Cursor) :
    opcode.handle cursor = do
      let (operands, cursor) ← Operands.decode opcode.shapes cursor
      return (Instruction.execute ⟨opcode, operands⟩, cursor) := by
  have bound : ∀ {α β : Type} (first : Reading α) (second : α → Reading β) (cursor : Cursor),
      (first >>= second) cursor = first cursor >>= fun taken => second taken.1 taken.2 :=
    fun _ _ _ => rfl
  have ended : ∀ {α : Type} (value : α) (cursor : Cursor),
      (pure value : Reading α) cursor = pure (value, cursor) := fun _ _ => rfl
  have none : ∀ cursor, Operands.decode [] cursor = pure ((), cursor) := fun _ => rfl
  have some : ∀ shape rest cursor, Operands.decode (shape :: rest) cursor =
      shape.decode cursor >>= fun first => Operands.decode rest first.2 >>= fun others =>
        pure ((first.1, others.1), others.2) := fun _ _ _ => rfl
  cases opcode
  case' load site | store site | pull site => cases site
  all_goals
    simp only [handle, shapes, Site.shapes, List.cons_append, List.nil_append, none, some,
      Shape.decode, bound, ended, bind_assoc, pure_bind]
    rfl

namespace Execution

/-- An instruction is dispatched by decoding the operands that the table lists, and executed on
them. -/
theorem dispatchAt_by_table (machine : Machine) (execution : Execution) (id : Nat)
    (frame : Activation) (below : List Frame) :
    execution.dispatchAt machine id frame below =
      let execution := { execution with frames := .script id frame :: below }
      match frame.cursor.byte? with
      | none => execution.fail machine (.host .indexOutOfRange)
      | some (byte, cursor) =>
        match Opcode.ofByte? byte with
        | none => execution.fail machine (.invalidOpcode byte)
        | some opcode =>
          let machine := machine.note (.dispatched frame.start opcode)
          match Operands.decode opcode.shapes cursor with
          | .error misread => execution.fail machine misread.fault
          | .ok (operands, cursor) =>
            execution.perform machine id (frame.moveTo cursor.next) below
              (Instruction.execute ⟨opcode, operands⟩) := by
  unfold dispatchAt
  dsimp only
  cases frame.cursor.byte? with
  | none => rfl
  | some taken =>
    obtain ⟨byte, cursor⟩ := taken
    dsimp only
    cases Opcode.ofByte? byte with
    | none => rfl
    | some opcode =>
      dsimp only
      rw [Opcode.handle_eq]
      cases Operands.decode opcode.shapes cursor <;> rfl

end Execution

end ScriptVm
