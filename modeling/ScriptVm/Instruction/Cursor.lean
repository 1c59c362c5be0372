import ScriptVm.Bytes
import ScriptVm.Error
import ScriptVm.Number.Binary

/-!
# The decode cursor

A position in bytecode that moves forward as operands are taken. Words in bytecode are always in
little byte order. A word that is not wholly inside the code is not taken, and the cursor stays.

A position is meant to be kept in 32 bits. Here it is an exact number, which is the same as long as
it is inside code of fewer than `2 ^ 32` bytes.
-/
namespace ScriptVm

/-- A position in bytecode. -/
structure Cursor where
  /-- The code being read. -/
  code : Array UInt8
  /-- The next byte to take. -/
  next : Nat
  /-- The first byte of the instruction being executed. -/
  start : Nat
  deriving DecidableEq, Repr, Inhabited

namespace Cursor

/-- A cursor at an offset. -/
def ofOffset (code : Array UInt8) (offset : Nat) : Cursor := ⟨code, offset, offset⟩

/-- Moves to an offset. -/
def moveTo (cursor : Cursor) (offset : Nat) : Cursor := { cursor with next := offset }

/-- Remembers the position as the start of an instruction. -/
def markInstruction (cursor : Cursor) : Cursor := { cursor with start := cursor.next }

/-- The given count of bytes, when they are all inside the code. So the position after them is
inside the code, too. -/
def take? (cursor : Cursor) (count : Nat) : Option (List UInt8 × Cursor) :=
  if cursor.next + count ≤ cursor.code.size then
    some ((cursor.code.extract cursor.next (cursor.next + count)).toList,
      cursor.moveTo (cursor.next + count))
  else none

/-- A byte. -/
def byte? (cursor : Cursor) : Option (UInt8 × Cursor) := do
  let (bytes, cursor) ← cursor.take? 1
  return (UInt8.ofNat (littleValue bytes), cursor)

/-- A 32-bit word. -/
def word? (cursor : Cursor) : Option (UInt32 × Cursor) := do
  let (bytes, cursor) ← cursor.take? 4
  return (UInt32.ofNat (littleValue bytes), cursor)

/-- An integer of a kind. -/
def integer? (cursor : Cursor) (kind : IntegerKind) : Option (Integer kind × Cursor) := do
  let (bytes, cursor) ← cursor.take? kind.width.bytes
  return (⟨BitVec.ofNat kind.bits (littleValue bytes)⟩, cursor)

/-- A floating-point number of a kind. -/
def binary? (cursor : Cursor) (kind : BinaryKind) : Option (Binary kind × Cursor) := do
  let (bytes, cursor) ← cursor.take? kind.bytes
  return (⟨BitVec.ofNat kind.bits (littleValue bytes)⟩, cursor)

/-- A truth value: every byte but zero is true. -/
def bool? (cursor : Cursor) : Option (Bool × Cursor) := do
  let (byte, cursor) ← cursor.byte?
  return (byte ≠ 0, cursor)

end Cursor

end ScriptVm
