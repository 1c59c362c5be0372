import ScriptVm.Bytes
import ScriptVm.Image.Basic
import ScriptVm.Instruction.Basic

/-!
# The assembler

Instructions are written one after another; the texts they name are gathered in a string table
without repetitions. A forward branch is written with an open distance and patched later.
-/
namespace ScriptVm

/-- Code under construction, and the texts it names. -/
structure Assembler where
  /-- The code so far. -/
  code : Array UInt8 := #[]
  /-- The string table so far. -/
  strings : Array String := #[]
  deriving DecidableEq, Repr, Inhabited

/-- A forward branch that waits for its target. -/
structure Jump where
  /-- First byte of the branch. -/
  start : Nat
  /-- First byte of its distance. -/
  operand : Nat
  deriving DecidableEq, Repr, Inhabited

/-- The index of a text in a string table, to whose end it is added on its first use. -/
def indexOfText (strings : Array String) (text : String) : UInt32 × Array String :=
  match strings.idxOf? text with
  | some index => (UInt32.ofNat index, strings)
  | none => (UInt32.ofNat strings.size, strings.push text)

namespace Assembler

/-- Where the next instruction will start. -/
def offset (assembler : Assembler) : Nat := assembler.code.size

/-- The index of a text in the string table. -/
def string (assembler : Assembler) (text : String) : UInt32 × Assembler :=
  let (index, strings) := indexOfText assembler.strings text
  (index, { assembler with strings })

/-- Writes a byte as it is. -/
def byte (assembler : Assembler) (byte : UInt8) : Assembler :=
  { assembler with code := assembler.code.push byte }

/-- Writes bytes as they are. -/
def bytes (assembler : Assembler) (bytes : List UInt8) : Assembler :=
  { assembler with code := assembler.code ++ bytes.toArray }

/-- Writes the byte of an operation. -/
def op (assembler : Assembler) (opcode : Opcode) : Assembler := assembler.byte opcode.toByte

/-- Writes a 32-bit word. -/
def word (assembler : Assembler) (value : UInt32) : Assembler :=
  assembler.bytes (littleBytes 4 value.toNat)

/-- Writes a distance. -/
def distance (assembler : Assembler) (value : Distance) : Assembler :=
  assembler.bytes (littleBytes 4 value.bits.toNat)

/-- Writes the byte of a kind. -/
def kind (assembler : Assembler) (kind : Kind) : Assembler := assembler.byte kind.toByte

/-- Writes the index of a text. -/
def name (assembler : Assembler) (text : String) : Assembler :=
  let (index, assembler) := assembler.string text
  assembler.word index

/-- Writes the load of a constant. -/
def loadConstant (assembler : Assembler) (target : UInt32) : Constant String → Assembler
  | .null => assembler.op .loadConstant |>.word target |>.kind .null
  | .bool value =>
    assembler.op .loadConstant |>.word target |>.kind .bool |>.byte (if value then 1 else 0)
  | .integer kind value =>
    assembler.op .loadConstant |>.word target |>.kind (.integer kind)
      |>.bytes (littleBytes kind.width.bytes value.bits.toNat)
  | .binary kind value =>
    assembler.op .loadConstant |>.word target |>.kind (.binary kind)
      |>.bytes (littleBytes kind.bytes value.bits.toNat)
  | .string text => assembler.op .loadConstant |>.word target |>.kind .string |>.name text

/-- Writes an instruction: the byte of its operation, and then its operands. -/
def emit (assembler : Assembler) : Instruction String → Assembler
  | ⟨.nop, ()⟩ => assembler.op .nop
  | ⟨.abort, ()⟩ => assembler.op .abort
  | ⟨.leave, ()⟩ => assembler.op .leave
  | ⟨.yield, ()⟩ => assembler.op .yield
  | ⟨.call, signature, ()⟩ => assembler.op .call |>.name signature
  | ⟨.callValue, source, ()⟩ => assembler.op .callValue |>.word source
  | ⟨.raise, source, ()⟩ => assembler.op .raise |>.word source
  | ⟨.loadConstant, target, value, ()⟩ => assembler.loadConstant target value
  | ⟨.load .global, target, name, ()⟩ => assembler.op (.load .global) |>.word target |>.name name
  | ⟨.load .local, target, name, ()⟩ => assembler.op (.load .local) |>.word target |>.name name
  | ⟨.load .parameter, target, parameter, ()⟩ =>
    assembler.op (.load .parameter) |>.word target |>.word parameter
  | ⟨.load .member, target, object, member, ()⟩ =>
    assembler.op (.load .member) |>.word target |>.word object |>.name member
  | ⟨.load .element, target, array, index, ()⟩ =>
    assembler.op (.load .element) |>.word target |>.word array |>.word index
  | ⟨.store .global, name, source, ()⟩ => assembler.op (.store .global) |>.name name |>.word source
  | ⟨.store .local, name, source, ()⟩ => assembler.op (.store .local) |>.name name |>.word source
  | ⟨.store .parameter, parameter, source, ()⟩ =>
    assembler.op (.store .parameter) |>.word parameter |>.word source
  | ⟨.store .member, object, member, source, ()⟩ =>
    assembler.op (.store .member) |>.word object |>.name member |>.word source
  | ⟨.store .element, array, index, source, ()⟩ =>
    assembler.op (.store .element) |>.word array |>.word index |>.word source
  | ⟨.pull .global, target, name, ()⟩ => assembler.op (.pull .global) |>.word target |>.name name
  | ⟨.pull .local, target, name, ()⟩ => assembler.op (.pull .local) |>.word target |>.name name
  | ⟨.pull .parameter, target, parameter, ()⟩ =>
    assembler.op (.pull .parameter) |>.word target |>.word parameter
  | ⟨.pull .member, target, object, member, ()⟩ =>
    assembler.op (.pull .member) |>.word target |>.word object |>.name member
  | ⟨.pull .element, target, array, index, ()⟩ =>
    assembler.op (.pull .element) |>.word target |>.word array |>.word index
  | ⟨.push, source, ()⟩ => assembler.op .push |>.word source
  | ⟨.pop, target, ()⟩ => assembler.op .pop |>.word target
  | ⟨.initObject, target, typeName, ()⟩ => assembler.op .initObject |>.word target |>.name typeName
  | ⟨.initArray, target, length, ()⟩ => assembler.op .initArray |>.word target |>.word length
  | ⟨.initFunction, target, signature, ()⟩ =>
    assembler.op .initFunction |>.word target |>.name signature
  | ⟨.branch, distance, ()⟩ => assembler.op .branch |>.distance distance
  | ⟨.branchIf expected, source, distance, ()⟩ =>
    assembler.op (.branchIf expected) |>.word source |>.distance distance
  | ⟨.arithmetic operator, target, left, right, ()⟩ =>
    assembler.op (.arithmetic operator) |>.word target |>.word left |>.word right

/-- Writes a branch back to an offset. -/
def branchTo (assembler : Assembler) (target : Nat) : Assembler :=
  assembler.op .branch |>.distance (Integer.ofInt _ ((target : Int) - assembler.offset))

/-- Writes an open distance of a branch that starts at an offset. -/
def placeholder (assembler : Assembler) (start : Nat) : Jump × Assembler :=
  (⟨start, assembler.offset⟩, assembler.distance (Integer.ofInt _ 0))

/-- Writes a forward branch, taken always or when a register holds the given condition. -/
def branch (assembler : Assembler) (condition : Option (Bool × UInt32)) : Jump × Assembler :=
  match condition with
  | none => assembler.op .branch |>.placeholder assembler.offset
  | some (expected, register) =>
    assembler.op (.branchIf expected) |>.word register |>.placeholder assembler.offset

/-- Points a forward branch at the current offset. The distance is a 32-bit word, which has to be
a positive distance, and its four bytes have to be inside the code. -/
def patch (assembler : Assembler) (jump : Jump) : Except Error Assembler :=
  let distance := UInt32.ofNat assembler.offset - UInt32.ofNat jump.start
  if UInt32.size / 2 ≤ distance.toNat ∨ assembler.code.size < jump.operand + 4 then
    .error .indexOutOfRange
  else
    .ok { assembler with
      code := assembler.code.extract 0 jump.operand ++ (littleBytes 4 distance.toNat).toArray ++
        assembler.code.extract (jump.operand + 4) assembler.code.size }

/-- A module of this code and this string table, and nothing else. -/
def finish (assembler : Assembler) : Image :=
  { strings := assembler.strings.toList, code := assembler.code.toList }

end Assembler

end ScriptVm
