import ScriptVm.Operator

/-!
# Operation codes

The operations of bytecode, and the table that says which operands follow each of them.
-/
namespace ScriptVm

/-- The shape of one operand. -/
inductive Shape where
  /-- Index of a register of the frame. -/
  | register
  /-- Index into the string table. -/
  | name
  /-- Index of a parameter register. -/
  | parameter
  /-- A plain number. -/
  | index
  /-- A distance from the start of the instruction. -/
  | offset
  /-- A kind byte and a payload of that kind. -/
  | constant
  deriving DecidableEq, Repr, Inhabited

/-- The name of a shape. -/
def Shape.label : Shape → String
  | .register => "Register"
  | .name => "Name"
  | .parameter => "Param"
  | .index => "Index"
  | .offset => "Offset"
  | .constant => "Constant"

/-- Where an instruction can find or put a reference. -/
inductive Site where
  | global
  | local
  | parameter
  | member
  | element
  deriving DecidableEq, Repr, Inhabited

namespace Site

/-- Every site, in the order of the operation codes. -/
def all : List Site := [.global, .local, .parameter, .member, .element]

/-- The operands that address a site. -/
@[reducible] def shapes : Site → List Shape
  | .global => [.name]
  | .local => [.name]
  | .parameter => [.parameter]
  | .member => [.register, .name]
  | .element => [.register, .index]

/-- The word for a site in mnemonics. -/
def word : Site → String
  | .global => "GLOBAL"
  | .local => "LOCAL"
  | .parameter => "PARAM"
  | .member => "OBJECT"
  | .element => "ARRAY"

end Site

/-- An operation. -/
inductive Opcode where
  | nop
  | abort
  | leave
  | yield
  | call
  | callValue
  | raise
  | loadConstant
  /-- Copies a site into a register. -/
  | load (site : Site)
  /-- Copies a register into a site. -/
  | store (site : Site)
  /-- Copies a site into a register and clears the site. -/
  | pull (site : Site)
  | push
  | pop
  | initObject
  | initArray
  | initFunction
  | branch
  /-- Branches when the condition in a register is the given one. -/
  | branchIf (expected : Bool)
  | arithmetic (operator : Operator)
  deriving DecidableEq, Repr, Inhabited

namespace Opcode

/-- Every operation, in the order of its byte. -/
def all : List Opcode :=
  [.nop, .abort, .leave, .yield, .call, .callValue, .raise, .loadConstant] ++
    Site.all.map .load ++ Site.all.map .store ++ Site.all.map .pull ++
    [.push, .pop, .initObject, .initArray, .initFunction, .branch, .branchIf true,
      .branchIf false] ++ Operator.all.map .arithmetic

/-- The byte of an operation. -/
def toByte (opcode : Opcode) : UInt8 := UInt8.ofNat (all.idxOf opcode)

/-- The operation of a byte. -/
def ofByte? (byte : UInt8) : Option Opcode := all[byte.toNat]?

/-- The name of an operation in listings. -/
def mnemonic : Opcode → String
  | .nop => "NOP"
  | .abort => "ABORT"
  | .leave => "RETURN"
  | .yield => "YIELD"
  | .call => "CALL"
  | .callValue => "CALL_VALUE"
  | .raise => "RAISE"
  | .loadConstant => "LOAD_CONSTANT"
  | .load site => "LOAD_" ++ site.word
  | .store site => "STORE_" ++ site.word
  | .pull site => "PULL_" ++ site.word
  | .push => "PUSH"
  | .pop => "POP"
  | .initObject => "INIT_OBJECT"
  | .initArray => "INIT_ARRAY"
  | .initFunction => "INIT_FUNCTION"
  | .branch => "BRANCH"
  | .branchIf true => "BRANCH_IF_TRUE"
  | .branchIf false => "BRANCH_IF_FALSE"
  | .arithmetic .add => "ADD"
  | .arithmetic .sub => "SUB"
  | .arithmetic .mul => "MUL"
  | .arithmetic .div => "DIV"

/-- The operands that follow an operation. -/
@[reducible] def shapes : Opcode → List Shape
  | .nop | .abort | .leave | .yield => []
  | .call => [.name]
  | .callValue | .raise | .push | .pop => [.register]
  | .loadConstant => [.register, .constant]
  | .load site | .pull site => .register :: site.shapes
  | .store site => site.shapes ++ [.register]
  | .initObject | .initFunction => [.register, .name]
  | .initArray => [.register, .index]
  | .branch => [.offset]
  | .branchIf _ => [.register, .offset]
  | .arithmetic _ => [.register, .register, .register]

end Opcode

end ScriptVm
