import ScriptVm.Instruction.Reading
import ScriptVm.Step.Execute

/-!
# Handling operations

Each operation reads its own operands, in its own order, and then acts on them.
-/
namespace ScriptVm

open Reading

/-- What an operation reads, and what it does then. -/
def Opcode.handle : Opcode → Reading Effect
  | .nop => return return .proceed
  | .abort => return return .abort
  | .leave => return return .leave
  | .yield => return return .yield
  | .call => do
    let signature ← word
    return Effect.call signature
  | .callValue => do
    let source ← word
    return Effect.callValue source
  | .raise => do
    let source ← word
    return Effect.raise source
  | .loadConstant => do
    let target ← word
    let value ← constant
    return Effect.loadConstant target value
  | .load .global => do
    let target ← word
    let name ← word
    return Effect.load target (Place.ofGlobal name)
  | .load .local => do
    let target ← word
    let name ← word
    return Effect.load target (Place.ofLocal name)
  | .load .parameter => do
    let target ← word
    let parameter ← word
    return Effect.load target (Place.ofParameter parameter)
  | .load .member => do
    let target ← word
    let object ← word
    let name ← word
    return Effect.load target (Place.ofMember object name)
  | .load .element => do
    let target ← word
    let array ← word
    let index ← word
    return Effect.load target (Place.ofElement array index)
  | .store .global => do
    let name ← word
    let source ← word
    return Effect.store (Place.ofGlobal name) source
  | .store .local => do
    let name ← word
    let source ← word
    return Effect.store (Place.ofLocal name) source
  | .store .parameter => do
    let parameter ← word
    let source ← word
    return Effect.store (Place.ofParameter parameter) source
  | .store .member => do
    let object ← word
    let name ← word
    let source ← word
    return Effect.store (Place.ofMember object name) source
  | .store .element => do
    let array ← word
    let index ← word
    let source ← word
    return Effect.store (Place.ofElement array index) source
  | .pull .global => do
    let target ← word
    let name ← word
    return Effect.pull target (Place.ofGlobal name)
  | .pull .local => do
    let target ← word
    let name ← word
    return Effect.pull target (Place.ofLocal name)
  | .pull .parameter => do
    let target ← word
    let parameter ← word
    return Effect.pull target (Place.ofParameter parameter)
  | .pull .member => do
    let target ← word
    let object ← word
    let name ← word
    return Effect.pull target (Place.ofMember object name)
  | .pull .element => do
    let target ← word
    let array ← word
    let index ← word
    return Effect.pull target (Place.ofElement array index)
  | .push => do
    let source ← word
    return Effect.push source
  | .pop => do
    let target ← word
    return Effect.pop target
  | .initObject => do
    let target ← word
    let typeName ← word
    return Effect.initObject target typeName
  | .initArray => do
    let target ← word
    let length ← word
    return Effect.initArray target length
  | .initFunction => do
    let target ← word
    let signature ← word
    return Effect.initFunction target signature
  | .branch => do
    let distance ← distance
    return Effect.branch distance
  | .branchIf expected => do
    let source ← word
    let distance ← distance
    return Effect.branchIf expected source distance
  | .arithmetic operator => do
    let target ← word
    let left ← word
    let right ← word
    return Effect.arithmetic operator target left right

end ScriptVm
