import ScriptVm.Error
import ScriptVm.Kind

/-!
# Guarded code

Handlers catch raised values by kind, and objects by class. A guarded block attaches handlers to a
range of code; of the blocks around an offset the innermost one that catches a value handles it.
-/
namespace ScriptVm

/-- What a handler catches. -/
inductive Catch where
  /-- Values of one kind, objects apart. -/
  | values (kind : Kind)
  /-- Objects of exactly one class. -/
  | objects (className : String)
  deriving DecidableEq, Repr, Inhabited

namespace Catch

/-- The kind of what is caught. -/
def kind : Catch → Kind
  | .values kind => kind
  | .objects _ => .object

/-- The class of what is caught. -/
def className : Catch → Option String
  | .values _ => none
  | .objects className => some className

/-- A raised value of a kind, and for an object of a class, is caught. -/
def accepts (caught : Catch) (kind : Kind) (className : Option String) : Bool :=
  match caught with
  | .values expected => kind = expected && kind ≠ .object
  | .objects expected => kind = .object && className = some expected

end Catch

/-- A handler: what it catches, and where it resumes. -/
structure Handler where
  /-- What it catches. -/
  caught : Catch
  /-- Where it resumes. -/
  offset : Nat
  deriving DecidableEq, Repr, Inhabited

namespace Handler

/-- A handler for a kind of values; objects are caught by class only. -/
def ofKind (kind : Kind) (offset : Nat) : Except Error Handler :=
  if kind = .object then .error .invalidArgument else .ok ⟨.values kind, offset⟩

/-- A handler for the objects of a class. -/
def ofClass (className : String) (offset : Nat) : Handler := ⟨.objects className, offset⟩

end Handler

/-- The end of a range of code, which has to be a 32-bit offset. -/
def rangeEnd (start length : Nat) : Except Error Nat :=
  if start + length < UInt32.size then .ok (start + length) else .error .invalidArgument

/-- A range of code with handlers. -/
structure GuardedBlock where
  /-- First guarded byte. -/
  start : Nat
  /-- First byte after the range. -/
  stop : Nat
  /-- Handlers in declaration order. -/
  handlers : List Handler
  deriving DecidableEq, Repr, Inhabited

namespace GuardedBlock

/-- A block without handlers. -/
def create (start length : Nat) : Except Error GuardedBlock := do
  return ⟨start, ← rangeEnd start length, []⟩

/-- Adds a handler. No two handlers of a block resume at one offset or catch the same. -/
def addHandler (block : GuardedBlock) (handler : Handler) : Except Error GuardedBlock :=
  if block.handlers.any fun known =>
      known.offset = handler.offset || known.caught = handler.caught then
    .error .keyAlreadyExists
  else .ok { block with handlers := block.handlers ++ [handler] }

/-- An offset is guarded. -/
def contains (block : GuardedBlock) (offset : Nat) : Bool :=
  block.start ≤ offset && offset < block.stop

/-- The first handler that catches a raised value. -/
def findHandler? (block : GuardedBlock) (kind : Kind) (className : Option String) :
    Option Handler :=
  block.handlers.find? fun handler => handler.caught.accepts kind className

/-- A block is at most as far out as another: it starts later, or there and ends no later. -/
def isInner (left right : GuardedBlock) : Bool :=
  right.start < left.start || (left.start = right.start && left.stop ≤ right.stop)

end GuardedBlock

/-- The code of a script function inside its module. -/
structure Body where
  /-- First byte. -/
  start : Nat
  /-- First byte after the function. -/
  stop : Nat
  /-- Names of the local variables. -/
  locals : List String
  /-- Guarded blocks in declaration order. -/
  blocks : List GuardedBlock
  deriving DecidableEq, Repr, Inhabited

namespace Body

/-- A guarded block and the offsets of its handlers lie inside a range. -/
def encloses (start stop : Nat) (block : GuardedBlock) : Bool :=
  start ≤ block.start && block.stop ≤ stop &&
    block.handlers.all fun handler => start ≤ handler.offset && handler.offset < stop

/-- A body with distinct local names and with all guarded blocks inside it. -/
def create (start length : Nat) (locals : List String) (blocks : List GuardedBlock) :
    Except Error Body := do
  let stop ← rangeEnd start length
  if ¬locals.Nodup then throw .keyAlreadyExists
  if ¬blocks.all (encloses start stop) then throw .invalidArgument
  return ⟨start, stop, locals, blocks⟩

/-- Where the handler resumes that catches a value raised at an offset: the blocks around the
offset are asked from the innermost outward. -/
def findHandler? (body : Body) (offset : Nat) (kind : Kind) (className : Option String) :
    Option Nat :=
  let around := (body.blocks.filter (·.contains offset)).mergeSort GuardedBlock.isInner
  (around.findSome? fun block => block.findHandler? kind className).map Handler.offset

end Body

end ScriptVm
