import ScriptVm.Fault
import ScriptVm.Instruction.Opcode

/-!
# The journal

What a machine reports about its work, as events and as lines of text.
-/
namespace ScriptVm

/-- The weight of an event. -/
inductive Level where
  | error
  | warning
  | debug
  | trace
  deriving DecidableEq, Repr, Inhabited

/-- The word for a level. -/
def Level.word : Level → String
  | .error => "ERROR"
  | .warning => "WARN"
  | .debug => "DEBUG"
  | .trace => "TRACE"

/-- Something worth reporting. -/
inductive Event where
  | moduleRejected (name : String) (error : Error)
  | dependencyMissing (name dependency : String)
  | functionRepeated (name signature : String)
  | functionRedefined (name signature : String)
  | typeKept (name typeName : String)
  | globalKept (name global : String)
  | exceptionUnbuilt (fault : Fault) (error : Error)
  | routineFailed (error : Error)
  | aborted
  | unhandled (thrown : String)
  | collected (collection disposed live : Nat)
  | dispatched (offset : Nat) (opcode : Opcode)
  | faulted (fault : Fault)
  deriving DecidableEq, Repr, Inhabited

namespace Event

/-- The level of an event. -/
def level : Event → Level
  | .moduleRejected .. | .dependencyMissing .. | .functionRepeated .. | .functionRedefined ..
  | .exceptionUnbuilt .. | .routineFailed .. => .error
  | .typeKept .. | .globalKept .. => .warning
  | .aborted | .unhandled .. | .collected .. => .debug
  | .dispatched .. | .faulted .. => .trace

/-- The text of an event. -/
def text : Event → String
  | .moduleRejected name error => "rejected module '" ++ name ++ "': " ++ error.message
  | .dependencyMissing name dependency =>
    "module '" ++ name ++ "' depends on unloaded module '" ++ dependency ++ "'"
  | .functionRepeated name signature =>
    "module '" ++ name ++ "' defines '" ++ signature ++ "' twice"
  | .functionRedefined name signature =>
    "module '" ++ name ++ "' redefines function '" ++ signature ++ "'"
  | .typeKept name typeName =>
    "module '" ++ name ++ "': object type '" ++ typeName ++ "' already defined, keeping the first"
  | .globalKept name global =>
    "module '" ++ name ++ "': global '" ++ global ++ "' already defined, keeping the first"
  | .exceptionUnbuilt fault error => "failed to build " ++ fault.text ++ ": " ++ error.message
  | .routineFailed error => "built-in could not complete: " ++ error.message
  | .aborted => "fatal exception, execution aborted"
  | .unhandled thrown => "unhandled " ++ thrown ++ " exception"
  | .collected collection disposed live =>
    "gc cycle " ++ Text.decimal collection ++ ": disposed " ++ Text.decimal disposed ++ ", live " ++
      Text.decimal live
  | .dispatched offset opcode => Text.offset offset ++ " " ++ opcode.mnemonic
  | .faulted fault => "opcode fault: " ++ fault.text

/-- The line of an event. -/
def line (event : Event) : String := event.level.word ++ " " ++ event.text

end Event

/-- The events of a machine, last one first. -/
structure Journal where
  /-- Events, last one first. -/
  events : List Event := []
  deriving DecidableEq, Repr, Inhabited

namespace Journal

/-- Reports an event. -/
def note (journal : Journal) (event : Event) : Journal := ⟨event :: journal.events⟩

/-- The lines of all events, first one first. -/
def lines (journal : Journal) : List String := journal.events.reverse.map Event.line

end Journal

end ScriptVm
