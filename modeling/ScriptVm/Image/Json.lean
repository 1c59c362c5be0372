import ScriptVm.Image.Basic
import ScriptVm.Json

/-!
# Written modules

The reading of a compiled module from a written description. Every field has to be there except
the class of a handler; names that are no fields are passed over.
-/
namespace ScriptVm

/-- A record of an image passes over unknown names, and a list of its values is complete. -/
def imageRule : Json.RecordRule := ⟨true, false⟩

/-- A written kind: its title, or an object with the title over null. -/
def Kind.ofTree? : Json → Option Kind
  | .text content => content >>= Kind.ofTitle?
  | .object [(some title, .null)] => Kind.ofTitle? title
  | _ => none

/-- A written 32-bit number. -/
def word32? (tree : Json) : Option UInt32 := (tree.nat? UInt32.size).map UInt32.ofNat

/-- A written 16-bit number. -/
def word16? (tree : Json) : Option UInt16 := (tree.nat? UInt16.size).map UInt16.ofNat

/-- A written byte. -/
def byte? (tree : Json) : Option UInt8 := (tree.nat? UInt8.size).map UInt8.ofNat

/-- A written member. -/
def MemberImage.ofTree? (tree : Json) : Option MemberImage := do
  match ← tree.record? imageRule ["name", "kind"] with
  | [some name, some kind] => return ⟨← name.text?, ← Kind.ofTree? kind⟩
  | _ => none

/-- A written object type. -/
def ObjectImage.ofTree? (tree : Json) : Option ObjectImage := do
  match ← tree.record? imageRule ["type_name", "members"] with
  | [some typeName, some members] =>
    return ⟨← typeName.text?, ← members.list? MemberImage.ofTree?⟩
  | _ => none

/-- A written handler. -/
def HandlerImage.ofTree? (tree : Json) : Option HandlerImage := do
  match ← tree.record? imageRule ["kind", "class_name", "offset"] with
  | [some kind, className, some offset] =>
    return ⟨← Kind.ofTree? kind, ← Json.optional? Json.text? className, ← word32? offset⟩
  | _ => none

/-- A written guarded range. -/
def BlockImage.ofTree? (tree : Json) : Option BlockImage := do
  match ← tree.record? imageRule ["bytecode_start", "bytecode_length", "handlers"] with
  | [some start, some length, some handlers] =>
    return ⟨← word32? start, ← word32? length, ← handlers.list? HandlerImage.ofTree?⟩
  | _ => none

/-- A written function. -/
def FunctionImage.ofTree? (tree : Json) : Option FunctionImage := do
  match ← tree.record? imageRule
    ["signature", "native", "num_parameters", "num_return_values", "bytecode_start",
      "bytecode_length", "locals", "guarded_blocks"] with
  | [some signature, some native, some parameters, some returns, some start, some length,
      some locals, some blocks] =>
    return ⟨← signature.text?, ← native.bool?, ← word16? parameters, ← word16? returns,
      ← word32? start, ← word32? length, ← locals.list? Json.text?,
      ← blocks.list? BlockImage.ofTree?⟩
  | _ => none

namespace Image

/-- A written module. -/
def ofTree? (tree : Json) : Option Image := do
  match ← tree.record? imageRule
    ["dependencies", "objects", "strings", "globals", "functions", "code", "init_length"] with
  | [some dependencies, some objects, some strings, some globals, some functions, some code,
      some initLength] =>
    return ⟨← dependencies.list? Json.text?, ← objects.list? ObjectImage.ofTree?,
      ← strings.list? Json.text?, ← globals.list? Json.text?,
      ← functions.list? FunctionImage.ofTree?, ← code.list? byte?, ← word32? initLength⟩
  | _ => none

/-- The module written by a text. -/
def parse? (text : String) : Option Image := Json.parse? text >>= ofTree?

end Image

end ScriptVm
