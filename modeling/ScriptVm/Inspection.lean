import ScriptVm.Text.Quoted
import ScriptVm.Vm

/-!
# Inspection

One-line descriptions of the parts of a virtual machine for its embedding program: the sort of the
part, and between braces what it holds.
-/
namespace ScriptVm

/-- The description of a part with named fields. -/
def described (sort : String) (fields : List (String × String)) : String :=
  let parts := fields.map fun (name, content) => name ++ ": " ++ content
  sort ++ " \x7b " ++ ", ".intercalate parts ++ " \x7d"

/-- The description of a module. -/
def Module.inspected (module : Module) : String :=
  described "Module" [("name", Text.quoted module.name),
    ("strings", Text.decimal module.strings.size), ("code", Text.decimal module.code.size)]

namespace Frame

/-- The text of a frame's number. -/
def idText (id : Nat) : String := "FrameId(" ++ Text.decimal id ++ ")"

/-- The description of a frame; a host call has no offset. -/
def inspected (frame : Frame) : String :=
  let offset := match frame.activation? with
    | some activation => "Some(" ++ Text.decimal activation.start ++ ")"
    | none => "None"
  described "Frame" [("id", idText frame.id), ("function", Text.quoted frame.function.signature),
    ("offset", offset), ("stack", Text.decimal frame.stackLength)]

end Frame

/-- The description of an execution. -/
def Execution.inspected (execution : Execution) : String :=
  described "Execution" [("status", execution.status.name),
    ("frames", Text.decimal execution.frames.length)]

/-- The description of a virtual machine. -/
def Vm.inspected (vm : Vm) : String :=
  let registry := vm.machine.registry
  described "Vm" [("modules", Text.decimal registry.modules.size),
    ("functions", Text.decimal registry.functions.size),
    ("globals", Text.decimal registry.globals.size),
    ("live", Text.decimal vm.machine.heap.liveCount)]

end ScriptVm
