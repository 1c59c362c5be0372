import ScriptVm.Proofs.Execution.Unwinding
import ScriptVm.Proofs.Vm.Isolation

/-!
# Where handlers are asked for

Handlers are asked for around the instruction that a call is executing. A call that waits for a
function it has called is executing the instruction that called it, for as long as the called
function is on the call stack, whatever calls the embedding program makes meanwhile.
-/
namespace ScriptVm

namespace Vm

variable {vm later : Vm} {id : Nat} {execution current after : Execution}

end Vm

end ScriptVm
