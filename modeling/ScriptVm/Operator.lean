/-!
# Arithmetic operators
-/
namespace ScriptVm

/-- The four arithmetic operators. -/
inductive Operator where
  | add
  | sub
  | mul
  | div
  deriving DecidableEq, Repr, Inhabited

namespace Operator

/-- Every operator. -/
def all : List Operator := [.add, .sub, .mul, .div]

/-- The sign that writes an operator. -/
def symbol : Operator → String
  | .add => "+"
  | .sub => "-"
  | .mul => "*"
  | .div => "/"

end Operator

end ScriptVm
