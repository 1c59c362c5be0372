import ScriptVm.Function.Basic
import ScriptVm.Table

/-!
# Built-in functions

The functions that every machine starts with: an operator for each kind that has arithmetic, and a
cast between any two of those kinds. Their signatures do not limit their arguments.
-/
namespace ScriptVm.BuiltIn

/-- The signature of an operator for a kind. -/
def operatorSignature (kind : Kind) (symbol : String) : String :=
  kind.name ++ " `builtin." ++ kind.name ++ ".operator" ++ symbol ++ "(" ++ kind.name ++ ", " ++
    kind.name ++ ")"

/-- The signature of a cast from a kind to a kind. -/
def castSignature (source target : Kind) : String :=
  target.name ++ " `builtin." ++ source.name ++ ".operator$ " ++ target.name ++ "(" ++
    source.name ++ ")"

/-- A built-in function with one return value, under its signature. -/
def entry (signature : String) (parameters : UInt16) (routine : Routine) : String × Function :=
  (signature, .host ⟨signature, parameters, 1, none, some routine⟩)

/-- The operators. Texts can only be added. -/
def operators : List (String × Function) :=
  Operator.all.flatMap fun operator =>
    (Kind.scalars.filter fun kind => kind ≠ .string || operator = .add).map fun kind =>
      entry (operatorSignature kind operator.symbol) 2 (.operator operator)

/-- The casts. -/
def casts : List (String × Function) :=
  Kind.scalars.flatMap fun target =>
    (Kind.scalars.filter (· ≠ target)).map fun source =>
      entry (castSignature source target) 1 (.cast target)

/-- Every built-in function under its signature. -/
def functions : Table Function := ⟨operators ++ casts⟩

end ScriptVm.BuiltIn
