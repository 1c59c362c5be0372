import ScriptVm.Fault
import ScriptVm.Heap.Value

/-!
# Arithmetic on values

Both operands have to be of one kind. Integer results are reduced to the width of the kind, and a
division by zero is a fault for every kind, floating-point kinds included. Truth values behave like
integers reduced to whether they are zero, and texts can be added.
-/
namespace ScriptVm.Operator

/-- Arithmetic on truth values. -/
def onBools (operator : Operator) (left right : Bool) : Except Fault Bool :=
  match operator with
  | .add => .ok (left || right)
  | .sub => .ok (left != right)
  | .mul => .ok (left && right)
  | .div => if right then .ok left else .error .divisionByZero

/-- Exact arithmetic on integers; a quotient is cut toward zero. -/
def onInts (operator : Operator) (left right : Int) : Except Fault Int :=
  match operator with
  | .add => .ok (left + right)
  | .sub => .ok (left - right)
  | .mul => .ok (left * right)
  | .div => if right = 0 then .error .divisionByZero else .ok (left.tdiv right)

/-- Arithmetic on floating-point numbers of one kind. -/
def onBinaries {kind : BinaryKind} (operator : Operator) (left right : Binary kind) :
    Except Fault (Binary kind) :=
  match operator with
  | .add => .ok (left.add right)
  | .sub => .ok (left.sub right)
  | .mul => .ok (left.mul right)
  | .div => if right.isZero then .error .divisionByZero else .ok (left.div right)

/-- Applies an operator to two values. -/
def apply (operator : Operator) (left right : Value) : Except Fault Value :=
  let unsupported := .error (.unsupportedOperands operator left.kind right.kind)
  match left, right with
  | .bool left, .bool right => .bool <$> operator.onBools left right
  | .integer kind left, .integer other right =>
    if kind = other then
      (fun result => .integer kind (Integer.ofInt kind result)) <$>
        operator.onInts left.toInt right.toInt
    else unsupported
  | .binary .single left, .binary .single right =>
    .binary .single <$> operator.onBinaries left right
  | .binary .double left, .binary .double right =>
    .binary .double <$> operator.onBinaries left right
  | .string left, .string right =>
    if operator = .add then .ok (.string (left ++ right)) else unsupported
  | _, _ => unsupported

end ScriptVm.Operator
