import ScriptVm.Arithmetic
import ScriptVm.Conversion
import ScriptVm.Heap.Basic

/-!
# Plain values

A plain value refers to nothing else on the heap and is no function. Operators and casts have plain
results only.
-/
namespace ScriptVm

namespace Value

/-- A value without references that is no function. -/
def Plain : Value → Prop
  | .array _ | .object _ | .function _ => False
  | _ => True

variable {value : Value}

/-- A plain value has no children. -/
theorem Plain.children (plain : value.Plain) : (Cell.value value).children = [] := by
  cases value <;> first | rfl | exact plain.elim

/-- A plain value is no function. -/
theorem Plain.ne_function (plain : value.Plain) (function : Function) :
    value ≠ .function function := by
  rintro rfl
  exact plain

/-- A value made from a computed result is plain when every such value is. -/
theorem plain_of_map {α : Type} {make : α → Value} {computation : Except Fault α} {result : Value}
    (computed : make <$> computation = .ok result) (plain : ∀ content, (make content).Plain) :
    result.Plain := by
  cases computation with
  | error fault => simp [Functor.map, Except.map] at computed
  | ok content =>
    obtain rfl : make content = result := by simpa [Functor.map, Except.map] using computed
    exact plain content

/-- The result of a cast is plain. -/
theorem convert_plain {target : Kind} {result : Value}
    (converted : value.convert target = .ok result) : result.Plain := by
  unfold convert at converted
  split at converted
  · exact plain_of_map converted fun _ => trivial
  · exact plain_of_map converted fun _ => trivial
  · exact plain_of_map converted fun _ => trivial
  · obtain rfl := Except.ok.inj converted
    trivial
  · simp at converted

end Value

/-- The result of an operator is plain. -/
theorem Operator.apply_plain {operator : Operator} {left right result : Value}
    (computed : operator.apply left right = .ok result) : result.Plain := by
  unfold Operator.apply at computed
  split at computed
  · exact Value.plain_of_map computed fun _ => trivial
  · split at computed
    · exact Value.plain_of_map computed fun _ => trivial
    · simp at computed
  · exact Value.plain_of_map computed fun _ => trivial
  · exact Value.plain_of_map computed fun _ => trivial
  · split at computed
    · obtain rfl := Except.ok.inj computed
      trivial
    · simp at computed
  · simp at computed

end ScriptVm
