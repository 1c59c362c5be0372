import ScriptVm.Literal
import ScriptVm.Machine.Values

/-!
# Pictures of values

A picture shows a value together with the values inside it. Values may contain themselves, so a
picture has a limited number of levels, and of a long array it shows the first elements.
-/
namespace ScriptVm

/-- A value as it is shown. -/
inductive Picture where
  /-- The value has been disposed of. -/
  | stale
  /-- An array or an object that is too deep inside to be shown. -/
  | elided
  | scalar (kind : Kind) (text : Option String)
  | array (length : Nat) (items : List Picture)
  | object (typeName : String) (members : List (String × Picture))
  deriving Repr, Inhabited

namespace Machine

/-- Levels of values inside values that a picture shows. -/
def pictureLevels : Nat := 5

/-- Elements of an array that a picture shows. -/
def pictureItems : Nat := 16

/-- The names of the members of an object type. -/
def memberNames (machine : Machine) (typeName : String) : List String :=
  match machine.schema typeName with
  | .ok schema => schema.members.map Prod.fst
  | .error _ => []

/-- The value behind a reference with a number of levels of values inside it. -/
def pictureWithin (machine : Machine) : Nat → Ref → Picture
  | 0, reference =>
    match machine.heap.value? reference with
    | none => .stale
    | some (.array _) | some (.object _) => .elided
    | some value => .scalar value.kind value.literalText?
  | levels + 1, reference =>
    match machine.heap.value? reference with
    | none => .stale
    | some (.array items) =>
      .array items.size ((items.toList.take pictureItems).map (machine.pictureWithin levels))
    | some (.object inner) =>
      match machine.heap.object? inner with
      | none => .stale
      | some object =>
        let typeName := object.schema.typeName
        .object typeName ((machine.memberNames typeName).map fun name =>
          (name, match machine.member reference name with
            | .ok value => machine.pictureWithin levels value
            | .error _ => .stale))
    | some value => .scalar value.kind value.literalText?

/-- The value behind a reference. -/
def picture (machine : Machine) (reference : Ref) : Picture :=
  machine.pictureWithin pictureLevels reference

end Machine

end ScriptVm
