import ScriptVm.Error
import ScriptVm.Heap.Handle
import ScriptVm.Kind

/-!
# Script objects

A schema gives an object type its name and its members, each with the kind of the values it holds.
An object has one reference for each member of its schema.
-/
namespace ScriptVm

/-- An object type. -/
structure Schema where
  /-- Name of the type. -/
  typeName : String
  /-- Names and kinds of the members in binding order. -/
  members : List (String × Kind)
  deriving DecidableEq, Repr, Inhabited

/-- Where a member is bound, and which kind of values it holds. -/
structure Member where
  /-- Position among the members. -/
  index : Nat
  /-- Kind of its values. -/
  kind : Kind
  deriving DecidableEq, Repr, Inhabited

namespace Schema

/-- A schema with distinct member names. -/
def create (typeName : String) (members : List (String × Kind)) : Except Error Schema :=
  if (members.map Prod.fst).Nodup then .ok ⟨typeName, members⟩ else .error .keyAlreadyExists

/-- The member with a name. -/
def member (schema : Schema) (name : String) : Except Error Member :=
  match schema.members.findIdx? (·.1 = name), schema.members.lookup name with
  | some index, some kind => .ok ⟨index, kind⟩
  | _, _ => .error .keyDoesNotExist

end Schema

/-- A script object. -/
structure Object where
  /-- Its type. -/
  schema : Schema
  /-- The references that its members hold, in binding order. -/
  members : Array Ref
  deriving DecidableEq, Repr, Inhabited

namespace Object

/-- An object of a type with every member null. -/
def blank (schema : Schema) : Object :=
  ⟨schema, Array.replicate schema.members.length Ref.null⟩

/-- The reference at a position. -/
def get (object : Object) (index : Nat) : Except Error Ref :=
  Error.indexOutOfRange.orElse object.members[index]?

/-- Puts a reference at a position. -/
def set (object : Object) (index : Nat) (value : Ref) : Except Error Object :=
  if index < object.members.size then
    .ok { object with members := object.members.setIfInBounds index value }
  else .error .indexOutOfRange

/-- Two objects are of one type. -/
def sharesSchema (left right : Object) : Bool := left.schema = right.schema

end Object

end ScriptVm
