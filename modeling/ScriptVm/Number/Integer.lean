/-!
# Machine integers

The eight integer kinds of the machine, and integers of each kind. An integer is a bit pattern of
its kind's width; it is read as a signed or an unsigned number, and every integer result is
reduced modulo the power of two of the width.
-/
namespace ScriptVm

/-- The storage widths of integers. -/
inductive Width where
  | w8
  | w16
  | w32
  | w64
  deriving DecidableEq, Repr, Inhabited

/-- Bytes that a width occupies. -/
def Width.bytes : Width → Nat
  | .w8 => 1
  | .w16 => 2
  | .w32 => 4
  | .w64 => 8

/-- Bits that a width occupies. -/
def Width.bits (width : Width) : Nat := 8 * width.bytes

/-- A kind of integer: a width and whether its patterns are read with a sign. -/
structure IntegerKind where
  /-- Whether the highest bit counts negatively. -/
  signed : Bool
  /-- Storage width. -/
  width : Width
  deriving DecidableEq, Repr, Inhabited

namespace IntegerKind

/-- Bits of an integer of this kind. -/
def bits (kind : IntegerKind) : Nat := kind.width.bits

/-- The least number of a kind. -/
def least (kind : IntegerKind) : Int :=
  if kind.signed then -(Nat.pow 2 (kind.bits - 1)) else 0

/-- The greatest number of a kind. -/
def greatest (kind : IntegerKind) : Int :=
  if kind.signed then (Nat.pow 2 (kind.bits - 1) : Int) - 1 else (Nat.pow 2 kind.bits : Int) - 1

/-- A number is in the range of a kind. -/
def Holds (kind : IntegerKind) (value : Int) : Prop :=
  kind.least ≤ value ∧ value ≤ kind.greatest

instance (kind : IntegerKind) (value : Int) : Decidable (kind.Holds value) :=
  inferInstanceAs (Decidable (_ ∧ _))

/-- The number of a kind that is nearest to a number. -/
def clamp (kind : IntegerKind) (value : Int) : Int :=
  max kind.least (min kind.greatest value)

/-- The integer kinds, signed ones first, each by increasing width. -/
def all : List IntegerKind :=
  [⟨true, .w8⟩, ⟨true, .w16⟩, ⟨true, .w32⟩, ⟨true, .w64⟩,
    ⟨false, .w8⟩, ⟨false, .w16⟩, ⟨false, .w32⟩, ⟨false, .w64⟩]

end IntegerKind

/-- An integer of a kind, as its bit pattern. -/
structure Integer (kind : IntegerKind) where
  /-- The stored pattern. -/
  bits : BitVec kind.bits
  deriving DecidableEq, Repr, Inhabited

namespace Integer

variable {kind : IntegerKind}

/-- The number that a pattern stands for. -/
def toInt (value : Integer kind) : Int :=
  if kind.signed then value.bits.toInt else value.bits.toNat

/-- The integer of a kind congruent to a number modulo the power of two of its width. -/
def ofInt (kind : IntegerKind) (value : Int) : Integer kind :=
  ⟨BitVec.ofInt kind.bits value⟩

end Integer

end ScriptVm
