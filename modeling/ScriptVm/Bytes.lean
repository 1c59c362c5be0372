/-!
# Words as bytes

Natural numbers as a fixed count of bytes, in either byte order.
-/
namespace ScriptVm

/-- The order of the bytes of a word. -/
inductive ByteOrder where
  | little
  | big
  deriving DecidableEq, Repr, Inhabited

/-- The low bytes of a number, least significant first. -/
def littleBytes : Nat → Nat → List UInt8
  | 0, _ => []
  | count + 1, value => UInt8.ofNat value :: littleBytes count (value / 256)

/-- The number written by bytes, least significant first. -/
def littleValue : List UInt8 → Nat
  | [] => 0
  | byte :: rest => byte.toNat + 256 * littleValue rest

namespace ByteOrder

/-- The low bytes of a number in a byte order. -/
def bytes (order : ByteOrder) (count value : Nat) : List UInt8 :=
  match order with
  | .little => littleBytes count value
  | .big => (littleBytes count value).reverse

/-- The number written by bytes in a byte order. -/
def value (order : ByteOrder) (bytes : List UInt8) : Nat :=
  match order with
  | .little => littleValue bytes
  | .big => littleValue bytes.reverse

end ByteOrder

end ScriptVm
