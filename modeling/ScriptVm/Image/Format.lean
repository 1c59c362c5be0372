import ScriptVm.Bytes
import ScriptVm.Error
import ScriptVm.Kind

/-!
# Formats of table entries

A format writes a value as bytes, which it may refuse, and reads a value back from the front of a
byte list, returning the bytes after it. The formats of the parts of a module are built from a few
basic ones, so that the writer and the reader of each part stand side by side.
-/
namespace ScriptVm

/-- A writer and a prefix reader of one type. -/
structure Format (α : Type) where
  /-- The bytes of a value. -/
  encode : α → Except Flaw (List UInt8)
  /-- One value from the front, and the bytes after it. -/
  decode : List UInt8 → Except Flaw (α × List UInt8)

namespace Format

variable {α β : Type}

/-- Two values in order. -/
def pair (left : Format α) (right : Format β) : Format (α × β) where
  encode value := do return (← left.encode value.1) ++ (← right.encode value.2)
  decode bytes := do
    let (first, rest) ← left.decode bytes
    let (second, rest) ← right.decode rest
    return ((first, second), rest)

/-- Another form of the same values. -/
def map (format : Format α) (pack : α → β) (unpack : β → α) : Format β where
  encode value := format.encode (unpack value)
  decode bytes := do
    let (value, rest) ← format.decode bytes
    return (pack value, rest)

/-- The given count of bytes from the front. -/
def take (count : Nat) (bytes : List UInt8) : Except Flaw (List UInt8 × List UInt8) :=
  if bytes.length < count then .error .endOfTable else .ok (bytes.take count, bytes.drop count)

/-- One byte. -/
def byte : Format UInt8 where
  encode value := .ok [value]
  decode
    | [] => .error .endOfTable
    | first :: rest => .ok (first, rest)

/-- A 16-bit word. -/
def word16 (order : ByteOrder) : Format UInt16 where
  encode value := .ok (order.bytes 2 value.toNat)
  decode bytes := do
    let (word, rest) ← take 2 bytes
    return (UInt16.ofNat (order.value word), rest)

/-- A 32-bit word. -/
def word32 (order : ByteOrder) : Format UInt32 where
  encode value := .ok (order.bytes 4 value.toNat)
  decode bytes := do
    let (word, rest) ← take 4 bytes
    return (UInt32.ofNat (order.value word), rest)

/-- A count or an offset, as a 32-bit word. -/
def count (order : ByteOrder) : Format Nat where
  encode value := if value < UInt32.size then .ok (order.bytes 4 value) else .error .tableTooLarge
  decode bytes := do
    let (word, rest) ← take 4 bytes
    return (order.value word, rest)

/-- A kind, as its byte. -/
def kind : Format Kind where
  encode value := .ok [value.toByte]
  decode
    | [] => .error .endOfTable
    | first :: rest =>
      match Kind.ofByte? first with
      | some kind => .ok (kind, rest)
      | none => .error (.badKind first)

/-- A text, as its encoded bytes before a zero byte. -/
def text : Format String where
  encode value :=
    let bytes := value.toUTF8.data.toList
    if bytes.contains 0 then .error .nullByteInString else .ok (bytes ++ [0])
  decode bytes :=
    let content := bytes.takeWhile (· ≠ 0)
    match bytes.dropWhile (· ≠ 0) with
    | [] => .error .unterminatedString
    | _ :: rest =>
      match String.fromUTF8? ⟨content.toArray⟩ with
      | some value => .ok (value, rest)
      | none => .error .invalidText

/-- The bytes of values in order. -/
def encodeAll (format : Format α) : List α → Except Flaw (List UInt8)
  | [] => .ok []
  | value :: rest => do return (← format.encode value) ++ (← encodeAll format rest)

/-- A fixed count of values after those already read. -/
def decodeInto (format : Format α) :
    Nat → List UInt8 → List α → Except Flaw (List α × List UInt8)
  | 0, bytes, reversed => .ok (reversed.reverse, bytes)
  | count + 1, bytes, reversed => do
    let (value, rest) ← format.decode bytes
    decodeInto format count rest (value :: reversed)

/-- A list of values: their count, then the values. -/
def list (order : ByteOrder) (format : Format α) : Format (List α) where
  encode values := do return (← (count order).encode values.length) ++ (← format.encodeAll values)
  decode bytes := do
    let (length, rest) ← (count order).decode bytes
    format.decodeInto length rest []

end Format

end ScriptVm
