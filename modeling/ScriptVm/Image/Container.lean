import ScriptVm.Image.Basic
import ScriptVm.Image.Format

/-!
# The module container

A compiled module in one byte string: a header, which ends with a directory of six tables, and the
tables. The header is the magic, a version, ten reserved bytes, a flag for the byte order, the
offset and the length of each table, and the length of the initializer. Words are in the order that
the flag gives; bytecode is copied as it is.
-/
namespace ScriptVm

namespace Format

/-- A member of an object type. -/
def member : Format MemberImage :=
  (text.pair kind).map (fun (name, kind) => ⟨name, kind⟩) fun member => (member.name, member.kind)

/-- An object type. -/
def object (order : ByteOrder) : Format ObjectImage :=
  (text.pair (list order member)).map (fun (typeName, members) => ⟨typeName, members⟩)
    fun object => (object.typeName, object.members)

/-- A handler: its kind and offset, then the class of an object handler. -/
def handler (order : ByteOrder) : Format HandlerImage where
  encode handler := do
    let head ← (kind.pair (word32 order)).encode (handler.kind, handler.offset)
    if handler.kind = .object then
      match handler.className with
      | some className => return head ++ (← text.encode className)
      | none => throw .handlerWithoutClass
    else return head
  decode bytes := do
    let ((kind, offset), rest) ← (kind.pair (word32 order)).decode bytes
    if kind = .object then
      let (className, rest) ← text.decode rest
      return (⟨kind, some className, offset⟩, rest)
    else return (⟨kind, none, offset⟩, rest)

/-- A guarded range. -/
def block (order : ByteOrder) : Format BlockImage :=
  ((word32 order).pair ((word32 order).pair (list order (handler order)))).map
    (fun (start, length, handlers) => ⟨start, length, handlers⟩)
    fun block => (block.start, block.length, block.handlers)

/-- The flags of a function, of which the lowest says that it is native. -/
def flags : Format Bool :=
  byte.map (fun flags => flags.toNat % 2 = 1) fun native => if native then 1 else 0

/-- A function. -/
def function (order : ByteOrder) : Format FunctionImage :=
  (text.pair (flags.pair ((word16 order).pair ((word16 order).pair ((word32 order).pair
    ((word32 order).pair ((list order text).pair (list order (block order))))))))).map
    (fun (signature, native, parameters, returns, start, length, locals, blocks) =>
      ⟨signature, native, parameters, returns, start, length, locals, blocks⟩)
    fun function =>
      (function.signature, function.native, function.parameters, function.returns, function.start,
        function.length, function.locals, function.blocks)

end Format

namespace Container

/-- The letters that open a container. -/
def magic : List UInt8 := [0x53, 0x41, 0x4c, 0x4d]

/-- The version of the format. -/
def version : UInt8 := 1

/-- Bytes of the header; no table starts before its end. -/
def headerLength : Nat := 68

/-- Where the flag for the byte order stands. -/
def flagOffset : Nat := 15

/-- The byte that stands for a byte order. -/
def flag : ByteOrder → UInt8
  | .little => 0
  | .big => 1

/-- The six tables of a module in their order. -/
def tables (order : ByteOrder) (image : Image) : Except Flaw (List (List UInt8)) := do
  let dependencies ← (Format.list order Format.text).encode image.dependencies
  let objects ← (Format.list order (Format.object order)).encode image.objects
  let strings ← (Format.list order Format.text).encode image.strings
  let globals ← (Format.list order Format.text).encode image.globals
  let functions ← (Format.list order (Format.function order)).encode image.functions
  return [dependencies, objects, strings, globals, functions, image.code]

/-- The directory of tables that follow each other from an offset. -/
def directory (order : ByteOrder) : Nat → List (List UInt8) → Except Flaw (List UInt8)
  | _, [] => .ok []
  | offset, table :: rest => do
    let entry ← ((Format.count order).pair (Format.count order)).encode (offset, table.length)
    return entry ++ (← directory order (offset + table.length) rest)

/-- The container of a checked module. -/
def write (order : ByteOrder) (image : Image) : Except Flaw (List UInt8) := do
  image.check
  let tables ← tables order image
  let directory ← directory order headerLength tables
  return magic ++ [version] ++ List.replicate 10 0 ++ [flag order] ++ directory ++
    order.bytes 4 image.initLength.toNat ++ tables.flatten

/-- The byte order that a flag stands for. -/
def orderOfFlag (byte : UInt8) : Except Flaw ByteOrder :=
  if byte = 0 then .ok .little else if byte = 1 then .ok .big else .error (.badOrderFlag byte)

/-- The tables named by the given count of directory entries, and the header bytes after them. An
entry has to lie after the header and inside the whole. -/
def readDirectory (order : ByteOrder) (whole : List UInt8) :
    Nat → List UInt8 → Except Flaw (List (List UInt8) × List UInt8)
  | 0, header => .ok ([], header)
  | entries + 1, header => do
    let ((offset, length), header) ←
      ((Format.count order).pair (Format.count order)).decode header
    if offset < headerLength then throw .tableOverlapsHeader
    if whole.length < offset + length then throw .tableExceedsBuffer
    let (tables, header) ← readDirectory order whole entries header
    return ((whole.drop offset).take length :: tables, header)

/-- The value at the front of a table. -/
def readTable {α : Type} (format : Format α) (table : List UInt8) : Except Flaw α := do
  let (value, _) ← format.decode table
  return value

/-- The checked module in a container. -/
def read (bytes : List UInt8) : Except Flaw Image := do
  if bytes.length < headerLength then throw .tooShort
  if bytes.take 4 ≠ magic then throw .badMagic
  let found := bytes.getD 4 0
  if found ≠ version then throw (.unsupportedVersion found)
  let order ← orderOfFlag (bytes.getD flagOffset 0)
  let (tables, header) ← readDirectory order bytes 6 (bytes.drop (flagOffset + 1))
  let (initLength, _) ← (Format.word32 order).decode header
  match tables with
  | [dependencies, objects, strings, globals, functions, code] =>
    let image : Image := {
      dependencies := ← readTable (Format.list order Format.text) dependencies
      objects := ← readTable (Format.list order (Format.object order)) objects
      strings := ← readTable (Format.list order Format.text) strings
      globals := ← readTable (Format.list order Format.text) globals
      functions := ← readTable (Format.list order (Format.function order)) functions
      code
      initLength }
    image.check
    return image
  | _ => throw .tooShort

end Container

end ScriptVm
