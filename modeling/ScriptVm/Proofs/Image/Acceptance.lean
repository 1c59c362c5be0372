import ScriptVm.Proofs.Image.Spelling

/-!
# Which containers are accepted

A byte string is accepted as the container of a module exactly when its header is in order, its
directory names tables inside it, and the tables begin with spellings of the parts of the module.
The reserved bytes of the header, bytes between tables and bytes after the last entry of a table do
not matter, and tables may overlap.
-/
namespace ScriptVm.Container

/-- The 32-bit word at a position. -/
def wordAt (order : ByteOrder) (bytes : List UInt8) (position : Nat) : Nat :=
  order.value ((bytes.drop position).take 4)

/-- The offset and the length that a directory gives for a table. -/
def extentAt (order : ByteOrder) (directory : List UInt8) (index : Nat) : Nat × Nat :=
  (wordAt order directory (8 * index), wordAt order directory (8 * index + 4))

/-- The offset and the length that a container gives for a table. -/
def extent (order : ByteOrder) (bytes : List UInt8) (index : Nat) : Nat × Nat :=
  extentAt order (bytes.drop (flagOffset + 1)) index

/-- The bytes of an extent. -/
def slice (bytes : List UInt8) (extent : Nat × Nat) : List UInt8 :=
  (bytes.drop extent.1).take extent.2

/-- The bytes of a table. -/
def table (order : ByteOrder) (bytes : List UInt8) (index : Nat) : List UInt8 :=
  slice bytes (extent order bytes index)

/-- An extent lies after the header and inside the whole. -/
def Inside (bytes : List UInt8) (extent : Nat × Nat) : Prop :=
  headerLength ≤ extent.1 ∧ extent.1 + extent.2 ≤ bytes.length

/-- It is decided where an extent lies. -/
instance (bytes : List UInt8) (extent : Nat × Nat) : Decidable (Inside bytes extent) :=
  inferInstanceAs (Decidable (_ ∧ _))

/-- Bytes begin with what is written for a value. -/
def BeginsWith {α : Type} (bytes : List UInt8) (format : Format α) (value : α) : Prop :=
  ∃ written, format.encode value = .ok written ∧ written <+: bytes

/-- Bytes begin with the count of functions and a spelling of each. -/
def BeginsWithFunctions (bytes : List UInt8) (order : ByteOrder)
    (functions : List FunctionImage) : Prop :=
  ∃ head tail, (Format.count order).encode functions.length = .ok head ∧
    Format.SpellsAll (Format.SpellsFunction order) functions tail ∧ head ++ tail <+: bytes

/-- A byte string is a container of a module in a byte order. -/
structure Contains (order : ByteOrder) (bytes : List UInt8) (image : Image) : Prop where
  /-- There is a whole header. -/
  long : headerLength ≤ bytes.length
  /-- It starts with the magic. -/
  magic : bytes.take 4 = magic
  /-- The version follows. -/
  version : bytes[4]? = some version
  /-- The flag stands for the byte order. -/
  flag : bytes[flagOffset]? = some (flag order)
  /-- Every table lies after the header and inside the whole. -/
  inside : ∀ index < 6, Inside bytes (extent order bytes index)
  /-- The first table begins with the dependencies. -/
  dependencies : BeginsWith (table order bytes 0) (Format.list order Format.text) image.dependencies
  /-- The second table begins with the object types. -/
  objects : BeginsWith (table order bytes 1) (Format.list order (Format.object order)) image.objects
  /-- The third table begins with the strings. -/
  strings : BeginsWith (table order bytes 2) (Format.list order Format.text) image.strings
  /-- The fourth table begins with the globals. -/
  globals : BeginsWith (table order bytes 3) (Format.list order Format.text) image.globals
  /-- The fifth table begins with the functions. -/
  functions : BeginsWithFunctions (table order bytes 4) order image.functions
  /-- The sixth table is the code. -/
  code : table order bytes 5 = image.code
  /-- The header ends with the length of the initializer. -/
  initLength : wordAt order bytes (headerLength - 4) = image.initLength.toNat
  /-- Handlers have a class exactly when they catch objects. -/
  classed : ∀ function ∈ image.functions, function.Classed
  /-- The module is sound. -/
  sound : image.check = .ok ()

variable {order : ByteOrder} {bytes : List UInt8} {image : Image}

/-- A value is read from a table that begins with a spelling of it. -/
theorem readTable_eq_ok_iff {α : Type} {format : Format α} {spells : α → List UInt8 → Prop}
    (reads : format.Reads spells) {value : α} {part : List UInt8} :
    readTable format part = .ok value ↔ ∃ front, spells value front ∧ front <+: part := by
  constructor
  · intro done
    obtain ⟨⟨found, rest⟩, decoded, last⟩ := Except.bind_eq_ok done
    obtain rfl := Except.ok.inj last
    obtain ⟨front, spelled, whole⟩ := (reads _ _ _).mp decoded
    exact ⟨front, spelled, rest, whole⟩
  · rintro ⟨front, spelled, rest, whole⟩
    have decoded := (reads part value rest).mpr ⟨front, spelled, whole⟩
    simp only [readTable, decoded, Bind.bind, Except.bind]
    rfl

/-- Exact values are read from a table that begins with what is written for them. -/
theorem readTable_exact {α : Type} {format : Format α} (exact : format.Exact fun _ => True)
    {value : α} {part : List UInt8} :
    readTable format part = .ok value ↔ BeginsWith part format value := by
  simp [readTable_eq_ok_iff exact, BeginsWith]

/-- Functions are read from a table that begins with spellings of them. -/
theorem readTable_functions {functions : List FunctionImage} {part : List UInt8} :
    readTable (Format.list order (Format.function order)) part = .ok functions ↔
      (∀ function ∈ functions, function.Classed) ∧ BeginsWithFunctions part order functions := by
  rw [readTable_eq_ok_iff ((Format.reads_function order).list order)]
  constructor
  · rintro ⟨_, ⟨head, tail, counted, spelled, rfl⟩, begins⟩
    obtain ⟨classed, spelled⟩ := Format.spellsAll_and.mp spelled
    exact ⟨classed, head, tail, counted, spelled, begins⟩
  · rintro ⟨classed, head, tail, counted, spelled, begins⟩
    exact ⟨_, ⟨head, tail, counted, Format.spellsAll_and.mpr ⟨classed, spelled⟩, rfl⟩, begins⟩

/-- A list of texts is exact. -/
theorem exact_texts (order : ByteOrder) :
    (Format.list order Format.text).Exact fun _ => True :=
  (Format.exact_text.list order).congr fun _ => by simp

/-- A list of object types is exact. -/
theorem exact_objects (order : ByteOrder) :
    (Format.list order (Format.object order)).Exact fun _ => True :=
  ((Format.exact_object order).list order).congr fun _ => by simp

/-- A word is read from enough bytes. -/
theorem decode_count (long : 4 ≤ bytes.length) :
    (Format.count order).decode bytes = .ok (wordAt order bytes 0, bytes.drop 4) := by
  simp only [Format.count, Format.take, if_neg (Nat.not_lt.mpr long), Bind.bind, Except.bind]
  rfl

/-- A directory entry is read from enough bytes. -/
theorem decode_entry (long : 8 ≤ bytes.length) :
    ((Format.count order).pair (Format.count order)).decode bytes =
      .ok (extentAt order bytes 0, bytes.drop 8) := by
  have first : (Format.count order).decode bytes = _ := decode_count (by omega)
  have second : (Format.count order).decode (bytes.drop 4) = _ :=
    decode_count (by rw [List.length_drop]; omega)
  simp only [Format.pair, first, second, Bind.bind, Except.bind, List.drop_drop]
  simp [extentAt, wordAt, pure, Except.pure]

/-- The entries after the first one are those of the rest. -/
theorem extentAt_succ (directory : List UInt8) (index : Nat) :
    extentAt order directory (index + 1) = extentAt order (directory.drop 8) index := by
  have first : 8 * (index + 1) = 8 + 8 * index := by omega
  simp only [extentAt, wordAt, List.drop_drop, first, Nat.add_assoc]

/-- The directory is read when all extents lie inside, and then the tables are their bytes. -/
theorem readDirectory_eq_ok_iff {whole directory rest : List UInt8} {count : Nat}
    {parts : List (List UInt8)} (long : 8 * count ≤ directory.length) :
    readDirectory order whole count directory = .ok (parts, rest) ↔
      (∀ index < count, Inside whole (extentAt order directory index)) ∧
        parts = (List.range count).map (fun index => slice whole (extentAt order directory index)) ∧
        rest = directory.drop (8 * count) := by
  induction count generalizing directory parts with
  | zero => simp [readDirectory, eq_comm]
  | succ count hypothesis =>
    have entry : ((Format.count order).pair (Format.count order)).decode directory = _ :=
      decode_entry (by omega)
    have more : 8 * count ≤ (directory.drop 8).length := by
      rw [List.length_drop]
      omega
    have extents : (∀ index < count + 1, Inside whole (extentAt order directory index)) ↔
        Inside whole (extentAt order directory 0) ∧
          ∀ index < count, Inside whole (extentAt order (directory.drop 8) index) := by
      rw [Nat.forall_lt_succ_left]
      simp only [extentAt_succ]
    have slices : (List.range (count + 1)).map
        (fun index => slice whole (extentAt order directory index)) =
        slice whole (extentAt order directory 0) :: (List.range count).map
          (fun index => slice whole (extentAt order (directory.drop 8) index)) := by
      rw [List.range_succ_eq_map, List.map_cons, List.map_map]
      simp only [Function.comp_def, Nat.succ_eq_add_one, extentAt_succ]
    have ends : directory.drop (8 * (count + 1)) = (directory.drop 8).drop (8 * count) := by
      rw [List.drop_drop, Nat.mul_succ, Nat.add_comm]
    rw [extents, slices, ends]
    constructor
    · intro done
      simp only [readDirectory, entry, Bind.bind, Except.bind] at done
      by_cases after : (extentAt order directory 0).1 < headerLength
      · simp [after, throw, throwThe, MonadExceptOf.throw] at done
      · by_cases beyond : whole.length <
          (extentAt order directory 0).1 + (extentAt order directory 0).2
        · simp [after, beyond, throw, throwThe, MonadExceptOf.throw] at done
        · simp only [after, beyond, if_false, pure, Except.pure] at done
          obtain ⟨⟨others, last⟩, later, done⟩ := Except.bind_eq_ok done
          obtain ⟨rfl, rfl⟩ := Prod.mk.inj (Except.ok.inj done)
          obtain ⟨inside, rfl, rfl⟩ := (hypothesis more).mp later
          exact ⟨⟨⟨Nat.not_lt.mp after, Nat.not_lt.mp beyond⟩, inside⟩, rfl, rfl⟩
    · rintro ⟨⟨⟨after, beyond⟩, later⟩, rfl, rfl⟩
      have others := (hypothesis more).mpr ⟨later, rfl, rfl⟩
      simp only [readDirectory, entry, Bind.bind, Except.bind, if_neg (Nat.not_lt.mpr after),
        if_neg (Nat.not_lt.mpr beyond), others, pure, Except.pure]
      rfl

/-- A flag gives the byte order that it stands for. -/
theorem orderOfFlag_eq_ok {byte : UInt8} : orderOfFlag byte = .ok order ↔ byte = flag order := by
  unfold orderOfFlag
  split
  · cases order <;> simp_all [flag]
  · split
    · cases order <;> simp_all [flag]
    · cases order <;> simp_all [flag]

/-- The byte at a position inside is found with any default. -/
theorem getElem?_eq_some_iff_getD {position : Nat} {byte : UInt8}
    (inside : position < bytes.length) :
    bytes[position]? = some byte ↔ bytes.getD position 0 = byte := by
  simp [List.getD_eq_getElem?_getD, List.getElem?_eq_getElem inside]

/-- A container that is read opens as one in some byte order. -/
theorem opens_of_read (done : read bytes = .ok image) :
    ∃ order, Opens order bytes (bytes.drop (flagOffset + 1)) := by
  by_cases short : bytes.length < headerLength
  · simp [read, short, throw, throwThe, MonadExceptOf.throw, Bind.bind, Except.bind] at done
  by_cases magical : bytes.take 4 = magic
  swap
  · simp [read, short, magical, throw, throwThe, MonadExceptOf.throw, Bind.bind,
      Except.bind] at done
  by_cases known : bytes.getD 4 0 = version
  swap
  · simp only [read, short, magical, known, ne_eq, not_true_eq_false, not_false_eq_true, if_true,
      if_false, throw, throwThe, MonadExceptOf.throw, Bind.bind, Except.bind, reduceCtorEq] at done
  simp only [read, short, magical, known, ne_eq, not_true_eq_false, if_false] at done
  obtain ⟨order, flagged, -⟩ := Except.bind_eq_ok done
  exact ⟨order, Nat.not_lt.mp short, magical, known, flagged, rfl⟩

/-- The header lies inside a container that opens. -/
theorem Opens.inside {rest : List UInt8} (starts : Opens order bytes rest) {position : Nat}
    (before : position < headerLength) : position < bytes.length :=
  Nat.lt_of_lt_of_le before starts.long

/-- The last word of the header is read as the length of the initializer. -/
theorem decode_initLength (long : 4 ≤ bytes.length) :
    (Format.word32 order).decode bytes =
      .ok (UInt32.ofNat (wordAt order bytes 0), bytes.drop 4) := by
  simp only [Format.word32, Format.take, if_neg (Nat.not_lt.mpr long), Bind.bind, Except.bind]
  rfl

/-- Words fit 32 bits. -/
theorem wordAt_lt (position : Nat) : wordAt order bytes position < 2 ^ 32 := by
  have below := order.value_lt ((bytes.drop position).take 4)
  have few : ((bytes.drop position).take 4).length ≤ 4 := List.length_take_le 4 _
  calc wordAt order bytes position
      < 256 ^ ((bytes.drop position).take 4).length := below
    _ ≤ 256 ^ 4 := Nat.pow_le_pow_right (by decide) few

/-- A container of a module opens in its byte order. -/
theorem Contains.opens (contains : Contains order bytes image) :
    Opens order bytes (bytes.drop (flagOffset + 1)) := by
  have inside : ∀ position < headerLength, position < bytes.length :=
    fun position before => Nat.lt_of_lt_of_le before contains.long
  have known := (getElem?_eq_some_iff_getD (inside 4 (by decide))).mp contains.version
  have flagged := (getElem?_eq_some_iff_getD (inside flagOffset (by decide))).mp contains.flag
  exact ⟨contains.long, contains.magic, known, orderOfFlag_eq_ok.mpr flagged, rfl⟩

/-- A container that opens in a byte order is read exactly when it is one of the module. -/
theorem read_eq_ok_iff_of_opens (starts : Opens order bytes (bytes.drop (flagOffset + 1))) :
    read bytes = .ok image ↔ Contains order bytes image := by
  have long := starts.long
  have entries : 8 * 6 ≤ (bytes.drop (flagOffset + 1)).length := by
    simp only [List.length_drop, flagOffset, headerLength] at long ⊢
    omega
  have last : 4 ≤ (bytes.drop 64).length := by
    simp only [List.length_drop, headerLength] at long ⊢
    omega
  have ends : (bytes.drop (flagOffset + 1)).drop (8 * 6) = bytes.drop 64 := List.drop_drop
  have whole : wordAt order (bytes.drop 64) 0 = wordAt order bytes (headerLength - 4) := by
    simp [wordAt, headerLength]
  constructor
  · intro done
    simp only [read, if_neg (Nat.not_lt.mpr long), starts.magic, starts.version, ne_eq,
      not_true_eq_false, if_false] at done
    obtain ⟨_, flagged, done⟩ := Except.bind_eq_ok done
    obtain rfl := Except.ok.inj (starts.flag.symm.trans flagged)
    obtain ⟨⟨parts, header⟩, listed, done⟩ := Except.bind_eq_ok done
    obtain ⟨inside, rfl, rfl⟩ := (readDirectory_eq_ok_iff entries).mp listed
    obtain ⟨⟨initLength, _⟩, word, done⟩ := Except.bind_eq_ok done
    rw [ends, decode_initLength last, whole] at word
    obtain ⟨rfl, -⟩ := Prod.mk.inj (Except.ok.inj word)
    obtain ⟨dependencies, first, done⟩ := Except.bind_eq_ok done
    obtain ⟨objects, second, done⟩ := Except.bind_eq_ok done
    obtain ⟨strings, third, done⟩ := Except.bind_eq_ok done
    obtain ⟨globals, fourth, done⟩ := Except.bind_eq_ok done
    obtain ⟨functions, fifth, done⟩ := Except.bind_eq_ok done
    obtain ⟨⟨⟩, sound, done⟩ := Except.bind_eq_ok done
    obtain rfl := Except.ok.inj done
    obtain ⟨classed, spelled⟩ := readTable_functions.mp fifth
    refine ⟨long, starts.magic, ?_, ?_, inside, (readTable_exact (exact_texts _)).mp first,
      (readTable_exact (exact_objects _)).mp second, (readTable_exact (exact_texts _)).mp third,
      (readTable_exact (exact_texts _)).mp fourth, spelled, rfl, ?_, classed, sound⟩
    · exact (getElem?_eq_some_iff_getD (starts.inside (by decide))).mpr starts.version
    · exact (getElem?_eq_some_iff_getD (starts.inside (by decide))).mpr
        (orderOfFlag_eq_ok.mp starts.flag)
    · rw [UInt32.toNat_ofNat', Nat.mod_eq_of_lt (wordAt_lt _)]
  · intro contains
    have listed : readDirectory order bytes 6 (bytes.drop (flagOffset + 1)) = _ :=
      (readDirectory_eq_ok_iff entries).mpr ⟨contains.inside, rfl, rfl⟩
    have word : (Format.word32 order).decode (bytes.drop 64) = _ := decode_initLength last
    rw [whole, contains.initLength, UInt32.ofNat_toNat] at word
    have first : readTable _ (table order bytes 0) = _ :=
      (readTable_exact (exact_texts _)).mpr contains.dependencies
    have second : readTable _ (table order bytes 1) = _ :=
      (readTable_exact (exact_objects _)).mpr contains.objects
    have third : readTable _ (table order bytes 2) = _ :=
      (readTable_exact (exact_texts _)).mpr contains.strings
    have fourth : readTable _ (table order bytes 3) = _ :=
      (readTable_exact (exact_texts _)).mpr contains.globals
    have fifth := readTable_functions.mpr ⟨contains.classed, contains.functions⟩
    have parts : (List.range 6).map (fun index => slice bytes
        (extentAt order (bytes.drop (flagOffset + 1)) index)) = [table order bytes 0,
          table order bytes 1, table order bytes 2, table order bytes 3, table order bytes 4,
          table order bytes 5] := rfl
    simp only [read, if_neg (Nat.not_lt.mpr long), starts.magic, starts.version, starts.flag,
      ne_eq, not_true_eq_false, if_false, listed, parts, ends, word, first, second, third, fourth,
      fifth, contains.code, contains.sound, Bind.bind, Except.bind, pure, Except.pure]

/-- A byte string is read as a module exactly when it is a container of it in some byte order. -/
theorem read_eq_ok_iff : read bytes = .ok image ↔ ∃ order, Contains order bytes image := by
  constructor
  · intro done
    obtain ⟨order, starts⟩ := opens_of_read done
    exact ⟨order, (read_eq_ok_iff_of_opens starts).mp done⟩
  · rintro ⟨order, contains⟩
    exact (read_eq_ok_iff_of_opens contains.opens).mpr contains

/-- A spelling of a function has as many bytes as the function takes. -/
theorem length_spellsFunction {function : FunctionImage} {front : List UInt8}
    (spelled : Format.SpellsFunction order function front) : front.length = function.size := by
  obtain ⟨written, encoded, flags, -, rfl⟩ := spelled
  rw [List.length_set, (Format.law_function order).length _ _ encoded]

/-- The spellings of functions have as many bytes as the functions take. -/
theorem length_spellsFunctions {functions : List FunctionImage} {front : List UInt8}
    (spelled : Format.SpellsAll (Format.SpellsFunction order) functions front) :
    front.length = (functions.map FunctionImage.size).sum := by
  induction functions generalizing front with
  | nil => simp [Format.spellsAll_nil.mp spelled]
  | cons function functions hypothesis =>
    obtain ⟨head, tail, first, others, rfl⟩ := Format.spellsAll_cons.mp spelled
    simp [length_spellsFunction first, hypothesis others]

/-- Two byte strings agree on a range. -/
def Agree (bytes other : List UInt8) (start length : Nat) : Prop :=
  ∀ position, start ≤ position → position < start + length → other[position]? = bytes[position]?

/-- Agreement on a range is decided byte by byte. -/
instance (bytes other : List UInt8) (start length : Nat) :
    Decidable (Agree bytes other start length) :=
  decidable_of_iff (∀ index < length, other[start + index]? = bytes[start + index]?) <| by
    constructor
    · intro same position low high
      have found := same (position - start) (by omega)
      rwa [Nat.add_sub_cancel' low] at found
    · intro agree index few
      exact agree (start + index) (by omega) (by omega)

/-- What agrees on a range agrees on its parts. -/
theorem Agree.part {other : List UInt8} {start length start' length' : Nat}
    (agree : Agree bytes other start length) (after : start ≤ start')
    (before : start' + length' ≤ start + length) : Agree bytes other start' length' := by
  intro position low high
  exact agree position (by omega) (by omega)

/-- The bytes of a range on which two byte strings agree. -/
theorem Agree.take_drop {other : List UInt8} {start length : Nat}
    (agree : Agree bytes other start length) :
    (other.drop start).take length = (bytes.drop start).take length := by
  apply List.ext_getElem?
  intro index
  by_cases inside : index < length
  · simp only [List.getElem?_take, if_pos inside, List.getElem?_drop]
    exact agree (start + index) (by omega) (by omega)
  · simp only [List.getElem?_take, if_neg inside]

/-- A table begins with the same bytes when these are the same. -/
theorem Agree.slice_begins {other front : List UInt8} {extent : Nat × Nat}
    (agree : Agree bytes other extent.1 front.length) (begins : front <+: slice bytes extent) :
    front <+: slice other extent := by
  obtain ⟨begins, few⟩ := List.prefix_take_iff.mp begins
  refine List.prefix_take_iff.mpr ⟨?_, few⟩
  rw [List.prefix_iff_eq_take, agree.take_drop]
  exact List.prefix_iff_eq_take.mp begins

/-- The same words stand where two byte strings agree. -/
theorem Agree.wordAt {other : List UInt8} {position : Nat} (agree : Agree bytes other position 4) :
    wordAt order other position = wordAt order bytes position := by
  rw [Container.wordAt, Container.wordAt, agree.take_drop]

/-- The words of the directory are words of the container. -/
theorem extent_eq (index : Nat) :
    extent order bytes index = (wordAt order bytes (flagOffset + 1 + 8 * index),
      wordAt order bytes (flagOffset + 1 + 8 * index + 4)) := by
  simp [extent, extentAt, wordAt, List.drop_drop, Nat.add_assoc]

/-- Another byte string agrees with a container of a module on all that is read: the magic and the
version, the header from the flag on, and as many bytes of each table as its part of the module
takes. It is long enough for the tables. -/
structure Resembles (order : ByteOrder) (bytes other : List UInt8) (image : Image) : Prop where
  /-- The magic and the version are the same. -/
  opening : Agree bytes other 0 5
  /-- The flag, the directory and the length of the initializer are the same. -/
  header : Agree bytes other flagOffset (headerLength - flagOffset)
  /-- What is read from each table is the same. -/
  tables : ∀ index < 6,
    Agree bytes other (extent order bytes index).1 (image.tableLengths.getD index 0)
  /-- Every table still lies inside. -/
  inside : ∀ index < 6, Inside other (extent order bytes index)

/-- The directory of what resembles a container names the same extents. -/
theorem Resembles.extent {other : List UInt8} (resembles : Resembles order bytes other image)
    {index : Nat} (few : index < 6) : extent order other index = extent order bytes index := by
  have offset : Agree bytes other (flagOffset + 1 + 8 * index) 4 :=
    resembles.header.part (by omega) (by simp only [flagOffset, headerLength]; omega)
  have length : Agree bytes other (flagOffset + 1 + 8 * index + 4) 4 :=
    resembles.header.part (by omega) (by simp only [flagOffset, headerLength]; omega)
  rw [extent_eq, extent_eq, offset.wordAt, length.wordAt]

/-- A table of what resembles a container begins with the same bytes. -/
theorem Resembles.begins {other front : List UInt8} (resembles : Resembles order bytes other image)
    {index : Nat} (few : index < 6) (length : front.length = image.tableLengths.getD index 0)
    (begins : front <+: table order bytes index) : front <+: table order other index := by
  rw [table, resembles.extent few]
  apply Agree.slice_begins _ begins
  rw [length]
  exact resembles.tables index few

/-- A table of what resembles a container begins with the same value. -/
theorem Resembles.beginsWith {other : List UInt8} (resembles : Resembles order bytes other image)
    {α : Type} {format : Format α} {contents : α → Contents} {size : α → Nat} {stored : α → α}
    (law : format.Law contents size stored) {value : α} {index : Nat} (few : index < 6)
    (length : size value = image.tableLengths.getD index 0)
    (begins : BeginsWith (table order bytes index) format value) :
    BeginsWith (table order other index) format value := by
  obtain ⟨written, encoded, begins⟩ := begins
  have same := (law.length _ _ encoded).trans length
  exact ⟨written, encoded, resembles.begins few same begins⟩

/-- What resembles a container of a module is one. -/
theorem Contains.resembles {other : List UInt8} (contains : Contains order bytes image)
    (resembles : Resembles order bytes other image) : Contains order other image := by
  have texts := Format.law_text.list order
  constructor
  case long =>
    obtain ⟨after, before⟩ := resembles.inside 0 (by decide)
    omega
  case magic =>
    have same : Agree bytes other 0 4 := resembles.opening.part (by decide) (by decide)
    have front := same.take_drop
    rwa [List.drop_zero, List.drop_zero, contains.magic] at front
  case version => rw [resembles.opening 4 (by decide) (by decide), contains.version]
  case flag => rw [resembles.header flagOffset (by decide) (by decide), contains.flag]
  case inside =>
    intro index few
    rw [resembles.extent few]
    exact resembles.inside index few
  case dependencies => exact resembles.beginsWith texts (by decide) rfl contains.dependencies
  case objects =>
    exact resembles.beginsWith ((Format.law_object order).list order) (by decide) rfl
      contains.objects
  case strings => exact resembles.beginsWith texts (by decide) rfl contains.strings
  case globals => exact resembles.beginsWith texts (by decide) rfl contains.globals
  case functions =>
    obtain ⟨head, tail, counted, spelled, begins⟩ := contains.functions
    refine ⟨head, tail, counted, spelled, resembles.begins (by decide) ?_ begins⟩
    rw [List.length_append, (Format.law_count order).length _ _ counted,
      length_spellsFunctions spelled]
    rfl
  case code =>
    have covered : (table order bytes 5).length = (extent order bytes 5).2 := by
      obtain ⟨-, before⟩ := contains.inside 5 (by decide)
      rw [table, slice, List.length_take, List.length_drop]
      omega
    rw [contains.code] at covered
    have same : Agree bytes other (extent order bytes 5).1 (extent order bytes 5).2 := by
      rw [← covered]
      exact resembles.tables 5 (by decide)
    rw [table, resembles.extent (by decide), slice, same.take_drop]
    exact contains.code
  case initLength =>
    have same : Agree bytes other (headerLength - 4) 4 :=
      resembles.header.part (by decide) (by decide)
    rw [same.wordAt, contains.initLength]
  case classed => exact contains.classed
  case sound => exact contains.sound

/-- A byte string is read as a module exactly when it is a container of it in some byte order, and
then so is any other that agrees with it on what is read. -/
theorem read_accepts (bytes : List UInt8) (image : Image) :
    (read bytes = .ok image ↔ ∃ order, Contains order bytes image) ∧
      ∀ order other, Contains order bytes image → Resembles order bytes other image →
        read other = .ok image :=
  ⟨read_eq_ok_iff, fun order _ contains resembles =>
    read_eq_ok_iff.mpr ⟨order, contains.resembles resembles⟩⟩

/-- A container of a module with one native function. Its other tables overlap, and its reserved
bytes, a gap before the function and the bytes after it are the filler. -/
def crowded (filler : UInt8) : List UInt8 :=
  magic ++ [version] ++ List.replicate 10 filler ++ [flag .little] ++
    [68, 0, 0, 0, 4, 0, 0, 0, 68, 0, 0, 0, 4, 0, 0, 0, 68, 0, 0, 0, 4, 0, 0, 0,
      68, 0, 0, 0, 4, 0, 0, 0, 75, 0, 0, 0, 30, 0, 0, 0, 68, 0, 0, 0, 4, 0, 0, 0] ++
    [0, 0, 0, 0] ++ [0, 0, 0, 0] ++ List.replicate 3 filler ++
    [1, 0, 0, 0] ++ [102, 0] ++ [255] ++ List.replicate 20 0 ++ List.replicate 3 filler

/-- The module with one native function. -/
def crowdedImage : Image :=
  { functions := [⟨"f", true, 0, 0, 0, 0, [], []⟩], code := [0, 0, 0, 0] }

/-- The filler of a crowded container does not matter. -/
theorem read_accepts_crowded :
    Contains .little (crowded 0) crowdedImage ∧ read (crowded 255) = .ok crowdedImage := by
  have accepts := read_accepts (crowded 0) crowdedImage
  have contains : Contains .little (crowded 0) crowdedImage := by
    obtain ⟨order, contains⟩ := accepts.1.mp rfl
    cases order with
    | little => exact contains
    | big => exact absurd contains.flag (by decide)
  refine ⟨contains, accepts.2 .little (crowded 255) contains ?_⟩
  exact ⟨by decide, by decide, by decide, by decide⟩

end ScriptVm.Container
