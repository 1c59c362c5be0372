import ScriptVm.Proofs.Image.Format

/-!
# What a container stores

The container of a module is written exactly when the module is sound, its contents fit and the
extents of its tables fit. What is read from it is the module, less the classes of the handlers that
do not catch objects.
-/
namespace ScriptVm

namespace MemberImage

/-- What a member is made of. -/
def contents (member : MemberImage) : Contents := .ofText member.name

/-- Bytes of a member. -/
def size (member : MemberImage) : Nat := Format.textSize member.name + 1

end MemberImage

namespace ObjectImage

/-- What an object type is made of. -/
def contents (object : ObjectImage) : Contents :=
  .ofText object.typeName ++ .ofList MemberImage.contents object.members

/-- Bytes of an object type. -/
def size (object : ObjectImage) : Nat :=
  Format.textSize object.typeName + Format.listSize MemberImage.size object.members

end ObjectImage

namespace HandlerImage

/-- The class of an object handler. -/
def storedClass (handler : HandlerImage) : Option String :=
  if handler.kind = .object then handler.className else none

/-- A handler without the class that it does not use. -/
def erased (handler : HandlerImage) : HandlerImage :=
  { handler with className := handler.storedClass }

/-- What a handler is made of. -/
def contents (handler : HandlerImage) : Contents :=
  { texts := handler.storedClass.toList, handlers := [handler] }

/-- Bytes of a handler. -/
def size (handler : HandlerImage) : Nat := 5 + handler.storedClass.elim 0 Format.textSize

end HandlerImage

namespace BlockImage

/-- A guarded range without the classes that its handlers do not use. -/
def erased (block : BlockImage) : BlockImage :=
  { block with handlers := block.handlers.map HandlerImage.erased }

/-- What a guarded range is made of. -/
def contents (block : BlockImage) : Contents := .ofList HandlerImage.contents block.handlers

/-- Bytes of a guarded range. -/
def size (block : BlockImage) : Nat := 8 + Format.listSize HandlerImage.size block.handlers

end BlockImage

namespace FunctionImage

/-- A function without the classes that its handlers do not use. -/
def erased (function : FunctionImage) : FunctionImage :=
  { function with blocks := function.blocks.map BlockImage.erased }

/-- What a function is made of. -/
def contents (function : FunctionImage) : Contents :=
  .ofText function.signature ++
    (.ofList .ofText function.locals ++ .ofList BlockImage.contents function.blocks)

/-- Bytes of a function. -/
def size (function : FunctionImage) : Nat :=
  Format.textSize function.signature + 13 + Format.listSize Format.textSize function.locals +
    Format.listSize BlockImage.size function.blocks

end FunctionImage

namespace Image

/-- A module without the classes that its handlers do not use. -/
def erased (image : Image) : Image :=
  { image with functions := image.functions.map FunctionImage.erased }

/-- What a module is made of. -/
def contents (image : Image) : Contents :=
  .ofList .ofText image.dependencies ++ (.ofList ObjectImage.contents image.objects ++
    (.ofList .ofText image.strings ++ (.ofList .ofText image.globals ++
      .ofList FunctionImage.contents image.functions)))

/-- Bytes of each table of a module. -/
def tableLengths (image : Image) : List Nat :=
  [Format.listSize Format.textSize image.dependencies,
    Format.listSize ObjectImage.size image.objects,
    Format.listSize Format.textSize image.strings,
    Format.listSize Format.textSize image.globals,
    Format.listSize FunctionImage.size image.functions,
    image.code.length]

end Image

namespace Format

variable (order : ByteOrder)

/-- The format of members is lawful. -/
theorem law_member : member.Law MemberImage.contents MemberImage.size id :=
  (law_text.pair law_kind).map _ _

/-- The format of object types is lawful. -/
theorem law_object : (object order).Law ObjectImage.contents ObjectImage.size id :=
  ((law_text.pair (law_member.list order)).map _ _).congr (fun _ => Iff.rfl) (fun _ => rfl)
    fun value => by simp

/-- A handler is written as its kind and offset, and a handler of objects with its class. -/
theorem encode_handler {value : HandlerImage} {bytes : List UInt8} :
    (handler order).encode value = .ok bytes ↔
      (value.kind = .object ∧ ∃ className, value.className = some className ∧
        ((kind.pair (word32 order)).pair text).encode ((value.kind, value.offset), className) =
          .ok bytes) ∨
      (value.kind ≠ .object ∧
        (kind.pair (word32 order)).encode (value.kind, value.offset) = .ok bytes) := by
  obtain ⟨found, className, offset⟩ := value
  obtain ⟨head, begins⟩ : ∃ head, (kind.pair (word32 order)).encode (found, offset) = .ok head :=
    ⟨_, rfl⟩
  by_cases catches : found = .object
  · subst catches
    cases className with
    | none => simp [handler, begins, Bind.bind, Except.bind, throw, throwThe, MonadExceptOf.throw]
    | some className => simp [handler, pair, Bind.bind, Except.bind]
  · simp [handler, begins, catches, Bind.bind, Except.bind, pure, Except.pure]

/-- The format of handlers is lawful. -/
theorem law_handler :
    (handler order).Law HandlerImage.contents HandlerImage.size HandlerImage.erased := by
  have head := law_kind.pair (law_word32 order)
  have whole := head.pair law_text
  constructor
  · intro value fits
    by_cases catches : value.kind = .object
    · obtain ⟨className, named⟩ := Option.ne_none_iff_exists'.mp
        (fits.handlers value List.mem_cons_self catches)
      have clean := fits.texts className
        (by simp [HandlerImage.contents, HandlerImage.storedClass, catches, named])
      obtain ⟨bytes, written⟩ := whole.writes ((value.kind, value.offset), className)
        (Contents.fits_append.mpr ⟨Contents.fits_empty, Contents.fits_ofText.mpr clean⟩)
      exact ⟨bytes, (encode_handler order).mpr (.inl ⟨catches, className, named, written⟩)⟩
    · obtain ⟨bytes, written⟩ := head.writes (value.kind, value.offset) Contents.fits_empty
      exact ⟨bytes, (encode_handler order).mpr (.inr ⟨catches, written⟩)⟩
  · intro value bytes written
    obtain ⟨catches, className, named, written⟩ | ⟨other, -⟩ := (encode_handler order).mp written
    · have clean := Contents.fits_ofText.mp (Contents.fits_append.mp (whole.fits _ _ written)).2
      refine ⟨?_, ?_, by simp [HandlerImage.contents]⟩
      · simpa [HandlerImage.contents, HandlerImage.storedClass, catches, named] using clean
      · simp [HandlerImage.contents, named]
    · exact ⟨by simp [HandlerImage.contents, HandlerImage.storedClass, other],
        by simp [HandlerImage.contents, other], by simp [HandlerImage.contents]⟩
  · intro value bytes written
    obtain ⟨catches, className, named, written⟩ | ⟨other, written⟩ :=
      (encode_handler order).mp written
    · rw [whole.length _ _ written]
      simp [HandlerImage.size, HandlerImage.storedClass, catches, named]
    · rw [head.length _ _ written]
      simp [HandlerImage.size, HandlerImage.storedClass, other]
  · intro value bytes written rest
    obtain ⟨catches, className, named, written⟩ | ⟨other, written⟩ :=
      (encode_handler order).mp written
    · obtain ⟨start, tail, begins, ends, rfl⟩ := append_eq_ok.mp written
      simp [handler, head.reads _ _ begins, law_text.reads _ _ ends, catches, named,
        HandlerImage.erased, HandlerImage.storedClass, Bind.bind, Except.bind, pure, Except.pure]
    · simp [handler, head.reads _ _ written, other, HandlerImage.erased,
        HandlerImage.storedClass, Bind.bind, Except.bind, pure, Except.pure]

/-- The format of guarded ranges is lawful. -/
theorem law_block : (block order).Law BlockImage.contents BlockImage.size BlockImage.erased :=
  (((law_word32 order).pair ((law_word32 order).pair ((law_handler order).list order))).map
    _ _).congr (fun _ => Iff.rfl) (fun _ => by simp only [BlockImage.size]; omega) fun _ => rfl

/-- The format of flags is lawful. -/
theorem law_flags : flags.Law (fun _ => {}) (fun _ => 1) id :=
  (law_byte.map _ _).congr (fun _ => Iff.rfl) (fun _ => rfl) fun native => by cases native <;> rfl

/-- The format of functions is lawful. -/
theorem law_function :
    (function order).Law FunctionImage.contents FunctionImage.size FunctionImage.erased :=
  ((law_text.pair (law_flags.pair ((law_word16 order).pair ((law_word16 order).pair
    ((law_word32 order).pair ((law_word32 order).pair ((law_text.list order).pair
      ((law_block order).list order)))))))).map _ _).congr (fun _ => Iff.rfl)
    (fun _ => by simp only [FunctionImage.size]; omega) fun _ => by simp [FunctionImage.erased]

end Format

namespace Container

variable (order : ByteOrder)

/-- Offset and length of each of the tables that follow each other from an offset. -/
def extents : Nat → List Nat → List (Nat × Nat)
  | _, [] => []
  | offset, length :: rest => (offset, length) :: extents (offset + length) rest

/-- The format of directory entries is lawful. -/
theorem law_entry : ((Format.count order).pair (Format.count order)).Law
    (fun extent => { counts := [extent.1, extent.2] }) (fun _ => 8) id :=
  (Format.law_count order).pair (Format.law_count order)

/-- A directory is written when the extents of all tables can be, and only then. -/
theorem exists_directory_iff (offset : Nat) (tables : List (List UInt8)) :
    (∃ bytes, directory order offset tables = .ok bytes) ↔
      ∀ extent ∈ extents offset (tables.map List.length),
        extent.1 < UInt32.size ∧ extent.2 < UInt32.size := by
  induction tables generalizing offset with
  | nil => simp [directory, extents]
  | cons table rest hypothesis =>
    rw [List.map_cons, extents, List.forall_mem_cons, ← hypothesis]
    constructor
    · rintro ⟨bytes, written⟩
      obtain ⟨head, tail, begins, ends, -⟩ := Format.append_eq_ok.mp written
      have fits := (law_entry order).fits _ _ begins
      exact ⟨⟨fits.counts _ (by simp), fits.counts _ (by simp)⟩, tail, ends⟩
    · rintro ⟨⟨first, second⟩, tail, ends⟩
      obtain ⟨head, begins⟩ := (law_entry order).writes (offset, table.length)
        ⟨by simp, by simp, by simp [first, second]⟩
      exact ⟨head ++ tail, Format.append_eq_ok.mpr ⟨head, tail, begins, ends, rfl⟩⟩

/-- A directory has eight bytes for each table. -/
theorem length_directory {offset : Nat} {tables : List (List UInt8)} {bytes : List UInt8}
    (written : directory order offset tables = .ok bytes) : bytes.length = 8 * tables.length := by
  induction tables generalizing offset bytes with
  | nil =>
    obtain rfl : [] = bytes := Except.ok.inj written
    rfl
  | cons table rest hypothesis =>
    obtain ⟨head, tail, begins, ends, rfl⟩ := Format.append_eq_ok.mp written
    rw [List.length_append, (law_entry order).length _ _ begins, hypothesis ends, List.length_cons]
    omega

/-- The tables that a directory names are read from where they stand. -/
theorem readDirectory_directory {whole : List UInt8} {offset : Nat} {tables : List (List UInt8)}
    {bytes : List UInt8} (written : directory order offset tables = .ok bytes)
    (after : headerLength ≤ offset) (inside : offset ≤ whole.length)
    (stands : whole.drop offset = tables.flatten) (rest : List UInt8) :
    readDirectory order whole tables.length (bytes ++ rest) = .ok (tables, rest) := by
  induction tables generalizing offset bytes with
  | nil =>
    obtain rfl : [] = bytes := Except.ok.inj written
    rfl
  | cons table tables hypothesis =>
    obtain ⟨head, tail, begins, ends, rfl⟩ := Format.append_eq_ok.mp written
    rw [List.flatten_cons] at stands
    have length : whole.length - offset = table.length + tables.flatten.length := by
      rw [← List.length_drop, stands, List.length_append]
    have next : whole.drop (offset + table.length) = tables.flatten := by
      rw [← List.drop_drop, stands, List.drop_left]
    have found : (whole.drop offset).take table.length = table := by
      rw [stands, List.take_left]
    have later := hypothesis ends (by omega) (by omega) next
    simp [readDirectory, (law_entry order).reads _ _ begins, later, found, Bind.bind, Except.bind,
      Nat.not_lt.mpr after, show ¬ whole.length < offset + table.length by omega, pure, Except.pure]

variable {order} {image : Image}

/-- The tables are written one by one. -/
theorem tables_eq_ok {parts : List (List UInt8)} (written : tables order image = .ok parts) :
    ∃ dependencies objects strings globals functions,
      (Format.list order Format.text).encode image.dependencies = .ok dependencies ∧
      (Format.list order (Format.object order)).encode image.objects = .ok objects ∧
      (Format.list order Format.text).encode image.strings = .ok strings ∧
      (Format.list order Format.text).encode image.globals = .ok globals ∧
      (Format.list order (Format.function order)).encode image.functions = .ok functions ∧
      [dependencies, objects, strings, globals, functions, image.code] = parts := by
  obtain ⟨dependencies, first, written⟩ := Except.bind_eq_ok written
  obtain ⟨objects, second, written⟩ := Except.bind_eq_ok written
  obtain ⟨strings, third, written⟩ := Except.bind_eq_ok written
  obtain ⟨globals, fourth, written⟩ := Except.bind_eq_ok written
  obtain ⟨functions, fifth, written⟩ := Except.bind_eq_ok written
  exact ⟨dependencies, objects, strings, globals, functions, first, second, third, fourth, fifth,
    Except.ok.inj written⟩

/-- The tables are written when the contents of the module fit, and only then. -/
theorem exists_tables_iff :
    (∃ parts, tables order image = .ok parts) ↔ image.contents.Fits := by
  have texts := Format.law_text.list order
  have types := (Format.law_object order).list order
  have routines := (Format.law_function order).list order
  constructor
  · rintro ⟨parts, written⟩
    obtain ⟨_, _, _, _, _, dependencies, objects, strings, globals, functions, -⟩ :=
      tables_eq_ok written
    simp only [Image.contents, Contents.fits_append]
    exact ⟨texts.fits _ _ dependencies, types.fits _ _ objects, texts.fits _ _ strings,
      texts.fits _ _ globals, routines.fits _ _ functions⟩
  · intro fits
    simp only [Image.contents, Contents.fits_append] at fits
    obtain ⟨dependencies, objects, strings, globals, functions⟩ := fits
    obtain ⟨_, dependencies⟩ := texts.writes _ dependencies
    obtain ⟨_, objects⟩ := types.writes _ objects
    obtain ⟨_, strings⟩ := texts.writes _ strings
    obtain ⟨_, globals⟩ := texts.writes _ globals
    obtain ⟨_, functions⟩ := routines.writes _ functions
    simp [tables, dependencies, objects, strings, globals, functions, Bind.bind, Except.bind, pure,
      Except.pure]

/-- The tables have the lengths that the module says. -/
theorem map_length_tables {parts : List (List UInt8)} (written : tables order image = .ok parts) :
    parts.map List.length = image.tableLengths := by
  have texts := Format.law_text.list order
  obtain ⟨_, _, _, _, _, dependencies, objects, strings, globals, functions, rfl⟩ :=
    tables_eq_ok written
  simp only [List.map_cons, List.map_nil, texts.length _ _ dependencies, texts.length _ _ strings,
    texts.length _ _ globals, ((Format.law_object order).list order).length _ _ objects,
    ((Format.law_function order).list order).length _ _ functions, Image.tableLengths]

/-- What stands before the directory. -/
def opening (order : ByteOrder) : List UInt8 :=
  magic ++ [version] ++ List.replicate 10 0 ++ [flag order]

/-- The opening has sixteen bytes. -/
@[simp] theorem length_opening : (opening order).length = 16 := by
  cases order <;> rfl

/-- A container is written for a sound module whose tables and directory are written. -/
theorem write_eq_ok {bytes : List UInt8} :
    write order image = .ok bytes ↔ image.check = .ok () ∧ ∃ parts entries,
      tables order image = .ok parts ∧ directory order headerLength parts = .ok entries ∧
      opening order ++ (entries ++ (order.bytes 4 image.initLength.toNat ++ parts.flatten)) =
        bytes := by
  constructor
  · intro written
    obtain ⟨⟨⟩, sound, written⟩ := Except.bind_eq_ok written
    obtain ⟨parts, stored, written⟩ := Except.bind_eq_ok written
    obtain ⟨entries, listed, written⟩ := Except.bind_eq_ok written
    exact ⟨sound, parts, entries, stored, listed, by simpa [opening] using Except.ok.inj written⟩
  · rintro ⟨sound, parts, entries, stored, listed, rfl⟩
    simp [write, sound, stored, listed, Bind.bind, Except.bind, pure, Except.pure, opening]

/-- A container is written for a sound module whose contents and extents fit, and only then. -/
theorem exists_write_iff :
    (∃ bytes, write order image = .ok bytes) ↔ image.check = .ok () ∧ image.contents.Fits ∧
      ∀ extent ∈ extents headerLength image.tableLengths,
        extent.1 < UInt32.size ∧ extent.2 < UInt32.size := by
  constructor
  · rintro ⟨bytes, written⟩
    obtain ⟨sound, parts, entries, stored, listed, -⟩ := write_eq_ok.mp written
    refine ⟨sound, exists_tables_iff.mp ⟨parts, stored⟩, ?_⟩
    rw [← map_length_tables stored]
    exact (exists_directory_iff order headerLength parts).mp ⟨entries, listed⟩
  · rintro ⟨sound, fits, extents⟩
    obtain ⟨parts, stored⟩ := (@exists_tables_iff order image).mpr fits
    rw [← map_length_tables stored] at extents
    obtain ⟨entries, listed⟩ := (exists_directory_iff order headerLength parts).mpr extents
    exact ⟨_, write_eq_ok.mpr ⟨sound, parts, entries, stored, listed, rfl⟩⟩

end Container

/-- A module is as sound without the classes that its handlers do not use. -/
theorem Image.check_erased (image : Image) : image.erased.check = image.check := by
  have same : ∀ size (function : FunctionImage),
      checkFunction size function.erased = checkFunction size function := by
    intro size function
    simp only [checkFunction, checkBlocks, FunctionImage.erased, List.forM_eq_forM, List.forM_map]
    rfl
  simp only [check, erased, List.filter_map, List.forM_eq_forM, List.forM_map, same]
  rfl

namespace Container

variable {order : ByteOrder} {image : Image} {bytes : List UInt8}

/-- A value is read from its table. -/
theorem readTable_eq_ok {α : Type} {format : Format α} {contents : α → Contents} {size : α → Nat}
    {stored : α → α} (law : format.Law contents size stored) {value : α} {table : List UInt8}
    (written : format.encode value = .ok table) :
    readTable format table = .ok (stored value) := by
  have reads := law.reads value table written []
  rw [List.append_nil] at reads
  simp [readTable, reads, Bind.bind, Except.bind, pure, Except.pure]

/-- What is known of a container before its directory is read. -/
structure Opens (order : ByteOrder) (whole rest : List UInt8) : Prop where
  /-- The header is there. -/
  long : headerLength ≤ whole.length
  /-- It starts with the magic. -/
  magic : whole.take 4 = magic
  /-- The version is known. -/
  version : whole.getD 4 0 = version
  /-- The flag gives the byte order. -/
  flag : orderOfFlag (whole.getD flagOffset 0) = .ok order
  /-- The directory follows. -/
  rest : whole.drop (flagOffset + 1) = rest

/-- A container starts with its opening. -/
theorem opens (order : ByteOrder) {rest : List UInt8} (long : headerLength ≤ 16 + rest.length) :
    Opens order (opening order ++ rest) rest := by
  constructor
  · rwa [List.length_append, length_opening]
  · rfl
  · rfl
  · cases order <;> rfl
  · exact List.drop_left' length_opening

/-- A module is read from the tables that were written for it, without the classes that its handlers
do not use. -/
theorem read_eq_ok {whole header rest : List UInt8} {parts : List (List UInt8)}
    (starts : Opens order whole header)
    (found : readDirectory order whole 6 header =
      .ok (parts, order.bytes 4 image.initLength.toNat ++ rest))
    (stored : tables order image = .ok parts) (sound : image.check = .ok ()) :
    read whole = .ok image.erased := by
  have ends := (Format.law_word32 order).reads image.initLength _ rfl rest
  have again : Image.check ⟨image.dependencies, image.objects, image.strings, image.globals,
      image.functions.map FunctionImage.erased, image.code, image.initLength⟩ = .ok () :=
    image.check_erased.trans sound
  have texts := Format.law_text.list order
  obtain ⟨_, _, _, _, _, dependencies, objects, strings, globals, functions, rfl⟩ :=
    tables_eq_ok stored
  simp only [read, if_neg (Nat.not_lt.mpr starts.long), starts.magic, starts.version, starts.flag,
    starts.rest, found, ends, readTable_eq_ok texts dependencies, readTable_eq_ok texts strings,
    readTable_eq_ok texts globals, readTable_eq_ok ((Format.law_object order).list order) objects,
    readTable_eq_ok ((Format.law_function order).list order) functions, Bind.bind, Except.bind,
    ne_eq, not_true_eq_false, if_false, List.map_id, id_eq, again]
  rfl

/-- What is written for a module is read back, without the classes that its handlers do not use. -/
theorem read_write (written : write order image = .ok bytes) : read bytes = .ok image.erased := by
  obtain ⟨sound, parts, entries, stored, listed, rfl⟩ := write_eq_ok.mp written
  have six : parts.length = 6 := by
    obtain ⟨_, _, _, _, _, -, -, -, -, -, rfl⟩ := tables_eq_ok stored
    rfl
  have many : entries.length = 48 := by rw [length_directory order listed, six]
  have start : (opening order ++ (entries ++ order.bytes 4 image.initLength.toNat)).length =
      headerLength := by
    simp [many, headerLength]
  have stands : (opening order ++ (entries ++ (order.bytes 4 image.initLength.toNat ++
      parts.flatten))).drop headerLength = parts.flatten := by
    rw [← List.append_assoc entries, ← List.append_assoc, List.drop_left' start]
  have long : headerLength ≤ 16 + (entries ++ (order.bytes 4 image.initLength.toNat ++
      parts.flatten)).length := by
    simp [many, headerLength]
    omega
  have starts := opens order long
  have found := readDirectory_directory order listed (Nat.le_refl _) starts.long stands
    (order.bytes 4 image.initLength.toNat ++ parts.flatten)
  rw [six] at found
  exact read_eq_ok starts found stored sound

end Container

end ScriptVm
