import Mathlib.Data.List.Forall2
import Mathlib.Logic.Relation
import ScriptVm.Proofs.Execution.Code
import ScriptVm.Proofs.Machine.Keeping
import ScriptVm.Proofs.Machine.Load

/-!
# The course of a load

A load that is not refused at once allocates its strings one by one. Then it is refused, which
leaves the strings on the heap and nothing else, or all that was built is installed. What is built
is what the image declares, and every function lies inside its module.
-/
namespace ScriptVm

/-- What is made of each of a list of images. -/
theorem forall₂_of_mapM {ε α β : Type} {make : α → Except ε β} {images : List α}
    {results : List β} (done : images.mapM make = .ok results) :
    List.Forall₂ (fun image result => make image = .ok result) images results := by
  induction images generalizing results with
  | nil =>
    obtain rfl := Except.ok.inj done
    exact .nil
  | cons image images hypothesis =>
    rw [List.mapM_cons] at done
    obtain ⟨first, made, rest⟩ := Except.bind_eq_ok done
    obtain ⟨others, more, last⟩ := Except.bind_eq_ok rest
    obtain rfl := Except.ok.inj last
    exact .cons made (hypothesis more)

/-- Whatever is made is made of one of the images. -/
theorem exists_of_forall₂ {α β : Type} {relation : α → β → Prop} {images : List α}
    {results : List β} (all : List.Forall₂ relation images results) {result : β}
    (member : result ∈ results) : ∃ image ∈ images, relation image result := by
  induction all with
  | nil => simp at member
  | cons made _ hypothesis =>
    rcases List.mem_cons.mp member with rfl | later
    · exact ⟨_, List.mem_cons_self, made⟩
    · obtain ⟨image, inside, same⟩ := hypothesis later
      exact ⟨image, List.mem_cons_of_mem _ inside, same⟩

/-- A result that is not refused is that of the computation. -/
theorem Refusal.silently_eq_ok {α : Type} {computation : Except Error α} {value : α}
    (done : Refusal.silently computation = .ok value) : computation = .ok value := by
  cases computation with
  | error error => simp [Refusal.silently] at done
  | ok content => exact congrArg Except.ok (Except.ok.inj done)

namespace Table

variable {α : Type} {table : Table α} {name : String} {entry : α}

/-- A table has a name when it lists it. -/
theorem contains_iff : table.contains name = true ↔ name ∈ table.names := by
  rw [contains, find?, List.lookup_isSome_iff]
  simp [names]

/-- A new name is the last one. -/
@[simp] theorem names_add : (table.add name entry).names = table.names ++ [name] := by
  simp [names, add]

/-- A new entry is the last one. -/
@[simp] theorem values_add : (table.add name entry).values = table.values ++ [entry] := by
  simp [values, add]

/-- Names of another table follow. -/
@[simp] theorem names_append (more : Table α) :
    (table.append more).names = table.names ++ more.names := by
  simp [names, append]

/-- Entries of another table follow. -/
@[simp] theorem values_append (more : Table α) :
    (table.append more).values = table.values ++ more.values := by
  simp [values, append]

/-- Names stay distinct when an entry is added under a new one. -/
theorem nodup_add (distinct : table.names.Nodup) (new : table.contains name = false) :
    (table.add name entry).names.Nodup := by
  have absent : name ∉ table.names := by
    rw [← contains_iff, new]
    simp
  rw [names_add, List.nodup_append]
  refine ⟨distinct, by simp, ?_⟩
  rintro key inside other last rfl
  rw [List.mem_singleton.mp last] at inside
  exact absent inside

/-- Names stay distinct when a table is added whose names are new. -/
theorem nodup_append {more : Table α} (distinct : table.names.Nodup) (others : more.names.Nodup)
    (new : ∀ name ∈ more.names, table.contains name = false) :
    (table.append more).names.Nodup := by
  rw [names_append, List.nodup_append]
  refine ⟨distinct, others, ?_⟩
  rintro key inside other later rfl
  rw [← contains_iff, new key later] at inside
  simp at inside

/-- Adds entries one after the other, each unless its name is taken. -/
def addNew (table : Table α) (entries : List (String × α)) : Table α :=
  entries.foldl (fun table (name, entry) =>
    if table.contains name then table else table.add name entry) table

/-- The first entry is added before the others. -/
theorem addNew_cons (table : Table α) (name : String) (entry : α) (entries : List (String × α)) :
    table.addNew ((name, entry) :: entries) =
      (if table.contains name then table else table.add name entry).addNew entries := rfl

/-- What was in a table stays in its place, and some of the given entries follow in order. -/
theorem addNew_eq_append (table : Table α) (entries : List (String × α)) :
    ∃ added, (table.addNew entries).entries = table.entries ++ added ∧
      added.Sublist entries := by
  induction entries generalizing table with
  | nil => exact ⟨[], by simp [addNew], .slnil⟩
  | cons first entries hypothesis =>
    obtain ⟨name, entry⟩ := first
    rw [addNew_cons]
    split
    · obtain ⟨added, shape, some⟩ := hypothesis table
      exact ⟨added, shape, some.cons _⟩
    · obtain ⟨added, shape, some⟩ := hypothesis (table.add name entry)
      refine ⟨(name, entry) :: added, ?_, some.cons_cons _⟩
      rw [shape]
      simp [add]

/-- Names stay distinct. -/
theorem nodup_addNew (distinct : table.names.Nodup) (entries : List (String × α)) :
    (table.addNew entries).names.Nodup := by
  induction entries generalizing table with
  | nil => exact distinct
  | cons first entries hypothesis =>
    obtain ⟨name, entry⟩ := first
    rw [addNew_cons]
    split
    · exact hypothesis distinct
    · rename_i new
      exact hypothesis (nodup_add distinct (by simpa using new))

/-- An old entry is found, and otherwise the first of the given entries under the name. -/
theorem find?_addNew (table : Table α) (entries : List (String × α)) (name : String) :
    (table.addNew entries).find? name = (table.find? name).or (entries.lookup name) := by
  induction entries generalizing table with
  | nil => simp [addNew]
  | cons first entries hypothesis =>
    obtain ⟨key, entry⟩ := first
    rw [addNew_cons, hypothesis]
    by_cases same : name = key
    · subst same
      simp only [List.lookup_cons_self]
      split
      · rename_i known
        obtain ⟨found, here⟩ := Option.isSome_iff_exists.mp known
        simp [here]
      · rename_i new
        have none : table.find? name = none := by simpa [contains] using new
        rw [find?_add (by simpa using new), none]
        simp
    · have apart : (name == key) = false := by simpa using same
      simp only [List.lookup_cons, apart]
      split
      · rfl
      · simp [find?, add, List.lookup_append, List.lookup_cons, apart]

end Table

/-- A handler is what its image declares: it catches a kind of values, or the objects of a class. -/
structure HandlerImage.Declares (image : HandlerImage) (handler : Handler) : Prop where
  /-- It resumes where the image says. -/
  offset : handler.offset = image.offset.toNat
  /-- It catches the kind. -/
  kind : handler.caught.kind = image.kind
  /-- It catches objects of the class. -/
  className : handler.caught.className = if image.kind = .object then image.className else none

/-- A built handler is what its image declares. -/
theorem HandlerImage.declares_build {image : HandlerImage} {handler : Handler}
    (built : image.build = .ok handler) : image.Declares handler := by
  obtain ⟨kind, className, offset⟩ := image
  unfold HandlerImage.build at built
  split at built
  · rename_i name object named
    obtain rfl := Except.ok.inj built
    obtain rfl : kind = .object := object
    obtain rfl : className = some name := named
    exact ⟨rfl, rfl, rfl⟩
  · unfold Handler.ofKind at built
    split at built
    · simp at built
    · rename_i other
      obtain rfl := Except.ok.inj built
      exact ⟨rfl, rfl, (if_neg other).symm⟩

/-- A guarded block is what its image declares. -/
structure BlockImage.Declares (image : BlockImage) (block : GuardedBlock) : Prop where
  /-- It starts where the image says. -/
  start : block.start = image.start.toNat
  /-- It is as long as the image says. -/
  stop : block.stop = image.start.toNat + image.length.toNat
  /-- Its handlers are those of the image in order. -/
  handlers : List.Forall₂ HandlerImage.Declares image.handlers block.handlers

/-- The end of a range. -/
theorem rangeEnd_eq_ok {start length stop : Nat} (ends : rangeEnd start length = .ok stop) :
    stop = start + length := by
  unfold rangeEnd at ends
  split at ends
  · exact (Except.ok.inj ends).symm
  · simp at ends

/-- Handlers are added to a block one after the other. -/
theorem GuardedBlock.addHandlers_eq {images : List HandlerImage} {block after : GuardedBlock}
    (done : images.foldlM (fun block handler => do block.addHandler (← handler.build)) block =
      .ok after) :
    ∃ handlers, List.Forall₂ HandlerImage.Declares images handlers ∧
      after = { block with handlers := block.handlers ++ handlers } := by
  induction images generalizing block with
  | nil =>
    obtain rfl := Except.ok.inj done
    exact ⟨[], .nil, by simp⟩
  | cons image images hypothesis =>
    obtain ⟨middle, added, rest⟩ := Except.bind_eq_ok done
    obtain ⟨handler, built, added⟩ := Except.bind_eq_ok added
    unfold addHandler at added
    split at added
    · simp at added
    · obtain rfl := Except.ok.inj added
      obtain ⟨handlers, declared, rfl⟩ := hypothesis rest
      exact ⟨handler :: handlers, .cons (HandlerImage.declares_build built) declared, by simp⟩

/-- A built block is what its image declares. -/
theorem BlockImage.declares_build {image : BlockImage} {block : GuardedBlock}
    (built : image.build = .ok block) : image.Declares block := by
  obtain ⟨bare, made, added⟩ := Except.bind_eq_ok built
  obtain ⟨stop, ends, last⟩ := Except.bind_eq_ok made
  obtain rfl := Except.ok.inj last
  obtain ⟨handlers, declared, rfl⟩ := GuardedBlock.addHandlers_eq added
  exact ⟨rfl, rangeEnd_eq_ok ends, declared⟩

/-- A script function is what its image declares. -/
structure FunctionImage.DeclaresScript (image : FunctionImage) (module : Module)
    (function : ScriptFunction) : Prop where
  /-- It has bytecode. -/
  native : image.native = false
  /-- It is called by its name. -/
  signature : function.signature = image.signature
  /-- It takes as many parameters. -/
  parameters : function.parameters = image.parameters
  /-- It returns as many values. -/
  returns : function.returns = image.returns
  /-- It belongs to the module. -/
  module : function.module = module
  /-- Its code starts where the image says. -/
  start : function.body.start = image.start.toNat
  /-- Its code is as long as the image says. -/
  stop : function.body.stop = image.start.toNat + image.length.toNat
  /-- Its local variables are those of the image. -/
  locals : function.body.locals = image.locals
  /-- Its guarded blocks are those of the image in order. -/
  blocks : List.Forall₂ BlockImage.Declares image.blocks function.body.blocks

/-- A function is what its image declares: a native function without a routine, or a script
function. -/
def FunctionImage.Declares (image : FunctionImage) (module : Module) : Function → Prop
  | .host function => image.native = true ∧
      function = ⟨image.signature, image.parameters, image.returns, some module, none⟩
  | .script function => image.DeclaresScript module function

/-- A declared function has the signature and the module. -/
theorem FunctionImage.own_of_declares {module : Module} {image : FunctionImage}
    {function : Function} (declared : image.Declares module function) :
    function.signature = image.signature ∧ function.module? = some module := by
  cases function with
  | host function =>
    obtain ⟨_, rfl⟩ := declared
    exact ⟨rfl, rfl⟩
  | script function => exact ⟨declared.signature, congrArg some declared.module⟩

/-- A built function is what its image declares, and it lies inside its module. -/
theorem FunctionImage.declares_build {module : Module} {image : FunctionImage}
    {function : Function} (built : image.build module = .ok function) :
    image.Declares module function ∧ function.Enclosed := by
  unfold FunctionImage.build at built
  split at built
  · rename_i native
    obtain rfl := Except.ok.inj built
    exact ⟨⟨native, rfl⟩, trivial⟩
  · rename_i native
    obtain ⟨blocks, made, rest⟩ := Except.bind_eq_ok built
    obtain ⟨body, bodied, rest⟩ := Except.bind_eq_ok rest
    obtain ⟨script, scripted, last⟩ := Except.bind_eq_ok rest
    obtain rfl := Except.ok.inj last
    have declared : List.Forall₂ BlockImage.Declares image.blocks blocks :=
      (forall₂_of_mapM made).imp fun _ _ same => BlockImage.declares_build same
    constructor
    · obtain ⟨ends, _, _, shape⟩ := Body.create_eq_ok bodied
      obtain ⟨_, rfl⟩ := ScriptFunction.create_eq_ok scripted
      have stop := rangeEnd_eq_ok ends
      rw [shape]
      exact ⟨by simpa using native, rfl, rfl, rfl, rfl, rfl, stop, rfl, declared⟩
    · refine ScriptFunction.enclosed_create ?_ bodied scripted
      intro block member
      obtain ⟨source, _, same⟩ := exists_of_forall₂ declared member
      rw [same.start, same.stop]
      omega

/-- Functions are built one after the other, under new signatures. -/
theorem buildFunctions_eq_ok {module : Module} {images : List FunctionImage}
    {built result : Table Function} (done : buildFunctions module built images = .ok result) :
    (∃ added, result.entries = built.entries ++ added ∧
      List.Forall₂ (fun image entry => entry.1 = image.signature ∧
        image.Declares module entry.2 ∧ entry.2.Enclosed) images added) ∧
      (built.names.Nodup → result.names.Nodup) := by
  induction images generalizing built with
  | nil =>
    obtain rfl := Except.ok.inj done
    exact ⟨⟨[], by simp, .nil⟩, id⟩
  | cons image images hypothesis =>
    obtain ⟨function, made, rest⟩ := Except.bind_eq_ok done
    have declared := FunctionImage.declares_build (Refusal.silently_eq_ok made)
    split at rest
    · cases rest
    · rename_i new
      obtain ⟨⟨added, entries, others⟩, distinct⟩ := hypothesis rest
      refine ⟨⟨(image.signature, function) :: added, ?_, .cons ⟨rfl, declared⟩ others⟩, ?_⟩
      · rw [entries]
        simp [Table.add]
      · intro before
        exact distinct (Table.nodup_add before (by simpa using new))

/-- The object type that an image declares. -/
def ObjectImage.schema (image : ObjectImage) : Schema :=
  ⟨image.typeName, image.members.map fun member => (member.name, member.kind)⟩

/-- A built object type is what its image declares, with distinct members. -/
theorem ObjectImage.build_eq_ok {image : ObjectImage} {schema : Schema}
    (built : image.build = .ok schema) :
    schema = image.schema ∧ (schema.members.map Prod.fst).Nodup := by
  unfold ObjectImage.build Schema.create at built
  split at built
  · rename_i distinct
    obtain rfl := Except.ok.inj built
    exact ⟨rfl, distinct⟩
  · simp at built

/-- What a module brings is what its image declares. -/
structure Bundle.Declared (bundle : Bundle) (image : Image) (module : Module) : Prop where
  /-- The module. -/
  own : bundle.module = module
  /-- The initializer runs the first bytes of the code and has neither local variables nor guarded
  blocks. -/
  initializer : bundle.initializer = ⟨module.name ++ ".<init>", 0, 0, module,
    ⟨0, module.initLength, [], []⟩⟩
  /-- The initializer lies inside the code. -/
  enclosed : bundle.initializer.Enclosed
  /-- The object types in order. -/
  schemas : bundle.schemas = image.objects.map ObjectImage.schema
  /-- Members of object types have distinct names. -/
  members : ∀ schema ∈ bundle.schemas, (schema.members.map Prod.fst).Nodup
  /-- The functions in order, under their signatures. -/
  functions : List.Forall₂ (fun image entry => entry.1 = image.signature ∧
    image.Declares module entry.2 ∧ entry.2.Enclosed) image.functions bundle.functions.entries
  /-- Signatures are distinct. -/
  signatures : bundle.functions.names.Nodup
  /-- The globals in order. -/
  globals : bundle.globals = image.globals

/-- What is built is what the image declares. -/
theorem Image.build_declared {image : Image} {module : Module} {bundle : Bundle}
    (built : image.build module = .ok bundle) : bundle.Declared image module := by
  obtain ⟨schemas, types, rest⟩ := Except.bind_eq_ok built
  obtain ⟨functions, made, rest⟩ := Except.bind_eq_ok rest
  obtain ⟨body, bodied, rest⟩ := Except.bind_eq_ok rest
  obtain ⟨initializer, created, last⟩ := Except.bind_eq_ok rest
  obtain rfl := Except.ok.inj last
  have bodyMade := Refusal.silently_eq_ok bodied
  have scriptMade := Refusal.silently_eq_ok created
  have declared := (forall₂_of_mapM (Refusal.silently_eq_ok types)).imp
    fun _ _ same => ObjectImage.build_eq_ok same
  obtain ⟨⟨added, entries, listed⟩, distinct⟩ := buildFunctions_eq_ok made
  obtain ⟨ends, _, _, shape⟩ := Body.create_eq_ok bodyMade
  have stop := rangeEnd_eq_ok ends
  rw [Nat.zero_add] at stop
  refine ⟨rfl, ?_, ScriptFunction.enclosed_create (by simp) bodyMade scriptMade, ?_, ?_, ?_,
    distinct (by simp [Table.names]), rfl⟩
  · obtain ⟨_, rfl⟩ := ScriptFunction.create_eq_ok scriptMade
    rw [shape, stop]
  · have same : List.Forall₂ (fun image schema => image.schema = schema) image.objects schemas :=
      declared.imp fun _ _ fact => fact.1.symm
    have equal : List.Forall₂ (· = ·) (image.objects.map ObjectImage.schema) schemas :=
      List.forall₂_map_left_iff.mpr same
    rw [List.forall₂_eq_eq_eq] at equal
    exact equal.symm
  · intro schema member
    obtain ⟨_, _, fact⟩ := exists_of_forall₂ declared member
    exact fact.2
  · rw [entries]
    exact listed

namespace Registry

/-- Object types are added unless their names are taken. -/
theorem keepSchemas_eq (owner : String) (schemas : List Schema) (registry : Registry)
    (events : List Event) :
    (schemas.foldl (keepSchema owner) (registry, events)).1 = { registry with
      schemas := registry.schemas.addNew
        (schemas.map fun schema => (schema.typeName, schema)) } := by
  induction schemas generalizing registry events with
  | nil => rfl
  | cons schema schemas hypothesis =>
    rw [List.foldl_cons, List.map_cons, Table.addNew_cons]
    by_cases known : registry.schemas.contains schema.typeName
    · have kept : keepSchema owner (registry, events) schema =
          (registry, .typeKept owner schema.typeName :: events) := by
        simp [keepSchema, known]
      rw [kept, hypothesis, if_pos known]
    · have added : keepSchema owner (registry, events) schema = ({ registry with
          schemas := registry.schemas.add schema.typeName schema }, events) := by
        simp [keepSchema, known]
      rw [added, hypothesis, if_neg known]

/-- Null globals are added unless their names are taken. -/
theorem keepGlobals_eq (owner : String) (names : List String) (registry : Registry)
    (events : List Event) :
    (names.foldl (keepGlobal owner) (registry, events)).1 = { registry with
      globals := registry.globals.addNew (names.map fun name => (name, Ref.null)) } := by
  induction names generalizing registry events with
  | nil => rfl
  | cons name names hypothesis =>
    rw [List.foldl_cons, List.map_cons, Table.addNew_cons]
    by_cases known : registry.globals.contains name
    · have kept : keepGlobal owner (registry, events) name =
          (registry, .globalKept owner name :: events) := by
        simp [keepGlobal, known]
      rw [kept, hypothesis, if_pos known]
    · have added : keepGlobal owner (registry, events) name = ({ registry with
          globals := registry.globals.add name Ref.null }, events) := by
        simp [keepGlobal, known]
      rw [added, hypothesis, if_neg known]

/-- A registry with a module installed. -/
def withBundle (registry : Registry) (bundle : Bundle) : Registry :=
  { registry with
    modules := registry.modules.add bundle.module.name bundle.module
    initializers := registry.initializers.add bundle.module.name bundle.initializer
    functions := registry.functions.append bundle.functions
    schemas := registry.schemas.addNew
      (bundle.schemas.map fun schema => (schema.typeName, schema))
    globals := registry.globals.addNew (bundle.globals.map fun name => (name, Ref.null)) }

/-- Installing a module whose functions have new signatures. -/
theorem install_eq_ok {registry changed : Registry} {bundle : Bundle} {events : List Event}
    (done : registry.install bundle = .ok (changed, events)) :
    (∀ name ∈ bundle.functions.names, registry.functions.contains name = false) ∧
      changed = registry.withBundle bundle := by
  unfold install at done
  dsimp only at done
  split at done
  · cases done
  · rename_i new
    obtain ⟨rfl, _⟩ := Prod.mk.inj (Except.ok.inj done)
    constructor
    · intro name member
      have none := Option.eq_none_iff_forall_ne_some.mpr new
      simpa using List.find?_eq_none.mp none name member
    · have types := keepSchemas_eq bundle.module.name bundle.schemas registry []
      have both : ∀ state, (bundle.globals.foldl (keepGlobal bundle.module.name) state).1 = _ :=
        fun state => keepGlobals_eq bundle.module.name bundle.globals state.1 state.2
      rw [both, types]
      rfl

end Registry

namespace Machine

variable {good : Function → Prop} {machine : Machine}

/-- A machine comes from another by allocating strings to which nothing refers. -/
abbrev Litters : Machine → Machine → Prop :=
  Relation.ReflTransGen fun machine after =>
    ∃ text, after = (machine.allocate (.value (.string text)) false).2

/-- Allocating constants is allocating strings. -/
theorem litters_allocateConstants (machine : Machine) (texts : List String)
    (constants : Array Ref) : machine.Litters (machine.allocateConstants texts constants).2 := by
  induction texts generalizing machine constants with
  | nil => exact .refl
  | cons text texts hypothesis =>
    unfold allocateConstants
    split
    · exact (hypothesis _ _).head ⟨text, rfl⟩
    · exact .refl

/-- Allocating strings keeps what is known by name. -/
theorem Litters.keeps {after : Machine} (litters : machine.Litters after)
    (stocked : machine.Stocked good) : machine.Keeps good after := by
  induction litters with
  | refl => exact .refl stocked
  | tail _ once hypothesis =>
    obtain ⟨text, rfl⟩ := once
    exact hypothesis.trans (hypothesis.stocked.keeps_allocate false (by simp))

/-- Allocating strings leaves the registry. -/
theorem Litters.registry {after : Machine} (litters : machine.Litters after) :
    after.registry = machine.registry := by
  induction litters with
  | refl => rfl
  | tail _ once hypothesis =>
    obtain ⟨text, rfl⟩ := once
    exact hypothesis

/-- The module that an image gives under a name. -/
def moduleOf (name : String) (image : Image) (constants : Array Ref) : Module where
  name
  dependencies := image.dependencies
  strings := image.strings.toArray
  constants
  code := image.code.toArray
  initLength := image.initLength.toNat

/-- A load is refused, before or after its strings have been allocated, or it installs all that the
image declares. -/
theorem load_cases (machine : Machine) (name : String) (image : Image) :
    (∃ after refusal, machine.Litters after ∧ machine.load name image = after.refuse refusal) ∨
      ∃ after constants, ∃ bundle : Bundle, ∃ events : List Event,
        machine.allocateConstants image.strings #[] = (.ok constants, after) ∧
        machine.checkLoad name image = .ok () ∧
        bundle.Declared image (moduleOf name image constants) ∧
        (∀ signature ∈ bundle.functions.names,
          machine.registry.functions.contains signature = false) ∧
        machine.load name image = (.ok (), events.foldr (fun event machine => machine.note event)
          { after with registry := machine.registry.withBundle bundle }) := by
  unfold load
  split
  · rename_i refusal _
    exact .inl ⟨machine, refusal, .refl, rfl⟩
  · rename_i open'
    have litters := machine.litters_allocateConstants image.strings #[]
    split
    · rename_i error after outcome
      rw [outcome] at litters
      exact .inl ⟨after, _, litters, rfl⟩
    · rename_i constants after outcome
      rw [outcome] at litters
      dsimp only
      split
      · rename_i refusal _
        exact .inl ⟨after, refusal, litters, rfl⟩
      · rename_i changed events done
        obtain ⟨bundle, built, installed⟩ := Except.bind_eq_ok done
        obtain ⟨new, rfl⟩ := Registry.install_eq_ok installed
        rw [litters.registry] at new ⊢
        exact .inr ⟨after, constants, bundle, events, outcome, open', Image.build_declared built,
          new, rfl⟩

end Machine

end ScriptVm
