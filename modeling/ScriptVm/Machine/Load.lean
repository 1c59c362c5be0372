import ScriptVm.Image.Container
import ScriptVm.Machine.Basic

/-!
# Loading modules

A module is loaded as a whole or not at all, except that the string constants it allocated stay on
the heap, unreachable, when a later check fails. Functions must have new signatures; object types
and globals that are already known are kept as they are.
-/
namespace ScriptVm

/-- A declared handler. -/
def HandlerImage.build (image : HandlerImage) : Except Error Handler :=
  match image.kind, image.className with
  | .object, some className => .ok (Handler.ofClass className image.offset.toNat)
  | kind, _ => Handler.ofKind kind image.offset.toNat

/-- A declared guarded block. -/
def BlockImage.build (image : BlockImage) : Except Error GuardedBlock := do
  let block ← GuardedBlock.create image.start.toNat image.length.toNat
  image.handlers.foldlM (fun block handler => do block.addHandler (← handler.build)) block

/-- A declared function of a module. -/
def FunctionImage.build (module : Module) (image : FunctionImage) : Except Error Function := do
  if image.native then
    return .host ⟨image.signature, image.parameters, image.returns, some module, none⟩
  else
    let blocks ← image.blocks.mapM BlockImage.build
    let body ← Body.create image.start.toNat image.length.toNat image.locals blocks
    return .script
      (← ScriptFunction.create image.signature image.parameters image.returns module body)

/-- A declared object type. -/
def ObjectImage.build (image : ObjectImage) : Except Error Schema :=
  Schema.create image.typeName (image.members.map fun member => (member.name, member.kind))

/-- Why a module is not loaded, and the event that reports it. -/
structure Refusal where
  /-- The error of the call. -/
  error : Error
  /-- What is reported. -/
  event : Option Event := none

/-- The refusal of an error that is not reported. -/
def Refusal.silently {α : Type} : Except Error α → Except Refusal α
  | .ok value => .ok value
  | .error error => .error { error }

/-- The functions of a module, under distinct signatures, after those already built. -/
def buildFunctions (module : Module) :
    Table Function → List FunctionImage → Except Refusal (Table Function)
  | built, [] => .ok built
  | built, image :: rest => do
    let function ← Refusal.silently (image.build module)
    if built.contains image.signature then
      throw {
        error := .keyAlreadyExists
        event := some (.functionRepeated module.name image.signature) }
    buildFunctions module (built.add image.signature function) rest

/-- What a module brings to the registry. -/
structure Bundle where
  /-- The module. -/
  module : Module
  /-- Its initializer. -/
  initializer : ScriptFunction
  /-- Its object types. -/
  schemas : List Schema
  /-- Its functions. -/
  functions : Table Function
  /-- Its globals. -/
  globals : List String

/-- Builds all that a module brings. -/
def Image.build (image : Image) (module : Module) : Except Refusal Bundle := do
  let schemas ← Refusal.silently (image.objects.mapM ObjectImage.build)
  let functions ← buildFunctions module {} image.functions
  let body ← Refusal.silently (Body.create 0 module.initLength [] [])
  let initializer ← Refusal.silently
    (ScriptFunction.create (module.name ++ ".<init>") 0 0 module body)
  return ⟨module, initializer, schemas, functions, image.globals⟩

namespace Registry

/-- Adds an object type, or reports that the known one is kept. -/
def keepSchema (owner : String) (state : Registry × List Event) (schema : Schema) :
    Registry × List Event :=
  let (registry, events) := state
  if registry.schemas.contains schema.typeName then
    (registry, .typeKept owner schema.typeName :: events)
  else ({ registry with schemas := registry.schemas.add schema.typeName schema }, events)

/-- Adds a null global, or reports that the known one is kept. -/
def keepGlobal (owner : String) (state : Registry × List Event) (name : String) :
    Registry × List Event :=
  let (registry, events) := state
  if registry.globals.contains name then (registry, .globalKept owner name :: events)
  else ({ registry with globals := registry.globals.add name Ref.null }, events)

/-- Adds what a module brings, unless it redefines a function. Events are returned last first. -/
def install (registry : Registry) (bundle : Bundle) :
    Except Refusal (Registry × List Event) := do
  let name := bundle.module.name
  if let some signature := bundle.functions.names.find? registry.functions.contains then
    throw { error := .keyAlreadyExists, event := some (.functionRedefined name signature) }
  let state := bundle.schemas.foldl (keepSchema name) (registry, [])
  let (registry, events) := bundle.globals.foldl (keepGlobal name) state
  return ({ registry with
    functions := registry.functions.append bundle.functions
    initializers := registry.initializers.add name bundle.initializer
    modules := registry.modules.add name bundle.module }, events)

end Registry

namespace Machine

/-- A module that may be allocated: the machine is open, the image is sound, the name is new and
all dependencies are loaded. -/
def checkLoad (machine : Machine) (name : String) (image : Image) : Except Refusal Unit := do
  Refusal.silently machine.checkOpen
  match image.check with
  | .ok () => pure ()
  | .error flaw => throw { error := .invalidModule flaw }
  if machine.registry.modules.contains name then throw { error := .keyAlreadyExists }
  if let some missing := image.dependencies.find? (!machine.registry.modules.contains ·) then
    throw { error := .keyDoesNotExist, event := some (.dependencyMissing name missing) }

/-- Allocates string constants after those already allocated. -/
def allocateConstants (machine : Machine) :
    List String → Array Ref → Except Error (Array Ref) × Machine
  | [], constants => (.ok constants, machine)
  | text :: rest, constants =>
    match machine.checkRoom 1 with
    | .ok () =>
      let (handle, machine) := machine.allocate (.value (.string text)) false
      machine.allocateConstants rest (constants.push ⟨handle⟩)
    | .error error => (.error error, machine)

/-- Refuses a module. -/
def refuse (machine : Machine) (refusal : Refusal) : Except Error Unit × Machine :=
  (.error refusal.error, match refusal.event with
    | some event => machine.note event
    | none => machine)

/-- Loads a module under a name. -/
def load (machine : Machine) (name : String) (image : Image) : Except Error Unit × Machine :=
  match machine.checkLoad name image with
  | .error refusal => machine.refuse refusal
  | .ok () =>
    match machine.allocateConstants image.strings #[] with
    | (.error error, machine) => machine.refuse { error }
    | (.ok constants, machine) =>
      let module : Module := {
        name, constants
        dependencies := image.dependencies
        strings := image.strings.toArray
        code := image.code.toArray
        initLength := image.initLength.toNat }
      match image.build module >>= machine.registry.install with
      | .error refusal => machine.refuse refusal
      | .ok (registry, events) =>
        (.ok (), events.foldr (fun event machine => machine.note event) { machine with registry })

/-- Loads a module from its container under a name. -/
def loadContainer (machine : Machine) (name : String) (bytes : List UInt8) :
    Except Error Unit × Machine :=
  match Container.read bytes with
  | .ok image => machine.load name image
  | .error flaw =>
    let error := Error.invalidModule flaw
    machine.refuse { error, event := some (.moduleRejected name error) }

end Machine

end ScriptVm
