import ScriptVm.Proofs.Instruction.Disassembling
import ScriptVm.Proofs.Vm.Registry

/-!
# Disassembling loaded functions

A module that can be built is loaded by every machine that has room for its strings and knows
neither its name nor its functions. So whatever calls of an assembler wrote can be loaded as one
function, and the function is disassembled into what the calls wrote.
-/
namespace ScriptVm

namespace Machine

variable {machine : Machine} {name : String} {image : Image}

/-- Constants are allocated where there is room for all of them. -/
theorem exists_allocateConstants (orderly : machine.collector.Orderly) {texts : List String}
    (room : machine.heap.hasRoom texts.length = true) (constants : Array Ref) :
    ∃ result after, machine.allocateConstants texts constants = (.ok result, after) := by
  induction texts generalizing machine constants with
  | nil => exact ⟨constants, machine, rfl⟩
  | cons text texts hypothesis =>
    let allocated := machine.allocate (.value (.string text)) false
    have fine : allocated.2.collector.Orderly := orderly.allocate (.value (.string text)) false
    have grown : allocated.2.heap.population = machine.heap.population + 1 :=
      orderly.population_allocate _ _
    have total : machine.heap.population + (texts.length + 1) ≤ Heap.limit :=
      (orderly.lawful.hasRoom_iff _).mp room
    have one : machine.heap.hasRoom 1 = true :=
      (orderly.lawful.hasRoom_iff 1).mpr (show machine.heap.population + 1 ≤ Heap.limit by omega)
    have others : allocated.2.heap.hasRoom texts.length = true := (fine.lawful.hasRoom_iff _).mpr
      (show allocated.2.heap.population + texts.length ≤ Heap.limit by omega)
    obtain ⟨result, after, done⟩ := hypothesis fine others (constants.push ⟨allocated.1⟩)
    refine ⟨result, after, ?_⟩
    rw [allocateConstants, checkRoom, if_pos one]
    exact done

/-- An image without dependencies may be allocated under a new name. -/
theorem checkLoad_ok (opened : machine.closed = false) (checked : image.check = .ok ())
    (new : machine.registry.modules.contains name = false) (free : image.dependencies = []) :
    machine.checkLoad name image = .ok () := by
  simp [checkLoad, checkOpen, opened, checked, new, free, Refusal.silently]

/-- A load that is not refused at once succeeds where there is room for the strings, when all can be
built and the functions are new. -/
theorem exists_load (orderly : machine.collector.Orderly)
    (allowed : machine.checkLoad name image = .ok ())
    (room : machine.heap.hasRoom image.strings.length = true)
    (builds : ∀ constants, ∃ bundle, image.build (moduleOf name image constants) = .ok bundle)
    (new : ∀ function ∈ image.functions,
      machine.registry.functions.contains function.signature = false) :
    ∃ after, machine.load name image = (.ok (), after) := by
  obtain ⟨constants, middle, allocated⟩ := exists_allocateConstants orderly room #[]
  obtain ⟨bundle, built⟩ := builds constants
  have litters := machine.litters_allocateConstants image.strings #[]
  rw [allocated] at litters
  have unknown : bundle.functions.names.find? middle.registry.functions.contains = none := by
    rw [litters.registry]
    refine List.find?_eq_none.mpr fun signature member => ?_
    obtain ⟨entry, listed, rfl⟩ := List.mem_map.mp member
    obtain ⟨function, declared, same, -⟩ :=
      exists_of_forall₂ (Image.build_declared built).functions listed
    rw [same, new function declared]
    exact Bool.false_ne_true
  have installs : ∃ changed events, middle.registry.install bundle = .ok (changed, events) := by
    simp only [Registry.install, unknown]
    exact ⟨_, _, rfl⟩
  obtain ⟨changed, events, installed⟩ := installs
  unfold moduleOf at built
  simp only [load, allowed, allocated, built]
  simp only [Bind.bind, Except.bind, installed]
  exact ⟨_, rfl⟩

end Machine

namespace Draft

variable {writings : List Writing} {signature : String} {parameters returns : UInt16}

/-- A declared function that covers all of the code that calls wrote. -/
def covering (writings : List Writing) (signature : String) (parameters returns : UInt16) :
    FunctionImage :=
  ⟨signature, false, parameters, returns, 0, UInt32.ofNat (offset writings), [], []⟩

/-- The module of what calls wrote, with one function that covers all of the code. -/
def image (writings : List Writing) (signature : String) (parameters returns : UInt16) : Image :=
  { (Draft.of writings).assembler.finish with
    functions := [covering writings signature parameters returns] }

/-- The function of a module that covers all of the code that calls wrote. -/
def function (module : Module) (writings : List Writing) (signature : String)
    (parameters returns : UInt16) : ScriptFunction :=
  ⟨signature, parameters, returns, module, ⟨0, offset writings, [], []⟩⟩

/-- The range of the function ends with the code. -/
theorem covering_stop (small : offset writings < 2 ^ 31) :
    (covering writings signature parameters returns).start.toNat +
      (covering writings signature parameters returns).length.toNat = offset writings := by
  have word : (UInt32.ofNat (offset writings)).toNat = offset writings :=
    UInt32.toNat_ofNat_of_lt' (by simp only [UInt32.size]; omega)
  exact (Nat.zero_add _).trans word

/-- The function lies inside the code. -/
theorem check_image (small : offset writings < 2 ^ 31) :
    (image writings signature parameters returns).check = .ok () := by
  let size := (image writings signature parameters returns).code.length
  have covered :
      Image.checkFunction size (covering writings signature parameters returns) = .ok () := by
    rw [Image.checkFunction, covering_stop small]
    exact if_neg (Nat.not_lt.mpr (Nat.le_of_eq Array.length_toList.symm))
  rw [Image.check]
  refine (if_neg (Nat.not_lt_zero _)).trans ?_
  show (do Image.checkFunction size _; pure ()) = _
  rw [covered]
  rfl

/-- The function can be built. -/
theorem build_covering (small : offset writings < 2 ^ 31) {module : Module}
    (code : module.code.size = offset writings) :
    (covering writings signature parameters returns).build module =
      .ok (.script (function module writings signature parameters returns)) := by
  have word : offset writings < UInt32.size := by
    simp only [UInt32.size]
    omega
  have bodied : Body.create (covering writings signature parameters returns).start.toNat
      (covering writings signature parameters returns).length.toNat [] [] =
        .ok ⟨0, offset writings, [], []⟩ := by
    rw [Body.create, rangeEnd, covering_stop small, if_pos word]
    rfl
  have scripted : ScriptFunction.create signature parameters returns module
      ⟨0, offset writings, [], []⟩ = .ok (function module writings signature parameters returns) :=
    if_neg (by rw [code]; exact Nat.lt_irrefl _)
  show (do
    let body ← Body.create (covering writings signature parameters returns).start.toNat
      (covering writings signature parameters returns).length.toNat [] []
    return Function.script
      (← ScriptFunction.create signature parameters returns module body)) = _
  rw [bodied]
  show (do
    return Function.script (← ScriptFunction.create signature parameters returns module _)) = _
  rw [scripted]
  rfl

/-- The module can be built. -/
theorem exists_build (small : offset writings < 2 ^ 31) {module : Module}
    (code : module.code.size = offset writings) (length : module.initLength = 0) :
    ∃ bundle, (image writings signature parameters returns).build module = .ok bundle := by
  have functions : buildFunctions module {} [covering writings signature parameters returns] =
      .ok (Table.add {} signature
        (.script (function module writings signature parameters returns))) := by
    rw [buildFunctions, build_covering small code]
    rfl
  refine ⟨⟨module, ⟨module.name ++ ".<init>", 0, 0, module, ⟨0, 0, [], []⟩⟩, [],
    Table.add {} signature (.script (function module writings signature parameters returns)),
    []⟩, ?_⟩
  simp only [Image.build, image, Assembler.finish, functions, length]
  rfl

/-- The function of the module is found once the module has been added. -/
theorem find?_of_adds {registry after : Registry} {module : Module}
    (adds : registry.Adds module (image writings signature parameters returns) after)
    (new : registry.functions.contains signature = false) :
    ∃ function, after.functions.find? signature = some (.script function) ∧
      (covering writings signature parameters returns).DeclaresScript module function := by
  obtain ⟨added, shape, declares, -⟩ := adds.functions
  obtain ⟨⟨name, known⟩, rest, ⟨same, declared⟩, none, rfl⟩ :=
    List.forall₂_cons_left_iff.mp declares
  obtain rfl : name = signature := same
  obtain rfl := List.forall₂_nil_left_iff.mp none
  have unknown : registry.functions.find? name = Option.none := by
    simpa [Table.contains] using new
  cases known with
  | host function => exact absurd declared.1 Bool.false_ne_true
  | script function =>
    refine ⟨function, ?_, declared⟩
    rw [Table.find?] at unknown ⊢
    rw [shape, List.lookup_append, unknown]
    exact List.lookup_cons_self

end Draft

/-- A function is disassembled into what calls wrote. It covers all of the code, and the texts of
its listing show what the calls wrote. -/
structure ScriptFunction.Shows (function : ScriptFunction) (writings : List Writing) : Prop where
  /-- It starts with the code. -/
  start : function.body.start = 0
  /-- It ends with the code. -/
  stop : function.body.stop = Draft.offset writings
  /-- The texts of its listing show what the calls wrote. -/
  texts : ∃ texts, (Function.script function).listing = .ok texts ∧
    Draft.ShownBy writings function.module.strings function.module.code texts

namespace Vm

variable {fresh vm : Vm} {config : Config}

/-- Whatever calls of an assembler wrote, a virtual machine loads it as one function, which is
disassembled into what the calls wrote. -/
theorem disassembled_of_runs (made : create config = .ok fresh) (runs : RunsBy Call.Proper fresh vm)
    {writings : List Writing} (small : Draft.offset writings < 2 ^ 31)
    (opened : vm.machine.closed = false)
    (room : vm.machine.heap.hasRoom (Draft.strings writings).size = true) {name : String}
    (newName : vm.machine.registry.modules.contains name = false) {signature : String}
    (newSignature : vm.machine.registry.functions.contains signature = false)
    (parameters returns : UInt16) :
    Draft.Patchable writings ∧ ∃ after function,
      vm.machine.load name (Draft.image writings signature parameters returns) = (.ok (), after) ∧
      after.function signature = .ok (.script function) ∧ function.Shows writings := by
  have orderly := ((intact_create made).upholds_runs runs).intact.stocked.orderly
  have few : (Draft.strings writings).size ≤ UInt32.size :=
    Nat.le_trans (Nat.le_add_left _ _) ((orderly.lawful.hasRoom_iff _).mp room)
  refine ⟨Draft.patchable small few, ?_⟩
  obtain ⟨after, loaded⟩ := Machine.exists_load orderly
    (Machine.checkLoad_ok opened (Draft.check_image small) newName rfl)
    (show vm.machine.heap.hasRoom (Draft.strings writings).toList.length = true by
      rw [Array.length_toList]; exact room)
    (fun constants => Draft.exists_build small rfl rfl)
    (List.forall_mem_singleton.mpr newSignature)
  obtain ⟨constants, -, adds⟩ := (Machine.loads_of_ok orderly loaded).adds
  obtain ⟨function, found, declares⟩ := Draft.find?_of_adds adds newSignature
  refine ⟨after, function, loaded, by rw [Machine.function, found]; rfl, declares.start, ?_, ?_⟩
  · rw [declares.stop, Draft.covering_stop small]
  · obtain ⟨lines, assembled⟩ := Assembled.of_writings writings small few
    obtain ⟨texts, listed, shown⟩ := assembled.listing
    have strings : function.module.strings = Draft.strings writings := by rw [declares.module]; rfl
    have code : function.module.code = (Draft.of writings).assembler.code := by
      rw [declares.module]; rfl
    refine ⟨texts, ?_, strings ▸ code ▸ shown⟩
    rw [Function.listing, strings, code, declares.start, declares.stop, Draft.covering_stop small]
    exact listed

/-- A module is loaded after another one. Its function branches back to its start, and a forward
branch leads to that branch. -/
theorem disassembled_of_runs_looping : ∃ fresh vm writings, create {} = .ok fresh ∧
    RunsBy Call.Proper fresh vm ∧ Draft.offset writings = 21 ∧
    Draft.strings writings = #["text"] ∧ Draft.Patchable writings ∧
    ∃ after function,
      vm.machine.load "main" (Draft.image writings "script" 0 0) = (.ok (), after) ∧
      after.function "script" = .ok (.script function) ∧ function.Shows writings := by
  let writings : List Writing :=
    [.emit ⟨.loadConstant, 0, .string "text", ()⟩, .branch none, .emit ⟨.nop, ()⟩, .patch 0,
      .branchTo 0, .name "text"]
  let fresh : Vm := { machine := { config := {}, registry := .initial, collector := .create 32 } }
  have made : create {} = .ok fresh := rfl
  have runs : RunsBy Call.Proper fresh (fresh.perform (.load "base" {})) :=
    .single ⟨.load "base" {}, proper_of_quiet _ _ rfl, rfl⟩
  have offset : Draft.offset writings = 21 := by decide +kernel
  have strings : Draft.strings writings = #["text"] := by decide +kernel
  exact ⟨fresh, _, writings, made, runs, offset, strings,
    disassembled_of_runs made runs (by rw [offset]; decide) rfl (by rw [strings]; decide +kernel)
      (by decide +kernel) (by decide +kernel) 0 0⟩

end Vm

end ScriptVm
