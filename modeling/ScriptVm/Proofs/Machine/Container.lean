import ScriptVm.Machine.Load
import ScriptVm.Proofs.Image.Container

/-!
# Loading from a container

A machine does with the container of a module what it does with the module.
-/
namespace ScriptVm

/-- A handler of anything but objects is built without a class. -/
@[simp] theorem HandlerImage.build_erased (handler : HandlerImage) :
    handler.erased.build = handler.build := by
  obtain ⟨kind, className, offset⟩ := handler
  cases kind <;> rfl

/-- A guarded range is built without the classes that its handlers do not use. -/
@[simp] theorem BlockImage.build_erased (block : BlockImage) :
    block.erased.build = block.build := by
  simp only [build, erased, List.foldlM_map, HandlerImage.build_erased]

/-- A function is built without the classes that its handlers do not use. -/
@[simp] theorem FunctionImage.build_erased (module : Module) (function : FunctionImage) :
    function.erased.build module = function.build module := by
  simp only [build, erased, List.mapM_map, Function.comp_def, BlockImage.build_erased]

/-- Functions are built without the classes that their handlers do not use. -/
theorem buildFunctions_erased (module : Module) (built : Table Function)
    (functions : List FunctionImage) :
    buildFunctions module built (functions.map FunctionImage.erased) =
      buildFunctions module built functions := by
  induction functions generalizing built with
  | nil => rfl
  | cons function rest hypothesis =>
    have same : function.erased.signature = function.signature := rfl
    simp only [List.map_cons, buildFunctions, FunctionImage.build_erased, same, hypothesis]

/-- A module is built without the classes that its handlers do not use. -/
theorem Image.build_erased (image : Image) (module : Module) :
    image.erased.build module = image.build module := by
  simp only [build, erased, buildFunctions_erased]

namespace Machine

/-- A module is loaded without the classes that its handlers do not use. -/
theorem load_erased (machine : Machine) (name : String) (image : Image) :
    machine.load name image.erased = machine.load name image := by
  have allowed : machine.checkLoad name image.erased = machine.checkLoad name image := by
    unfold checkLoad
    rw [image.check_erased]
    rfl
  unfold load
  rw [allowed]
  simp only [image.build_erased]
  rfl

end Machine

namespace Container

/-- In either byte order, a container is written for a module exactly when the module is sound, no
text written has a zero byte, every handler of objects has a class, and every count, table offset
and table length fits in a 32-bit word. What is read from the container is the module, less the
classes of the handlers that do not catch objects, and every machine does with the container what it
does with the module. -/
theorem written_iff_fits (order : ByteOrder) (image : Image) :
    ((∃ bytes, write order image = .ok bytes) ↔
      image.check = .ok () ∧ image.contents.Fits ∧
        ∀ extent ∈ extents headerLength image.tableLengths,
          extent.1 < UInt32.size ∧ extent.2 < UInt32.size) ∧
    ∀ bytes, write order image = .ok bytes →
      read bytes = .ok image.erased ∧
        ∀ (machine : Machine) name, machine.loadContainer name bytes = machine.load name image := by
  refine ⟨exists_write_iff, ?_⟩
  intro bytes written
  have back := read_write written
  refine ⟨back, ?_⟩
  intro machine name
  rw [Machine.loadContainer, back]
  exact machine.load_erased name image

/-- A module with a native function that has an object handler and a handler with an idle class. -/
def idleClass : Image where
  functions := [⟨"f", true, 0, 0, 0, 0, [],
    [⟨0, 9, [⟨.object, some "E", 1⟩, ⟨.string, some "E", 2⟩]⟩]⟩]

/-- An idle class is lost in a container, and the module is loaded as it is without it. -/
theorem written_iff_fits_idleClass : ∃ bytes, write .big idleClass = .ok bytes ∧
    read bytes = .ok idleClass.erased ∧ idleClass.erased ≠ idleClass ∧
    ∀ (machine : Machine) name,
      machine.loadContainer name bytes = machine.load name idleClass := by
  obtain ⟨writes, reads⟩ := written_iff_fits .big idleClass
  obtain ⟨bytes, written⟩ := writes.mpr
    ⟨rfl, ⟨by decide +kernel, by decide +kernel, by decide +kernel⟩,
      by decide +kernel⟩
  obtain ⟨back, loads⟩ := reads bytes written
  exact ⟨bytes, written, back, by decide +kernel, loads⟩

end Container

end ScriptVm
