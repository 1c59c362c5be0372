import ScriptVm.Proofs.Execution.Roots
import ScriptVm.Proofs.Machine.Moves
import ScriptVm.Proofs.Step.Runs
import ScriptVm.Proofs.Value

/-!
# What instructions do to the heap

Every instruction is a sequence of moves, whether it faults or not: it stores references that it
has read from the frame, from the parameters, from globals, from constants or through reached
proxies, or that it has just allocated. The rules for sequencing carry along which references are
held meanwhile.
-/
namespace ScriptVm

/-- Handles of either sort are held. -/
def either (held more : Handle → Prop) : Handle → Prop := fun handle => held handle ∨ more handle

namespace Scene

/-- The roots of a scene, next to those of all executions before the instruction. -/
def running (scene : Scene) (others : Handle → Prop) : Handle → Prop := fun handle =>
  others handle ∨ handle ∈ scene.parameters.toList.map Ref.handle ∨ handle ∈ scene.frame.roots

/-- What is reached in a scene. -/
def Reaches (scene : Scene) (others held : Handle → Prop) : Handle → Prop :=
  scene.machine.Reaches (scene.running others) held

/-- The machine of a scene is sound, and the called function is good. -/
structure Sound (good : Function → Prop) (scene : Scene) : Prop where
  /-- The machine is sound. -/
  machine : scene.machine.Sound good
  /-- The called function is good. -/
  frame : good (.script scene.frame.function)

/-- A scene comes from another by moves of the machine, and it is sound. -/
structure Leads (good : Function → Prop) (others : Handle → Prop) (scene : Scene)
    (held : Handle → Prop) (after : Scene) (held' : Handle → Prop) : Prop where
  /-- The moves. -/
  machine : scene.machine.Leads good (scene.running others) held after.machine
    (after.running others) held'
  /-- The called function is good. -/
  frame : good (.script after.frame.function)

/-- The scene after moves is sound. -/
theorem Leads.sound {good : Function → Prop} {others held held' : Handle → Prop}
    {scene after : Scene} (leads : scene.Leads good others held after held') : after.Sound good :=
  ⟨leads.machine.sound, leads.frame⟩

end Scene

namespace Step

variable {α β : Type} {good : Function → Prop} {others held : Handle → Prop} {scene : Scene}

/-- A part moves the scene. When it goes on, further handles are held for its result, and the
result with the scene after it meets a condition. -/
def Leads (good : Function → Prop) (others : Handle → Prop) (part : Step α) (scene : Scene)
    (held : Handle → Prop) (gives : α → Handle → Prop) (post : α → Scene → Prop) : Prop :=
  match part.run scene with
  | .ok value after =>
    scene.Leads good others held after (either held (gives value)) ∧ post value after
  | .error _ after => scene.Leads good others held after held

/-- No handle is held for a result. -/
def nothing : α → Handle → Prop := fun _ _ => False

/-- The handle of a resulting reference is held. -/
def itself : Ref → Handle → Prop := fun reference handle => handle = reference.handle

/-- No condition. -/
def anything : α → Scene → Prop := fun _ _ => True

namespace Leads

variable {gives : α → Handle → Prop} {post : α → Scene → Prop}

/-- Moving the scene is leaving it so, in either way. -/
theorem iff_leaves {part : Step α} : Leads good others part scene held gives post ↔
    part.Leaves scene
      (fun value after =>
        scene.Leads good others held after (either held (gives value)) ∧ post value after)
      (scene.Leads good others held · held) :=
  Iff.rfl

/-- A part that goes on. -/
theorem of_goes {part : Step α} {value : α} {after : Scene}
    (goes : part.run scene = .ok value after)
    (leads : scene.Leads good others held after (either held (gives value)))
    (meets : post value after) : Leads good others part scene held gives post :=
  iff_leaves.mpr (.of_ok goes ⟨leads, meets⟩)

/-- A part that leaves the scene and gives what is reached. -/
theorem of_ok (sound : scene.Sound good) {part : Step α} {value : α}
    (goes : part.run scene = .ok value scene)
    (reached : ∀ handle, gives value handle → scene.Reaches others held handle)
    (meets : post value scene) : Leads good others part scene held gives post := by
  refine of_goes goes ⟨(Machine.Leads.refl sound.machine).exchange ?_, sound.frame⟩ meets
  rintro handle (holds | given)
  · exact Machine.reaches_of_held holds
  · exact reached handle given

/-- A part that moves the scene and faults. -/
theorem of_fault {part : Step α} {fault : Fault} {after : Scene}
    (stops : part.run scene = .error fault after)
    (leads : scene.Leads good others held after held) :
    Leads good others part scene held gives post :=
  iff_leaves.mpr (.of_error stops leads)

/-- A part that leaves the scene and faults. -/
theorem of_error (sound : scene.Sound good) {part : Step α} {fault : Fault}
    (stops : part.run scene = .error fault scene) :
    Leads good others part scene held gives post :=
  of_fault stops ⟨.refl sound.machine, sound.frame⟩

/-- One part after the other. What was held for the result of the first is not held at the end. -/
theorem bind {first : Step α} {second : α → Step β} {gives' : β → Handle → Prop}
    {post' : β → Scene → Prop} (start : Leads good others first scene held gives post)
    (next : ∀ value after, after.Sound good → post value after →
      Leads good others (second value) after (either held (gives value)) gives' post') :
    Leads good others (first >>= second) scene held gives' post' := by
  refine iff_leaves.mpr ((iff_leaves.mp start).bind fun value middle led => ?_)
  obtain ⟨leads, meets⟩ := led
  refine (iff_leaves.mp (next value middle leads.sound meets)).mono ?_ ?_
  · rintro result after ⟨rest, ends⟩
    refine ⟨⟨(leads.machine.trans rest.machine).forget ?_, rest.frame⟩, ends⟩
    rintro handle (holds | given)
    · exact .inl (.inl holds)
    · exact .inr given
  · intro after rest
    exact ⟨(leads.machine.trans rest.machine).forget fun _ holds => .inl holds, rest.frame⟩

/-- A result without conditions. -/
theorem pure (sound : scene.Sound good) (value : α) :
    Leads good others (Pure.pure value : Step α) scene held nothing anything :=
  of_ok sound rfl (fun _ none => none.elim) trivial

/-- A weaker condition, and fewer handles held. -/
theorem weaken {part : Step α} {gives' : α → Handle → Prop} {post' : α → Scene → Prop}
    (leads : Leads good others part scene held gives post)
    (fewer : ∀ value handle, gives' value handle → gives value handle)
    (weaker : ∀ value after, post value after → post' value after) :
    Leads good others part scene held gives' post' := by
  refine iff_leaves.mpr ((iff_leaves.mp leads).mono ?_ fun _ => id)
  rintro value after ⟨led, meets⟩
  refine ⟨⟨led.machine.forget ?_, led.frame⟩, weaker value after meets⟩
  rintro handle (holds | given)
  · exact .inl holds
  · exact .inr (fewer value handle given)

/-- The run of another part from the same scene. -/
theorem of_run {part other : Step α} (same : part.run scene = other.run scene)
    (leads : Leads good others other scene held gives post) :
    Leads good others part scene held gives post :=
  iff_leaves.mpr (.of_run same (iff_leaves.mp leads))

end Leads

/-! ## Parts that read -/

section Reads

variable {gives : α → Handle → Prop} {post : α → Scene → Prop}

/-- Taking the result of a lookup. -/
theorem leads_orFault (sound : scene.Sound good) {result : Except Error α}
    (reached : ∀ value, result = .ok value → ∀ handle, gives value handle →
      scene.Reaches others held handle) :
    Leads good others (orFault result) scene held gives
      (fun value after => after = scene ∧ result = .ok value) := by
  cases result with
  | ok value => exact .of_ok sound rfl (reached value rfl) ⟨rfl, rfl⟩
  | error error => exact .of_error sound rfl

/-- Taking the result of a lookup for which nothing is held. -/
theorem leads_lookup (sound : scene.Sound good) (result : Except Error α) :
    Leads good others (orFault result) scene held nothing
      (fun value after => after = scene ∧ result = .ok value) :=
  leads_orFault sound fun _ _ _ none => none.elim

/-- Taking what was found. -/
theorem leads_found (sound : scene.Sound good) {fault : Fault} {result : Option α}
    (reached : ∀ value, result = some value → ∀ handle, gives value handle →
      scene.Reaches others held handle) :
    Leads good others (found fault result) scene held gives
      (fun value after => after = scene ∧ result = some value) := by
  cases result with
  | some value => exact .of_ok sound rfl (reached value rfl) ⟨rfl, rfl⟩
  | none => exact .of_error sound rfl

end Reads

end Step

/-! ## Where references are found -/

namespace Scene

variable {good : Function → Prop} {others held : Handle → Prop} {scene : Scene}

/-- What a frame keeps alive is reached. -/
theorem reaches_frame {handle : Handle} (member : handle ∈ scene.frame.roots) :
    scene.Reaches others held handle :=
  Machine.reaches_of_running (.inr (.inr member))

/-- A parameter register's reference is reached. -/
theorem reaches_parameter {index : Nat} {value : Ref}
    (found : scene.parameters[index]? = some value) : scene.Reaches others held value.handle := by
  obtain ⟨inside, rfl⟩ := Vector.getElem?_eq_some_iff.mp found
  refine Machine.reaches_of_running (.inr (.inl (List.mem_map.mpr ⟨_, ?_, rfl⟩)))
  exact Vector.mem_toList_iff.mpr (Vector.getElem_mem inside)

end Scene

namespace Step

variable {α : Type} {good : Function → Prop} {others held : Handle → Prop} {scene : Scene}

/-- A part leaves the scene as it is. -/
def unchanged (scene : Scene) : α → Scene → Prop := fun _ after => after = scene

/-- Looking a name up. -/
theorem leads_name (sound : scene.Sound good) (index : UInt32) :
    Leads good others (name index) scene held nothing (unchanged scene) := by
  refine .of_run (run_name scene index) ?_
  exact (leads_lookup sound _).weaken (fun _ _ given => given) fun _ _ meets => meets.1

/-- Reading a register. -/
theorem leads_register (sound : scene.Sound good) (index : UInt32) :
    Leads good others (register index) scene held itself (unchanged scene) := by
  refine .of_run (run_register scene index) ?_
  refine Leads.weaken (leads_orFault sound ?_) (fun _ _ given => given) fun _ _ meets => meets.1
  rintro value found _ rfl
  exact Scene.reaches_frame (Activation.mem_roots_of_register found)

/-- Reading a parameter register. -/
theorem leads_parameter (sound : scene.Sound good) (index : Nat) :
    Leads good others (parameter index) scene held itself (unchanged scene) := by
  refine .of_run (run_parameter scene index) ?_
  refine Leads.weaken (leads_orFault sound ?_) (fun _ _ given => given) fun _ _ meets => meets.1
  rintro value found _ rfl
  exact Scene.reaches_parameter (Error.orElse_eq_ok.mp found)

/-- The children of a value are held. -/
def children : Value → Handle → Prop := fun value handle => handle ∈ (Cell.value value).children

/-- Reading a value: its children are reached, and a function is a good one. -/
theorem leads_value (sound : scene.Sound good) {reference : Ref}
    (reached : scene.Reaches others held reference.handle) :
    Leads good others (value reference) scene held children fun value after =>
      after = scene ∧ scene.machine.heap.value? reference = some value ∧
        ∀ function, value = .function function → good function := by
  refine .of_run (run_value scene reference) ?_
  refine Leads.weaken (leads_found sound ?_) (fun _ _ given => given) ?_
  · intro value found handle given
    obtain ⟨proxy, resolved, cell⟩ := Heap.proxy?_of_value? found
    exact Machine.reaches_child reached resolved (cell ▸ given)
  · rintro value after ⟨rfl, found⟩
    refine ⟨rfl, found, ?_⟩
    rintro function rfl
    obtain ⟨proxy, resolved, cell⟩ := Heap.proxy?_of_value? found
    exact sound.machine.cells _ proxy function resolved cell

/-- Looking a function up. -/
theorem leads_function (sound : scene.Sound good) (signature : String) :
    Leads good others (function signature) scene held nothing fun function after =>
      after = scene ∧ good function := by
  refine .of_run (run_function scene signature) ?_
  refine Leads.weaken (leads_found sound fun _ _ _ none => none.elim) (fun _ _ given => given) ?_
  rintro function after ⟨rfl, found⟩
  exact ⟨rfl, sound.machine.functions function (Table.mem_values_of_find? found)⟩

/-! ## Parts that write -/

/-- A reference is stored in the frame or in the parameters, and it is shaded. -/
theorem leads_store (sound : scene.Sound good) {part : Step α} {result : α} {value : Ref}
    {parameters : Vector Ref parameterCount} {frame : Activation}
    (goes : part.run scene = .ok result ⟨scene.machine.shade value, parameters, frame⟩)
    (reached : scene.Reaches others held value.handle)
    (function : frame.function = scene.frame.function)
    (inParameters : ∀ reference ∈ parameters, reference ∈ scene.parameters ∨ reference = value)
    (inFrame : ∀ handle ∈ frame.roots, handle ∈ scene.frame.roots ∨ handle = value.handle) :
    Leads good others part scene held nothing anything := by
  refine .of_goes goes ⟨?_, function ▸ sound.frame⟩ trivial
  have stored : scene.machine.Leads good (scene.running others) held (scene.machine.shade value)
      (Scene.running ⟨scene.machine.shade value, parameters, frame⟩ others) held := by
    refine Machine.leads_store sound.machine reached rfl rfl ?_
    intro category handle root
    cases category with
    | constants | globals | functions => exact .inl root
    | executions =>
      rcases root with before | parameter | member
      · exact .inl (.inl before)
      · obtain ⟨reference, inside, rfl⟩ := List.mem_map.mp parameter
        rcases inParameters reference (Vector.mem_toList_iff.mp inside) with earlier | rfl
        · exact .inl (.inr (.inl (List.mem_map.mpr
            ⟨reference, Vector.mem_toList_iff.mpr earlier, rfl⟩)))
        · exact .inr rfl
      · exact (inFrame handle member).imp (fun earlier => .inr (.inr earlier)) id
  apply stored.forget
  rintro handle (holds | none)
  · exact holds
  · exact none.elim

/-- A reference is stored in the frame, and it is shaded. -/
theorem leads_storeInFrame (sound : scene.Sound good) {part : Step α} {result : α} {value : Ref}
    {frame : Activation}
    (goes : part.run scene = .ok result { scene with machine := scene.machine.shade value, frame })
    (reached : scene.Reaches others held value.handle) (stores : scene.frame.Stores value frame) :
    Leads good others part scene held nothing anything :=
  leads_store sound goes reached stores.function (fun _ member => .inl member) stores.roots

/-- Writing a register. -/
theorem leads_setRegister (sound : scene.Sound good) (index : UInt32) {value : Ref}
    (reached : scene.Reaches others held value.handle) :
    Leads good others (setRegister index value) scene held nothing anything := by
  have run := run_setRegister scene index value
  split at run
  · rename_i frame done
    exact leads_storeInFrame sound run reached (Activation.stores_setRegister done)
  · exact .of_error sound run

/-- Writing a parameter register. -/
theorem leads_setParameter (sound : scene.Sound good) (index : Nat) {value : Ref}
    (reached : scene.Reaches others held value.handle) :
    Leads good others (setParameter index value) scene held nothing anything := by
  have run := run_setParameter scene index value
  split at run
  · exact leads_store sound run reached rfl (fun _ member => mem_of_mem_setIfInBounds member)
      fun _ member => .inl member
  · exact .of_error sound run

/-- A part that changes the frame alone, which gets no new root. -/
theorem leads_frame (sound : scene.Sound good) {part : Step α} {result : α} {frame : Activation}
    {gives : α → Handle → Prop} (goes : part.run scene = .ok result { scene with frame })
    (function : frame.function = scene.frame.function)
    (roots : ∀ handle ∈ frame.roots, handle ∈ scene.frame.roots)
    (reached : ∀ handle, gives result handle → scene.Reaches others held handle) :
    Leads good others part scene held gives anything := by
  refine .of_goes goes ⟨⟨.single (.weaken ?_ ?_), sound.machine, rfl⟩, function ▸ sound.frame⟩
    trivial
  · intro category handle root
    cases category with
    | constants | globals | functions => exact .inl root
    | executions =>
      rcases root with before | parameter | member
      · exact .inl (.inl before)
      · exact .inl (.inr (.inl parameter))
      · exact .inl (.inr (.inr (roots handle member)))
  · rintro handle (holds | given)
    · exact Machine.reaches_of_held holds
    · exact reached handle given

/-- A part that changes the machine alone, by moves. -/
theorem leads_machine (sound : scene.Sound good) {part : Step α} {result : α} {machine : Machine}
    {gives : α → Handle → Prop} {held' : Handle → Prop}
    (goes : part.run scene = .ok result { scene with machine })
    (leads : scene.machine.Leads good (scene.running others) held machine (scene.running others)
      held')
    (given : ∀ handle, held handle ∨ gives result handle → held' handle) :
    Leads good others part scene held gives anything :=
  .of_goes goes ⟨leads.forget given, sound.frame⟩ trivial

/-- Making a value. -/
theorem leads_newValue (sound : scene.Sound good) {value : Value}
    (reached : ∀ child ∈ (Cell.value value).children, scene.Reaches others held child)
    (fine : ∀ function, value = .function function → good function) :
    Leads good others (newValue value) scene held itself anything := by
  have run := run_newValue scene value
  split at run
  · refine leads_machine sound run
      (Machine.leads_allocate sound.machine false reached ?_) fun _ given => given
    intro function same
    exact fine function (by simpa using same)
  · exact .of_error sound run

/-- The rest of a part after a name, a reference or a function was looked up. -/
theorem Leads.bind_unchanged {β : Type} {first : Step α} {second : α → Step β}
    {gives : α → Handle → Prop} {gives' : β → Handle → Prop} {post' : β → Scene → Prop}
    (start : Leads good others first scene held gives (unchanged scene))
    (next : ∀ value, Leads good others (second value) scene (either held (gives value)) gives'
      post') :
    Leads good others (first >>= second) scene held gives' post' := by
  refine start.bind ?_
  rintro value after _ rfl
  exact next value

/-- What was reached before a result is reached with it. -/
theorem reaches_still {more : Handle → Prop} {handle : Handle}
    (reached : scene.Reaches others held handle) : scene.Reaches others (either held more) handle :=
  Machine.reaches_mono reached fun _ holds => .inl holds

/-- A handle held for a result is reached. -/
theorem reaches_given {gives : α → Handle → Prop} {result : α} {handle : Handle}
    (given : gives result handle) : scene.Reaches others (either held (gives result)) handle :=
  Machine.reaches_of_held (.inr given)

/-- A resulting reference is reached. -/
theorem reaches_itself {value : Ref} :
    scene.Reaches others (either held (itself value)) value.handle :=
  reaches_given rfl

/-- The result of a part is dropped. -/
theorem Leads.discard {part : Step α} {gives : α → Handle → Prop} {post : α → Scene → Prop}
    (leads : Leads good others part scene held gives post) :
    Leads good others (Functor.discard part) scene held nothing anything := by
  refine Leads.iff_leaves.mpr ((Leads.iff_leaves.mp leads).discard.mono ?_ fun _ => id)
  rintro _ after ⟨value, led, _⟩
  refine ⟨⟨led.machine.forget ?_, led.frame⟩, trivial⟩
  rintro handle (holds | none)
  · exact .inl holds
  · exact none.elim

end Step

namespace Place

open Step

variable {good : Function → Prop} {others held : Handle → Prop} {scene : Scene}

/-- The container that a place is in is held. -/
def container : Place → Handle → Prop
  | .member target _ | .element target _ => fun handle => handle = target.handle
  | _ => fun _ => False

/-- Looking up what a site addresses. -/
theorem leads_resolve (sound : scene.Sound good) (site : Site)
    (operands : Operands UInt32 site.shapes) :
    Leads good others (resolve site operands) scene held container (unchanged scene) := by
  match site, operands with
  | .global, (name, ()) =>
    refine (leads_name sound name).bind_unchanged fun name => ?_
    exact .of_ok sound rfl (fun _ none => none.elim) rfl
  | .local, (name, ()) =>
    refine (leads_name sound name).bind_unchanged fun name => ?_
    exact .of_ok sound rfl (fun _ none => none.elim) rfl
  | .parameter, (index, ()) => exact .of_ok sound rfl (fun _ none => none.elim) rfl
  | .member, (register, name, ()) =>
    refine (leads_name sound name).bind_unchanged fun name => ?_
    refine (leads_register sound register).bind_unchanged fun target => ?_
    exact .of_ok sound rfl (fun _ given => reaches_given given) rfl
  | .element, (register, index, ()) =>
    refine (leads_register sound register).bind_unchanged fun target => ?_
    exact .of_ok sound rfl (fun _ given => reaches_given given) rfl

/-- Looking an object up behind a reached reference: its members are reached. -/
theorem leads_object (sound : scene.Sound good) {target : Ref}
    (reached : scene.Reaches others held target.handle) :
    Leads good others (object target) scene held
      (fun found handle => ∃ member ∈ found.2.members, handle = member.handle)
      fun found after => after = scene ∧
        scene.machine.heap.object? found.1 = some found.2 := by
  have run := run_object scene target
  split at run
  · exact .of_error sound run
  · rename_i reference value
    split at run
    · exact .of_error sound run
    · rename_i object found
      refine .of_ok sound run ?_ ⟨rfl, found⟩
      rintro handle ⟨member, inside, rfl⟩
      obtain ⟨proxy, resolved, cell⟩ := Heap.proxy?_of_value? value
      obtain ⟨inner, resolved', cell'⟩ := Heap.proxy?_of_object? found
      have above : scene.Reaches others held reference.handle :=
        Machine.reaches_child reached resolved (by simp [cell, Cell.children])
      refine Machine.reaches_child above resolved' ?_
      rw [cell']
      exact List.mem_map.mpr ⟨member, Array.mem_toList_iff.mpr inside, rfl⟩
  · exact .of_error sound run

/-- Looking a member up. -/
theorem leads_memberOf (sound : scene.Sound good) (object : Object) (name : String) :
    Leads good others (memberOf object name) scene held nothing (unchanged scene) := by
  have run := run_memberOf scene object name
  split at run
  · exact .of_ok sound run (fun _ none => none.elim) rfl
  · exact .of_error sound run

/-- Reading a place: the reference is reached. -/
theorem leads_read (sound : scene.Sound good) {place : Place}
    (reached : ∀ handle, place.container handle → scene.Reaches others held handle) :
    Leads good others place.read scene held itself (unchanged scene) := by
  match place, reached with
  | .global name, _ =>
    refine .of_run (run_readGlobal scene name) ?_
    refine Leads.weaken (leads_found sound ?_) (fun _ _ given => given) fun _ _ meets => meets.1
    rintro value found _ rfl
    exact Machine.reaches_of_global found
  | .local name, _ =>
    refine .of_run (run_readLocal scene name) ?_
    refine Leads.weaken (leads_found sound ?_) (fun _ _ given => given) fun _ _ meets => meets.1
    rintro value found _ rfl
    exact Scene.reaches_frame (Activation.mem_roots_of_local found)
  | .parameter index, _ => exact leads_parameter sound index
  | .member target name, reached =>
    refine (leads_object sound (reached _ rfl)).bind ?_
    rintro ⟨reference, object⟩ after _ ⟨rfl, _⟩
    refine (leads_memberOf sound object name).bind_unchanged fun member => ?_
    refine Leads.weaken (leads_orFault sound ?_) (fun _ _ given => given) fun _ _ meets => meets.1
    rintro value found _ rfl
    have inside := Array.mem_of_getElem? (Error.orElse_eq_ok.mp found)
    exact Machine.reaches_of_held (.inl (.inr ⟨value, inside, rfl⟩))
  | .element target index, reached =>
    refine (leads_value sound (reached _ rfl)).bind ?_
    rintro content after _ ⟨rfl, _⟩
    cases content with
    | array items =>
      refine Leads.weaken (leads_found sound ?_) (fun _ _ given => given) fun _ _ meets => meets.1
      rintro value found _ rfl
      have inside := Array.mem_of_getElem? found
      refine reaches_given (List.mem_map.mpr ⟨value, ?_, rfl⟩)
      exact Array.mem_toList_iff.mpr inside
    | _ => exact .of_error sound rfl

/-- Writing a member. -/
theorem leads_writeMember (sound : scene.Sound good) {target value : Ref} (name : String)
    (container : scene.Reaches others held target.handle)
    (reached : scene.Reaches others held value.handle) :
    Leads good others (writeMember target name value) scene held nothing anything := by
  refine (leads_value sound reached).bind ?_
  rintro content after _ ⟨rfl, _⟩
  refine (leads_object sound (reaches_still container)).bind ?_
  rintro ⟨reference, object⟩ _ _ ⟨rfl, found⟩
  refine (leads_memberOf sound object name).bind_unchanged fun member => ?_
  dsimp only
  split
  · exact .of_error sound rfl
  · refine (leads_lookup sound (object.set member.index value)).bind ?_
    rintro changed _ _ ⟨rfl, done⟩
    refine leads_machine sound rfl (Machine.leads_setMember sound.machine found done
      (reaches_still (reaches_still (reaches_still (reaches_still reached))))) ?_
    rintro handle (holds | none)
    · exact holds
    · exact none.elim

/-- Writing an element. -/
theorem leads_writeElement (sound : scene.Sound good) {target value : Ref} (index : Nat)
    (reached : scene.Reaches others held value.handle) :
    Leads good others (writeElement target index value) scene held nothing anything := by
  have run := run_writeElement scene target index value
  split at run
  · exact .of_error sound run
  · split at run
    · exact .of_error sound run
    · rename_i items found
      split at run
      · refine leads_machine sound run
          (Machine.leads_setElement sound.machine found index reached) ?_
        rintro handle (holds | none)
        · exact holds
        · exact none.elim
      · exact .of_error sound run
    · exact .of_error sound run

/-- Writing a place. -/
theorem leads_write (sound : scene.Sound good) {place : Place} {value : Ref}
    (containers : ∀ handle, place.container handle → scene.Reaches others held handle)
    (reached : scene.Reaches others held value.handle) :
    Leads good others (place.write value) scene held nothing anything := by
  match place, containers with
  | .global name, _ =>
    have run := run_writeGlobal scene name value
    show Leads good others (writeGlobal name value) scene held nothing anything
    split at run
    · refine leads_machine sound run (Machine.leads_setGlobal sound.machine name reached) ?_
      rintro handle (holds | none)
      · exact holds
      · exact none.elim
    · exact .of_error sound run
  | .local name, _ =>
    have run := run_writeLocal scene name value
    show Leads good others (writeLocal name value) scene held nothing anything
    split at run
    · rename_i frame done
      exact leads_storeInFrame sound run reached (Activation.stores_setLocalValue done)
    · exact .of_error sound run
  | .parameter index, _ => exact leads_setParameter sound index reached
  | .member target name, containers =>
    exact leads_writeMember sound name (containers _ rfl) reached
  | .element target index, _ => exact leads_writeElement sound index reached

end Place

namespace Instruction

open Step

variable {good : Function → Prop} {others held : Handle → Prop} {scene : Scene}

/-- Branching. -/
theorem leads_jump (sound : scene.Sound good) (distance : Distance) :
    Leads good others (jump distance) scene held nothing anything := by
  have run := run_jump scene distance
  split at run
  · exact leads_frame sound run rfl (fun _ member => member) fun _ none => none.elim
  · exact .of_error sound run

/-- Taking a constant. -/
theorem leads_constant (sound : scene.Sound good) (constant : Constant UInt32) :
    Leads good others (Instruction.constant constant) scene held itself anything := by
  cases constant with
  | null => exact .of_ok sound rfl (by rintro _ rfl; exact sound.machine.reaches_null) trivial
  | bool value => exact leads_newValue sound (by simp [Cell.children]) (by simp)
  | integer kind value => exact leads_newValue sound (by simp [Cell.children]) (by simp)
  | binary kind value => exact leads_newValue sound (by simp [Cell.children]) (by simp)
  | string index =>
    refine .of_run (run_stringConstant scene index) ?_
    refine Leads.weaken (leads_orFault sound ?_) (fun _ _ given => given) fun _ _ _ => trivial
    rintro value found _ rfl
    have inside := Array.mem_of_getElem? (Error.orElse_eq_ok.mp found)
    exact sound.machine.reaches_constant sound.frame inside

/-- Making an object. -/
theorem leads_newObject (sound : scene.Sound good) (typeName : String) :
    Leads good others (newObject typeName) scene held itself anything := by
  have run := run_newObject scene typeName
  split at run
  · rename_i schema _
    split at run
    · exact leads_machine sound run (Machine.leads_newInstance sound.machine false
        (sound.machine.reaches_blank schema)) fun _ given => given
    · refine .of_fault run ⟨?_, sound.frame⟩
      exact Machine.leads_withScrap sound.machine (sound.machine.reaches_blank schema)
  · exact .of_error sound run

/-- Making an array. -/
theorem leads_newArray (sound : scene.Sound good) (length : Nat) :
    Leads good others (newArray length) scene held itself anything := by
  have run := run_newArray scene length
  split at run
  · exact .of_error sound run
  · refine .of_run run (leads_newValue sound ?_ (by simp))
    intro child listed
    obtain ⟨reference, member, rfl⟩ := List.mem_map.mp listed
    obtain ⟨_, rfl⟩ := Array.mem_replicate.mp (Array.mem_toList_iff.mp member)
    exact sound.machine.reaches_null

/-- Pushing on the operand stack. -/
theorem leads_push (sound : scene.Sound good) {value : Ref}
    (reached : scene.Reaches others held value.handle) :
    Leads good others (push value) scene held nothing anything := by
  have run := run_push scene value
  split at run
  · rename_i frame done
    exact leads_storeInFrame sound run reached (Activation.stores_push done)
  · exact .of_error sound run
  · exact .of_error sound run

/-- Popping from the operand stack. -/
theorem leads_pop (sound : scene.Sound good) :
    Leads good others pop scene held itself anything := by
  have run := run_pop scene
  split at run
  · exact .of_error sound run
  · rename_i value stack top
    have reached : scene.Reaches others held value.handle :=
      Scene.reaches_frame (Activation.mem_roots_of_operand (by rw [top]; exact List.mem_cons_self))
    exact leads_frame sound run rfl (Activation.roots_pop top) fun _ given => given ▸ reached

/-- Copying the reference at a place into a register. -/
theorem leads_load (sound : scene.Sound good) {place : Place} (target : UInt32)
    (reached : ∀ handle, place.container handle → scene.Reaches others held handle) :
    Leads good others (load place target) scene held nothing anything := by
  refine (Place.leads_read sound reached).bind_unchanged fun value => ?_
  refine (leads_setRegister sound target reaches_itself).bind ?_
  intro _ after sound _
  exact .pure sound value

/-- The raised reference is held for an outcome. -/
def raised : Outcome → Handle → Prop
  | .raise value => fun handle => handle = value.handle
  | _ => fun _ => False

/-- The called function is good. -/
def callsGood (good : Function → Prop) : Outcome → Scene → Prop
  | .call function => fun _ => good function
  | _ => fun _ => True

/-- An outcome that hands nothing on. -/
theorem leads_outcome (sound : scene.Sound good) {outcome : Outcome}
    (quiet : ∀ handle, ¬ raised outcome handle) (fine : callsGood good outcome scene) :
    Leads good others (Pure.pure outcome) scene held raised (callsGood good) :=
  .of_ok sound rfl (fun handle given => absurd given (quiet handle)) fine

/-- A part that hands nothing on, and then proceeding. -/
theorem leads_proceed {α : Type} {part : Step α} {gives : α → Handle → Prop}
    {post : α → Scene → Prop} (leads : Leads good others part scene held gives post) :
    Leads good others (part >>= fun _ => Pure.pure .proceed) scene held raised
      (callsGood good) := by
  refine leads.bind fun _ after sound _ => ?_
  exact leads_outcome sound (fun _ none => none) trivial

/-- Every instruction is a sequence of moves. -/
theorem leads_execute (sound : scene.Sound good) (instruction : Instruction UInt32) :
    Leads good others instruction.execute scene held raised (callsGood good) := by
  match instruction with
  | ⟨.nop, ()⟩ | ⟨.abort, ()⟩ | ⟨.leave, ()⟩ | ⟨.yield, ()⟩ =>
    exact leads_outcome sound (fun _ none => none) trivial
  | ⟨.call, signature, ()⟩ =>
    refine (leads_name sound signature).bind_unchanged fun signature => ?_
    refine (leads_function sound signature).bind ?_
    rintro function after sound ⟨rfl, fine⟩
    exact leads_outcome sound (fun _ none => none) fine
  | ⟨.callValue, source, ()⟩ =>
    refine (leads_register sound source).bind_unchanged fun reference => ?_
    refine (leads_value sound reaches_itself).bind ?_
    rintro content after sound ⟨rfl, _, fine⟩
    cases content with
    | function function => exact leads_outcome sound (fun _ none => none) (fine function rfl)
    | _ => exact .of_error sound rfl
  | ⟨.raise, source, ()⟩ =>
    refine (leads_register sound source).bind_unchanged fun value => ?_
    exact .of_ok sound rfl (fun _ given => reaches_given given) trivial
  | ⟨.loadConstant, target, value, ()⟩ =>
    refine (leads_constant sound value).bind fun reference after sound _ => ?_
    exact leads_proceed (leads_setRegister sound target reaches_itself)
  | ⟨.load site, target, operands⟩ =>
    refine (Place.leads_resolve sound site operands).bind_unchanged fun place => ?_
    exact leads_proceed (leads_load sound target fun _ given => reaches_given given).discard
  | ⟨.store site, operands⟩ =>
    show Leads good others (Place.resolve site (Operands.splitLast site.shapes operands).1 >>=
      fun place => Step.register (Operands.splitLast site.shapes operands).2 >>= fun value =>
      place.write value >>= fun _ => Pure.pure .proceed) scene held raised (callsGood good)
    refine (Place.leads_resolve sound site _).bind_unchanged fun place => ?_
    refine (leads_register sound _).bind_unchanged fun value => ?_
    refine leads_proceed (Place.leads_write sound ?_ reaches_itself)
    intro handle given
    exact reaches_still (reaches_given given)
  | ⟨.pull site, target, operands⟩ =>
    refine (Place.leads_resolve sound site operands).bind_unchanged fun place => ?_
    refine (leads_load sound target fun _ given => reaches_given given).discard.bind ?_
    intro _ after sound _
    refine leads_proceed (Place.leads_write sound ?_ sound.machine.reaches_null)
    intro handle given
    exact reaches_still (reaches_given given)
  | ⟨.push, source, ()⟩ =>
    refine (leads_register sound source).bind_unchanged fun value => ?_
    exact leads_proceed (leads_push sound reaches_itself)
  | ⟨.pop, target, ()⟩ =>
    refine (leads_pop sound).bind fun value after sound _ => ?_
    exact leads_proceed (leads_setRegister sound target reaches_itself)
  | ⟨.initObject, target, typeName, ()⟩ =>
    refine (leads_name sound typeName).bind_unchanged fun typeName => ?_
    refine (leads_newObject sound typeName).bind fun value after sound _ => ?_
    exact leads_proceed (leads_setRegister sound target reaches_itself)
  | ⟨.initArray, target, length, ()⟩ =>
    refine (leads_newArray sound length.toNat).bind fun value after sound _ => ?_
    exact leads_proceed (leads_setRegister sound target reaches_itself)
  | ⟨.initFunction, target, signature, ()⟩ =>
    refine (leads_name sound signature).bind_unchanged fun signature => ?_
    refine (leads_function sound signature).bind ?_
    rintro function after sound ⟨rfl, fine⟩
    refine (leads_newValue sound (by simp [Cell.children]) ?_).bind fun value after sound _ => ?_
    · rintro _ ⟨rfl⟩
      exact fine
    · exact leads_proceed (leads_setRegister sound target reaches_itself)
  | ⟨.branch, distance, ()⟩ => exact leads_proceed (leads_jump sound distance)
  | ⟨.branchIf expected, source, distance, ()⟩ =>
    refine (leads_register sound source).bind_unchanged fun reference => ?_
    refine (leads_value sound reaches_itself).bind ?_
    rintro content after sound ⟨rfl, _⟩
    have condition : Leads good others (Step.found (.unmet .condition content.kind)
        content.condition?) after (either (either held (itself reference)) (children content))
        nothing _ :=
      leads_found sound fun _ _ _ none => none.elim
    refine condition.bind ?_
    rintro truth after sound ⟨rfl, _⟩
    dsimp only
    split
    · exact leads_proceed (leads_jump sound distance)
    · exact leads_outcome sound (fun _ none => none) trivial
  | ⟨.arithmetic operator, target, left, right, ()⟩ =>
    refine (leads_register sound left).bind_unchanged fun left => ?_
    refine (leads_register sound right).bind_unchanged fun right => ?_
    refine (leads_value sound (reaches_still reaches_itself)).bind ?_
    rintro first after sound ⟨rfl, _⟩
    refine (leads_value sound (reaches_still reaches_itself)).bind ?_
    rintro second after sound ⟨rfl, _⟩
    split
    · rename_i result computed
      have plain := Operator.apply_plain computed
      refine (leads_newValue sound ?_ ?_).bind fun value after sound _ => ?_
      · simp [plain.children]
      · exact fun function same => absurd same (plain.ne_function function)
      · exact leads_proceed (leads_setRegister sound target reaches_itself)
    · exact .of_error sound rfl

end Instruction

end ScriptVm
