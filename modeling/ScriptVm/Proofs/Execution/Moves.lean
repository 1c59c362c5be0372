import ScriptVm.Proofs.Execution.Checks
import ScriptVm.Proofs.Step.Layout
import ScriptVm.Proofs.Step.Moves

/-!
# What executions do to the heap

Raising, finishing a routine and dispatching an instruction are sequences of moves. An execution
counts as running next to what it was before, so that nothing is forgotten on the way.
-/
namespace ScriptVm.Execution

variable {good : Function → Prop} {others held held' : Handle → Prop}
variable {machine : Machine} {execution : Execution}

/-- The roots of an execution, next to those of others. -/
def running (execution : Execution) (others : Handle → Prop) : Handle → Prop :=
  fun handle => others handle ∨ handle ∈ execution.roots

/-- All calls of an execution are calls of good functions. -/
def Fine (good : Function → Prop) (execution : Execution) : Prop :=
  ∀ frame ∈ execution.frames, good frame.function

/-- A machine with an execution comes from another by moves, and its functions are good. -/
structure Leads (good : Function → Prop) (others : Handle → Prop) (state : Machine × Execution)
    (held : Handle → Prop) (after : Machine × Execution) (held' : Handle → Prop) : Prop where
  /-- The moves. -/
  machine : state.1.Leads good (state.2.running others) held after.1 (after.2.running others) held'
  /-- The calls. -/
  fine : after.2.Fine good

namespace Leads

variable {state middle after : Machine × Execution} {held'' : Handle → Prop}

/-- Nothing happens. -/
theorem refl (sound : machine.Sound good) (fine : execution.Fine good) :
    Leads good others (machine, execution) held (machine, execution) held :=
  ⟨.refl sound, fine⟩

/-- One thing happens after the other. -/
theorem trans (first : Leads good others state held middle held')
    (second : Leads good others middle held' after held'') :
    Leads good others state held after held'' :=
  ⟨first.machine.trans second.machine, second.fine⟩

/-- Less is held. -/
theorem forget (leads : Leads good others state held after held')
    (fewer : ∀ handle, held'' handle → held' handle) :
    Leads good others state held after held'' :=
  ⟨leads.machine.forget fewer, leads.fine⟩

end Leads

/-- A reached reference is stored into an execution, and it is shaded. Reports do not matter. -/
theorem leads_store (sound : machine.Sound good) {value : Ref} {after : Machine}
    {changed : Execution} (reached : machine.Reaches (execution.running others) held value.handle)
    (collector : after.collector = machine.collector.shade value.handle)
    (registry : after.registry = machine.registry)
    (roots : ∀ handle ∈ changed.roots, handle ∈ execution.roots ∨ handle = value.handle)
    (fine : changed.Fine good) :
    Leads good others (machine, execution) held (after, changed) held := by
  refine ⟨Machine.leads_store sound reached collector (by rw [registry]) ?_, fine⟩
  intro category handle root
  cases category with
  | constants | globals | functions =>
    left
    simpa only [Registry.scope, registry] using root
  | executions =>
    rcases root with before | member
    · exact .inl (.inl before)
    · exact (roots handle member).imp .inr id

/-- A step of an execution that adds no root and does not touch the heap. -/
theorem leads_quiet (sound : machine.Sound good) {after : Machine} {changed : Execution}
    (collector : after.collector = machine.collector) (registry : after.registry = machine.registry)
    (roots : ∀ handle ∈ changed.roots, handle ∈ execution.roots ∨ handle = Handle.null)
    (fine : changed.Fine good) :
    Leads good others (machine, execution) held (after, changed) held := by
  refine leads_store sound sound.reaches_null ?_ registry roots fine
  rw [collector]
  exact (Collector.shade_null sound.orderly.lawful).symm

/-- A report. -/
theorem leads_note (sound : machine.Sound good) (fine : execution.Fine good) (event : Event) :
    Leads good others (machine, execution) held (machine.note event, execution) held :=
  leads_quiet sound rfl rfl (fun _ member => .inl member) fine

/-- Putting a reference into a parameter register adds that root at most. -/
theorem roots_setParameter (execution : Execution) (index : Nat) (value : Ref) :
    ∀ handle ∈ roots { execution with
        parameters := execution.parameters.setIfInBounds index value },
      handle ∈ execution.roots ∨ handle = value.handle := by
  intro handle member
  rcases mem_roots.mp member with ⟨reference, inside, rfl⟩ | frames
  · rcases mem_of_mem_setIfInBounds inside with earlier | rfl
    · exact .inl (mem_roots.mpr (.inl ⟨reference, earlier, rfl⟩))
    · exact .inr rfl
  · exact .inl (mem_roots.mpr (.inr frames))

/-- Raising a reached reference. -/
theorem leads_raise (sound : machine.Sound good) (fine : execution.Fine good) {value : Ref}
    (severity : Severity)
    (reached : machine.Reaches (execution.running others) held value.handle) :
    Leads good others (machine, execution) held (execution.raise machine value severity) held := by
  have stored := roots_setParameter execution 0 value
  cases severity with
  | fatal => exact leads_store sound reached rfl rfl stored fine
  | normal =>
    unfold raise
    dsimp only
    split
    · rename_i frames caught
      refine leads_store sound reached rfl rfl ?_ ?_
      · intro handle member
        rcases mem_roots.mp member with parameters | ⟨frame, inside, root⟩
        · exact stored handle (mem_roots.mpr (.inl parameters))
        · obtain ⟨old, before, roots, _⟩ := mem_unwind caught inside
          exact .inl (mem_roots.mpr (.inr ⟨old, before, roots ▸ root⟩))
      · intro frame inside
        obtain ⟨old, before, _, function⟩ := mem_unwind caught inside
        exact function ▸ fine old before
    · refine leads_store sound reached rfl rfl ?_ ?_
      · intro handle member
        rcases mem_roots.mp member with parameters | ⟨frame, inside, _⟩
        · exact stored handle (mem_roots.mpr (.inl parameters))
        · simp at inside
      · intro frame inside
        simp at inside

/-- Raising a new exception. -/
theorem leads_raiseNew (sound : machine.Sound good) (fine : execution.Fine good)
    {exception : ExceptionClass} {template : Object × Nat} (message : String)
    (made : machine.exceptionTemplate exception = .ok template) :
    Leads good others (machine, execution) held
      (execution.raiseNew machine template message) held := by
  obtain ⟨schema, blank⟩ := Machine.exceptionTemplate_blank made
  have thrown : machine.Leads good (execution.running others) held
      (machine.newException template message false).2 (execution.running others)
      (holding held (machine.newException template message false).1.handle) := by
    apply Machine.leads_newException sound
    rw [blank]
    exact sound.reaches_blank schema
  have raised : Leads good others ((machine.newException template message false).2, execution)
      (holding held (machine.newException template message false).1.handle)
      (execution.raiseNew machine template message)
      (holding held (machine.newException template message false).1.handle) :=
    leads_raise thrown.sound fine .normal (Machine.reaches_of_held (Or.inr rfl))
  have first : Leads good others (machine, execution) held
      ((machine.newException template message false).2, execution)
      (holding held (machine.newException template message false).1.handle) := ⟨thrown, fine⟩
  exact (first.trans raised).forget fun _ holds => .inl holds

/-- Raising the exception of a fault. -/
theorem leads_raiseFault (sound : machine.Sound good) (fine : execution.Fine good) (fault : Fault) :
    Leads good others (machine, execution) held (execution.raiseFault machine fault) held := by
  rw [raiseFault_eq]
  split
  · rename_i template made
    exact leads_raiseNew sound fine fault.message made
  · rename_i error _
    have unbuilt : Leads good others (machine, execution) held
        ((Work.newException fault.exception fault.message false).left machine, execution) held :=
      ⟨Machine.leads_left_newException sound fault.exception fault.message false, fine⟩
    have noted := unbuilt.trans
      (leads_note unbuilt.machine.sound fine (.exceptionUnbuilt fault error))
    exact noted.trans (leads_raise noted.machine.sound fine .fatal noted.machine.sound.reaches_null)

/-- Reporting a fault of an instruction and raising it. -/
theorem leads_fail (sound : machine.Sound good) (fine : execution.Fine good) (fault : Fault) :
    Leads good others (machine, execution) held (execution.fail machine fault) held := by
  have noted : Leads good others (machine, execution) held
      (machine.note (.faulted fault), execution) held := leads_note sound fine (.faulted fault)
  exact noted.trans (leads_raiseFault noted.machine.sound fine fault)

/-- Storing the result of a routine, or raising its fault. -/
theorem leads_finishRoutine (sound : machine.Sound good) (fine : execution.Fine good)
    {result : Except Fault Value} (plain : ∀ value, result = .ok value → value.Plain) :
    Leads good others (machine, execution) held
      (execution.finishRoutine machine result) held := by
  cases result with
  | ok value =>
    have plain := plain value rfl
    have made : machine.Leads good (execution.running others) held
        (machine.newValue value false).2 (execution.running others)
        (holding held (machine.newValue value false).1.handle) := by
      apply Machine.leads_newValue sound
      · simp [plain.children]
      · exact fun function same => absurd same (plain.ne_function function)
    have stored : Leads good others ((machine.newValue value false).2, execution)
        (holding held (machine.newValue value false).1.handle)
        (execution.finishRoutine machine (.ok value))
        (holding held (machine.newValue value false).1.handle) :=
      leads_store made.sound (Machine.reaches_of_held (Or.inr rfl)) rfl rfl
        (roots_setParameter execution 0 _) fine
    have first : Leads good others (machine, execution) held
        ((machine.newValue value false).2, execution)
        (holding held (machine.newValue value false).1.handle) := ⟨made, fine⟩
    exact (first.trans stored).forget fun _ holds => .inl holds
  | error fault =>
    rw [finishRoutine_eq]
    dsimp only
    split
    · rename_i template made
      exact leads_raiseNew sound fine fault.message made
    · rename_i error _
      have unbuilt : Leads good others (machine, execution) held
          ((Work.newException fault.exception fault.message false).left machine, execution) held :=
        ⟨Machine.leads_left_newException sound fault.exception fault.message false, fine⟩
      exact unbuilt.trans (leads_note unbuilt.machine.sound fine (.routineFailed error))

/-- The result of a routine is plain. -/
theorem routineResult_plain {routine : Routine} {value : Value}
    (computed : execution.routineResult machine routine = .ok value) : value.Plain := by
  cases routine with
  | operator operator =>
    simp only [routineResult, Bind.bind, Except.bind] at computed
    split at computed
    · simp at computed
    · split at computed
      · simp at computed
      · exact Operator.apply_plain computed
  | cast target =>
    simp only [routineResult, Bind.bind, Except.bind] at computed
    split at computed
    · simp at computed
    · exact Value.convert_plain computed
  | callback number =>
    obtain rfl := Except.ok.inj computed
    trivial

/-- Going on after an instruction. -/
theorem leads_proceed (sound : machine.Sound good) (fine : execution.Fine good) {outcome : Outcome}
    {scene : Scene} (calls : Instruction.callsGood good outcome scene)
    (reached : ∀ handle, Instruction.raised outcome handle →
      machine.Reaches (execution.running others) held handle) :
    Leads good others (machine, execution) held (execution.proceed machine outcome) held := by
  cases outcome with
  | proceed => exact .refl sound fine
  | leave =>
    refine leads_quiet sound rfl rfl ?_ ?_
    · intro handle member
      left
      rcases mem_roots.mp member with parameters | ⟨frame, inside, root⟩
      · exact mem_roots.mpr (.inl parameters)
      · exact mem_roots.mpr (.inr ⟨frame, List.mem_of_mem_tail inside, root⟩)
    · intro frame inside
      exact fine frame (List.mem_of_mem_tail inside)
  | call function =>
    unfold proceed
    dsimp only
    split
    · rename_i id pushed done
      rw [pushFrame_eq] at done
      split at done
      · obtain ⟨rfl, rfl⟩ := Prod.mk.inj (Except.ok.inj done)
        refine leads_quiet sound rfl rfl ?_ ?_
        · intro handle member
          rcases mem_roots.mp member with parameters | ⟨frame, inside, root⟩
          · exact .inl (mem_roots.mpr (.inl parameters))
          · rcases List.mem_cons.mp inside with rfl | earlier
            · exact .inr (Frame.roots_enter _ function handle root)
            · exact .inl (mem_roots.mpr (.inr ⟨frame, earlier, root⟩))
        · intro frame inside
          rcases List.mem_cons.mp inside with rfl | earlier
          · rw [Frame.function_enter]
            exact calls
          · exact fine frame earlier
      · simp at done
    · exact leads_fail sound fine .callStackOverflow
    · exact leads_fail sound fine _
  | raise value => exact leads_raise sound fine .normal (reached value.handle rfl)
  | yield => exact leads_quiet sound rfl rfl (fun _ member => .inl member) fine
  | abort => exact leads_quiet sound rfl rfl (fun _ member => .inl member) fine

/-- The roots of an execution after an instruction are those of the scene and of the other calls. -/
theorem running_withScene {id : Nat} {below : List Frame} {scene : Scene} {handle : Handle}
    (rest : ∀ frame ∈ below, frame ∈ execution.frames)
    (root : (execution.withScene id below scene).running others handle) :
    scene.running (execution.running others) handle := by
  rcases root with before | member
  · exact .inl (.inl before)
  · rcases mem_roots.mp member with ⟨reference, inside, rfl⟩ | ⟨frame, inside, root⟩
    · exact .inr (.inl (List.mem_map.mpr ⟨reference, Vector.mem_toList_iff.mpr inside, rfl⟩))
    · rcases List.mem_cons.mp inside with rfl | later
      · exact .inr (.inr root)
      · exact .inl (.inr (mem_roots.mpr (.inr ⟨frame, rest frame later, root⟩)))

/-- Executing a decoded instruction of the innermost call. -/
theorem leads_perform (sound : machine.Sound good) (fine : execution.Fine good) (id : Nat)
    {frame : Activation} {below : List Frame} (instruction : Instruction UInt32)
    (called : good (.script frame.function))
    (inner : ∀ handle ∈ frame.roots, handle ∈ execution.roots)
    (rest : ∀ frame ∈ below, frame ∈ execution.frames) :
    Leads good others (machine, execution) held
      (execution.perform machine id frame below instruction.execute) held := by
  have entered : machine.Leads good (execution.running others) held machine
      ((execution.scene machine frame).running (execution.running others)) held := by
    refine ⟨.single (.weaken ?_ fun _ holds => Machine.reaches_of_held holds), sound, rfl⟩
    intro category handle root
    cases category with
    | constants | globals | functions => exact .inl root
    | executions =>
      rcases root with before | parameter | member
      · exact .inl before
      · obtain ⟨reference, inside, rfl⟩ := List.mem_map.mp parameter
        exact .inl (.inr (mem_roots.mpr
          (.inl ⟨reference, Vector.mem_toList_iff.mp inside, rfl⟩)))
      · exact .inl (.inr (inner handle member))
  have left : ∀ (scene : Scene) (kept : Handle → Prop), scene.machine.Sound good →
      scene.machine.Leads good (scene.running (execution.running others)) kept scene.machine
        ((execution.withScene id below scene).running others) kept := by
    intro scene kept sound
    refine ⟨.single (.weaken ?_ fun _ holds => Machine.reaches_of_held holds), sound, rfl⟩
    intro category handle root
    cases category with
    | constants | globals | functions => exact .inl root
    | executions => exact .inl (running_withScene rest root)
  have fineAfter : ∀ scene : Scene, good (.script scene.frame.function) →
      (execution.withScene id below scene).Fine good := by
    intro scene called frame inside
    rcases List.mem_cons.mp inside with rfl | later
    · exact called
    · exact fine frame (rest frame later)
  have ran : Step.Leads good (execution.running others) instruction.execute
      (execution.scene machine frame) held Instruction.raised (Instruction.callsGood good) :=
    Instruction.leads_execute ⟨sound, called⟩ instruction
  unfold Step.Leads at ran
  unfold perform
  split
  · rename_i outcome scene goes
    rw [goes] at ran
    obtain ⟨moved, calls⟩ := ran
    have returned : Leads good others (machine, execution) held
        (scene.machine, execution.withScene id below scene)
        (either held (Instruction.raised outcome)) :=
      ⟨(entered.trans moved.machine).trans (left scene _ moved.machine.sound),
        fineAfter scene moved.frame⟩
    have proceeded : Leads good others (scene.machine, execution.withScene id below scene)
        (either held (Instruction.raised outcome))
        ((execution.withScene id below scene).proceed scene.machine outcome)
        (either held (Instruction.raised outcome)) :=
      leads_proceed returned.machine.sound returned.fine calls
        fun handle given => Machine.reaches_of_held (.inr given)
    exact (returned.trans proceeded).forget fun _ holds => .inl holds
  · rename_i fault scene stops
    rw [stops] at ran
    have returned : Leads good others (machine, execution) held
        (scene.machine, execution.withScene id below scene) held :=
      ⟨(entered.trans ran.machine).trans (left scene _ ran.machine.sound),
        fineAfter scene ran.frame⟩
    exact returned.trans (leads_fail returned.machine.sound returned.fine fault)

/-- Executing the instruction at the position of the innermost call. -/
theorem leads_dispatchAt (sound : machine.Sound good) (fine : execution.Fine good) {id : Nat}
    {frame : Activation} {below : List Frame}
    (innermost : execution.frames = .script id frame :: below) (start : Nat) :
    Leads good others (machine, execution) held
      (execution.dispatchAt machine id { frame with start } below) held := by
  have called : good (.script frame.function) :=
    fine (.script id frame) (by rw [innermost]; exact List.mem_cons_self)
  have positioned : Leads good others (machine, execution) held
      (machine, { execution with frames := .script id { frame with start } :: below }) held := by
    refine leads_quiet sound rfl rfl ?_ ?_
    · intro handle member
      left
      rcases mem_roots.mp member with parameters | ⟨other, inside, root⟩
      · exact mem_roots.mpr (.inl parameters)
      · rcases List.mem_cons.mp inside with rfl | later
        · exact mem_roots.mpr (.inr ⟨.script id frame, by rw [innermost]; simp, root⟩)
        · exact mem_roots.mpr (.inr ⟨other, by rw [innermost]; simp [later], root⟩)
    · intro other inside
      rcases List.mem_cons.mp inside with rfl | later
      · exact called
      · exact fine other (by rw [innermost]; simp [later])
  apply positioned.trans
  rw [dispatchAt_by_table]
  dsimp only
  split
  · exact leads_fail positioned.machine.sound positioned.fine _
  · split
    · exact leads_fail positioned.machine.sound positioned.fine _
    · rename_i opcode _
      have noted : Leads good others
          (machine, { execution with frames := .script id { frame with start } :: below }) held
          (machine.note (.dispatched start opcode),
            { execution with frames := .script id { frame with start } :: below }) held :=
        leads_quiet sound rfl rfl (fun _ member => .inl member) positioned.fine
      apply noted.trans
      split
      · exact leads_fail noted.machine.sound noted.fine _
      · refine leads_perform noted.machine.sound noted.fine id _ called ?_ ?_
        · intro handle member
          exact mem_roots.mpr (.inr ⟨.script id { frame with start }, List.mem_cons_self, member⟩)
        · intro other later
          exact List.mem_cons_of_mem _ later

/-- One instruction of the innermost call. -/
theorem leads_dispatch (sound : machine.Sound good) (fine : execution.Fine good) :
    Leads good others (machine, execution) held (execution.dispatch machine) held := by
  unfold dispatch
  split
  · rename_i id frame below innermost
    dsimp only
    split
    · refine leads_quiet sound rfl rfl ?_ ?_
      · intro handle member
        left
        rcases mem_roots.mp member with parameters | ⟨other, inside, root⟩
        · exact mem_roots.mpr (.inl parameters)
        · exact mem_roots.mpr (.inr ⟨other, by rw [innermost]; simp [inside], root⟩)
      · intro other inside
        exact fine other (by rw [innermost]; simp [inside])
    · exact leads_dispatchAt sound fine innermost frame.next
  · exact .refl sound fine

/-- A change of an execution whose parameters stay and whose frames are old ones or new calls. -/
theorem leads_frames (sound : machine.Sound good) (fine : execution.Fine good) {changed : Execution}
    (parameters : ∀ reference ∈ changed.parameters,
      reference ∈ execution.parameters ∨ reference = Ref.null)
    (frames : ∀ frame ∈ changed.frames, frame ∈ execution.frames ∨
      ∃ id function, frame = Frame.enter id function ∧ good function) :
    Leads good others (machine, execution) held (machine, changed) held := by
  refine leads_quiet sound rfl rfl ?_ ?_
  · intro handle member
    rcases mem_roots.mp member with ⟨reference, inside, rfl⟩ | ⟨frame, inside, root⟩
    · rcases parameters reference inside with earlier | rfl
      · exact .inl (mem_roots.mpr (.inl ⟨reference, earlier, rfl⟩))
      · exact .inr rfl
    · rcases frames frame inside with earlier | ⟨id, function, rfl, _⟩
      · exact .inl (mem_roots.mpr (.inr ⟨frame, earlier, root⟩))
      · exact .inr (Frame.roots_enter id function handle root)
  · intro frame inside
    rcases frames frame inside with earlier | ⟨id, function, rfl, known⟩
    · exact fine frame earlier
    · rw [Frame.function_enter]
      exact known

/-- Settling. -/
theorem leads_settle (sound : machine.Sound good) (fine : execution.Fine good) :
    Leads good others (machine, execution) held (machine, execution.settle) held := by
  apply leads_frames sound fine
  · intro reference inside
    unfold settle at inside
    split at inside <;> exact .inl inside
  · intro frame inside
    unfold settle at inside
    split at inside <;> exact .inl inside

/-- Pushing a call. -/
theorem leads_pushFrame (sound : machine.Sound good) (fine : execution.Fine good)
    {function : Function} (known : good function) {result : Nat × Execution}
    (done : execution.pushFrame function = .ok result) :
    Leads good others (machine, execution) held (machine, result.2) held := by
  rw [pushFrame_eq] at done
  split at done
  · obtain rfl := Except.ok.inj done
    apply leads_frames sound fine
    · intro reference inside
      exact .inl inside
    · intro frame inside
      rcases List.mem_cons.mp inside with rfl | earlier
      · exact .inr ⟨_, function, rfl, known⟩
      · exact .inl earlier
  · simp at done

/-- Starting over. -/
theorem leads_restart (sound : machine.Sound good) (fine : execution.Fine good)
    {entry : Function} (known : good entry) {changed : Execution}
    (done : execution.restart entry = .ok changed) :
    Leads good others (machine, execution) held (machine, changed) held := by
  rw [restart_eq] at done
  obtain ⟨⟨id, pushed⟩, made, rest⟩ := Except.bind_eq_ok done
  obtain rfl := Except.ok.inj rest
  have cleared : Leads good others (machine, execution) held (machine, execution.clear) held := by
    apply leads_frames sound fine
    · intro reference inside
      exact .inr (Vector.mem_replicate.mp inside).2
    · intro frame inside
      simp [clear] at inside
  exact cleared.trans (leads_pushFrame sound cleared.fine known made)

/-- Popping a call. -/
theorem leads_popFrame (sound : machine.Sound good) (fine : execution.Fine good)
    {changed : Execution} (done : execution.popFrame = .ok changed) :
    Leads good others (machine, execution) held (machine, changed) held := by
  rw [popFrame_eq] at done
  split at done
  · simp at done
  · rename_i top frames before
    obtain rfl := Except.ok.inj done
    apply leads_frames sound fine
    · exact fun _ inside => .inl inside
    · intro frame inside
      rw [before]
      exact .inl (List.mem_cons_of_mem _ inside)

/-- Putting a reference into a parameter register. -/
theorem leads_setParameter (sound : machine.Sound good) (fine : execution.Fine good) {index : Nat}
    {value : Ref} (reached : machine.Reaches (execution.running others) held value.handle)
    {state : Machine × Execution}
    (done : execution.setParameter machine index value = .ok state) :
    Leads good others (machine, execution) held state held := by
  rw [setParameter_eq] at done
  split at done
  · obtain rfl := Except.ok.inj done
    exact leads_store sound reached rfl rfl (roots_setParameter execution index value) fine
  · simp at done

/-- Raising a standard exception, or what is left of it. -/
theorem leads_raiseException (sound : machine.Sound good) (fine : execution.Fine good)
    (exception : ExceptionClass) (message : String) :
    Leads good others (machine, execution) held
      ((Work.raiseException exception message).left (machine, execution)) held := by
  unfold Work.left
  rw [outcome_raiseException]
  split
  · rename_i template made
    exact leads_raiseNew sound fine message made
  · exact ⟨Machine.leads_left_newException sound exception message false, fine⟩

/-- A frame of the call stack. -/
theorem mem_of_frame {depth : Nat} {frame : Frame} (found : execution.frame depth = .ok frame) :
    frame ∈ execution.frames :=
  List.mem_of_getElem? (Error.orElse_eq_ok.mp found)

/-- Storing a reference into a frame. -/
theorem leads_storeInFrame (sound : machine.Sound good) (fine : execution.Fine good) {depth : Nat}
    {value : Ref} {store : Frame → Except Error Frame}
    (reached : machine.Reaches (execution.running others) held value.handle)
    (stores : ∀ frame changed, store frame = .ok changed → frame.Stores value changed)
    {state : Machine × Execution}
    (done : execution.storeInFrame machine depth value store = .ok state) :
    Leads good others (machine, execution) held state held := by
  rw [storeInFrame_eq] at done
  obtain ⟨frame, found, rest⟩ := Except.bind_eq_ok done
  obtain ⟨changed, made, last⟩ := Except.bind_eq_ok rest
  obtain rfl := Except.ok.inj last
  have inside := mem_of_frame found
  have stored := stores frame changed made
  refine leads_store sound reached rfl rfl ?_ ?_
  · intro handle member
    rcases mem_roots.mp member with parameters | ⟨other, listed, root⟩
    · exact .inl (mem_roots.mpr (.inl parameters))
    · rcases List.mem_or_eq_of_mem_set listed with earlier | rfl
      · exact .inl (mem_roots.mpr (.inr ⟨other, earlier, root⟩))
      · rcases stored.roots handle root with before | same
        · exact .inl (mem_roots.mpr (.inr ⟨frame, inside, before⟩))
        · exact .inr same
  · intro other listed
    rcases List.mem_or_eq_of_mem_set listed with earlier | rfl
    · exact fine other earlier
    · rw [stored.function]
      exact fine frame inside

/-- Popping an operand. -/
theorem leads_pop (sound : machine.Sound good) (fine : execution.Fine good) {depth : Nat}
    {result : Ref × Execution} (done : execution.pop depth = .ok result) :
    Leads good others (machine, execution) held (machine, result.2) held := by
  rw [pop_eq] at done
  obtain ⟨frame, found, rest⟩ := Except.bind_eq_ok done
  obtain ⟨⟨value, changed⟩, popped, last⟩ := Except.bind_eq_ok rest
  obtain rfl := Except.ok.inj last
  have inside := mem_of_frame found
  cases frame with
  | host id function => simp [Frame.pop] at popped
  | script id activation =>
    obtain ⟨⟨top, lowered⟩, taken, made⟩ := Except.bind_eq_ok popped
    obtain ⟨rfl, rfl⟩ := Prod.mk.inj (Except.ok.inj made)
    unfold Activation.pop at taken
    split at taken
    · simp at taken
    · rename_i stack operands
      obtain ⟨rfl, rfl⟩ := Prod.mk.inj (Except.ok.inj taken)
      refine leads_quiet sound rfl rfl ?_ ?_
      · intro handle member
        left
        rcases mem_roots.mp member with parameters | ⟨other, listed, root⟩
        · exact mem_roots.mpr (.inl parameters)
        · rcases List.mem_or_eq_of_mem_set listed with earlier | rfl
          · exact mem_roots.mpr (.inr ⟨other, earlier, root⟩)
          · exact mem_roots.mpr (.inr ⟨_, inside, Activation.roots_pop operands handle root⟩)
      · intro other listed
        rcases List.mem_or_eq_of_mem_set listed with earlier | rfl
        · exact fine other earlier
        · exact fine (.script id activation) inside

end ScriptVm.Execution
