import ScriptVm.Proofs.Simulation.Vm

/-!
# Agreeing through collections

The pairs whose handles are reached on both sides outlast any work of the collectors, and they are
all that roots, cells, frames and executions need. The roots of two virtual machines that agree are
paired one by one, and so are the children of paired cells; hence whatever is reached on one side
has a partner that is reached on the other.
-/
namespace ScriptVm

namespace Pairing

variable {pairing : Pairing} {keep keep' : Handle → Prop}

/-- The pairs of handles that are kept on both sides. -/
def restrict (pairing : Pairing) (keep keep' : Handle → Prop) : Pairing :=
  fun target left right => pairing target left right ∧ keep left ∧ keep' right

/-- Related lists, together with what holds of their members. -/
theorem forall₂_members {α β : Type} {related : α → β → Prop} {left : List α} {right : List β}
    (first : α → Prop) (second : β → Prop) (both : List.Forall₂ related left right)
    (lefts : ∀ value ∈ left, first value) (rights : ∀ value ∈ right, second value) :
    List.Forall₂ (fun value value' => related value value' ∧ first value ∧ second value')
      left right := by
  induction both with
  | nil => exact .nil
  | cons head _ hypothesis =>
    refine .cons ⟨head, lefts _ List.mem_cons_self, rights _ List.mem_cons_self⟩ ?_
    exact hypothesis (fun value member => lefts value (List.mem_cons_of_mem _ member))
      fun value member => rights value (List.mem_cons_of_mem _ member)

/-- Lists of references that are kept. -/
theorem Lists.restrict {left right : List Ref} (paired : pairing.Lists left right)
    (lefts : ∀ reference ∈ left, keep reference.handle)
    (rights : ∀ reference ∈ right, keep' reference.handle) :
    (pairing.restrict keep keep').Lists left right :=
  forall₂_members _ _ paired lefts rights

/-- Entries whose references are kept. -/
theorem Tables.restrict {left right : Table Ref} (paired : pairing.Tables left right)
    (lefts : ∀ reference ∈ left.values, keep reference.handle)
    (rights : ∀ reference ∈ right.values, keep' reference.handle) :
    (pairing.restrict keep keep').Tables left right := by
  have both := forall₂_members (fun entry => keep entry.2.handle)
    (fun entry => keep' entry.2.handle) paired
    (fun entry member => lefts entry.2 (List.mem_map_of_mem member))
    fun entry member => rights entry.2 (List.mem_map_of_mem member)
  exact both.imp fun _ _ kept => ⟨kept.1.1, kept.1.2, kept.2⟩

end Pairing

variable {pairing : Pairing} {keep keep' : Handle → Prop} {room : Nat}

/-- Agreeing cells with kept children. -/
theorem Cell.Agrees.restrict {target : Target} {left right : Cell}
    (agrees : left.Agrees pairing target right) (lefts : ∀ child ∈ left.children, keep child)
    (rights : ∀ child ∈ right.children, keep' child) :
    left.Agrees (pairing.restrict keep keep') target right := by
  have lists : ∀ {items items' : List Ref}, pairing.Lists items items' →
      (∀ child ∈ items.map Ref.handle, keep child) →
      (∀ child ∈ items'.map Ref.handle, keep' child) →
      (pairing.restrict keep keep').Lists items items' := by
    intro items items' paired first second
    exact paired.restrict (fun _ member => first _ (List.mem_map_of_mem member))
      fun _ member => second _ (List.mem_map_of_mem member)
  cases agrees with
  | object agrees => exact .object ⟨agrees.schema, lists agrees.members lefts rights⟩
  | value agrees =>
    cases agrees with
    | leaf leaf => exact .value (.leaf leaf)
    | array items => exact .value (.array (lists items lefts rights))
    | object paired =>
      exact .value (.object ⟨paired, lefts _ List.mem_cons_self, rights _ List.mem_cons_self⟩)

/-- Agreeing calls whose references are kept. -/
theorem Activation.Agrees.restrict {left right : Activation} (agrees : left.Agrees pairing right)
    (lefts : ∀ root ∈ left.roots, keep root) (rights : ∀ root ∈ right.roots, keep' root) :
    left.Agrees (pairing.restrict keep keep') right := by
  refine ⟨agrees.function, agrees.registers.restrict ?_ ?_, agrees.locals.restrict ?_ ?_,
    agrees.stack.restrict ?_ ?_, agrees.next, agrees.start⟩
  · exact fun _ member => lefts _ (mem_roots.mpr ⟨_, rfl, .inl (Vector.mem_toList_iff.mp member)⟩)
  · exact fun _ member => rights _ (mem_roots.mpr ⟨_, rfl, .inl (Vector.mem_toList_iff.mp member)⟩)
  · exact fun _ member => lefts _ (mem_roots.mpr ⟨_, rfl, .inr (.inl member)⟩)
  · exact fun _ member => rights _ (mem_roots.mpr ⟨_, rfl, .inr (.inl member)⟩)
  · exact fun _ member => lefts _ (mem_roots.mpr ⟨_, rfl, .inr (.inr member)⟩)
  · exact fun _ member => rights _ (mem_roots.mpr ⟨_, rfl, .inr (.inr member)⟩)

/-- Agreeing executions whose references are kept. -/
theorem Execution.Agrees.restrict {left right : Execution} (agrees : left.Agrees pairing right)
    (lefts : ∀ root ∈ left.roots, keep root) (rights : ∀ root ∈ right.roots, keep' root) :
    left.Agrees (pairing.restrict keep keep') right := by
  refine ⟨?_, agrees.parameters.restrict ?_ ?_, agrees.flags, agrees.issued⟩
  · have frames := Pairing.forall₂_members (fun frame => ∀ root ∈ frame.roots, keep root)
      (fun frame => ∀ root ∈ frame.roots, keep' root) agrees.frames
      (fun frame member root inside => lefts root (mem_roots.mpr (.inr ⟨frame, member, inside⟩)))
      fun frame member root inside => rights root (mem_roots.mpr (.inr ⟨frame, member, inside⟩))
    refine frames.imp ?_
    rintro frame frame' ⟨agree, first, second⟩
    cases agree with
    | script id agree => exact .script id (agree.restrict first second)
    | host id function => exact .host id function
  · exact fun _ member => lefts _ (mem_roots.mpr (.inl ⟨_, Vector.mem_toList_iff.mp member, rfl⟩))
  · exact fun _ member => rights _ (mem_roots.mpr (.inl ⟨_, Vector.mem_toList_iff.mp member, rfl⟩))

namespace Pairing

/-- Handles that are paired as values or as objects. -/
def Handles (pairing : Pairing) (left right : Handle) : Prop :=
  ∃ target, pairing target left right

/-- A member of a list has a partner in a related list. -/
theorem exists_of_mem_left {α β : Type} {related : α → β → Prop} {left : List α} {right : List β}
    (both : List.Forall₂ related left right) {value : α} (member : value ∈ left) :
    ∃ value' ∈ right, related value value' := by
  induction both with
  | nil => simp at member
  | @cons first second _ _ head _ hypothesis =>
    rcases List.mem_cons.mp member with rfl | later
    · exact ⟨second, List.mem_cons_self, head⟩
    · obtain ⟨value', inside, relates⟩ := hypothesis later
      exact ⟨value', List.mem_cons_of_mem _ inside, relates⟩

/-- The handles of paired references are paired. -/
theorem Lists.handles {left right : List Ref} (paired : pairing.Lists left right) :
    List.Forall₂ pairing.Handles (left.map Ref.handle) (right.map Ref.handle) := by
  rw [List.forall₂_map_left_iff, List.forall₂_map_right_iff]
  exact List.Forall₂.imp (fun _ _ pair => ⟨.value, pair⟩) paired

/-- The references of entries are paired. -/
theorem Tables.lists {left right : Table Ref} (paired : pairing.Tables left right) :
    pairing.Lists left.values right.values := by
  unfold Lists Table.values
  rw [List.forall₂_map_left_iff, List.forall₂_map_right_iff]
  exact List.Forall₂.imp (fun _ _ pair => pair.2) paired

end Pairing

/-- A value without references has no children. -/
theorem Value.Leaf.children {value : Value} (leaf : value.Leaf) :
    (Cell.value value).children = [] := by
  cases value <;> first | rfl | exact leaf.elim

/-- The children of agreeing cells are paired. -/
theorem Cell.Agrees.children {target : Target} {left right : Cell}
    (agrees : left.Agrees pairing target right) :
    List.Forall₂ pairing.Handles left.children right.children := by
  cases agrees with
  | object agrees => exact agrees.members.handles
  | value agrees =>
    cases agrees with
    | array items => exact items.handles
    | object paired => exact .cons ⟨.object, paired⟩ .nil
    | leaf leaf =>
      rw [leaf.children]
      exact .nil

/-- The roots of agreeing calls are paired. -/
theorem Frame.Agrees.roots {left right : Frame} (agrees : left.Agrees pairing right) :
    List.Forall₂ pairing.Handles left.roots right.roots := by
  cases agrees with
  | host id function => exact .nil
  | script id agrees =>
    have both := List.rel_append (List.rel_append agrees.registers agrees.locals.lists)
      (List.rel_reverse agrees.stack)
    exact Pairing.Lists.handles both

/-- The roots of agreeing executions are paired. -/
theorem Execution.Agrees.roots {left right : Execution} (agrees : left.Agrees pairing right) :
    List.Forall₂ pairing.Handles left.roots right.roots :=
  List.rel_append agrees.parameters.handles
    (List.rel_flatMap (List.rel_reverse agrees.frames) fun _ _ frames => frames.roots)

namespace Vm

variable {left right left' right' : Vm}

/-- Kept handles are those of null, of the roots and of children of kept ones, at least. -/
structure Keeps (vm : Vm) (keep : Handle → Prop) : Prop where
  /-- Null is kept. -/
  null : keep Handle.null
  /-- The roots are kept. -/
  roots : ∀ category, ∀ root ∈ vm.roots category, keep root
  /-- The children of what is kept are kept. -/
  children : ∀ handle proxy, keep handle → vm.machine.heap.proxy? handle = some proxy →
    ∀ child ∈ proxy.cell.children, keep child

/-- What is reached is kept. -/
theorem keeps_reaches {vm : Vm} (lawful : vm.machine.heap.Lawful) : vm.Keeps vm.Reaches := by
  refine ⟨Collector.reaches_null lawful _ _, ?_, ?_⟩
  · exact fun category root member => .start (.inl ⟨category, member⟩)
  · exact fun handle proxy reached resolved child listed => .child reached resolved listed

/-- The constants of loaded modules are kept. -/
theorem Keeps.constant {vm : Vm} (keeps : vm.Keeps keep) {module : Module}
    (loaded : module ∈ vm.machine.registry.modules.values) {constant : Ref}
    (member : constant ∈ module.constants) : keep constant.handle := by
  apply keeps.roots .constants
  exact List.mem_flatMap.mpr ⟨module, loaded,
    List.mem_map_of_mem (Array.mem_toList_iff.mpr member)⟩

/-- The pairs that are kept on both sides are enough to agree. -/
theorem Agrees.restrict (agrees : left.Agrees pairing room right) (keeps : left.Keeps keep)
    (keeps' : right.Keeps keep') : left.Agrees (pairing.restrict keep keep') room right := by
  have collectors := agrees.machine.collector
  have narrow : left.machine.collector.Agrees (pairing.restrict keep keep') room
      right.machine.collector := by
    refine ⟨collectors.orderly, collectors.orderly', ⟨collectors.null, keeps.null, keeps'.null⟩,
      ?_, ?_, ?_, collectors.fewer, collectors.room⟩
    · exact fun first second => collectors.functional first.1 second.1
    · exact fun first second => collectors.injective first.1 second.1
    · rintro target first second ⟨paired, kept, kept'⟩
      obtain ⟨proxy, proxy', named, named', cells⟩ := collectors.cells paired
      exact ⟨proxy, proxy', named, named', cells.restrict (keeps.children _ _ kept named)
        (keeps'.children _ _ kept' named')⟩
  refine ⟨⟨narrow, agrees.machine.config, agrees.machine.registry, ?_, ?_, agrees.machine.clean,
    agrees.machine.clean'⟩, ?_⟩
  · refine agrees.machine.globals.restrict ?_ ?_
    · exact fun _ member => keeps.roots .globals _ (List.mem_map_of_mem member)
    · exact fun _ member => keeps'.roots .globals _ (List.mem_map_of_mem member)
  · intro module loaded constant member
    have loaded' : module ∈ right.machine.registry.modules.values := by
      rw [agrees.machine.registry]
      exact loaded
    exact ⟨agrees.machine.constants module loaded constant member, keeps.constant loaded member,
      keeps'.constant loaded' member⟩
  · have entries := Pairing.forall₂_members (fun entry => ∀ root ∈ entry.execution.roots, keep root)
      (fun entry => ∀ root ∈ entry.execution.roots, keep' root) agrees.executions
      (fun entry member root inside => keeps.roots .executions _
        (List.mem_flatMap.mpr ⟨entry, member, inside⟩))
      fun entry member root inside => keeps'.roots .executions _
        (List.mem_flatMap.mpr ⟨entry, member, inside⟩)
    refine entries.imp ?_
    rintro entry entry' ⟨agree, first, second⟩
    exact ⟨agree.id, agree.holders, agree.execution.restrict first second⟩

/-- The collectors work on both sides: the pairs that are reached on both are left. -/
theorem Agrees.collected (agrees : left.Agrees pairing room right) (safe : left.Safe)
    (safe' : right.Safe) (collected : Collected left left') (collected' : Collected right right')
    {enough : Nat} (fewer : left'.machine.heap.population ≤ right'.machine.heap.population)
    (same : ∀ count ≤ enough,
      left'.machine.heap.hasRoom count = right'.machine.heap.hasRoom count) :
    left'.Agrees (pairing.restrict left.Reaches right.Reaches) enough right' := by
  have narrow := agrees.restrict (keeps_reaches safe.collector.orderly.lawful)
    (keeps_reaches safe'.collector.orderly.lawful)
  have machines := narrow.machine
  have collectors : left'.machine.collector.Agrees (pairing.restrict left.Reaches right.Reaches)
      enough right'.machine.collector := by
    refine ⟨collected.works.orderly safe.collector.orderly,
      collected'.works.orderly safe'.collector.orderly, machines.collector.null,
      machines.collector.functional, machines.collector.injective, ?_, fewer, same⟩
    intro target first second paired
    obtain ⟨proxy, proxy', named, named', cells⟩ := machines.collector.cells paired
    obtain ⟨kept, known, cell⟩ := collected.works.keeps safe.collector paired.2.1 named
    obtain ⟨kept', known', cell'⟩ := collected'.works.keeps safe'.collector paired.2.2 named'
    refine ⟨kept, kept', known, known', ?_⟩
    rw [cell, cell']
    exact cells
  refine ⟨⟨collectors, ?_, ?_, ?_, ?_, ?_, ?_⟩, ?_⟩
  · rw [collected.config, collected'.config, machines.config]
  · rw [collected.registry, collected'.registry]
    exact machines.registry
  · rw [collected.registry, collected'.registry]
    exact machines.globals
  · rw [collected.registry]
    exact machines.constants
  · exact fun fault member => machines.clean fault (collected.faults fault member)
  · exact fun fault member => machines.clean' fault (collected'.faults fault member)
  · rw [collected.executions, collected'.executions]
    exact narrow.executions

/-- The roots of virtual machines that agree are paired. -/
theorem Agrees.roots (agrees : left.Agrees pairing room right) (category : RootCategory) :
    List.Forall₂ pairing.Handles (left.roots category) (right.roots category) := by
  have null : pairing.Handles Handle.null Handle.null := ⟨.value, agrees.machine.collector.null⟩
  cases category with
  | globals => exact agrees.machine.globals.lists.handles
  | executions =>
    exact List.rel_flatMap agrees.executions fun _ _ entries => entries.execution.roots
  | constants =>
    have same : right.roots .constants = left.roots .constants := by
      unfold Vm.roots
      rw [agrees.machine.registry]
      rfl
    rw [same]
    refine List.forall₂_same.mpr ?_
    intro handle root
    obtain ⟨module, loaded, listed⟩ := List.mem_flatMap.mp root
    obtain ⟨constant, member, rfl⟩ := List.mem_map.mp listed
    exact ⟨.value, agrees.machine.constants module loaded constant (Array.mem_toList_iff.mp member)⟩
  | functions =>
    have same : right.roots .functions = left.roots .functions := by
      unfold Vm.roots
      rw [agrees.machine.registry]
      rfl
    rw [same]
    refine List.forall₂_same.mpr ?_
    intro handle root
    obtain ⟨function, _, listed⟩ := List.mem_flatMap.mp root
    obtain ⟨_, _, rfl⟩ := List.mem_map.mp listed
    exact null

/-- What is reached from the roots of a virtual machine alone. -/
def Rooted (vm : Vm) : Handle → Prop :=
  vm.machine.heap.Reaches fun handle => ∃ category, handle ∈ vm.roots category

/-- What is reached has a partner that is reached, if roots and the children of partners have
partners. -/
theorem exists_partner {heap other : Heap} {root root' : Handle → Prop}
    (partner : Handle → Handle → Prop)
    (roots : ∀ handle, root handle → ∃ found, partner handle found ∧ root' found)
    (children : ∀ {handle found proxy}, partner handle found → heap.proxy? handle = some proxy →
      ∃ proxy', other.proxy? found = some proxy' ∧
        List.Forall₂ partner proxy.cell.children proxy'.cell.children)
    {handle : Handle} (reached : heap.Reaches root handle) :
    ∃ found, partner handle found ∧ other.Reaches root' found := by
  induction reached with
  | start begins =>
    obtain ⟨found, paired, begins'⟩ := roots _ begins
    exact ⟨found, paired, .start begins'⟩
  | child _ resolved listed hypothesis =>
    obtain ⟨found, paired, reached'⟩ := hypothesis
    obtain ⟨proxy', resolved', each⟩ := children paired resolved
    obtain ⟨child, listed', paired'⟩ := Pairing.exists_of_mem_left each listed
    exact ⟨child, paired', .child reached' resolved' listed'⟩

/-- What is reached on the left has a partner that is reached on the right. -/
theorem Agrees.partner (agrees : left.Agrees pairing room right) {handle : Handle}
    (reached : left.Rooted handle) :
    ∃ other, pairing.Handles handle other ∧ right.Rooted other := by
  refine exists_partner pairing.Handles ?_ ?_ reached
  · rintro handle ⟨category, root⟩
    obtain ⟨other, root', paired⟩ := Pairing.exists_of_mem_left (agrees.roots category) root
    exact ⟨other, paired, category, root'⟩
  · rintro handle other proxy ⟨target, paired⟩ resolved
    obtain ⟨found, found', named, named', cells⟩ := agrees.machine.collector.cells paired
    obtain rfl := Option.some.inj (resolved.symm.trans named)
    exact ⟨found', named', cells.children⟩

/-- What is reached on the right has a partner that is reached on the left. -/
theorem Agrees.partner' (agrees : left.Agrees pairing room right) {handle : Handle}
    (reached : right.Rooted handle) :
    ∃ other, pairing.Handles other handle ∧ left.Rooted other := by
  refine exists_partner (flip pairing.Handles) ?_ ?_ reached
  · rintro handle ⟨category, root⟩
    obtain ⟨other, root', paired⟩ :=
      Pairing.exists_of_mem_left (agrees.roots category).flip root
    exact ⟨other, paired, category, root'⟩
  · rintro handle other proxy ⟨target, paired⟩ resolved
    obtain ⟨found, found', named, named', cells⟩ := agrees.machine.collector.cells paired
    obtain rfl := Option.some.inj (resolved.symm.trans named')
    exact ⟨found, named, cells.children.flip⟩

end Vm

end ScriptVm
