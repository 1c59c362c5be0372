import ScriptVm.Proofs.Simulation.Preparation

/-!
# Transparency of the collector

A schedule lets executions take turns and the collector work in any order. The same turns without
the work of the collector lead to an isomorphic virtual machine: executions have come equally far,
and what is reached from the roots corresponds one-to-one, with the same payloads. No instruction
ever finds that something has been collected. The heap without collections is the first to be full,
and only then the two can part.
-/
namespace ScriptVm

/-- What a schedule lets happen: one turn of an execution, or work of the collector. -/
inductive Action where
  | turn (id : Nat)
  | collectStep
  | collect
  | resetCollector
  deriving DecidableEq, Repr

/-- The action is a turn. -/
def Action.isTurn : Action → Bool
  | .turn _ => true
  | _ => false

/-- An action is the turn of some execution, or it is none. -/
theorem Action.isTurn_cases (action : Action) :
    (∃ id, action = .turn id) ∨ action.isTurn = false := by
  cases action with
  | turn id => exact .inl ⟨id, rfl⟩
  | _ => exact .inr rfl

namespace Vm

/-- Lets an action happen. -/
def take (vm : Vm) : Action → Vm
  | .turn id => (runStep idle id (vm, ())).2.1
  | .collectStep => vm.collectStep.2
  | .collect => vm.collect
  | .resetCollector => vm.resetCollector

/-- Lets the actions of a schedule happen one after the other. -/
def follow (vm : Vm) (schedule : List Action) : Vm := schedule.foldl take vm

/-- A virtual machine without callbacks: from a fresh one on, modules are loaded, executions are
made, held, dropped and initialized on offered functions, and actions happen, in any order. -/
inductive Prepared : Vm → Prop where
  | create {config : Config} {fresh : Vm} (created : create config = .ok fresh) : Prepared fresh
  | perform {vm : Vm} {call : Call} (prepared : Prepared vm) (prepares : call.prepares = true)
    (legal : call.Legal vm) : Prepared (vm.perform call)
  | take {vm : Vm} (prepared : Prepared vm) (action : Action) : Prepared (vm.take action)

variable {vm left right : Vm} {pairing : Pairing} {room : Nat}

/-- The virtual machine keeps all that is reached, and it knows no callback. -/
structure Settled (vm : Vm) : Prop where
  /-- Nothing reached is condemned. -/
  safe : vm.Safe
  /-- No callback is known. -/
  grounded : vm.Grounded False

/-- Calls that store nothing, pin nothing and make no callback known. -/
theorem Settled.perform (settled : vm.Settled) {call : Call} (legal : call.Legal vm)
    (stored : call.stored = []) (pins : call.pins = false) (hooks : call.hooks = false) :
    (vm.perform call).Settled :=
  ⟨settled.safe.perform ⟨legal, by simp [stored], by simp [pins]⟩,
    settled.grounded.perform legal (by simp [hooks])⟩

/-- A turn is nothing, or it is two calls. -/
theorem take_turn (vm : Vm) (id : Nat) :
    vm.take (.turn id) = vm ∨
      vm.take (.turn id) = (vm.perform (.resume id)).perform (.turn id) := by
  unfold take runStep
  dsimp only
  cases prepared : vm.ready id with
  | error error => exact .inl rfl
  | ok result =>
    cases result with
    | none => exact .inl rfl
    | some execution =>
      obtain ⟨call, present⟩ := resumed prepared
      right
      rw [call]
      simp [Vm.perform, present]

/-- An action that is no turn is work of the collector. -/
theorem collected_take {action : Action} (work : action.isTurn = false) :
    Collected vm (vm.take action) := by
  cases action with
  | turn id => simp [Action.isTurn] at work
  | collectStep => exact vm.collected_collectStep
  | collect =>
    show Collected vm (vm.perform .collect)
    exact collected_perform rfl
  | resetCollector =>
    show Collected vm (vm.perform .resetCollector)
    exact collected_perform rfl

/-- Work of the collector keeps a virtual machine settled. -/
theorem Settled.collected {after : Vm} (settled : vm.Settled) (collected : Collected vm after) :
    after.Settled := by
  refine ⟨⟨?_, settled.safe.grounded.collected collected⟩, settled.grounded.collected collected⟩
  rw [collected.roots]
  exact collected.works.safe settled.safe.collector

/-- A turn keeps a virtual machine settled, and it takes no proxy away. -/
theorem Settled.turn (settled : vm.Settled) (id : Nat) :
    (vm.take (.turn id)).Settled ∧
      vm.machine.heap.population ≤ (vm.take (.turn id)).machine.heap.population := by
  have once : ∀ {vm : Vm} (call : Call), vm.Settled → call.entered = none → call.stored = [] →
      call.pins = false → call.hooks = false → call.collects = false →
      (vm.perform call).Settled ∧
        vm.machine.heap.population ≤ (vm.perform call).machine.heap.population := by
    intro vm call settled passes stored pins hooks collects
    have legal : call.Legal vm := legal_of_quiet _ _ passes
    have advances := advances_perform settled.grounded legal (by simp [hooks]) collects pins
    exact ⟨settled.perform legal stored pins hooks,
      advances.moves.population_le settled.safe.collector.orderly⟩
  rcases vm.take_turn id with same | calls
  · rw [same]
    exact ⟨settled, Nat.le_refl _⟩
  · obtain ⟨resumed, more⟩ := once (.resume id) settled rfl rfl rfl rfl rfl
    obtain ⟨turned, most⟩ := once (.turn id) resumed rfl rfl rfl rfl rfl
    rw [calls]
    exact ⟨turned, Nat.le_trans more most⟩

/-- Actions keep a virtual machine settled. -/
theorem Settled.take (settled : vm.Settled) (action : Action) : (vm.take action).Settled := by
  rcases action.isTurn_cases with ⟨id, rfl⟩ | work
  · exact (settled.turn id).1
  · exact settled.collected (collected_take work)

/-- Actions keep a virtual machine agreeing with itself. -/
theorem Consistent.take (consistent : vm.Consistent) (settled : vm.Settled) (action : Action) :
    (vm.take action).Consistent := by
  obtain ⟨pairing, agrees⟩ := consistent
  rcases action.isTurn_cases with ⟨id, rfl⟩ | work
  · have wide : vm.Agrees pairing (0 + 5) vm := ⟨agrees.machine.widen _, agrees.executions⟩
    obtain ⟨more, _, turned⟩ := wide.runStep settled.grounded id
    exact ⟨more, turned⟩
  · have collected : Collected vm (vm.take action) := collected_take work
    exact ⟨_, agrees.collected settled.safe settled.safe collected collected (Nat.le_refl _)
      fun _ _ => rfl⟩

/-- A prepared virtual machine is settled, and it agrees with itself. -/
theorem Prepared.settled (prepared : Prepared vm) : vm.Settled ∧ vm.Consistent := by
  induction prepared with
  | create created =>
    exact ⟨⟨safe_create created, grounded_create created⟩, consistent_create created⟩
  | @perform vm call _ prepares legal hypothesis =>
    obtain ⟨settled, consistent⟩ := hypothesis
    refine ⟨?_, consistent.perform prepares⟩
    cases call with
    | load | loadContainer | createExecution | holdExecution | dropExecution | restart =>
      exact settled.perform legal rfl rfl rfl
    | _ => simp [Call.prepares] at prepares
  | take _ action hypothesis =>
    obtain ⟨settled, consistent⟩ := hypothesis
    exact ⟨settled.take action, consistent.take settled action⟩

/-- Following a schedule leads to a prepared virtual machine. -/
theorem Prepared.follow (prepared : Prepared vm) (schedule : List Action) :
    Prepared (vm.follow schedule) := by
  induction schedule generalizing vm with
  | nil => exact prepared
  | cons action schedule hypothesis => exact hypothesis (prepared.take action)

/-- No instruction of a prepared virtual machine has found that something has been collected. -/
theorem Prepared.clean (prepared : Prepared vm) : vm.machine.journal.Clean := by
  obtain ⟨pairing, agrees⟩ := prepared.settled.2
  exact agrees.machine.clean

/-- A correspondence between what is reached from the roots of two virtual machines. -/
structure Isomorphism (pairing : Pairing) (left right : Vm) : Prop where
  /-- Null corresponds to null. -/
  null : pairing .value Handle.null Handle.null
  /-- The correspondence is one-to-one. -/
  unique : ∀ {first second first' second'}, pairing.Handles first second →
    pairing.Handles first' second' → (first = first' ↔ second = second')
  /-- Whatever is reached on the left has a partner. -/
  covers : ∀ {handle}, left.Rooted handle → ∃ other, pairing.Handles handle other
  /-- Whatever is reached on the right has a partner. -/
  covers' : ∀ {handle}, right.Rooted handle → ∃ other, pairing.Handles other handle
  /-- Partners are null or reached on both sides. -/
  within : ∀ {first second}, pairing.Handles first second →
    (first = Handle.null ∧ second = Handle.null) ∨ (left.Rooted first ∧ right.Rooted second)
  /-- Partners have the same payload, and their references are partners. -/
  cells : ∀ {target first second}, pairing target first second → ∃ proxy proxy',
    left.machine.heap.proxy? first = some proxy ∧ right.machine.heap.proxy? second = some proxy' ∧
      proxy.cell.Agrees pairing target proxy'.cell
  /-- What is known by name is the same, apart from what globals hold. -/
  registry : right.machine.registry =
    { left.machine.registry with globals := right.machine.registry.globals }
  /-- The globals have the same names and hold partners. -/
  globals : pairing.Tables left.machine.registry.globals right.machine.registry.globals
  /-- The executions have the same flags and the same calls at the same positions. -/
  executions : List.Forall₂ (HeldExecution.Agrees pairing) left.executions right.executions

/-- Two virtual machines that differ by garbage and by the choice of handles alone. -/
def Isomorphic (left right : Vm) : Prop := ∃ pairing, Isomorphism pairing left right

/-- Null and what is reached from the roots are kept. -/
theorem keeps_rooted (lawful : vm.machine.heap.Lawful) :
    vm.Keeps fun handle => handle = Handle.null ∨ vm.Rooted handle := by
  refine ⟨.inl rfl, fun category root member => .inr (.start ⟨category, member⟩), ?_⟩
  rintro handle proxy (rfl | reached) resolved child listed
  · obtain rfl := Option.some.inj (lawful.proxy?_null.symm.trans resolved)
    simp [Proxy.null, Cell.children] at listed
  · exact .inr (.child reached resolved listed)

/-- Virtual machines that agree are isomorphic. -/
theorem Agrees.isomorphic (agrees : left.Agrees pairing room right) : left.Isomorphic right := by
  have collectors := agrees.machine.collector
  have narrow := agrees.restrict (keeps_rooted collectors.orderly.lawful)
    (keeps_rooted collectors.orderly'.lawful)
  refine ⟨_, narrow.machine.collector.null, ?_, ?_, ?_, ?_, narrow.machine.collector.cells,
    narrow.machine.registry, narrow.machine.globals, narrow.executions⟩
  · rintro first second first' second' ⟨_, paired⟩ ⟨_, paired'⟩
    exact narrow.machine.collector.eq_iff paired paired'
  · intro handle reached
    obtain ⟨other, ⟨target, paired⟩, reached'⟩ := agrees.partner reached
    exact ⟨other, target, paired, .inr reached, .inr reached'⟩
  · intro handle reached
    obtain ⟨other, ⟨target, paired⟩, reached'⟩ := agrees.partner' reached
    exact ⟨other, target, paired, .inr reached', .inr reached⟩
  · rintro first second ⟨target, paired, kept, kept'⟩
    have same := collectors.eq_iff paired collectors.null
    rcases kept with null | reached
    · exact .inl ⟨null, same.mp null⟩
    · rcases kept' with null' | reached'
      · exact .inl ⟨same.mpr null', null'⟩
      · exact .inr ⟨reached, reached'⟩

/-- The greatest count of proxies that a turn allocates. -/
def turnSize : Nat := 5

/-- Where there is room on the right, there is on the left. -/
theorem Agrees.widen (agrees : left.Agrees pairing room right) {enough : Nat}
    (roomy : right.machine.heap.hasRoom enough = true) : left.Agrees pairing enough right := by
  have collectors := agrees.machine.collector
  have same : ∀ count ≤ enough, left.machine.collector.heap.hasRoom count =
      right.machine.collector.heap.hasRoom count :=
    fun count small => collectors.orderly.lawful.hasRoom_eq collectors.orderly'.lawful
      collectors.fewer roomy small
  exact ⟨{ agrees.machine with collector := { collectors with room := same } }, agrees.executions⟩

/-- Turns alone take no proxy away, so that there has been room if there is. -/
theorem Settled.hasRoom (settled : vm.Settled) {schedule : List Action} {enough : Nat}
    (turns : ∀ action ∈ schedule, action.isTurn = true)
    (roomy : (vm.follow schedule).machine.heap.hasRoom enough = true) :
    vm.machine.heap.hasRoom enough = true := by
  induction schedule generalizing vm with
  | nil => exact roomy
  | cons action schedule hypothesis =>
    have rest := hypothesis (settled.take action)
      (fun other member => turns other (List.mem_cons_of_mem _ member)) roomy
    rcases action.isTurn_cases with ⟨id, rfl⟩ | work
    · obtain ⟨turned, fewer⟩ := settled.turn id
      have lawful : vm.machine.heap.Lawful := settled.safe.collector.orderly.lawful
      have lawful' : (vm.take (.turn id)).machine.heap.Lawful :=
        turned.safe.collector.orderly.lawful
      rw [lawful'.hasRoom_iff] at rest
      exact (lawful.hasRoom_iff enough).mpr (by omega)
    · simp [turns action List.mem_cons_self] at work

/-- No work of the collector. -/
theorem Collected.refl (vm : Vm) : Collected vm vm := ⟨.refl, rfl, rfl, rfl, fun _ => id⟩

/-- Virtual machines that agree go on agreeing when the left one follows a schedule and the right
one only its turns, as long as there is room. -/
theorem Agrees.follow (agrees : left.Agrees pairing 0 right) (settled : left.Settled)
    (settled' : right.Settled) (schedule : List Action)
    (roomy : (right.follow (schedule.filter Action.isTurn)).machine.heap.hasRoom turnSize = true) :
    ∃ more, (left.follow schedule).Agrees more 0
      (right.follow (schedule.filter Action.isTurn)) := by
  induction schedule generalizing left right pairing with
  | nil => exact ⟨pairing, agrees⟩
  | cons action schedule hypothesis =>
    have before : right.machine.heap.hasRoom turnSize = true :=
      settled'.hasRoom (fun _ member => (List.mem_filter.mp member).2) roomy
    rcases action.isTurn_cases with ⟨id, rfl⟩ | work
    · have wide : left.Agrees pairing (0 + 5) right := agrees.widen before
      obtain ⟨more, _, turned⟩ := wide.runStep settled.grounded id
      exact hypothesis turned (settled.take _) (settled'.take _) roomy
    · have collected : Collected left (left.take action) := collected_take work
      have fewer := Nat.le_trans
        (collected.works.population_le settled.safe.collector.orderly)
        agrees.machine.collector.fewer
      have orderly := collected.works.orderly settled.safe.collector.orderly
      have worked := agrees.collected settled.safe settled'.safe collected (.refl right) fewer
        fun count small => orderly.lawful.hasRoom_eq settled'.safe.collector.orderly.lawful fewer
          before small
      rw [List.filter_cons_of_neg (by simp [work])] at roomy ⊢
      exact hypothesis (worked.less (Nat.zero_le _)) (settled.take action) settled' roomy

/-- The collector is transparent: after any schedule the virtual machine is isomorphic to the one
after the turns of the schedule alone, unless the heap is full there, and in neither of them an
instruction has found that something has been collected. -/
theorem isomorphic_of_schedule (prepared : Prepared vm) (schedule : List Action) :
    (vm.follow schedule).machine.journal.Clean ∧
      (vm.follow (schedule.filter Action.isTurn)).machine.journal.Clean ∧
      ((vm.follow (schedule.filter Action.isTurn)).machine.heap.hasRoom turnSize = true →
        (vm.follow schedule).Isomorphic (vm.follow (schedule.filter Action.isTurn))) := by
  obtain ⟨settled, pairing, agrees⟩ := prepared.settled
  refine ⟨(prepared.follow _).clean, (prepared.follow _).clean, ?_⟩
  intro roomy
  obtain ⟨more, followed⟩ := agrees.follow settled settled schedule roomy
  exact followed.isomorphic

/-- A module whose initializer makes three arrays and loses the first one. -/
def threeArrays : Image :=
  let code := [0, 0, 1].flatMap fun register : UInt32 =>
    Instruction.encode ⟨.initArray, register, 0, ()⟩
  { code, initLength := UInt32.ofNat code.length }

/-- A virtual machine about to run the initializer of that module. -/
def withThreeArrays : Vm :=
  let fresh : Vm := { machine := { config := {}, registry := .initial, collector := .create 32 } }
  let made := (fresh.perform (.load "arrays" threeArrays)).perform .createExecution
  match made.machine.registry.initializers.values with
  | [] => made
  | initializer :: _ => made.perform (.restart 0 (.script initializer))

/-- That virtual machine is prepared. -/
theorem prepared_withThreeArrays : Prepared withThreeArrays := by
  let fresh : Vm := { machine := { config := {}, registry := .initial, collector := .create 32 } }
  have created : create {} = .ok fresh := rfl
  have loaded : Prepared (fresh.perform (.load "arrays" threeArrays)) :=
    Prepared.perform (.create created) rfl (legal_of_quiet _ _ rfl)
  have made : Prepared ((fresh.perform (.load "arrays" threeArrays)).perform .createExecution) :=
    loaded.perform rfl (legal_of_quiet _ _ rfl)
  unfold withThreeArrays
  dsimp only
  split
  · exact made
  · rename_i initializer rest known
    refine made.perform rfl ?_
    rintro function ⟨⟩
    refine .inr ⟨initializer, ?_, rfl⟩
    rw [known]
    exact List.mem_cons_self

/-- A collection before the third array lets it take the slot of the first one. -/
theorem isomorphic_of_schedule_arrays :
    let schedule : List Action := [.turn 0, .turn 0, .collect, .turn 0]
    let collected := withThreeArrays.follow schedule
    let plain := withThreeArrays.follow (schedule.filter Action.isTurn)
    plain.machine.heap.hasRoom turnSize = true ∧ collected.machine.heap.slots.size = 3 ∧
      plain.machine.heap.slots.size = 4 ∧ collected.Isomorphic plain := by
  intro schedule collected plain
  have roomy : plain.machine.heap.hasRoom turnSize = true := by decide +kernel
  have fewer : collected.machine.heap.slots.size = 3 := by decide +kernel
  have more : plain.machine.heap.slots.size = 4 := by decide +kernel
  have transparent := isomorphic_of_schedule prepared_withThreeArrays schedule
  exact ⟨roomy, fewer, more, transparent.2.2 roomy⟩

end Vm

end ScriptVm
