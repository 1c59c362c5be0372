import ScriptVm.Proofs.Simulation.Execution
import ScriptVm.Proofs.Vm.Safety

/-!
# Virtual machines that agree

The same turn of the same execution keeps two virtual machines agreeing, as long as no callback is
known. Work of the collectors keeps them agreeing as well: the pairs that are reached on both sides
are left.
-/
namespace ScriptVm

/-- The same execution, held as often, on both sides. -/
structure HeldExecution.Agrees (pairing : Pairing) (left right : HeldExecution) : Prop where
  /-- The numbers. -/
  id : right.id = left.id
  /-- The counts of holders. -/
  holders : right.holders = left.holders
  /-- The executions. -/
  execution : left.execution.Agrees pairing right.execution

/-- Two virtual machines that differ by what a pairing of handles hides. -/
structure Vm.Agrees (pairing : Pairing) (room : Nat) (left right : Vm) : Prop where
  /-- The machines. -/
  machine : left.machine.Agrees pairing room right.machine
  /-- The executions. -/
  executions : List.Forall₂ (HeldExecution.Agrees pairing) left.executions right.executions

namespace Vm

variable {pairing : Pairing} {room : Nat} {left right : Vm} {id : Nat}
  {execution execution' : Execution}

/-- Two virtual machines that agree under more pairs. -/
def AgreeUnderMore (pairing : Pairing) (room : Nat) (left right : Vm) : Prop :=
  ∃ more, pairing.Grows more ∧ left.Agrees more room right

/-- Less room is looked at. -/
theorem Agrees.less (agrees : left.Agrees pairing room right) {lower : Nat} (bound : lower ≤ room) :
    left.Agrees pairing lower right :=
  { agrees with machine := agrees.machine.less bound }

/-- An execution is found on both sides or on neither. -/
theorem Agrees.execution? (agrees : left.Agrees pairing room right) (id : Nat) :
    (left.execution? id = none ∧ right.execution? id = none) ∨
      ∃ execution execution', left.execution? id = some execution ∧
        right.execution? id = some execution' ∧ execution.Agrees pairing execution' := by
  have both := agrees.executions
  unfold Vm.execution?
  generalize left.executions = entries at both
  generalize right.executions = entries' at both
  induction both with
  | nil => exact .inl ⟨rfl, rfl⟩
  | @cons entry entry' rest rest' head _ hypothesis =>
    rw [List.find?_cons, List.find?_cons, head.id]
    by_cases here : entry.id = id
    · simp only [here, decide_true]
      exact .inr ⟨_, _, rfl, rfl, head.execution⟩
    · simpa only [here, decide_false] using hypothesis

/-- An execution is replaced on both sides. -/
theorem Agrees.setExecution (agrees : left.Agrees pairing room right)
    (executions : execution.Agrees pairing execution') (id : Nat) :
    (left.setExecution id execution).Agrees pairing room (right.setExecution id execution') := by
  refine ⟨agrees.machine, ?_⟩
  simp only [Vm.setExecution, Vm.updateExecution, List.forall₂_map_left_iff,
    List.forall₂_map_right_iff]
  refine agrees.executions.imp ?_
  intro entry entry' agree
  rw [agree.id]
  split
  · exact ⟨rfl, agree.holders, executions⟩
  · exact agree

/-- A machine and an execution are replaced on both sides. -/
theorem Agrees.put (agrees : left.Agrees pairing room right) {less : Nat}
    {state state' : Machine × Execution} (both : Execution.Both pairing less state state')
    (id : Nat) : AgreeUnderMore pairing less (left.put id state) (right.put id state') := by
  obtain ⟨more, grows, machines, executions⟩ := both
  have replaced : Vm.Agrees more less { left with machine := state.1 }
      { right with machine := state'.1 } := by
    refine ⟨machines, agrees.executions.imp ?_⟩
    intro entry entry' agree
    exact ⟨agree.id, agree.holders, agree.execution.mono grows⟩
  exact ⟨more, grows, replaced.setExecution executions id⟩

/-- The same call of a host function ends. -/
theorem Agrees.afterRoutine (agrees : left.Agrees pairing room right) (id frame : Nat) :
    (left.afterRoutine id frame).Agrees pairing room (right.afterRoutine id frame) := by
  unfold Vm.afterRoutine
  rcases agrees.execution? id with ⟨none, none'⟩ | ⟨_, _, some, some', executions⟩
  · rw [none, none']
    exact agrees
  · rw [some, some']
    exact agrees.setExecution (executions.returnFrom frame).settle id

/-- The same routine is found. -/
theorem Agrees.routine? (agrees : left.Agrees pairing room right) (function : HostFunction) :
    right.machine.registry.routine? function = left.machine.registry.routine? function := by
  rw [agrees.machine.registry]
  rfl

/-- Without callbacks no host function has one for its routine. -/
theorem Grounded.routine?_ne_callback {vm : Vm} (grounded : vm.Grounded False)
    (present : vm.execution? id = some execution) {frame : Nat} {function : HostFunction}
    (inside : .host frame function ∈ execution.frames) (number : Nat) :
    vm.machine.registry.routine? function ≠ some (.callback number) := by
  intro callback
  unfold Registry.routine? at callback
  split at callback
  · rename_i routine own
    obtain rfl := Option.some.inj callback
    exact (grounded.fine present _ inside).2 number own
  · exact grounded.bindings number (Table.mem_values_of_find? callback)

/-- The constants of the functions that an execution calls stand for themselves. -/
theorem Agrees.anchored (agrees : left.Agrees pairing room right)
    (grounded : left.Grounded False) (present : left.execution? id = some execution) :
    ∀ id activation, .script id activation ∈ execution.frames →
      activation.function.module.Anchored pairing := by
  intro number activation inside
  exact agrees.machine.constants _ ((grounded.fine present _ inside).1 _ rfl)

/-- The same turn on both sides. No turn allocates more than five proxies. -/
theorem Agrees.turn (agrees : left.Agrees pairing (room + 5) right) (grounded : left.Grounded False)
    (present : left.execution? id = some execution)
    (executions : execution.Agrees pairing execution') :
    AgreeUnderMore pairing room (Vm.turn idle id execution (left, ())).1
      (Vm.turn idle id execution' (right, ())).1 := by
  have fewer : left.machine.Agrees pairing (room + 3) right.machine :=
    agrees.machine.less (by omega)
  have same : left.Agrees pairing room right := agrees.less (by omega)
  have both := executions.frames
  unfold Vm.turn
  dsimp only
  generalize before : execution.frames = frames at both
  generalize execution'.frames = frames' at both
  cases both with
  | nil => exact ⟨pairing, .refl pairing, same.setExecution executions.settle id⟩
  | cons head rest =>
    cases head with
    | script number frames =>
      have dispatched := Execution.both_dispatch agrees.machine executions
        (agrees.anchored grounded present)
      exact agrees.put dispatched.settle id
    | host frame function =>
      unfold callHost
      dsimp only
      rw [agrees.routine?]
      cases known : left.machine.registry.routine? function with
      | none =>
        have raised := Execution.both_raiseFault fewer executions
          (.unboundFunction function.signature)
        exact agrees.put raised.settle id
      | some routine =>
        have finished : AgreeUnderMore pairing room
            ((left.act id fun machine => execution.finishRoutine machine
              (execution.routineResult left.machine routine)).afterRoutine id frame)
            ((right.act id fun machine => execution'.finishRoutine machine
              (execution'.routineResult right.machine routine)).afterRoutine id frame) := by
          rw [executions.routineResult agrees.machine]
          obtain ⟨more, grows, done⟩ := agrees.put (Execution.both_finishRoutine fewer executions
            fun value computed => Execution.routineResult_plain computed) id
          exact ⟨more, grows, done.afterRoutine id frame⟩
        cases routine with
        | callback number =>
          have inside : Frame.host frame function ∈ execution.frames := by
            rw [before]
            exact List.mem_cons_self
          exact absurd known (grounded.routine?_ne_callback present inside number)
        | operator operator => exact finished
        | cast target => exact finished

/-- Both executions are ready, or neither. -/
theorem Agrees.ready (agrees : left.Agrees pairing room right) (id : Nat) :
    (∃ result, left.ready id = result ∧ right.ready id = result ∧
        ∀ execution, result ≠ .ok (some execution)) ∨
      ∃ execution execution', left.ready id = .ok (some execution) ∧
        right.ready id = .ok (some execution') ∧ execution.Agrees pairing execution' := by
  unfold Vm.ready
  rcases agrees.execution? id with ⟨none, none'⟩ | ⟨execution, execution', some, some', agree⟩
  · rw [none, none']
    exact .inl ⟨_, rfl, rfl, by simp⟩
  · have empty : execution'.frames.isEmpty = execution.frames.isEmpty := by
      have both := agree.frames
      generalize execution.frames = frames at both
      generalize execution'.frames = frames' at both
      cases both <;> rfl
    have ended : execution'.ended = execution.ended := by
      simp only [Execution.ended, agree.flags]
    rw [some, some']
    simp only [empty, ended]
    split
    · exact .inl ⟨_, rfl, rfl, by simp⟩
    · split
      · exact .inl ⟨_, rfl, rfl, by simp⟩
      · exact .inr ⟨_, _, rfl, rfl, agree.resume⟩

/-- One turn of the same execution is run on both sides. -/
theorem Agrees.runStep (agrees : left.Agrees pairing (room + 5) right)
    (grounded : left.Grounded False) (id : Nat) :
    AgreeUnderMore pairing room (Vm.runStep idle id (left, ())).2.1
      (Vm.runStep idle id (right, ())).2.1 := by
  have same : left.Agrees pairing room right := agrees.less (by omega)
  unfold Vm.runStep
  dsimp only
  rcases agrees.ready id with ⟨result, first, second, idle⟩ | ⟨_, _, first, second, executions⟩
  · rw [first, second]
    cases result with
    | error error => exact ⟨pairing, .refl pairing, same⟩
    | ok result =>
      cases result with
      | none => exact ⟨pairing, .refl pairing, same⟩
      | some execution => exact absurd rfl (idle execution)
  · obtain ⟨call, present⟩ := resumed first
    have known : (left.perform (.resume id)).Grounded False :=
      grounded.perform (by simp [Call.Legal, Call.entered]) (by simp [Call.hooks])
    rw [call] at known
    rw [first, second]
    exact (agrees.setExecution executions id).turn known present executions

end Vm

end ScriptVm
