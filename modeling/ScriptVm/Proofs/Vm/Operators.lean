import ScriptVm.Proofs.Execution.Operators
import ScriptVm.Proofs.Vm.Exceptions

/-!
# Operators as built-in functions of virtual machines

A call of the built-in function for an operator does what the instruction for the operator does. Its
result is a new value with the same payload, and its fault is an exception of the same class with
the same message. The exception is handled where the fault of the instruction would be handled if it
stood in the place of the call.
-/
namespace ScriptVm

/-- An entry is found under its name when names are distinct. -/
theorem Table.find?_of_mem {α : Type} {table : Table α} {name : String} {entry : α}
    (distinct : table.names.Nodup) (member : (name, entry) ∈ table.entries) :
    table.find? name = some entry := by
  obtain ⟨earlier, later, shape⟩ := List.append_of_mem member
  refine List.lookup_eq_some_iff.mpr ⟨earlier, later, shape, fun other before => ?_⟩
  rw [names, shape, List.map_append, List.map_cons] at distinct
  have apart := (List.nodup_append.mp distinct).2.2 other.1 (List.mem_map_of_mem before) name
    List.mem_cons_self
  simpa using apart.symm

/-- There is a built-in function for an operator and a kind. -/
def BuiltIn.Offers (operator : Operator) (kind : Kind) : Prop :=
  kind ∈ Kind.scalars ∧ (kind ≠ .string ∨ operator = .add)

/-- The built-in function for an operator and a kind. -/
def BuiltIn.ofOperator (operator : Operator) (kind : Kind) : HostFunction :=
  ⟨operatorSignature kind operator.symbol, 2, 1, none, some (.operator operator)⟩

/-- The built-in function for an operator and a kind is known by its signature. -/
theorem BuiltIn.find?_ofOperator {operator : Operator} {kind : Kind}
    (offers : Offers operator kind) :
    functions.find? (operatorSignature kind operator.symbol) =
      some (.host (ofOperator operator kind)) := by
  refine Table.find?_of_mem nodup_names (List.mem_append_left _ ?_)
  have listed : operator ∈ Operator.all := by cases operator <;> decide
  refine List.mem_flatMap.mpr ⟨operator, listed, List.mem_map.mpr ⟨kind, ?_, rfl⟩⟩
  simpa [Offers] using offers

/-- A call is about to call the built-in function for an operator and a kind. -/
structure Activation.CallsOperator (activation : Activation) (operator : Operator) (kind : Kind)
    (following : Nat) : Prop where
  /-- There is such a function. -/
  offers : BuiltIn.Offers operator kind
  /-- Its signature is what the next instruction calls. -/
  calls : ∃ index, activation.fetch? = some (⟨.call, index, ()⟩, following) ∧
    activation.function.module.string index.toNat =
      .ok (BuiltIn.operatorSignature kind operator.symbol)

/-- A reference is read, and there is a value behind it. -/
def Heap.Shows (heap : Heap) (result : Except Error Ref) (value : Value) : Prop :=
  ∃ reference, result = .ok reference ∧ heap.value? reference = some value

/-- A call is about to apply an operator to two values in its registers. -/
structure Activation.AppliesOperator (activation : Activation) (heap : Heap) (operator : Operator)
    (target : UInt32) (one two : Value) (following : Nat) : Prop where
  /-- The next instruction applies the operator to two registers with the values. -/
  applies : ∃ left right,
    activation.fetch? = some (⟨.arithmetic operator, target, left, right, ()⟩, following) ∧
    heap.Shows (activation.register left.toNat) one ∧
    heap.Shows (activation.register right.toNat) two
  /-- The register for the result exists. -/
  inside : target.toNat < registerCount

namespace Vm

open Execution (Applies SameHandler)

variable {config : Config} {fresh vm : Vm} {id number : Nat} {execution : Execution}
  {caller twin : Activation} {below : List Frame} {operator : Operator} {kind : Kind}
  {target : UInt32} {one two : Value} {following past : Nat}

/-- Along every run the built-in functions for operators are known. -/
theorem find?_of_runs (made : create config = .ok fresh) (runs : RunsBy Call.Proper fresh vm)
    (offers : BuiltIn.Offers operator kind) :
    vm.machine.registry.functions.find? (BuiltIn.operatorSignature kind operator.symbol) =
      some (.host (BuiltIn.ofOperator operator kind)) := by
  obtain ⟨added, shape⟩ := ((intact_create made).upholds_runs runs).machine.changes.grows.functions
  have found := BuiltIn.find?_ofOperator offers
  rw [(create_eq made).1] at shape
  rw [Table.find?] at found ⊢
  rw [← shape, List.lookup_append]
  exact Option.or_eq_some_iff.mpr (.inl found)

/-- The two turns in which a built-in function for an operator is called and returns. The host call
has a new number, so that none of the calls below it is taken for it. -/
theorem applies_call (made : create config = .ok fresh) (runs : RunsBy Call.Proper fresh vm)
    (present : vm.execution? id = some execution)
    (stack : execution.frames = .script number caller :: below)
    (short : execution.frames.length < frameLimit)
    (calls : caller.CallsOperator operator kind following)
    (first : vm.machine.heap.Shows (execution.parameter 0) one)
    (second : vm.machine.heap.Shows (execution.parameter 1) two)
    (room : vm.machine.heap.hasRoom (1 + Machine.instanceSize) = true) :
    let resumed := { execution with
      frames := .script number (caller.begun.moveTo following) :: below
      issued := execution.issued + 1 }
    ∃ state, (vm.perform (.turn id)).perform (.turn id) = vm.put id state ∧
      Applies vm.machine (fun value => resumed.setResult value) resumed (operator.apply one two)
        state := by
  intro resumed
  obtain ⟨index, fetched, named⟩ := calls.calls
  obtain ⟨left, held, shown⟩ := first
  obtain ⟨right, held', shown'⟩ := second
  have intact := ((intact_create made).upholds_runs runs).intact
  have entered := Execution.turned_call stack short fetched named
    (find?_of_runs made runs calls.offers)
  have older : ∀ frame ∈ resumed.frames, frame.id < execution.issued + 1 := by
    have issued := (intact.execution present).issued
    rw [stack] at issued
    intro frame member
    rcases List.mem_cons.mp member with rfl | deeper
    · exact Nat.lt_succ_of_le (issued (.script number caller) List.mem_cons_self)
    · exact Nat.lt_succ_of_le (issued frame (List.mem_cons_of_mem _ deeper))
  let noted := vm.machine.note (.dispatched caller.next .call)
  let calling := { resumed with
    frames := .host resumed.issued (BuiltIn.ofOperator operator kind) :: resumed.frames }
  have frames : calling.frames = .host (execution.issued + 1) (BuiltIn.ofOperator operator kind) ::
      .script number (caller.begun.moveTo following) :: below := rfl
  have bound : noted.registry.routine? (BuiltIn.ofOperator operator kind) =
      some (.operator operator) := rfl
  have standard : noted.Standard := standard_of_runs made runs
  have applies : Applies noted (fun value => resumed.setResult value) resumed
      (operator.apply one two) (calling.turned noted) :=
    Execution.turned_operator frames older bound held held' shown shown' standard
      intact.stocked.orderly room
  have same : noted.heap = vm.machine.heap := rfl
  refine ⟨calling.turned noted, ?_, applies.of_heap same⟩
  have reached := perform_turn present
  rw [entered] at reached
  rw [reached, perform_turn (execution?_put_self present _), put_put]
  rfl

/-- The turn in which the instruction for an operator is executed in the place of a call. -/
theorem applies_instruction (made : create config = .ok fresh)
    (runs : RunsBy Call.Proper fresh vm) (present : vm.execution? id = some execution)
    (applies : twin.AppliesOperator vm.machine.heap operator target one two past)
    (room : vm.machine.heap.hasRoom (1 + Machine.instanceSize) = true) :
    let resumed := { execution with
      frames := .script number (twin.begun.moveTo past) :: below }
    ∃ state, (vm.put id (vm.machine, { execution with
        frames := .script number twin :: below })).perform (.turn id) = vm.put id state ∧
      Applies vm.machine (fun value => { execution with
        frames := .script number { twin.begun.moveTo past with
          registers := twin.registers.setIfInBounds target.toNat value } :: below }) resumed
        (operator.apply one two) state := by
  intro resumed
  obtain ⟨left, right, fetched, ⟨first, held, shown⟩, second, held', shown'⟩ := applies.applies
  have intact := ((intact_create made).upholds_runs runs).intact
  let execution' := { execution with frames := .script number twin :: below }
  have applied : Applies vm.machine _ _ _ (execution'.turned vm.machine) :=
    Execution.turned_arithmetic rfl fetched applies.inside held held' shown shown'
      (standard_of_runs made runs) intact.stocked.orderly room
  refine ⟨_, ?_, applied⟩
  rw [perform_turn (execution?_put_self present _), put_put]
  rfl

/-- Whatever proper calls are made on a fresh virtual machine, a call of the built-in function for
an operator does what the instruction for the operator does, as long as there is room for an
exception. Its result is a new value with the payload that the instruction would store, in the first
parameter register, and the calling function goes on after the call. Its fault is raised as a new
exception with the same class and the same message, at the same handler as the fault of the
instruction in the place of the call. -/
theorem called_as_applied (made : create config = .ok fresh) (runs : RunsBy Call.Proper fresh vm)
    (present : vm.execution? id = some execution)
    (stack : execution.frames = .script number caller :: below)
    (short : execution.frames.length < frameLimit)
    (calls : caller.CallsOperator operator kind following)
    (first : vm.machine.heap.Shows (execution.parameter 0) one)
    (second : vm.machine.heap.Shows (execution.parameter 1) two)
    (applies : twin.AppliesOperator vm.machine.heap operator target one two past)
    (body : twin.function.body = caller.function.body) (next : twin.next = caller.next)
    (room : vm.machine.heap.hasRoom (1 + Machine.instanceSize) = true) :
    ∃ called computed : Machine × Execution,
      (vm.perform (.turn id)).perform (.turn id) = vm.put id called ∧
      (vm.put id (vm.machine, { execution with
        frames := .script number twin :: below })).perform (.turn id) = vm.put id computed ∧
      match operator.apply one two with
      | .ok result => ∃ value other,
        ¬vm.machine.heap.Issued value.handle ∧ called.1.heap.value? value = some result ∧
        called.2 = { execution with
          frames := .script number (caller.begun.moveTo following) :: below
          parameters := execution.parameters.setIfInBounds 0 value
          issued := execution.issued + 1 } ∧
        ¬vm.machine.heap.Issued other.handle ∧ computed.1.heap.value? other = some result ∧
        computed.2 = { execution with
          frames := .script number { twin.begun.moveTo past with
            registers := twin.registers.setIfInBounds target.toNat other } :: below }
      | .error fault => ∃ value other,
        vm.machine.Excepts fault value called.1 ∧ called.2.parameter 0 = .ok value ∧
        vm.machine.Excepts fault other computed.1 ∧ computed.2.parameter 0 = .ok other ∧
        SameHandler fault.exception.name number (caller.begun.moveTo following)
          (twin.begun.moveTo past) below called.2 computed.2 := by
  obtain ⟨called, calling, reached⟩ :=
    applies_call made runs present stack short calls first second room
  obtain ⟨computed, computing, reached'⟩ := applies_instruction made runs present applies room
  refine ⟨called, computed, calling, computing, ?_⟩
  cases applied : operator.apply one two with
  | ok result =>
    rw [applied] at reached reached'
    cases reached with
    | stores unissued shown =>
      cases reached' with
      | stores unissued' shown' => exact ⟨_, _, unissued, shown, rfl, unissued', shown', rfl⟩
  | error fault =>
    rw [applied] at reached reached'
    cases reached with
    | raises excepts =>
      cases reached' with
      | raises excepts' =>
        have start : (twin.begun.moveTo past).start = (caller.begun.moveTo following).start := next
        have blocks : (twin.begun.moveTo past).function.body =
            (caller.begun.moveTo following).function.body := body
        exact ⟨_, _, excepts, Execution.parameter_landing _ _ _, excepts',
          Execution.parameter_landing _ _ _, Execution.sameHandler_landing blocks start _ _ _ _⟩

/-- Null is divided by null inside a guarded block, by the built-in function and by the instruction.
The type error of either is handled at the end of the block. -/
theorem called_as_applied_guarded : ∃ (fresh vm : Vm) (execution : Execution)
    (caller twin : Activation) (called computed : Machine × Execution),
    create {} = .ok fresh ∧ RunsBy Call.Proper fresh vm ∧ vm.execution? 0 = some execution ∧
    execution.frames = [.script 1 caller] ∧
    (vm.perform (.turn 0)).perform (.turn 0) = vm.put 0 called ∧
    (vm.put 0 (vm.machine, { execution with frames := [.script 1 twin] })).perform (.turn 0) =
      vm.put 0 computed ∧
    called.1.thrown <$> called.2.parameter 0 = .ok (.object, some "TypeError") ∧
    computed.1.thrown <$> computed.2.parameter 0 = .ok (.object, some "TypeError") ∧
    called.2.frames = [.script 1 { caller with next := 13 }] ∧
    computed.2.frames = [.script 1 { twin with next := 13 }] := by
  let kind : Kind := .integer ⟨true, .w32⟩
  let signature := BuiltIn.operatorSignature kind Operator.div.symbol
  let blocks : List GuardedBlock := [⟨0, 13, [⟨.objects "TypeError", 13⟩]⟩]
  let body : Body := ⟨0, 14, [], blocks⟩
  let callCode : Array UInt8 := #[4, 0, 0, 0, 0, 2, 2, 2, 2, 2, 2, 2, 2, 2]
  let divisionCode : Array UInt8 := #[34, 2, 0, 0, 0, 0, 0, 0, 0, 1, 0, 0, 0, 2]
  let script : ScriptFunction := ⟨"main", 0, 0, ⟨"main", [], #[signature], #[], callCode, 0⟩, body⟩
  let caller := Activation.enter script
  let twin := Activation.enter { script with module := { script.module with code := divisionCode } }
  let execution : Execution := { frames := [.script 1 caller], issued := 1 }
  let fresh : Vm := { machine := { config := {}, registry := .initial, collector := .create 32 } }
  let vm := (fresh.perform .createExecution).perform (.restart 0 (.script script))
  have made : create {} = .ok fresh := rfl
  have runs : RunsBy Call.Proper fresh vm := by
    refine .tail (.single ⟨.createExecution, proper_of_quiet _ _ rfl, rfl⟩)
      ⟨.restart 0 (.script script), ?_, rfl⟩
    rintro function ⟨rfl⟩
    exact .inl ⟨0, 14, [], blocks, "main", 0, 0, script.module, body, by decide, rfl, rfl⟩
  have present : vm.execution? 0 = some execution := rfl
  have null : vm.machine.heap.value? Ref.null = some .null := by decide +kernel
  have calls : caller.CallsOperator .div kind 5 :=
    ⟨⟨by decide, .inl (by decide)⟩, 0, rfl, rfl⟩
  have applies : twin.AppliesOperator vm.machine.heap .div 2 .null .null 13 :=
    ⟨⟨0, 1, rfl, ⟨_, rfl, null⟩, _, rfl, null⟩, by decide⟩
  obtain ⟨called, computed, calling, computing, _, _, excepts, first, excepts', second, same⟩ :=
    called_as_applied made runs present rfl (by decide) calls ⟨_, rfl, null⟩ ⟨_, rfl, null⟩ applies
      rfl rfl (by decide +kernel)
  have handler : body.findHandler? 0 .object (some "TypeError") = some 13 := by
    decide +kernel
  refine ⟨fresh, vm, execution, caller, twin, called, computed, made, runs, present, rfl, calling,
    computing, ?_, ?_, ?_⟩
  · rw [first]
    exact congrArg Except.ok excepts.thrown
  · rw [second]
    exact congrArg Except.ok excepts'.thrown
  · cases same with
    | here handles calls computes =>
      obtain rfl := Option.some.inj (handles.symm.trans handler)
      exact ⟨calls, computes⟩
    | under passes => exact absurd (handler.symm.trans passes) nofun
    | nowhere passes => exact absurd (handler.symm.trans passes) nofun

end Vm

end ScriptVm
