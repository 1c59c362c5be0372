import ScriptVm.Machine.Values
import ScriptVm.Proofs.Collector.Mutation
import ScriptVm.Proofs.Work

/-!
# Instances and their scraps

An instance takes two proxies, and a standard exception three. Where there is room for all of them,
making it is a function of the machine. Where there is not, what was allocated first is left behind:
nothing refers to it.
-/
namespace ScriptVm

/-- Allocating a proxy uses up room for one, in an empty slot or in a new one. -/
theorem Heap.hasRoom_allocate (heap : Heap) (cell : Cell) (pinned : Bool) (count : Nat) :
    (heap.allocate cell pinned).2.hasRoom count = heap.hasRoom (count + 1) := by
  unfold allocate hasRoom
  split
  · rename_i free
    simp only [Array.size_modify, free, List.length_cons, Bool.or_eq_decide, decide_eq_true_eq]
    rw [Bool.eq_iff_iff]
    simp only [decide_eq_true_eq]
    omega
  · rename_i free
    simp only [Array.size_push, free, List.length_nil]
    rw [Nat.add_assoc, Nat.add_comm 1 count]

/-- Less room is needed for fewer proxies. -/
theorem Heap.hasRoom_of_le {heap : Heap} {fewer count : Nat} (small : fewer ≤ count)
    (room : heap.hasRoom count = true) : heap.hasRoom fewer = true := by
  simp only [hasRoom, Bool.or_eq_true, decide_eq_true_eq] at room ⊢
  omega

namespace Machine

variable {machine : Machine}

/-- Proxies of an instance: its object and its value. -/
def instanceSize : Nat := 2

/-- A new value for an object, which is allocated first. There is room for both. -/
def newInstance (machine : Machine) (object : Object) (pinned : Bool) : Ref × Machine :=
  let (inner, machine) := machine.allocate (.object object) false
  let (handle, machine) := machine.allocate (.value (.object ⟨inner⟩)) pinned
  (⟨handle⟩, machine)

/-- What is left of an instance for which there is no room: its object, as far as that fits. -/
def withScrap (machine : Machine) (object : Object) : Machine :=
  if machine.heap.hasRoom 1 then (machine.allocate (.object object) false).2 else machine

/-- What a standard exception is made from: a blank object, and the position of its message. -/
def exceptionShape (machine : Machine) (exception : ExceptionClass) :
    Except Error (Object × Nat) := do
  let schema ← machine.schema exception.name
  let member ← schema.member ExceptionClass.messageMember
  return (Object.blank schema, member.index)

/-- What a standard exception is made from, when there is room for its message and the instance. -/
def exceptionTemplate (machine : Machine) (exception : ExceptionClass) :
    Except Error (Object × Nat) := do
  let template ← machine.exceptionShape exception
  machine.checkRoom (1 + instanceSize)
  return template

/-- The object of a standard exception with its message. -/
def filled (template : Object × Nat) (text : Handle) : Object :=
  { template.1 with members := template.1.members.setIfInBounds template.2 ⟨text⟩ }

/-- A new exception from its template; its message is allocated first. -/
def newException (machine : Machine) (template : Object × Nat) (message : String) (pinned : Bool) :
    Ref × Machine :=
  let (text, machine) := machine.allocate (.value (.string message)) false
  machine.newInstance (filled template text) pinned

/-- What is left of a standard exception for which there is no room: its message and its object, as
far as there is room for them. -/
def withScraps (machine : Machine) (template : Object × Nat) (message : String) : Machine :=
  if machine.heap.hasRoom 1 then
    let (text, machine) := machine.allocate (.value (.string message)) false
    machine.withScrap (filled template text)
  else machine

/-- Allocating a proxy uses up room for one. -/
theorem hasRoom_allocate (cell : Cell) (pinned : Bool) (count : Nat) :
    (machine.allocate cell pinned).2.heap.hasRoom count = machine.heap.hasRoom (count + 1) := by
  have darkens := Collector.darkens_shade
    { machine.collector with heap := (machine.collector.heap.allocate cell pinned).2 }
    (machine.collector.heap.allocate cell pinned).1
  have shaded : (machine.allocate cell pinned).2.heap.hasRoom count =
      (machine.collector.heap.allocate cell pinned).2.hasRoom count := by
    simp only [allocate, heap, Collector.allocate_eq, Heap.hasRoom, darkens.size, darkens.lists.1]
  rw [shaded, Heap.hasRoom_allocate]
  rfl

/-- A blank object has a place for the message that its type declares. -/
theorem set_message {schema : Schema} {member : Member}
    (declared : schema.member ExceptionClass.messageMember = .ok member) (text : Handle) :
    (Object.blank schema).set member.index ⟨text⟩ =
      .ok (filled (Object.blank schema, member.index) text) := by
  have inside : member.index < (Object.blank schema).members.size := by
    unfold Schema.member at declared
    split at declared
    · rename_i index _ found _
      rw [← Except.ok.inj declared, Object.blank, Array.size_replicate]
      exact (List.findIdx?_eq_some_iff_findIdx_eq.mp found).1
    · cases declared
  rw [Object.set, if_pos inside]
  rfl

end Machine

namespace Work

variable (machine : Machine) (object : Object) (exception : ExceptionClass) (message : String)
  (pinned : Bool)

/-- A proxy is allocated, or there is no room for it. -/
theorem outcome_allocate (cell : Cell) :
    (allocate cell pinned).outcome machine =
      if machine.heap.hasRoom 1 then
        (.ok (machine.allocate cell pinned).1, (machine.allocate cell pinned).2)
      else (.error .badAllocation, machine) := by
  show (orFail (machine.checkRoom 1) >>= fun _ => modifyGet (·.allocate cell pinned) :
    Work Machine Handle).outcome machine = _
  rw [Machine.checkRoom]
  split <;> rfl

/-- An instance is made, or there is no room for all of it. -/
theorem outcome_newInstance :
    (newInstance object pinned).outcome machine =
      if machine.heap.hasRoom Machine.instanceSize then
        (.ok (machine.newInstance object pinned).1, (machine.newInstance object pinned).2)
      else (.error .badAllocation, machine.withScrap object) := by
  unfold newInstance Machine.withScrap
  rw [outcome_bind, outcome_allocate]
  by_cases one : machine.heap.hasRoom 1 = true
  · have next : (machine.allocate (.object object) false).2.heap.hasRoom 1 =
        machine.heap.hasRoom Machine.instanceSize := Machine.hasRoom_allocate _ _ _
    rw [if_pos one, if_pos one]
    dsimp only
    rw [outcome_bind, outcome_allocate, next]
    by_cases two : machine.heap.hasRoom Machine.instanceSize = true
    · rw [if_pos two, if_pos two]
      rfl
    · rw [if_neg two, if_neg two]
  · have none : ¬machine.heap.hasRoom Machine.instanceSize = true :=
      fun two => one (Heap.hasRoom_of_le (by decide) two)
    rw [if_neg one, if_neg one, if_neg none]

/-- An object is made, or its type is not known, or there is no room for all of it. -/
theorem outcome_newObject (typeName : String) :
    (newObject typeName pinned).outcome machine =
      match machine.schema typeName with
      | .ok schema =>
        if machine.heap.hasRoom Machine.instanceSize then
          (.ok (machine.newInstance (Object.blank schema) pinned).1,
            (machine.newInstance (Object.blank schema) pinned).2)
        else (.error .badAllocation, machine.withScrap (Object.blank schema))
      | .error error => (.error error, machine) := by
  show (orFail (machine.schema typeName) >>= fun schema =>
    newInstance (Object.blank schema) pinned).outcome machine = _
  cases machine.schema typeName with
  | error error => rfl
  | ok schema => exact outcome_newInstance machine (Object.blank schema) pinned

/-- A standard exception is made, or its type is not as it should be, or there is no room for all of
it. -/
theorem outcome_newException :
    (newException exception message pinned).outcome machine =
      match machine.exceptionShape exception with
      | .ok template =>
        if machine.heap.hasRoom (1 + Machine.instanceSize) then
          (.ok (machine.newException template message pinned).1,
            (machine.newException template message pinned).2)
        else (.error .badAllocation, machine.withScraps template message)
      | .error error => (.error error, machine) := by
  have made : ∀ schema member, schema.member ExceptionClass.messageMember = .ok member →
      (do
        let text ← allocate (.value (.string message)) false
        let object ← orFail ((Object.blank schema).set member.index ⟨text⟩)
        newInstance object pinned : Work Machine Ref).outcome machine =
      if machine.heap.hasRoom (1 + Machine.instanceSize) then
        (.ok (machine.newException (Object.blank schema, member.index) message pinned).1,
          (machine.newException (Object.blank schema, member.index) message pinned).2)
      else (.error .badAllocation,
        machine.withScraps (Object.blank schema, member.index) message) := by
    intro schema member declared
    simp only [Machine.set_message declared]
    unfold Machine.withScraps
    rw [outcome_bind, outcome_allocate]
    by_cases one : machine.heap.hasRoom 1 = true
    · have next : (machine.allocate (.value (.string message)) false).2.heap.hasRoom
          Machine.instanceSize = machine.heap.hasRoom (1 + Machine.instanceSize) :=
        Machine.hasRoom_allocate _ _ _
      rw [if_pos one, if_pos one, ← next]
      exact outcome_newInstance _ _ pinned
    · have none : ¬machine.heap.hasRoom (1 + Machine.instanceSize) = true :=
        fun three => one (Heap.hasRoom_of_le (by decide) three)
      rw [if_neg one, if_neg one, if_neg none]
  show (orFail (machine.schema exception.name) >>= fun schema => do
    let member ← orFail (schema.member ExceptionClass.messageMember)
    let text ← allocate (.value (.string message)) false
    let object ← orFail ((Object.blank schema).set member.index ⟨text⟩)
    newInstance object pinned).outcome machine = _
  rw [outcome_orFail_bind, Machine.exceptionShape]
  cases machine.schema exception.name with
  | error error => rfl
  | ok schema =>
    show (orFail (schema.member ExceptionClass.messageMember) >>= fun member => do
      let text ← allocate (.value (.string message)) false
      let object ← orFail ((Object.blank schema).set member.index ⟨text⟩)
      newInstance object pinned).outcome machine = match
        schema.member ExceptionClass.messageMember >>= fun member =>
          pure (Object.blank schema, member.index) with
        | .ok _ => _
        | .error _ => _
    rw [outcome_orFail_bind]
    cases declared : schema.member ExceptionClass.messageMember with
    | error error => rfl
    | ok member => exact made schema member declared

/-- A standard exception is made from its template, or something is left of it. -/
theorem outcome_newException_template :
    (newException exception message pinned).outcome machine =
      match machine.exceptionTemplate exception with
      | .ok template =>
        (.ok (machine.newException template message pinned).1,
          (machine.newException template message pinned).2)
      | .error error => (.error error, (newException exception message pinned).left machine) := by
  unfold left Machine.exceptionTemplate Machine.checkRoom
  rw [outcome_newException]
  cases machine.exceptionShape exception with
  | error error => rfl
  | ok template =>
    by_cases room : machine.heap.hasRoom (1 + Machine.instanceSize) = true
    · simp only [if_pos room]
      rfl
    · simp only [if_neg room]
      rfl

end Work

end ScriptVm
