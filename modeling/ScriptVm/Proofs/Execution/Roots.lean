import ScriptVm.Proofs.Execution.Checks
import ScriptVm.Proofs.Result

/-!
# What calls and executions keep alive

The roots of a call are its registers, its local variables and its operand stack. Storing a
reference into a call adds that reference to its roots at most, and leaves the called function. The
roots of an execution are its parameter registers and the roots of its calls; dropping calls and
going on at a handler adds none.
-/
namespace ScriptVm

/-- Writing a place of a vector brings in the new entry at most. -/
theorem mem_of_mem_setIfInBounds {count index : Nat} {entries : Vector Ref count}
    {value other : Ref} (member : other ∈ entries.setIfInBounds index value) :
    other ∈ entries ∨ other = value := by
  have inside : other ∈ (entries.setIfInBounds index value).toArray :=
    (Vector.mem_toArray_iff _ _).mpr member
  rw [Vector.toArray_setIfInBounds] at inside
  exact (Array.mem_or_eq_of_mem_setIfInBounds inside).imp (Vector.mem_toArray_iff _ _).mp id

namespace Table

variable {α : Type} {table : Table α} {name : String} {entry : α}

/-- An entry that is found is among the entries. -/
theorem mem_values_of_find? (found : table.find? name = some entry) : entry ∈ table.values := by
  obtain ⟨before, rest, same, _⟩ := List.lookup_eq_some_iff.mp found
  simp [values, same]

/-- Replacing an entry brings in the new entry at most. -/
theorem mem_values_replace {other : α} (member : other ∈ (table.replace name entry).values) :
    other ∈ table.values ∨ other = entry := by
  simp only [values, replace, List.map_map, List.mem_map] at member ⊢
  obtain ⟨⟨key, old⟩, inside, rfl⟩ := member
  simp only [Function.comp_apply]
  split
  · exact .inr rfl
  · exact .inl ⟨(key, old), inside, rfl⟩

/-- Replacing an entry keeps the names. -/
@[simp] theorem names_replace (table : Table α) (name : String) (entry : α) :
    (table.replace name entry).names = table.names := by
  simp only [names, replace, List.map_map]
  apply List.map_congr_left
  rintro ⟨key, old⟩ _
  simp only [Function.comp_apply]
  split <;> rfl

/-- A new entry is found under its name. -/
theorem find?_add (new : table.contains name = false) :
    (table.add name entry).find? name = some entry := by
  have none : table.entries.lookup name = none := by simpa [contains, find?] using new
  simp [add, find?, List.lookup_append, none]

/-- A replaced entry is found under its name. -/
theorem find?_replace (known : table.contains name = true) :
    (table.replace name entry).find? name = some entry := by
  obtain ⟨entries⟩ := table
  simp only [contains, find?, replace] at known ⊢
  induction entries with
  | nil => simp at known
  | cons head rest hypothesis =>
    obtain ⟨key, old⟩ := head
    by_cases here : key = name
    · subst here
      simp
    · have apart : (name == key) = false := by simpa using Ne.symm here
      simp only [List.lookup_cons, apart, List.map_cons, here, if_false] at known ⊢
      exact hypothesis known

end Table

namespace Activation

variable {activation after : Activation} {value : Ref}

/-- The roots of a call. -/
theorem mem_roots {handle : Handle} :
    handle ∈ activation.roots ↔ ∃ reference, reference.handle = handle ∧
      (reference ∈ activation.registers ∨ reference ∈ activation.locals.values ∨
        reference ∈ activation.stack) := by
  simp only [roots, List.mem_map, List.mem_append, List.mem_reverse, Vector.mem_toList_iff]
  constructor
  · rintro ⟨reference, (register | binding) | operand, rfl⟩
    · exact ⟨reference, rfl, .inl register⟩
    · exact ⟨reference, rfl, .inr (.inl binding)⟩
    · exact ⟨reference, rfl, .inr (.inr operand)⟩
  · rintro ⟨reference, rfl, register | binding | operand⟩
    · exact ⟨reference, .inl (.inl register), rfl⟩
    · exact ⟨reference, .inl (.inr binding), rfl⟩
    · exact ⟨reference, .inr operand, rfl⟩

/-- A call is another one with a reference stored in it. -/
structure Stores (activation : Activation) (value : Ref) (after : Activation) : Prop where
  /-- The called function stays. -/
  function : after.function = activation.function
  /-- The reference is the only new root. -/
  roots : ∀ handle ∈ after.roots, handle ∈ activation.roots ∨ handle = value.handle

/-- A new call has no roots but null. -/
theorem roots_enter (function : ScriptFunction) :
    ∀ handle ∈ (enter function).roots, handle = Handle.null := by
  intro handle member
  obtain ⟨reference, rfl, register | binding | operand⟩ := mem_roots.mp member
  · obtain ⟨_, rfl⟩ := Vector.mem_replicate.mp register
    rfl
  · simp only [enter, Table.values, List.map_map, List.mem_map] at binding
    obtain ⟨name, _, rfl⟩ := binding
    rfl
  · simp [enter] at operand

/-- Roots come from roots when registers, local variables and operands do. -/
theorem roots_of_parts {extra : Handle → Prop}
    (registers : ∀ reference ∈ after.registers,
      reference ∈ activation.registers ∨ extra reference.handle)
    (locals : ∀ reference ∈ after.locals.values,
      reference ∈ activation.locals.values ∨ extra reference.handle)
    (stack : ∀ reference ∈ after.stack, reference ∈ activation.stack ∨ extra reference.handle) :
    ∀ handle ∈ after.roots, handle ∈ activation.roots ∨ extra handle := by
  intro handle member
  obtain ⟨reference, rfl, register | binding | operand⟩ := mem_roots.mp member
  · exact (registers reference register).imp_left fun old => mem_roots.mpr ⟨_, rfl, .inl old⟩
  · exact (locals reference binding).imp_left fun old =>
      mem_roots.mpr ⟨_, rfl, .inr (.inl old)⟩
  · exact (stack reference operand).imp_left fun old =>
      mem_roots.mpr ⟨_, rfl, .inr (.inr old)⟩

/-- Writing a register. -/
theorem stores_setRegister {index : Nat} (done : activation.setRegister index value = .ok after) :
    activation.Stores value after := by
  unfold setRegister at done
  split at done
  · obtain rfl := Except.ok.inj done
    refine ⟨rfl, roots_of_parts ?_ (fun _ => .inl) fun _ => .inl⟩
    exact fun _ member => (mem_of_mem_setIfInBounds member).imp_right (congrArg Ref.handle)
  · simp at done

/-- Writing a local variable. -/
theorem stores_setLocalValue {name : String}
    (done : activation.setLocalValue name value = .ok after) : activation.Stores value after := by
  unfold setLocalValue at done
  split at done
  · obtain rfl := Except.ok.inj done
    refine ⟨rfl, roots_of_parts (fun _ => .inl) ?_ fun _ => .inl⟩
    exact fun _ member => (Table.mem_values_replace member).imp_right (congrArg Ref.handle)
  · simp at done

/-- Pushing an operand. -/
theorem stores_push (done : activation.push value = .ok after) : activation.Stores value after := by
  unfold push at done
  split at done
  · obtain rfl := Except.ok.inj done
    refine ⟨rfl, roots_of_parts (fun _ => .inl) (fun _ => .inl) ?_⟩
    exact fun _ member => (List.mem_cons.mp member).symm.imp_right (congrArg Ref.handle)
  · simp at done

/-- Popping an operand leaves no new root. -/
theorem roots_pop {stack : List Ref} (top : activation.stack = value :: stack) :
    ∀ handle ∈ roots { activation with stack }, handle ∈ activation.roots := by
  have roots : ∀ handle ∈ roots { activation with stack }, handle ∈ activation.roots ∨ False :=
    roots_of_parts (fun _ => .inl) (fun _ => .inl)
      fun _ operand => .inl (top ▸ List.mem_cons_of_mem _ operand)
  exact fun handle member => (roots handle member).resolve_right id

/-- A register's reference is a root. -/
theorem mem_roots_of_register {index : Nat} (found : activation.register index = .ok value) :
    value.handle ∈ activation.roots := by
  obtain ⟨inside, rfl⟩ := Vector.getElem?_eq_some_iff.mp (Error.orElse_eq_ok.mp found)
  exact mem_roots.mpr ⟨_, rfl, .inl (Vector.getElem_mem inside)⟩

/-- A local variable's reference is a root. -/
theorem mem_roots_of_local {name : String} (found : activation.locals.find? name = some value) :
    value.handle ∈ activation.roots :=
  mem_roots.mpr ⟨_, rfl, .inr (.inl (Table.mem_values_of_find? found))⟩

/-- An operand is a root. -/
theorem mem_roots_of_operand (member : value ∈ activation.stack) :
    value.handle ∈ activation.roots :=
  mem_roots.mpr ⟨_, rfl, .inr (.inr member)⟩

end Activation

namespace Frame

/-- A frame that goes on at a handler is the same call. -/
theorem catch?_same {frame handling : Frame} {kind : Kind} {className : Option String}
    (caught : frame.catch? kind className = some handling) :
    handling.roots = frame.roots ∧ handling.function = frame.function := by
  cases frame with
  | host id function => simp [catch?] at caught
  | script id activation =>
    obtain ⟨resumed, found, rfl⟩ := Option.map_eq_some_iff.mp caught
    obtain ⟨offset, _, rfl⟩ := Option.map_eq_some_iff.mp found
    exact ⟨rfl, rfl⟩

/-- A new frame has no roots but null. -/
theorem roots_enter (id : Nat) (function : Function) :
    ∀ handle ∈ (enter id function).roots, handle = Handle.null := by
  cases function with
  | script function => exact Activation.roots_enter function
  | host function => simp [enter, roots]

/-- A new frame is a call of its function. -/
theorem function_enter (id : Nat) (function : Function) :
    (enter id function).function = function := by
  cases function <;> rfl

/-- A frame is another one with a reference stored in it. -/
structure Stores (frame : Frame) (value : Ref) (after : Frame) : Prop where
  /-- The called function stays. -/
  function : after.function = frame.function
  /-- The reference is the only new root. -/
  roots : ∀ handle ∈ after.roots, handle ∈ frame.roots ∨ handle = value.handle

/-- Storing into the state of a script call stores into its frame. -/
theorem stores_update {frame after : Frame} {value : Ref} {otherwise : Error}
    {change : Activation → Except Error Activation}
    (stores : ∀ activation changed, change activation = .ok changed →
      activation.Stores value changed)
    (done : frame.update otherwise change = .ok after) : frame.Stores value after := by
  cases frame with
  | host id function => simp [update] at done
  | script id activation =>
    simp only [update, Bind.bind, Except.bind] at done
    split at done
    · simp at done
    · rename_i changed made
      obtain rfl := Except.ok.inj done
      have stored := stores activation changed made
      exact ⟨congrArg Function.script stored.function, stored.roots⟩

end Frame

namespace Execution

variable {execution : Execution}

/-- The roots of an execution. -/
theorem mem_roots {handle : Handle} :
    handle ∈ execution.roots ↔
      (∃ reference ∈ execution.parameters, reference.handle = handle) ∨
        ∃ frame ∈ execution.frames, handle ∈ frame.roots := by
  simp [roots, Vector.mem_toList_iff]

/-- Every frame after unwinding is one of the frames before, perhaps at a handler. -/
theorem mem_unwind {kind : Kind} {className : Option String} {frames rest : List Frame}
    (caught : unwind kind className frames = some rest) {frame : Frame} (member : frame ∈ rest) :
    ∃ old ∈ frames, frame.roots = old.roots ∧ frame.function = old.function := by
  induction frames with
  | nil => simp [unwind] at caught
  | cons first frames hypothesis =>
    unfold unwind at caught
    split at caught
    · rename_i handling found
      obtain rfl := Option.some.inj caught
      rcases List.mem_cons.mp member with rfl | later
      · obtain ⟨roots, function⟩ := Frame.catch?_same found
        exact ⟨first, List.mem_cons_self, roots, function⟩
      · exact ⟨frame, List.mem_cons_of_mem _ later, rfl, rfl⟩
    · obtain ⟨old, inside, same⟩ := hypothesis caught
      exact ⟨old, List.mem_cons_of_mem _ inside, same⟩

end Execution

end ScriptVm
