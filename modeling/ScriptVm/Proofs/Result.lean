import ScriptVm.Error

/-!
# Results of computations

What it takes for a lookup or a sequence of computations to succeed.
-/
namespace ScriptVm

/-- The result of an optional lookup is what was found. -/
theorem Error.orElse_eq_ok {α : Type} {error : Error} {found : Option α} {value : α} :
    error.orElse found = .ok value ↔ found = some value := by
  cases found <;> simp [Error.orElse]

/-- A sequence of two computations succeeds when both do. -/
theorem Except.bind_eq_ok {ε α β : Type} {first : Except ε α} {second : α → Except ε β} {result : β}
    (done : first >>= second = .ok result) :
    ∃ value, first = .ok value ∧ second value = .ok result := by
  cases first with
  | error error => simp [Bind.bind, Except.bind] at done
  | ok value => exact ⟨value, rfl, done⟩

section States

variable {ε σ α β : Type} {state : σ}

/-- A sequence of two computations on a state succeeds when both do, the second one on what the
first one leaves. -/
theorem StateT.bind_eq_ok_iff {first : StateT σ (Except ε) α} {second : α → StateT σ (Except ε) β}
    {result : β × σ} : (first >>= second) state = .ok result ↔
      ∃ value middle, first state = .ok (value, middle) ∧ second value middle = .ok result := by
  constructor
  · intro done
    obtain ⟨⟨value, middle⟩, begun, ended⟩ := Except.bind_eq_ok done
    exact ⟨value, middle, begun, ended⟩
  · rintro ⟨value, middle, begun, ended⟩
    show (first state >>= fun taken => second taken.1 taken.2) = _
    rw [begun]
    exact ended

/-- A value is a computation on a state. -/
theorem StateT.pure_eq_ok_iff {value : α} {result : α × σ} :
    (pure value : StateT σ (Except ε) α) state = .ok result ↔ (value, state) = result :=
  ⟨Except.ok.inj, congrArg Except.ok⟩

/-- A computation is one on a state that it leaves. -/
theorem StateT.lift_eq_ok_iff {computation : Except ε α} {result : α × σ} :
    (liftM computation : StateT σ (Except ε) α) state = .ok result ↔
      ∃ value, computation = .ok value ∧ (value, state) = result := by
  constructor
  · intro done
    obtain ⟨value, made, same⟩ := Except.bind_eq_ok done
    exact ⟨value, made, Except.ok.inj same⟩
  · rintro ⟨value, rfl, rfl⟩
    rfl

end States

end ScriptVm
