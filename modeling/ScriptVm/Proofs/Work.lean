import ScriptVm.Proofs.Result
import ScriptVm.Work

/-!
# What work leaves

Work whose checks all come before its changes is a computation without a state, and it leaves its
state as it is when it fails.
-/
namespace ScriptVm.Work

variable {σ τ α β : Type} {work : Work σ α} {state after : σ} {error : Error}

/-- What work answers: that it has been done, or why it fails. -/
def answer (work : Work σ α) (state : σ) : Except Error Unit :=
  (work.outcome state).1.map fun _ => ()

/-- Work leaves its state as it is when it fails. -/
def Atomic (work : Work σ α) (state : σ) : Prop :=
  ∀ error, work.answer state = .error error → work.left state = state

/-- One work after the other. -/
theorem outcome_bind (first : Work σ α) (next : α → Work σ β) (state : σ) :
    (first >>= next).outcome state =
      match first.outcome state with
      | (.ok value, after) => (next value).outcome after
      | (.error error, after) => (.error error, after) := by
  unfold outcome
  rw [EStateM.run_bind]
  cases first.run state <;> rfl

/-- Work that begins with a check. -/
theorem outcome_orFail_bind (check : Except Error α) (next : α → Work σ β) (state : σ) :
    (orFail check >>= next).outcome state =
      match check with
      | .ok value => (next value).outcome state
      | .error error => (.error error, state) := by
  cases check <;> rfl

/-- Work that succeeds leaves what it changes its state into. -/
theorem left_of_changed (done : work.changed state = .ok after) : work.left state = after := by
  unfold changed at done
  unfold left
  split at done
  · rename_i finished
    rw [finished, ← Except.ok.inj done]
  · cases done

/-- Work that has a result changes its state. -/
theorem changed_of_result {made : α × σ} (done : work.result state = .ok made) :
    work.changed state = .ok made.2 := by
  unfold result at done
  unfold changed
  split at done
  · rw [← Except.ok.inj done]
  · cases done

/-- Work that changes its state has a result. -/
theorem result_of_changed (done : work.changed state = .ok after) :
    ∃ value, work.result state = .ok (value, after) := by
  unfold changed at done
  unfold result
  split at done
  · rename_i value _ _
    exact ⟨value, by rw [← Except.ok.inj done]⟩
  · cases done

/-- Atomic work leaves its state as it is, or it succeeds. -/
theorem Atomic.left_cases (atomic : work.Atomic state) :
    work.left state = state ∨ work.changed state = .ok (work.left state) := by
  unfold Atomic answer at atomic
  unfold changed
  unfold left at atomic ⊢
  rcases same : work.outcome state with ⟨answered | made, after⟩
  · rw [same] at atomic
    exact .inl (atomic answered rfl)
  · exact .inr rfl

section Sequences

variable {check : Except Error α} {next : α → Work σ β} {body : σ → Work σ β}
  {rest : Unit → Work σ β} {condition : Prop} [Decidable condition] {otherwise : Work σ α}
  {change : σ → σ} {make : σ → α × σ}

@[simp] theorem result_pure (value : α) :
    (pure value : Work σ α).result state = .ok (value, state) := rfl

@[simp] theorem result_throw : (throw error : Work σ α).result state = .error error := rfl

@[simp] theorem result_modifyGet :
    (modifyGet make : Work σ α).result state = .ok (make state) := rfl

@[simp] theorem result_get_bind :
    (get >>= body : Work σ β).result state = (body state).result state := rfl

@[simp] theorem result_modify_bind :
    (modify change >>= rest : Work σ β).result state = (rest ()).result (change state) := rfl

@[simp] theorem result_orFail_bind :
    (orFail check >>= next).result state = check >>= fun value => (next value).result state := by
  cases check <;> rfl

@[simp] theorem result_ite : (if condition then work else otherwise).result state =
    if condition then work.result state else otherwise.result state := by
  split <;> rfl

@[simp] theorem changed_throw : (throw error : Work σ α).changed state = .error error := rfl

@[simp] theorem changed_throw_bind : (throw error >>= next).changed state = .error error := rfl

@[simp] theorem changed_modify :
    (modify change : Work σ PUnit).changed state = .ok (change state) := rfl

@[simp] theorem changed_get_bind :
    (get >>= body : Work σ β).changed state = (body state).changed state := rfl

@[simp] theorem changed_orFail_bind :
    (orFail check >>= next).changed state = check >>= fun value => (next value).changed state := by
  cases check <;> rfl

@[simp] theorem changed_ite : (if condition then work else otherwise).changed state =
    if condition then work.changed state else otherwise.changed state := by
  split <;> rfl

/-- A change after other work. -/
theorem changed_bind_modify : (work >>= fun _ => modify change : Work σ PUnit).changed state =
    change <$> work.changed state := by
  unfold changed
  rw [outcome_bind]
  rcases work.outcome state with ⟨error | value, after⟩ <;> rfl

theorem atomic_pure (value : α) : (pure value : Work σ α).Atomic state := nofun

theorem atomic_throw : (throw error : Work σ α).Atomic state := fun _ _ => rfl

theorem atomic_throw_bind : (throw error >>= next).Atomic state := fun _ _ => rfl

theorem atomic_modify : (modify change : Work σ PUnit).Atomic state := nofun

theorem atomic_modifyGet : (modifyGet make : Work σ α).Atomic state := nofun

/-- Reading the state changes nothing. -/
theorem atomic_get_bind (later : (body state).Atomic state) :
    (get >>= body : Work σ β).Atomic state := later

/-- A check changes nothing. -/
theorem atomic_orFail_bind (later : ∀ value, check = .ok value → (next value).Atomic state) :
    (orFail check >>= next).Atomic state := by
  cases check with
  | error error => exact fun _ _ => rfl
  | ok value => exact later value rfl

/-- A change after other work cannot fail, so that the other work has failed. -/
theorem of_bind_modify_of_error {change : α → σ → σ}
    (failed : (work >>= fun value => modify (change value) : Work σ PUnit).answer state =
      .error error) :
    work.answer state = .error error ∧
      (work >>= fun value => modify (change value) : Work σ PUnit).left state =
        work.left state := by
  unfold answer at failed ⊢
  unfold left
  rw [outcome_bind] at failed ⊢
  rcases same : work.outcome state with ⟨refused | value, after⟩
  · rw [same] at failed
    exact ⟨failed, rfl⟩
  · rw [same] at failed
    cases failed

/-- A change after atomic work cannot fail. -/
theorem Atomic.bind_modify {change : α → σ → σ} (atomic : work.Atomic state) :
    (work >>= fun value => modify (change value) : Work σ PUnit).Atomic state := by
  intro error failed
  obtain ⟨refused, left⟩ := of_bind_modify_of_error failed
  rw [left, atomic error refused]

end Sequences

section Parts

variable {part : Work τ α} {first : σ} {second : τ}

/-- Work on the second part of a state leaves the first one. -/
theorem left_onSecond : (onSecond part : Work (σ × τ) α).left (first, second) =
    (first, part.left second) := by
  unfold left outcome onSecond EStateM.run
  dsimp only
  cases part second <;> rfl

/-- Work on the first part of a state leaves the second one. -/
theorem outcome_onFirst : (onFirst work : Work (σ × τ) α).outcome (state, second) =
    ((work.outcome state).1, (work.outcome state).2, second) := by
  unfold outcome onFirst EStateM.run
  dsimp only
  cases work state <;> rfl

theorem answer_onSecond : (onSecond part : Work (σ × τ) α).answer (first, second) =
    part.answer second := by
  unfold answer outcome onSecond EStateM.run
  dsimp only
  cases part second <;> rfl

/-- Work on the second part of a state changes that part. -/
theorem changed_onSecond {left : σ × τ}
    (done : (onSecond part : Work (σ × τ) α).changed (first, second) = .ok left) :
    ∃ changed, part.changed second = .ok changed ∧ left = (first, changed) := by
  unfold changed outcome onSecond EStateM.run at done
  unfold changed outcome EStateM.run
  dsimp only at done ⊢
  cases ran : part second with
  | ok value after =>
    rw [ran] at done
    exact ⟨after, rfl, (Except.ok.inj done).symm⟩
  | error error after =>
    rw [ran] at done
    cases done

/-- Work on the second part of a state is atomic where that is. -/
theorem atomic_onSecond (atomic : part.Atomic second) :
    (onSecond part : Work (σ × τ) α).Atomic (first, second) := by
  intro error failed
  rw [answer_onSecond] at failed
  rw [left_onSecond, atomic error failed]

end Parts

end ScriptVm.Work
