import ScriptVm.Error

/-!
# Work

What the embedding program asks for is done in order: what it passes in is checked, and the state is
changed. An error ends the work, and what was changed before it stays changed.
-/
namespace ScriptVm

/-- Work on a state that may fail. -/
abbrev Work (σ : Type) := EStateM Error σ

namespace Work

variable {σ τ α : Type}

/-- Goes on with a result, or fails with its error. -/
def orFail (result : Except Error α) : Work σ α :=
  match result with
  | .ok value => pure value
  | .error error => throw error

/-- Works on the first part of a state. -/
def onFirst (work : Work σ α) : Work (σ × τ) α := fun (first, second) =>
  match work.run first with
  | .ok value first => .ok value (first, second)
  | .error error first => .error error (first, second)

/-- Works on the second part of a state. -/
def onSecond (work : Work τ α) : Work (σ × τ) α := fun (first, second) =>
  match work.run second with
  | .ok value second => .ok value (first, second)
  | .error error second => .error error (first, second)

/-- What work answers, and the state that it leaves, failed or not. -/
def outcome (work : Work σ α) (state : σ) : Except Error α × σ :=
  match work.run state with
  | .ok value state => (.ok value, state)
  | .error error state => (.error error, state)

/-- The state that work leaves, failed or not. -/
def left (work : Work σ α) (state : σ) : σ := (work.outcome state).2

/-- What work answers together with the state that it leaves, unless it fails. -/
def result (work : Work σ α) (state : σ) : Except Error (α × σ) :=
  match work.outcome state with
  | (.ok value, state) => .ok (value, state)
  | (.error error, _) => .error error

/-- The state that work leaves, unless it fails. -/
def changed (work : Work σ α) (state : σ) : Except Error σ :=
  match work.outcome state with
  | (.ok _, state) => .ok state
  | (.error error, _) => .error error

end Work

end ScriptVm
