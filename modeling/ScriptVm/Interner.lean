/-!
# The string pool

The pool hands out one token for each text that it holds. It counts how many handles to a text are
held outside; a purge drops the texts without any. A text that comes back after a purge gets a new
token.
-/
namespace ScriptVm

/-- A text in the pool. -/
structure PoolEntry where
  /-- The text. -/
  text : String
  /-- Identity of its handles. -/
  token : Nat
  /-- Count of handles held outside the pool. -/
  holders : Nat
  deriving DecidableEq, Repr, Inhabited

/-- A handle to a pooled text. -/
structure PoolHandle where
  /-- The text. -/
  text : String
  /-- Identity of the handle. -/
  token : Nat
  deriving DecidableEq, Repr, Inhabited

/-- A pool of texts. -/
structure Interner where
  /-- The texts, first pooled first. -/
  entries : List PoolEntry := []
  /-- The next token to hand out. -/
  next : Nat := 0
  deriving DecidableEq, Repr, Inhabited

namespace Interner

/-- Changes the count of holders of a token. -/
def recount (pool : Interner) (token : Nat) (change : Nat → Nat) : Interner :=
  { pool with entries := pool.entries.map fun entry =>
    if entry.token = token then { entry with holders := change entry.holders } else entry }

/-- A handle to a text, which is pooled if it is not yet. -/
def intern (pool : Interner) (text : String) : PoolHandle × Interner :=
  match pool.entries.find? (·.text = text) with
  | some entry => (⟨text, entry.token⟩, pool.recount entry.token (· + 1))
  | none => (⟨text, pool.next⟩, ⟨pool.entries ++ [⟨text, pool.next, 1⟩], pool.next + 1⟩)

/-- Gives a handle back. -/
def release (pool : Interner) (handle : PoolHandle) : Interner :=
  pool.recount handle.token (· - 1)

/-- Drops the texts that nobody holds, and counts them. -/
def purge (pool : Interner) : Nat × Interner :=
  let (held, dropped) := pool.entries.partition fun entry => 0 < entry.holders
  (dropped.length, { pool with entries := held })

/-- The count of pooled texts. -/
def size (pool : Interner) : Nat := pool.entries.length

/-- No text is pooled. -/
def isEmpty (pool : Interner) : Bool := pool.entries.isEmpty

end Interner

end ScriptVm
