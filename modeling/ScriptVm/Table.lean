/-!
# Tables by name

Entries under names, in the order in which they were added. A name has at most one entry as long as
entries are added only under new names, which every caller checks.
-/
namespace ScriptVm

/-- Entries under names. -/
structure Table (α : Type) where
  /-- Names and entries, first added first. -/
  entries : List (String × α) := []
  deriving Inhabited

namespace Table

variable {α : Type}

/-- The entry under a name. -/
def find? (table : Table α) (name : String) : Option α :=
  table.entries.lookup name

/-- A name has an entry. -/
def contains (table : Table α) (name : String) : Bool :=
  (table.find? name).isSome

/-- Adds an entry under a new name. -/
def add (table : Table α) (name : String) (entry : α) : Table α :=
  ⟨table.entries ++ [(name, entry)]⟩

/-- Adds all entries of another table, whose names are new. -/
def append (table more : Table α) : Table α :=
  ⟨table.entries ++ more.entries⟩

/-- Replaces the entry under a name, and leaves a table without the name as it is. -/
def replace (table : Table α) (name : String) (entry : α) : Table α :=
  ⟨table.entries.map fun (key, old) => if key = name then (key, entry) else (key, old)⟩

/-- Puts an entry under a name, new or not. -/
def put (table : Table α) (name : String) (entry : α) : Table α :=
  if table.contains name then table.replace name entry else table.add name entry

/-- The names, first added first. -/
def names (table : Table α) : List String := table.entries.map Prod.fst

/-- The entries, first added first. -/
def values (table : Table α) : List α := table.entries.map Prod.snd

/-- The count of entries. -/
def size (table : Table α) : Nat := table.entries.length

end Table

end ScriptVm
