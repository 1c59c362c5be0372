import Mathlib.Data.Finset.Card
import ScriptVm.Interner

/-!
# Handles of the string pool

The pool counts exactly the handles that are held outside. So as long as a handle is held, its text
stays pooled under its token, whatever is interned, given back or purged meanwhile, and two held
handles are the same exactly when their texts are. A purge drops the texts that nobody holds.
-/
namespace ScriptVm

/-- What happens to a pool. -/
inductive PoolEvent where
  | intern (text : String)
  | release (handle : PoolHandle)
  | purge

namespace PoolEvent

/-- How many handles to a text have been handed out and not given back after some events, the last
event first. -/
def outstanding (text : String) : List PoolEvent → Nat
  | [] => 0
  | .intern other :: past => outstanding text past + if other = text then 1 else 0
  | .release handle :: past => outstanding text past - if handle.text = text then 1 else 0
  | .purge :: past => outstanding text past

/-- The texts that were interned and have not been purged since. A purge takes the texts to which no
handle is outstanding. -/
def standing : List PoolEvent → Finset String
  | [] => ∅
  | .intern text :: past => insert text (standing past)
  | .release _ :: past => standing past
  | .purge :: past => (standing past).filter fun text => 0 < outstanding text past

end PoolEvent

/-- The handle to the text of an entry. -/
def PoolEntry.handle (entry : PoolEntry) : PoolHandle := ⟨entry.text, entry.token⟩

namespace Interner

variable {pool : Interner} {held : List PoolHandle} {past : List PoolEvent} {handle : PoolHandle}

/-- A pool that was empty before some events, with the handles that are held outside after them,
each as often as it is held. Only a held handle is given back. -/
inductive Past : List PoolEvent → Interner → List PoolHandle → Prop where
  /-- Nothing has happened. -/
  | fresh : Past [] {} []
  /-- A text has been interned, and its handle is held. -/
  | intern {past : List PoolEvent} {pool : Interner} {held : List PoolHandle}
    (earlier : Past past pool held) (text : String) :
    Past (.intern text :: past) (pool.intern text).2 ((pool.intern text).1 :: held)
  /-- A handle has been given back. -/
  | release {past : List PoolEvent} {pool : Interner} {held : List PoolHandle}
    (earlier : Past past pool held) {handle : PoolHandle} (owned : handle ∈ held) :
    Past (.release handle :: past) (pool.release handle) (held.erase handle)
  /-- The pool has been purged. -/
  | purge {past : List PoolEvent} {pool : Interner} {held : List PoolHandle}
    (earlier : Past past pool held) : Past (.purge :: past) pool.purge.2 held

/-- The handles to the texts in the pool. -/
def handles (pool : Interner) : List PoolHandle := pool.entries.map PoolEntry.handle

/-- The texts in the pool. -/
def texts (pool : Interner) : List String := pool.entries.map PoolEntry.text

/-- The texts are those of the handles. -/
theorem texts_eq (pool : Interner) : pool.texts = pool.handles.map PoolHandle.text := by
  simp only [texts, handles, List.map_map]
  rfl

/-- Counting holders leaves the handles. -/
@[simp] theorem handles_recount (pool : Interner) (token : Nat) (change : Nat → Nat) :
    (pool.recount token change).handles = pool.handles := by
  simp only [handles, recount, List.map_map]
  refine List.map_congr_left fun entry _ => ?_
  simp only [Function.comp_apply]
  split <;> rfl

/-- Counting holders changes the entries of a token. -/
theorem mem_recount {token : Nat} {change : Nat → Nat} {entry : PoolEntry}
    (member : entry ∈ (pool.recount token change).entries) :
    ∃ old ∈ pool.entries, old.handle = entry.handle ∧
      entry.holders = if entry.token = token then change old.holders else old.holders := by
  obtain ⟨old, inside, rfl⟩ := List.mem_map.mp member
  refine ⟨old, inside, ?_⟩
  split <;> exact ⟨rfl, rfl⟩

/-- The text of a handle is the one that was interned. -/
theorem text_intern (pool : Interner) (text : String) : (pool.intern text).1.text = text := by
  unfold intern
  split <;> rfl

/-- Interning a text that is not pooled adds it under a new token. -/
theorem intern_of_absent {text : String} (absent : text ∉ pool.texts) :
    pool.intern text =
      (⟨text, pool.next⟩, ⟨pool.entries ++ [⟨text, pool.next, 1⟩], pool.next + 1⟩) := by
  have missing : pool.entries.find? (·.text = text) = none := by
    refine List.find?_eq_none.mpr fun entry member => ?_
    have other : entry.text ≠ text := by
      rintro rfl
      exact absent (List.mem_map_of_mem member)
    simpa using other
  simp only [intern, missing]

/-- The pool has one entry for each text, under a token of its own, and knows exactly how often each
handle is held outside. -/
structure Tenanted (pool : Interner) (held : List PoolHandle) : Prop where
  /-- No text is pooled twice. -/
  texts : pool.texts.Nodup
  /-- No token stands for two texts. -/
  tokens : (pool.handles.map PoolHandle.token).Nodup
  /-- All tokens have been handed out. -/
  next : ∀ handle ∈ pool.handles, handle.token < pool.next
  /-- Holders are counted. -/
  holders : ∀ entry ∈ pool.entries, entry.holders = held.count entry.handle
  /-- What is held is pooled. -/
  pooled : ∀ handle ∈ held, handle ∈ pool.handles

namespace Tenanted

/-- Handles to pooled texts are told apart by their texts. -/
theorem eq_of_text (tenanted : pool.Tenanted held) {left right : PoolHandle}
    (first : left ∈ pool.handles) (second : right ∈ pool.handles) (same : left.text = right.text) :
    left = right := by
  have texts := tenanted.texts
  rw [texts_eq] at texts
  exact List.inj_on_of_nodup_map texts first second same

/-- Handles to pooled texts are told apart by their tokens. -/
theorem eq_of_token (tenanted : pool.Tenanted held) {left right : PoolHandle}
    (first : left ∈ pool.handles) (second : right ∈ pool.handles)
    (same : left.token = right.token) : left = right :=
  List.inj_on_of_nodup_map tenanted.tokens first second same

/-- Interning a pooled text gives its handle, which is held once more. -/
theorem intern_of_pooled (tenanted : pool.Tenanted held) (member : handle ∈ pool.handles) :
    pool.intern handle.text = (handle, pool.recount handle.token (· + 1)) := by
  cases found : pool.entries.find? (·.text = handle.text) with
  | none =>
    obtain ⟨entry, inside, rfl⟩ := List.mem_map.mp member
    have other := List.find?_eq_none.mp found entry inside
    simp [PoolEntry.handle] at other
  | some entry =>
    have inside := List.mem_of_find?_eq_some found
    have text : entry.text = handle.text := by simpa using List.find?_some found
    have same : entry.handle = handle :=
      tenanted.eq_of_text (List.mem_map_of_mem inside) member text
    have token : entry.token = handle.token := congrArg PoolHandle.token same
    simp only [intern, found, token]

/-- An entry has holders exactly when a handle to its text is held. -/
theorem holders_pos_iff (tenanted : pool.Tenanted held) {entry : PoolEntry}
    (member : entry ∈ pool.entries) :
    0 < entry.holders ↔ ∃ handle ∈ held, handle.text = entry.text := by
  rw [tenanted.holders entry member, List.count_pos_iff]
  constructor
  · exact fun owned => ⟨entry.handle, owned, rfl⟩
  · rintro ⟨handle, owned, text⟩
    have same := tenanted.eq_of_text (tenanted.pooled handle owned)
      (List.mem_map_of_mem (f := PoolEntry.handle) member) text
    rwa [← same]

/-- An empty pool of which nothing is held. -/
theorem fresh : Tenanted {} [] := by
  constructor <;> simp [Interner.texts, handles]

/-- Counting the holders of one handle anew, as its count among the held handles changes. -/
theorem recount {others : List PoolHandle} {change : Nat → Nat} (tenanted : pool.Tenanted held)
    (member : handle ∈ pool.handles) (pooled : ∀ other ∈ others, other ∈ held ∨ other = handle)
    (counts : ∀ other, others.count other =
      if other = handle then change (held.count other) else held.count other) :
    (pool.recount handle.token change).Tenanted others := by
  have handles := handles_recount pool handle.token change
  constructor
  · rw [texts_eq, handles, ← texts_eq]
    exact tenanted.texts
  · rw [handles]
    exact tenanted.tokens
  · rw [handles]
    exact tenanted.next
  · intro entry inside
    obtain ⟨old, known, same, holders⟩ := mem_recount inside
    have listed : entry.handle ∈ pool.handles := same ▸ List.mem_map_of_mem known
    have token : entry.token = handle.token ↔ entry.handle = handle :=
      ⟨tenanted.eq_of_token listed member, congrArg PoolHandle.token⟩
    rw [holders, counts, tenanted.holders old known, same]
    simp only [token]
  · rw [handles]
    intro other owned
    rcases pooled other owned with earlier | rfl
    · exact tenanted.pooled other earlier
    · exact member

/-- Interning a text. -/
theorem intern (tenanted : pool.Tenanted held) (text : String) :
    (pool.intern text).2.Tenanted ((pool.intern text).1 :: held) := by
  by_cases known : text ∈ pool.texts
  · obtain ⟨entry, inside, rfl⟩ := List.mem_map.mp known
    have member : entry.handle ∈ pool.handles := List.mem_map_of_mem inside
    have run := tenanted.intern_of_pooled member
    rw [show entry.text = entry.handle.text from rfl, run]
    refine tenanted.recount member (fun other owned => (List.mem_cons.mp owned).symm) ?_
    intro other
    by_cases same : other = entry.handle
    · simp [same]
    · simp [same, List.count_cons_of_ne (Ne.symm same)]
  · rw [intern_of_absent known]
    have new : ∀ other ∈ pool.handles, other ≠ ⟨text, pool.next⟩ := by
      rintro other member rfl
      exact Nat.lt_irrefl _ (tenanted.next _ member)
    have handles : Interner.handles ⟨pool.entries ++ [⟨text, pool.next, 1⟩], pool.next + 1⟩ =
        pool.handles ++ [⟨text, pool.next⟩] := by
      simp [Interner.handles, PoolEntry.handle]
    constructor
    · rw [texts_eq, handles, List.map_append, ← texts_eq]
      exact List.nodup_append.mpr ⟨tenanted.texts, by simp, by
        rintro other member _ last rfl
        obtain rfl : other = text := by simpa using last
        exact known member⟩
    · rw [handles, List.map_append]
      refine List.nodup_append.mpr ⟨tenanted.tokens, by simp, ?_⟩
      rintro token member _ last rfl
      obtain ⟨other, inside, rfl⟩ := List.mem_map.mp member
      have same : other.token = pool.next := by simpa using last
      exact Nat.ne_of_lt (tenanted.next other inside) same
    · rw [handles]
      intro other member
      rcases List.mem_append.mp member with earlier | last
      · exact Nat.lt_succ_of_lt (tenanted.next other earlier)
      · rw [List.mem_singleton.mp last]
        exact Nat.lt_succ_self _
    · intro entry member
      have unheld : (⟨text, pool.next⟩ : PoolHandle) ∉ held := fun owned =>
        new _ (tenanted.pooled _ owned) rfl
      rcases List.mem_append.mp member with earlier | last
      · have other := new entry.handle (List.mem_map_of_mem earlier)
        rw [tenanted.holders entry earlier, List.count_cons_of_ne (Ne.symm other)]
      · rw [List.mem_singleton.mp last]
        simp [PoolEntry.handle, List.count_eq_zero_of_not_mem unheld]
    · rw [handles]
      intro other owned
      rcases List.mem_cons.mp owned with rfl | earlier
      · simp
      · exact List.mem_append_left _ (tenanted.pooled other earlier)

/-- Interning a text pools it, and no other. -/
theorem mem_texts_intern (tenanted : pool.Tenanted held) (text other : String) :
    other ∈ (pool.intern text).2.texts ↔ other = text ∨ other ∈ pool.texts := by
  by_cases known : text ∈ pool.texts
  · obtain ⟨entry, inside, rfl⟩ := List.mem_map.mp known
    have run := tenanted.intern_of_pooled (List.mem_map_of_mem (f := PoolEntry.handle) inside)
    rw [show entry.text = entry.handle.text from rfl, run, texts_eq, handles_recount, ← texts_eq]
    constructor
    · exact .inr
    · rintro (rfl | pooled)
      · exact known
      · exact pooled
  · rw [intern_of_absent known]
    simp [Interner.texts, or_comm]

/-- Giving a handle back. -/
theorem release (tenanted : pool.Tenanted held) (owned : handle ∈ held) :
    (pool.release handle).Tenanted (held.erase handle) := by
  refine tenanted.recount (tenanted.pooled handle owned)
    (fun other member => .inl (List.mem_of_mem_erase member)) ?_
  intro other
  by_cases same : other = handle
  · rw [if_pos same, same, List.count_erase_self]
  · rw [if_neg same, List.count_erase_of_ne same]

/-- A purge keeps the entries to whose texts a handle is held, and counts the others. -/
theorem purge_eq (tenanted : pool.Tenanted held) :
    pool.purge =
      (pool.entries.countP fun entry => !held.any (·.text = entry.text), { pool with
        entries := pool.entries.filter fun entry => held.any (·.text = entry.text) }) := by
  have kept : ∀ entry ∈ pool.entries,
      decide (0 < entry.holders) = held.any (·.text = entry.text) := by
    intro entry member
    rw [Bool.eq_iff_iff, decide_eq_true_eq, tenanted.holders_pos_iff member]
    simp
  have dropped : ∀ entry ∈ pool.entries,
      (!decide (0 < entry.holders)) = !held.any (·.text = entry.text) :=
    fun entry member => congrArg not (kept entry member)
  simp only [Interner.purge, List.partition_eq_filter_filter, List.countP_eq_length_filter]
  rw [List.filter_congr kept]
  congr 2
  exact List.filter_congr dropped

/-- A purge leaves the texts to which a handle is held. -/
theorem mem_texts_purge (tenanted : pool.Tenanted held) (text : String) :
    text ∈ pool.purge.2.texts ↔ text ∈ pool.texts ∧ ∃ handle ∈ held, handle.text = text := by
  rw [tenanted.purge_eq]
  constructor
  · intro member
    obtain ⟨entry, inside, rfl⟩ := List.mem_map.mp member
    obtain ⟨known, owned⟩ := List.mem_filter.mp inside
    exact ⟨List.mem_map_of_mem known, by simpa using owned⟩
  · rintro ⟨member, owned⟩
    obtain ⟨entry, inside, rfl⟩ := List.mem_map.mp member
    exact List.mem_map_of_mem (List.mem_filter.mpr ⟨inside, by simpa using owned⟩)

/-- Purging a pool. -/
theorem purge (tenanted : pool.Tenanted held) : pool.purge.2.Tenanted held := by
  rw [tenanted.purge_eq]
  have fewer : (pool.entries.filter fun entry => held.any (·.text = entry.text)).Sublist
      pool.entries := List.filter_sublist
  constructor
  · exact tenanted.texts.sublist (fewer.map _)
  · exact tenanted.tokens.sublist ((fewer.map _).map _)
  · exact fun handle member => tenanted.next handle ((fewer.map _).subset member)
  · exact fun entry member => tenanted.holders entry (fewer.subset member)
  · intro handle owned
    obtain ⟨entry, inside, rfl⟩ := List.mem_map.mp (tenanted.pooled handle owned)
    refine List.mem_map_of_mem (List.mem_filter.mpr ⟨inside, ?_⟩)
    exact List.any_eq_true.mpr ⟨entry.handle, owned, by simp [PoolEntry.handle]⟩

end Tenanted

namespace Past

/-- Whatever happens to a pool, it knows which handles are held. -/
theorem tenanted (run : Past past pool held) : pool.Tenanted held := by
  induction run with
  | fresh => exact .fresh
  | intern _ text hypothesis => exact hypothesis.intern text
  | release _ owned hypothesis => exact hypothesis.release owned
  | purge _ hypothesis => exact hypothesis.purge

/-- The outstanding handles to a text are those that are held. -/
theorem outstanding_eq (run : Past past pool held) (text : String) :
    PoolEvent.outstanding text past = held.countP (·.text = text) := by
  induction run with
  | fresh => rfl
  | intern _ other hypothesis =>
    rw [PoolEvent.outstanding, hypothesis, List.countP_cons, text_intern]
    simp
  | release _ owned hypothesis =>
    rw [PoolEvent.outstanding, hypothesis, List.countP_erase]
    simp [owned]
  | purge _ hypothesis => exact hypothesis

/-- The pooled texts are those that were interned and not purged since. -/
theorem mem_texts_iff (run : Past past pool held) (text : String) :
    text ∈ pool.texts ↔ text ∈ PoolEvent.standing past := by
  induction run with
  | fresh => simp [Interner.texts, PoolEvent.standing]
  | intern earlier other hypothesis =>
    rw [PoolEvent.standing, Finset.mem_insert, ← hypothesis, earlier.tenanted.mem_texts_intern]
  | release _ owned hypothesis =>
    rw [Interner.release, texts_eq, handles_recount, ← texts_eq]
    exact hypothesis
  | purge earlier hypothesis =>
    rw [PoolEvent.standing, Finset.mem_filter, ← hypothesis, earlier.outstanding_eq,
      earlier.tenanted.mem_texts_purge]
    simp

end Past

/-- Whatever was interned, given back and purged: no text is pooled twice, two held handles are the
same exactly when their texts are, a purge drops exactly the texts to which no handle is held and
tells how many, while held handles keep their texts and their identity, and the size of the pool is
the number of texts interned and not purged since. -/
theorem identified_of_past (run : Past past pool held) :
    pool.texts.Nodup ∧
      (∀ text, (pool.intern text).1.text = text) ∧
      (∀ left ∈ held, ∀ right ∈ held, left.token = right.token ↔ left.text = right.text) ∧
      (pool.purge =
        (pool.entries.countP fun entry => !held.any (·.text = entry.text),
          { pool with
            entries := pool.entries.filter fun entry => held.any (·.text = entry.text) })) ∧
      (∀ handle ∈ held, (pool.intern handle.text).1 = handle ∧
        (pool.purge.2.intern handle.text).1 = handle) ∧
      pool.size = (PoolEvent.standing past).card := by
  have tenanted := run.tenanted
  refine ⟨tenanted.texts, text_intern pool, ?_, tenanted.purge_eq, ?_, ?_⟩
  · intro left first right second
    have pooled := tenanted.pooled left first
    have pooled' := tenanted.pooled right second
    constructor
    · exact fun same => congrArg PoolHandle.text (tenanted.eq_of_token pooled pooled' same)
    · exact fun same => congrArg PoolHandle.token (tenanted.eq_of_text pooled pooled' same)
  · intro handle owned
    have purged := tenanted.purge
    rw [tenanted.intern_of_pooled (tenanted.pooled handle owned),
      purged.intern_of_pooled (purged.pooled handle owned)]
    exact ⟨rfl, rfl⟩
  · have standing : pool.texts.toFinset = PoolEvent.standing past := by
      ext text
      rw [List.mem_toFinset, run.mem_texts_iff]
    rw [← standing, List.toFinset_card_of_nodup tenanted.texts, texts, List.length_map, size]

/-- A text is pooled, purged while another one is held, and pooled again under a new token; the
other one is interned twice under one token. -/
theorem identified_of_past_again :
    let past : List PoolEvent :=
      [.intern "a", .intern "b", .purge, .release ⟨"b", 1⟩, .intern "b", .intern "a"]
    ∃ pool, Past past pool [⟨"a", 0⟩, ⟨"b", 2⟩, ⟨"a", 0⟩] ∧
      pool.size = (PoolEvent.standing past).card ∧ (PoolEvent.standing past).card = 2 ∧
      (pool.purge.2.intern "b").1 = ⟨"b", 2⟩ := by
  intro past
  have started : Past _ _ [⟨"b", 1⟩, ⟨"a", 0⟩] := (Past.fresh.intern "a").intern "b"
  have owned : (⟨"b", 1⟩ : PoolHandle) ∈ [⟨"b", 1⟩, (⟨"a", 0⟩ : PoolHandle)] := by decide
  have purged : Past _ _ [⟨"a", 0⟩] := (started.release owned).purge
  have run : Past past _ [⟨"a", 0⟩, ⟨"b", 2⟩, ⟨"a", 0⟩] := (purged.intern "b").intern "a"
  obtain ⟨_, _, _, _, same, size⟩ := identified_of_past run
  exact ⟨_, run, size, by decide, (same ⟨"b", 2⟩ (by decide)).2⟩

end Interner

end ScriptVm
