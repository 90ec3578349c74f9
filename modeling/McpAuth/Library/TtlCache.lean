/-
**A bounded least-recently-used cache whose entries expire — `cachetools.TTLCache`.**

Entries are kept least recently used first. `get?` finds a live entry, `touch` marks it as used, and
`store` drops what has expired, makes room for a new key and appends the value with a fresh expiry.
`mem_touch` and `mem_store`: every entry was stored under its key, and nothing else enters the cache.
-/

import Mathlib.Data.List.Basic
import Mathlib.Order.Lattice

namespace TtlCache

/-- A value under its key, live strictly before `expires`. -/
structure Entry (κ ν τ : Type) where
  key : κ
  value : ν
  expires : τ
  deriving DecidableEq

/-- The cache; its clock reads values of `τ`. -/
structure Cache (κ ν τ : Type) where
  maxsize : ℕ
  ttl : τ
  entries : List (Entry κ ν τ) := []
  deriving DecidableEq

variable {κ ν τ : Type} [DecidableEq κ] [LinearOrder τ]

namespace Cache

/-- The live entry under a key. -/
def find? (cache : Cache κ ν τ) (now : τ) (key : κ) : Option (Entry κ ν τ) :=
  (cache.entries.find? (·.key = key)).filter (now < ·.expires)

/-- `cache.get(key)`: the value found. -/
def get? (cache : Cache κ ν τ) (now : τ) (key : κ) : Option ν :=
  (cache.find? now key).map Entry.value

/-- `cache.get(key)`: the cache it leaves, with a found entry as the most recently used one. -/
def touch (cache : Cache κ ν τ) (now : τ) (key : κ) : Cache κ ν τ :=
  match cache.find? now key with
  | some entry => { cache with entries := cache.entries.filter (·.key ≠ key) ++ [entry] }
  | none => cache

/-- `cache[key] = value`. -/
def store [Add τ] (cache : Cache κ ν τ) (now : τ) (key : κ) (value : ν) : Cache κ ν τ :=
  let live := cache.entries.filter (now < ·.expires)
  let kept := if live.any (·.key = key) then live.filter (·.key ≠ key)
    else live.drop (live.length + 1 - cache.maxsize)
  { cache with entries := kept ++ [⟨key, value, now + cache.ttl⟩] }

theorem find?_eq_some {cache : Cache κ ν τ} {now : τ} {key : κ} {entry : Entry κ ν τ}
    (found : cache.find? now key = some entry) :
    entry ∈ cache.entries ∧ entry.key = key ∧ now < entry.expires := by
  obtain ⟨first, live⟩ := Option.filter_eq_some_iff.mp found
  exact ⟨List.mem_of_find?_eq_some first, by simpa using List.find?_some first, by simpa using live⟩

/-- **A value found was stored under that key and has not expired.** -/
theorem mem_of_get? {cache : Cache κ ν τ} {now : τ} {key : κ} {value : ν}
    (found : cache.get? now key = some value) :
    ∃ expires, ⟨key, value, expires⟩ ∈ cache.entries ∧ now < expires := by
  obtain ⟨entry, isEntry, rfl⟩ := Option.map_eq_some_iff.mp found
  obtain ⟨member, rfl, live⟩ := find?_eq_some isEntry
  exact ⟨entry.expires, member, live⟩

/-- Reading keeps no entry that was not there. -/
theorem mem_touch {cache : Cache κ ν τ} {now : τ} {key : κ} {entry : Entry κ ν τ}
    (member : entry ∈ (cache.touch now key).entries) : entry ∈ cache.entries := by
  unfold touch at member
  split at member
  · rename_i used found
    rcases List.mem_append.mp member with old | last
    · exact List.mem_of_mem_filter old
    · rw [List.mem_singleton] at last
      exact last ▸ (find?_eq_some found).1
  · exact member

/-- **Storing adds one entry** and keeps no entry that was not there. -/
theorem mem_store [Add τ] {cache : Cache κ ν τ} {now : τ} {key : κ} {value : ν} {entry : Entry κ ν τ}
    (member : entry ∈ (cache.store now key value).entries) :
    entry ∈ cache.entries ∨ entry = ⟨key, value, now + cache.ttl⟩ := by
  rcases List.mem_append.mp member with old | last
  · refine Or.inl ?_
    split at old
    · exact List.mem_of_mem_filter (List.mem_of_mem_filter old)
    · exact List.mem_of_mem_filter (List.mem_of_mem_drop old)
  · exact Or.inr (List.mem_singleton.mp last)

/-! ### One key -/

/-- What is stored under a key, live or not. -/
def entryAt (cache : Cache κ ν τ) (key : κ) : Option (Entry κ ν τ) := cache.entries.find? (·.key = key)

theorem find?_eq_filter (cache : Cache κ ν τ) (now : τ) (key : κ) :
    cache.find? now key = (cache.entryAt key).filter (now < ·.expires) := rfl

/-- **A value found is the live entry of its key.** -/
theorem get?_eq_some {cache : Cache κ ν τ} {now : τ} {key : κ} {value : ν}
    (found : cache.get? now key = some value) :
    ∃ entry, cache.entryAt key = some entry ∧ entry.value = value ∧ now < entry.expires := by
  obtain ⟨entry, isEntry, rfl⟩ := Option.map_eq_some_iff.mp found
  obtain ⟨first, live⟩ := Option.filter_eq_some_iff.mp isEntry
  exact ⟨entry, first, rfl, by simpa using live⟩

/-- **Nothing is found only when nothing live is stored.** -/
theorem get?_eq_none {cache : Cache κ ν τ} {now : τ} {key : κ} (missing : cache.get? now key = none)
    {entry : Entry κ ν τ} (stored : cache.entryAt key = some entry) : entry.expires ≤ now := by
  rw [get?, find?_eq_filter, stored] at missing
  simpa using missing

@[simp] theorem ttl_touch (cache : Cache κ ν τ) (now : τ) (key : κ) :
    (cache.touch now key).ttl = cache.ttl := by
  unfold touch
  split <;> rfl

@[simp] theorem ttl_store [Add τ] (cache : Cache κ ν τ) (now : τ) (key : κ) (value : ν) :
    (cache.store now key value).ttl = cache.ttl := rfl

omit [LinearOrder τ] in
/-- Entries of other keys stay when one key is taken out. -/
theorem find?_without (entries : List (Entry κ ν τ)) (key other : κ) :
    (entries.filter (·.key ≠ key)).find? (·.key = other) =
      if other = key then none else entries.find? (·.key = other) := by
  rw [List.find?_filter]
  split
  · rename_i same
    subst same
    simp
  · rename_i differs
    congr 1
    funext entry
    by_cases isOther : entry.key = other
    · simp [isOther, differs]
    · simp [isOther]

/-- Reading changes what is stored under no key. -/
@[simp] theorem entryAt_touch (cache : Cache κ ν τ) (now : τ) (key other : κ) :
    (cache.touch now key).entryAt other = cache.entryAt other := by
  unfold touch
  split
  · rename_i entry found
    obtain ⟨first, -⟩ := Option.filter_eq_some_iff.mp found
    have isKey : entry.key = key := by simpa using List.find?_some first
    simp only [entryAt, List.find?_append, find?_without]
    by_cases same : other = key
    · subst same
      simp [isKey, first]
    · have differs : ¬ entry.key = other := fun isOther => same (isOther.symm.trans isKey)
      simp [same, differs]
  · rfl

/-- A stored value is found under its key. -/
theorem entryAt_store_self [Add τ] (cache : Cache κ ν τ) (now : τ) (key : κ) (value : ν) :
    (cache.store now key value).entryAt key = some ⟨key, value, now + cache.ttl⟩ := by
  have kept : (if (cache.entries.filter (now < ·.expires)).any (·.key = key) = true
      then (cache.entries.filter (now < ·.expires)).filter (·.key ≠ key)
      else (cache.entries.filter (now < ·.expires)).drop
        ((cache.entries.filter (now < ·.expires)).length + 1 - cache.maxsize)).find? (·.key = key) = none := by
    split
    · rw [find?_without, if_pos rfl]
    · rename_i absent
      refine List.find?_eq_none.mpr fun entry member isKey => absent ?_
      exact List.any_eq_true.mpr ⟨entry, List.mem_of_mem_drop member, isKey⟩
  simp only [store, entryAt, List.find?_append]
  rw [kept]
  simp

end Cache

end TtlCache
