/-
**Multidicts — entries under keys, in order.**

`put` stores an entry in place of the first one under its key and drops the others there, or appends it
when there is none. `under_put_self` and `under_put_other` say what is under a key afterwards.
-/

import Mathlib.Data.List.Basic
import Mathlib.Data.List.Forall2

namespace Multidict

variable {α κ : Type} [DecidableEq κ] (key : α → κ)

/-- The entries under a key. -/
def under (name : κ) (entries : List α) : List α := entries.filter fun entry => key entry = name

/-- The first entry under a key. -/
def find (name : κ) (entries : List α) : Option α := (under key name entries).head?

/-- An entry replaces all the entries under its key. -/
def put (entry : α) : List α → List α
  | [] => [entry]
  | first :: later =>
    if key first = key entry then entry :: later.filter fun other => key other ≠ key entry
    else first :: put entry later

variable {key}

@[simp] theorem under_nil (name : κ) : under key name [] = [] := rfl

theorem under_cons (name : κ) (first : α) (later : List α) :
    under key name (first :: later) =
      if key first = name then first :: under key name later else under key name later := by
  by_cases isUnder : key first = name <;> simp [under, isUnder]

@[simp] theorem mem_under {name : κ} {entry : α} {entries : List α} :
    entry ∈ under key name entries ↔ entry ∈ entries ∧ key entry = name := by
  simp [under]

theorem under_append (name : κ) (first later : List α) :
    under key name (first ++ later) = under key name first ++ under key name later :=
  List.filter_append first later

/-- **An entry is the last one under its key** when it comes again behind every other one there. -/
theorem getLast?_under_iff {name : κ} {entry : α} {first later : List α} (isKey : key entry = name) :
    (under key name (first ++ entry :: later)).getLast? = some entry ↔
      ∀ upper other more, later = upper ++ other :: more → key other = name → other ≠ entry → entry ∈ more := by
  have split : under key name (first ++ entry :: later) = under key name first ++ entry :: under key name later := by
    rw [under_append, under_cons, if_pos isKey]
  rw [split, List.getLast?_append]
  constructor
  · rintro isLast upper other more rfl otherKey different
    rw [under_append, under_cons, if_pos otherKey] at isLast
    rcases List.eq_nil_or_concat (under key name more) with none | ⟨others, last, shape⟩
    · rw [none, ← List.cons_append, List.getLast?_concat, Option.some_or] at isLast
      exact absurd (Option.some.inj isLast) different
    · have member : last ∈ under key name more := by simp [shape]
      rw [shape, List.concat_eq_append, ← List.cons_append, ← List.cons_append, ← List.append_assoc,
        List.getLast?_concat, Option.some_or] at isLast
      rw [← Option.some.inj isLast]
      exact (mem_under.mp member).1
  · intro again
    rcases List.eq_nil_or_concat (under key name later) with none | ⟨others, last, shape⟩
    · rw [none]
      rfl
    · -- nothing is under the key behind the last entry there
      rw [List.concat_eq_append] at shape
      obtain ⟨before, behind, rfl, -, tail⟩ := List.filter_eq_append_iff.mp shape
      obtain ⟨upper, more, rfl, -, lastKey, empty⟩ := List.filter_eq_cons_iff.mp tail
      rw [shape, ← List.cons_append, List.getLast?_concat, Option.some_or, Option.some.injEq]
      by_contra different
      have behind := again (before ++ upper) last more (by simp) (by simpa using lastKey) different
      exact absurd isKey (by simpa using List.filter_eq_nil_iff.mp empty entry behind)

/-- **Only the stored entry is under its key.** -/
theorem under_put_self {entry : α} {name : κ} (isKey : key entry = name) (entries : List α) :
    under key name (put key entry entries) = [entry] := by
  subst isKey
  induction entries with
  | nil => simp [put, under]
  | cons first later ih =>
    by_cases same : key first = key entry
    · have none : under key (key entry) (later.filter fun other => key other ≠ key entry) = [] := by
        simp [under, List.filter_filter]
      rw [put, if_pos same, under_cons, if_pos rfl, none]
    · rw [put, if_neg same, under_cons, if_neg same, ih]

/-- **Other keys keep their entries.** -/
theorem under_put_other {entry : α} {name : κ} (other : key entry ≠ name) (entries : List α) :
    under key name (put key entry entries) = under key name entries := by
  induction entries with
  | nil => simp [put, under, other]
  | cons first later ih =>
    by_cases same : key first = key entry
    · have kept : under key name (later.filter fun other => key other ≠ key entry) = under key name later := by
        rw [under, under, List.filter_filter]
        refine List.filter_congr fun candidate _ => ?_
        by_cases isUnder : key candidate = name
        · simp [isUnder, other.symm]
        · simp [isUnder]
      rw [put, if_pos same, under_cons, under_cons, if_neg other, if_neg (same ▸ other), kept]
    · rw [put, if_neg same, under_cons, under_cons, ih]

theorem find_put_self {entry : α} {name : κ} (isKey : key entry = name) (entries : List α) :
    find key name (put key entry entries) = some entry := by
  simp [find, under_put_self isKey]

theorem mem_of_find {name : κ} {entry : α} {entries : List α} (found : find key name entries = some entry) :
    entry ∈ entries ∧ key entry = name :=
  mem_under.mp (List.mem_of_head? found)

theorem find_eq_none {name : κ} {entries : List α} :
    find key name entries = none ↔ ∀ entry ∈ entries, key entry ≠ name := by
  simp [find, under]

theorem mem_put {entry other : α} {entries : List α} (member : other ∈ put key entry entries) :
    other = entry ∨ other ∈ entries := by
  induction entries with
  | nil => simpa [put] using member
  | cons first later ih =>
    by_cases same : key first = key entry
    · rw [put, if_pos same] at member
      rcases List.mem_cons.mp member with isEntry | kept
      · exact Or.inl isEntry
      · exact Or.inr (List.mem_cons_of_mem _ (List.mem_of_mem_filter kept))
    · rw [put, if_neg same] at member
      rcases List.mem_cons.mp member with isFirst | rest
      · exact Or.inr (isFirst ▸ List.mem_cons_self)
      · exact (ih rest).imp_right (List.mem_cons_of_mem _)

/-- Where nothing is under the key the entry is appended. -/
theorem put_of_absent {entry : α} {entries : List α} (absent : find key (key entry) entries = none) :
    put key entry entries = entries ++ [entry] := by
  induction entries with
  | nil => rfl
  | cons first later ih =>
    have others := find_eq_none.mp absent
    rw [put, if_neg (others first List.mem_cons_self),
      ih (find_eq_none.mpr fun candidate member => others candidate (List.mem_cons_of_mem _ member))]
    rfl

/-- Storing an entry adds its key. -/
theorem mem_map_put {entry : α} {entries : List α} {name : κ} :
    name ∈ (put key entry entries).map key ↔ name = key entry ∨ name ∈ entries.map key := by
  induction entries with
  | nil => simp [put]
  | cons first later ih =>
    by_cases same : key first = key entry
    · rw [put, if_pos same, List.map_cons, List.mem_cons, List.map_cons, List.mem_cons, same, ← or_assoc, or_self]
      by_cases isKey : name = key entry
      · exact iff_of_true (Or.inl isKey) (Or.inl isKey)
      · refine or_congr_right ⟨?_, ?_⟩
        · intro member
          exact (List.filter_sublist.map key).subset member
        · intro member
          obtain ⟨other, inside, rfl⟩ := List.mem_map.mp member
          exact List.mem_map.mpr ⟨other, List.mem_filter.mpr ⟨inside, by simpa using isKey⟩, rfl⟩
    · rw [put, if_neg same, List.map_cons, List.mem_cons, List.map_cons, List.mem_cons, ih]
      tauto

/-- Storing an entry repeats no key. -/
theorem nodup_map_put {entry : α} {entries : List α} (unique : (entries.map key).Nodup) :
    ((put key entry entries).map key).Nodup := by
  induction entries with
  | nil => simp [put]
  | cons first later ih =>
    rw [List.map_cons, List.nodup_cons] at unique
    by_cases same : key first = key entry
    · rw [put, if_pos same, List.map_cons, List.nodup_cons]
      refine ⟨by simp, ?_⟩
      exact unique.2.sublist ((List.filter_sublist (l := later)).map key)
    · rw [put, if_neg same, List.map_cons, List.nodup_cons]
      refine ⟨?_, ih unique.2⟩
      rw [mem_map_put]
      exact not_or.mpr ⟨same, unique.1⟩

theorem nodup_map_foldl_put {entries : List α} {start : List α} (unique : (start.map key).Nodup) :
    ((entries.foldl (fun kept entry => put key entry kept) start).map key).Nodup := by
  induction entries generalizing start with
  | nil => exact unique
  | cons entry entries ih => exact ih (nodup_map_put unique)

/-- **Entries with different keys are stored as they are.** -/
theorem foldl_put_of_nodup {entries : List α} {start : List α} (unique : ((start ++ entries).map key).Nodup) :
    entries.foldl (fun kept entry => put key entry kept) start = start ++ entries := by
  induction entries generalizing start with
  | nil => simp
  | cons entry entries ih =>
    have absent : find key (key entry) start = none := by
      rw [find_eq_none]
      intro other member same
      rw [List.map_append, List.nodup_append] at unique
      exact unique.2.2 (key other) (List.mem_map_of_mem member) (key entry) (by simp) same
    rw [List.foldl_cons, put_of_absent absent, ih (by simpa using unique), List.append_assoc, List.singleton_append]

/-- **After storing entry by entry, the last one is under its key.** -/
theorem under_foldl_put (name : κ) (entries start : List α) :
    under key name (entries.foldl (fun kept entry => put key entry kept) start) =
      match (under key name entries).getLast? with
      | some entry => [entry]
      | none => under key name start := by
  induction entries generalizing start with
  | nil => rfl
  | cons first later ih =>
    rw [List.foldl_cons, ih, under_cons]
    by_cases isKey : key first = name
    · rw [if_pos isKey, under_put_self isKey, List.getLast?_cons]
      cases (under key name later).getLast? <;> rfl
    · rw [if_neg isKey, under_put_other isKey]

theorem mem_foldl_put {entry : α} {entries : List α} :
    entry ∈ entries.foldl (fun kept other => put key other kept) [] ↔
      (under key (key entry) entries).getLast? = some entry := by
  have isUnder : entry ∈ entries.foldl (fun kept other => put key other kept) [] ↔
      entry ∈ under key (key entry) (entries.foldl (fun kept other => put key other kept) []) := by
    rw [mem_under]
    exact (and_iff_left rfl).symm
  rw [isUnder, under_foldl_put]
  cases (under key (key entry) entries).getLast? with
  | none => simp
  | some last => simp [eq_comm]

theorem find_foldl_put (name : κ) (entries : List α) :
    find key name (entries.foldl (fun kept entry => put key entry kept) []) = (under key name entries).getLast? := by
  rw [find, under_foldl_put]
  cases (under key name entries).getLast? <;> rfl

theorem mem_map_foldl_put {name : κ} (entries start : List α) :
    name ∈ (entries.foldl (fun kept entry => put key entry kept) start).map key ↔
      name ∈ start.map key ∨ name ∈ entries.map key := by
  induction entries generalizing start with
  | nil => simp
  | cons first later ih =>
    rw [List.foldl_cons, ih, mem_map_put, List.map_cons, List.mem_cons]
    tauto

/-- Where no key occurs twice an entry is alone under its key. -/
theorem under_eq_singleton {entry : α} {entries : List α} (unique : (entries.map key).Nodup) (member : entry ∈ entries) :
    under key (key entry) entries = [entry] := by
  induction entries with
  | nil => cases member
  | cons first later ih =>
    rw [List.map_cons, List.nodup_cons] at unique
    rw [under_cons]
    rcases List.mem_cons.mp member with rfl | isLater
    · have noneLater : under key (key entry) later = [] := by
        rw [under, List.filter_eq_nil_iff]
        intro other inside
        simpa using fun same => unique.1 (List.mem_map.mpr ⟨other, inside, same⟩)
      rw [if_pos rfl, noneLater]
    · have other : key first ≠ key entry := fun same => unique.1 (List.mem_map.mpr ⟨entry, isLater, same.symm⟩)
      rw [if_neg other, ih unique.2 isLater]

/-- A fold that keeps what it reads of the entries under one key ends with what it reads of the last. -/
theorem foldl_last {σ β : Type} (key : α → κ) (step : σ → α → σ) (kept : σ → β) {read : α → β} {name : κ}
    (reads : ∀ state entry, key entry = name → kept (step state entry) = read entry)
    (keeps : ∀ state entry, key entry ≠ name → kept (step state entry) = kept state) (entries : List α) (state : σ) :
    kept (entries.foldl step state) =
      match (under key name entries).getLast? with
      | some entry => read entry
      | none => kept state := by
  induction entries generalizing state with
  | nil => rfl
  | cons first later ih =>
    rw [List.foldl_cons, ih, under_cons]
    by_cases isKey : key first = name
    · rw [if_pos isKey, List.getLast?_cons, reads state first isKey]
      cases (under key name later).getLast? <;> rfl
    · rw [if_neg isKey, keeps state first isKey]

/-! ### Entries that differ under one key -/

/-- Two entries are the same, or both under the key. -/
def SameBut (key : α → κ) (name : κ) (entry other : α) : Prop := entry = other ∨ key entry = name ∧ key other = name

omit [DecidableEq κ] in
theorem SameBut.key_eq {name : κ} {entry other : α} (same : SameBut key name entry other) : key entry = key other := by
  rcases same with rfl | ⟨isKey, isKey'⟩
  · rfl
  · rw [isKey, isKey']

theorem sameBut_filter {name other : κ} {first second : List α} (same : List.Forall₂ (SameBut key name) first second) :
    List.Forall₂ (SameBut key name) (first.filter fun entry => key entry ≠ other)
      (second.filter fun entry => key entry ≠ other) := by
  induction same with
  | nil => exact .nil
  | @cons entry entry' _ _ here _ ih =>
    by_cases kept : key entry = other
    · rwa [List.filter_cons_of_neg (by simpa using kept), List.filter_cons_of_neg (by simpa [← here.key_eq] using kept)]
    · rw [List.filter_cons_of_pos (by simpa using kept), List.filter_cons_of_pos (by simpa [← here.key_eq] using kept)]
      exact .cons here ih

theorem filter_of_sameBut {name : κ} {first second : List α} (same : List.Forall₂ (SameBut key name) first second) :
    (first.filter fun entry => key entry ≠ name) = second.filter fun entry => key entry ≠ name := by
  induction same with
  | nil => rfl
  | cons here _ ih =>
    rcases here with rfl | ⟨isKey, isKey'⟩
    · rw [List.filter_cons, List.filter_cons, ih]
    · rw [List.filter_cons_of_neg (by simp [isKey]), List.filter_cons_of_neg (by simp [isKey']), ih]

/-- **What is stored under another key leaves the difference.** -/
theorem sameBut_put {name : κ} {entry : α} {first second : List α} (same : List.Forall₂ (SameBut key name) first second) :
    List.Forall₂ (SameBut key name) (put key entry first) (put key entry second) := by
  induction same with
  | nil => exact .cons (Or.inl rfl) .nil
  | @cons entry' other _ _ here later ih =>
    by_cases isKey : key entry' = key entry
    · rw [put, put, if_pos isKey, if_pos (here.key_eq ▸ isKey)]
      exact .cons (Or.inl rfl) (sameBut_filter later)
    · rw [put, put, if_neg isKey, if_neg (here.key_eq ▸ isKey)]
      exact .cons here ih

/-- **What is stored under the key removes the difference.** -/
theorem put_eq_of_sameBut {entry : α} {first second : List α}
    (same : List.Forall₂ (SameBut key (key entry)) first second) : put key entry first = put key entry second := by
  induction same with
  | nil => rfl
  | cons here later ih =>
    rcases here with rfl | ⟨isKey, isKey'⟩
    · rw [put, put, ih, filter_of_sameBut later]
    · rw [put, put, if_pos isKey, if_pos isKey', filter_of_sameBut later]

theorem sameBut_foldl_put {name : κ} {entries first second : List α}
    (same : List.Forall₂ (SameBut key name) first second) :
    List.Forall₂ (SameBut key name) (entries.foldl (fun kept entry => put key entry kept) first)
      (entries.foldl (fun kept entry => put key entry kept) second) := by
  induction entries generalizing first second with
  | nil => exact same
  | cons entry entries ih => exact ih (sameBut_put same)

/-- Two entries under one key, each stored. -/
theorem sameBut_put_put {entry other : α} (sameKey : key entry = key other) (entries : List α) :
    List.Forall₂ (SameBut key (key entry)) (put key entry entries) (put key other entries) := by
  have refl : ∀ kept : List α, List.Forall₂ (SameBut key (key entry)) kept kept := fun kept =>
    List.forall₂_same.mpr fun _ _ => Or.inl rfl
  induction entries with
  | nil => exact .cons (Or.inr ⟨rfl, sameKey.symm⟩) .nil
  | cons first later ih =>
    by_cases isKey : key first = key entry
    · rw [put, put, if_pos isKey, if_pos (isKey.trans sameKey), sameKey]
      exact .cons (Or.inr ⟨sameKey, rfl⟩) (sameKey ▸ refl _)
    · rw [put, put, if_neg isKey, if_neg (sameKey ▸ isKey)]
      exact .cons (Or.inl rfl) ih

/-- **Two runs of entries that differ in one entry** end in the same store exactly when the entry is stored over, or
is the same. -/
theorem foldl_put_eq_iff {before after : List α} {entry other : α} (sameKey : key entry = key other) :
    (before ++ entry :: after).foldl (fun kept entry => put key entry kept) [] =
        (before ++ other :: after).foldl (fun kept entry => put key entry kept) [] ↔
      (∃ later ∈ after, key later = key entry) ∨ entry = other := by
  constructor
  · intro same
    by_contra different
    rw [not_or] at different
    have last : ∀ value : α, key value = key entry → under key (key entry)
        ((before ++ value :: after).foldl (fun kept entry => put key entry kept) []) = [value] := by
      intro value isKey
      have none : under key (key entry) after = [] :=
        List.filter_eq_nil_iff.mpr fun later member isUnder =>
          different.1 ⟨later, member, by simpa using isUnder⟩
      have split : under key (key entry) (before ++ value :: after) = under key (key entry) before ++ [value] := by
        have cons := @under_cons _ _ _ key (key entry) value after
        rw [if_pos isKey, none] at cons
        rw [← cons]
        exact List.filter_append before (value :: after)
      rw [under_foldl_put, split, List.getLast?_concat]
    have equal := congrArg (under key (key entry)) same
    rw [last entry rfl, last other sameKey.symm] at equal
    exact different.2 (List.cons.inj equal).1
  · rintro (⟨later, member, isKey⟩ | rfl)
    · obtain ⟨first, rest, rfl⟩ := List.append_of_mem member
      have differ := @sameBut_foldl_put _ _ _ key (key entry) first _ _
        (sameBut_put_put sameKey (before.foldl (fun kept entry => put key entry kept) []))
      rw [← isKey] at differ
      simp only [List.foldl_append, List.foldl_cons]
      rw [put_eq_of_sameBut differ]
    · rfl

end Multidict
