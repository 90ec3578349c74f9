/-
**Rearranged lists — what does not depend on order, spelling and ignored elements.**

`Rearranged same ignored` relates two lists by any number of reorderings, replacements of elements by others
that are the `same`, and insertions or removals of `ignored` elements. A `view` that does not tell the same
elements apart and does not see the ignored ones sees one list, up to its order:
`Rearranged.perm_filterMap`.

`lookup_eq_some_iff_of_nodup`, `lookup_eq_of_perm` and `find?_eq_some_iff_of_nodup` read a list without repeated
keys by its members, so a permutation reads the same.
-/

import Mathlib.Data.List.Forall2
import Mathlib.Data.List.Nodup

namespace Rearrangement

section Rearranged

variable {α β : Type}

/-- Two lists that differ in order, in elements that are the same, and in elements that are ignored. -/
inductive Rearranged (same : α → α → Prop) (ignored : α → Prop) : List α → List α → Prop
  | reordered {first second : List α} : first.Perm second → Rearranged same ignored first second
  | respelled {first second : List α} : List.Forall₂ same first second → Rearranged same ignored first second
  | inserted {before after : List α} {element : α} : ignored element →
      Rearranged same ignored (before ++ after) (before ++ element :: after)
  | removed {before after : List α} {element : α} : ignored element →
      Rearranged same ignored (before ++ element :: after) (before ++ after)
  | trans {first second third : List α} : Rearranged same ignored first second →
      Rearranged same ignored second third → Rearranged same ignored first third

/-- **What is seen of a rearranged list is the same up to its order.** -/
theorem Rearranged.perm_filterMap {same : α → α → Prop} {ignored : α → Prop} {view : α → Option β}
    (respects : ∀ {first second}, same first second → view first = view second)
    (blind : ∀ {element}, ignored element → view element = none) {first second : List α}
    (rearranged : Rearranged same ignored first second) :
    (first.filterMap view).Perm (second.filterMap view) := by
  induction rearranged with
  | reordered perm => exact perm.filterMap view
  | respelled pairs =>
    induction pairs with
    | nil => exact .nil
    | @cons head head' _ _ here _ ih =>
      rw [List.filterMap_cons, List.filterMap_cons, respects here]
      cases view head' with
      | none => exact ih
      | some seen => exact ih.cons seen
  | inserted isIgnored => simp [List.filterMap_append, blind isIgnored]
  | removed isIgnored => simp [List.filterMap_append, blind isIgnored]
  | trans _ _ ih ih' => exact ih.trans ih'

end Rearranged

section Lookup

variable {κ β : Type} [DecidableEq κ]

/-- **Without repeated keys, what is found under a key is the pair with it.** -/
theorem lookup_eq_some_iff_of_nodup {pairs : List (κ × β)} (unique : (pairs.map Prod.fst).Nodup) {key : κ}
    {value : β} : pairs.lookup key = some value ↔ (key, value) ∈ pairs := by
  induction pairs with
  | nil => simp
  | cons pair pairs ih =>
    obtain ⟨first, other⟩ := pair
    rw [List.map_cons, List.nodup_cons] at unique
    by_cases here : key = first
    · subst here
      have absent : (key, value) ∉ pairs := fun member => unique.1 (List.mem_map.mpr ⟨_, member, rfl⟩)
      simp [absent, eq_comm]
    · have differs : (key == first) = false := by simpa using here
      rw [List.lookup_cons, differs]
      simpa [here] using ih unique.2

/-- Without repeated keys, a pair is the only one under its key. -/
theorem filter_key_of_mem {pairs : List (κ × β)} (unique : (pairs.map Prod.fst).Nodup) {key : κ} {value : β}
    (member : (key, value) ∈ pairs) : pairs.filter (fun pair => pair.1 = key) = [(key, value)] := by
  induction pairs with
  | nil => cases member
  | cons pair pairs ih =>
    rw [List.map_cons, List.nodup_cons] at unique
    rcases List.mem_cons.mp member with rfl | later
    · have others : pairs.filter (fun pair => pair.1 = key) = [] := by
        rw [List.filter_eq_nil_iff]
        intro other inside
        simpa using fun same => unique.1 (List.mem_map.mpr ⟨other, inside, same⟩)
      rw [List.filter_cons_of_pos (by simp), others]
    · have differs : pair.1 ≠ key := fun same => unique.1 (same ▸ List.mem_map.mpr ⟨_, later, rfl⟩)
      rw [List.filter_cons_of_neg (by simpa using differs), ih unique.2 later]

/-- A permutation finds the same. -/
theorem lookup_eq_of_perm {pairs pairs' : List (κ × β)} (perm : pairs.Perm pairs')
    (unique : (pairs.map Prod.fst).Nodup) (key : κ) : pairs.lookup key = pairs'.lookup key := by
  have unique' : (pairs'.map Prod.fst).Nodup := (perm.map Prod.fst).nodup_iff.mp unique
  ext value
  rw [lookup_eq_some_iff_of_nodup unique, lookup_eq_some_iff_of_nodup unique', perm.mem_iff]

/-- **Without repeated keys, what is found by a key is the element with it.** -/
theorem find?_eq_some_iff_of_nodup {α : Type} {keyOf : α → κ} {elements : List α} (unique : (elements.map keyOf).Nodup)
    {key : κ} {element : α} :
    elements.find? (fun other => keyOf other == key) = some element ↔ element ∈ elements ∧ keyOf element = key := by
  constructor
  · intro found
    exact ⟨List.mem_of_find?_eq_some found, by simpa using List.find?_some found⟩
  · rintro ⟨member, rfl⟩
    cases found : elements.find? fun other => keyOf other == keyOf element with
    | none =>
      have absent := List.find?_eq_none.mp found element member
      simp at absent
    | some other =>
      have same : keyOf other = keyOf element := by simpa using List.find?_some found
      rw [List.inj_on_of_nodup_map unique (List.mem_of_find?_eq_some found) member same]

end Lookup

end Rearrangement
