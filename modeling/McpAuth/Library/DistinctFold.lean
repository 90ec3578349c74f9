/-
**Folds that refuse a key they have seen.**

A loop over elements with a state that holds the keys seen so far. One turn accepts an element that is admitted and
whose key is new, and adds it (`DistinctStep`). `foldlM_ok_iff`: the loop ends well exactly when every element is
admitted and no key occurs twice, with the state that adding one by one leads to.
-/

import Mathlib.Data.Finset.Insert
import Mathlib.Tactic.Tauto
import McpAuth.Library.Fallible

namespace DistinctFold

variable {σ α κ ε : Type} [DecidableEq κ]

/-- **What one turn accepts and does.** -/
structure DistinctStep (step : σ → α → Except ε σ) (key : α → κ) (seen : σ → Finset κ) (Admitted : α → Prop)
    (add : σ → α → σ) : Prop where
  accepts : ∀ state element next, step state element = .ok next ↔
    Admitted element ∧ key element ∉ seen state ∧ next = add state element
  sees : ∀ state element, seen (add state element) = insert (key element) (seen state)

variable {step : σ → α → Except ε σ} {key : α → κ} {seen : σ → Finset κ} {Admitted : α → Prop} {add : σ → α → σ}

/-- **What the loop accepts and does.** -/
theorem foldlM_ok_iff (distinct : DistinctStep step key seen Admitted add) {elements : List α} {state result : σ} :
    elements.foldlM step state = .ok result ↔
      (∀ element ∈ elements, Admitted element) ∧ (elements.map key).Nodup ∧
        (∀ element ∈ elements, key element ∉ seen state) ∧ result = elements.foldl add state := by
  induction elements generalizing state with
  | nil =>
    constructor
    · intro yields
      cases yields
      exact ⟨by simp, List.nodup_nil, by simp, rfl⟩
    · rintro ⟨-, -, -, rfl⟩
      rfl
  | cons first later ih =>
    have seenIff : (∀ element ∈ later, key element ∉ seen (add state first)) ↔
        key first ∉ later.map key ∧ ∀ element ∈ later, key element ∉ seen state := by
      rw [distinct.sees]
      constructor
      · intro fresh
        refine ⟨fun occurs => ?_, fun element member inside => ?_⟩
        · obtain ⟨element, member, same⟩ := List.mem_map.mp occurs
          exact fresh element member (same ▸ Finset.mem_insert_self _ _)
        · exact fresh element member (Finset.mem_insert_of_mem inside)
      · rintro ⟨isNew, fresh⟩ element member inside
        rcases Finset.mem_insert.mp inside with same | earlier
        · exact isNew (List.mem_map.mpr ⟨element, member, same⟩)
        · exact fresh element member earlier
    rw [List.foldlM_cons, Fallible.bind_eq_ok, List.map_cons, List.nodup_cons, List.forall_mem_cons,
      List.forall_mem_cons, List.foldl_cons]
    constructor
    · rintro ⟨next, accepted, yields⟩
      obtain ⟨admitted, isFresh, rfl⟩ := (distinct.accepts _ _ _).mp accepted
      obtain ⟨rest, unique, fresh, same⟩ := ih.mp yields
      rw [seenIff] at fresh
      exact ⟨⟨admitted, rest⟩, ⟨fresh.1, unique⟩, ⟨isFresh, fresh.2⟩, same⟩
    · rintro ⟨⟨admitted, rest⟩, ⟨isNew, unique⟩, ⟨isFresh, fresh⟩, same⟩
      exact ⟨add state first, (distinct.accepts _ _ _).mpr ⟨admitted, isFresh, rfl⟩,
        ih.mpr ⟨rest, unique, seenIff.mpr ⟨isNew, fresh⟩, same⟩⟩

theorem mem_seen_foldl (distinct : DistinctStep step key seen Admitted add) {elements : List α} {state : σ} {name : κ} :
    name ∈ seen (elements.foldl add state) ↔ name ∈ seen state ∨ ∃ element ∈ elements, key element = name := by
  induction elements generalizing state with
  | nil => simp
  | cons first later ih =>
    rw [List.foldl_cons, ih, distinct.sees, Finset.mem_insert, List.exists_mem_cons_iff, @eq_comm κ name]
    tauto

end DistinctFold
