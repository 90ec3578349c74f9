/-
**The longest prefix within a budget.**

`fitting` passes items on as long as their sizes fit a budget. `total_fitting_le`: what it passes fits;
`prefix_fitting_iff`: a prefix of the items fits exactly when it is a prefix of what is passed;
`fitting_eq_self_iff`: everything is passed exactly when everything fits.
-/

import Mathlib.Algebra.GroupWithZero.Nat
import Mathlib.Algebra.BigOperators.Group.List.Basic
import Mathlib.Algebra.Order.BigOperators.Group.List

namespace Budget

variable {α : Type} (size : α → ℕ)

/-- The size of all items. -/
def total (items : List α) : ℕ := (items.map size).sum

/-- The items up to the first one that does not fit any more. -/
def fitting : ℕ → List α → List α
  | _, [] => []
  | budget, item :: later => if size item ≤ budget then item :: fitting (budget - size item) later else []

variable {size}

@[simp] theorem total_nil : total size [] = 0 := rfl

@[simp] theorem total_cons (item : α) (later : List α) :
    total size (item :: later) = size item + total size later := by simp [total]

@[simp] theorem fitting_nil (budget : ℕ) : fitting size budget [] = [] := rfl

theorem fitting_cons (budget : ℕ) (item : α) (later : List α) :
    fitting size budget (item :: later) =
      if size item ≤ budget then item :: fitting size (budget - size item) later else [] := rfl

/-- **What is passed fits the budget.** -/
theorem total_fitting_le (budget : ℕ) (items : List α) : total size (fitting size budget items) ≤ budget := by
  induction items generalizing budget with
  | nil => simp
  | cons item later ih =>
    by_cases fits : size item ≤ budget
    · have rest := ih (budget - size item)
      simp only [fitting_cons, if_pos fits, total_cons]
      omega
    · simp [fitting_cons, fits]

/-- **Exactly the prefixes that fit are passed.** -/
theorem prefix_fitting_iff {budget : ℕ} {items first : List α} :
    first <+: fitting size budget items ↔ first <+: items ∧ total size first ≤ budget := by
  induction items generalizing budget first with
  | nil =>
    simp only [fitting_nil, List.prefix_nil, iff_self_and]
    rintro rfl
    exact Nat.zero_le _
  | cons item later ih =>
    cases first with
    | nil => simp
    | cons head rest =>
      by_cases fits : size item ≤ budget
      · rw [fitting_cons, if_pos fits, List.cons_prefix_cons, List.cons_prefix_cons, ih, total_cons]
        constructor
        · rintro ⟨rfl, prefixed, within⟩
          exact ⟨⟨rfl, prefixed⟩, by omega⟩
        · rintro ⟨⟨rfl, prefixed⟩, within⟩
          exact ⟨rfl, prefixed, by omega⟩
      · rw [fitting_cons, if_neg fits, List.cons_prefix_cons, total_cons]
        constructor
        · intro passed
          simp at passed
        · rintro ⟨⟨rfl, -⟩, within⟩
          omega

theorem fitting_isPrefix (budget : ℕ) (items : List α) : fitting size budget items <+: items :=
  (prefix_fitting_iff.mp (List.prefix_refl _)).1

/-- **Everything is passed exactly when everything fits.** -/
theorem fitting_eq_self_iff {budget : ℕ} {items : List α} :
    fitting size budget items = items ↔ total size items ≤ budget := by
  constructor
  · intro all
    rw [← all]
    exact total_fitting_le budget items
  · intro within
    have passed : items <+: fitting size budget items :=
      prefix_fitting_iff.mpr ⟨List.prefix_refl _, within⟩
    exact (fitting_isPrefix budget items).eq_of_length_le passed.length_le

end Budget
