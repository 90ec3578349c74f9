/-
**Substitution of matches — leftmost first, without overlap.**

`sub m text` is `pattern.sub(replacement, text)` for a pattern that never matches the empty text: it tries the
pattern at each position from the left, replaces the first match and goes on behind it. A matcher sees what stands
before its position, for `\b`, and the text from there on.

* `subFrom_unmatched`, `subFrom_matched` — a stretch without a match, and one match;
* `subFrom_congr` — what stands before counts only where the matcher looks at it;
* `subFrom_cut` — a character that no match reaches cuts the text in two;
* `subFrom_of_settled` — a text whose matches are all replaced by themselves stays.
-/

import Mathlib.Data.List.Basic

namespace Substitution

variable {α : Type}

/-- A pattern at a position: what stands before it, and the text from it on. A match is the number of characters
that it takes behind the first one, and what replaces it. -/
abbrev Matcher (α : Type) := Option α → List α → Option (ℕ × List α)

/-- The substitution where `skip` characters still belong to a match. -/
def subFrom (m : Matcher α) : ℕ → Option α → List α → List α
  | _, _, [] => []
  | skip + 1, _, char :: rest => subFrom m skip (some char) rest
  | 0, prev, char :: rest =>
    match m prev (char :: rest) with
    | none => char :: subFrom m 0 (some char) rest
    | some (taken, replacement) => replacement ++ subFrom m taken (some char) rest

/-- `pattern.sub(replacement, text)`. -/
def sub (m : Matcher α) (text : List α) : List α := subFrom m 0 none text

/-- The last character of the text belongs to a match. -/
def takesLastFrom (m : Matcher α) : ℕ → Option α → List α → Bool
  | _, _, [] => false
  | skip + 1, _, char :: rest => rest.isEmpty || takesLastFrom m skip (some char) rest
  | 0, prev, char :: rest =>
    match m prev (char :: rest) with
    | none => takesLastFrom m 0 (some char) rest
    | some (taken, _) => rest.isEmpty || takesLastFrom m taken (some char) rest

/-- A match takes the last character of the text. -/
def takesLast (m : Matcher α) (text : List α) : Bool := takesLastFrom m 0 none text

/-- What stands before the text behind `text`. -/
def lastOf (prev : Option α) (text : List α) : Option α := text.getLast?.or prev

variable {m : Matcher α}

@[simp] theorem lastOf_nil (prev : Option α) : lastOf prev [] = prev := rfl

@[simp] theorem lastOf_cons (prev : Option α) (char : α) (text : List α) :
    lastOf prev (char :: text) = lastOf (some char) text := by
  rw [lastOf, lastOf, List.getLast?_cons]
  cases text.getLast? <;> rfl

theorem lastOf_append (prev : Option α) (first later : List α) :
    lastOf prev (first ++ later) = lastOf (lastOf prev first) later := by
  rw [lastOf, lastOf, lastOf, List.getLast?_append, Option.or_assoc]

theorem subFrom_nil (skip : ℕ) (prev : Option α) : subFrom m skip prev [] = [] := by
  cases skip <;> rfl

/-- The rest of a match is left out. -/
theorem subFrom_skip (taken : List α) (prev : Option α) (rest : List α) :
    subFrom m taken.length prev (taken ++ rest) = subFrom m 0 (lastOf prev taken) rest := by
  induction taken generalizing prev with
  | nil => rfl
  | cons char taken ih =>
    rw [List.length_cons, List.cons_append, subFrom, ih, lastOf_cons]

theorem subFrom_none {prev : Option α} {char : α} {rest : List α} (unmatched : m prev (char :: rest) = none) :
    subFrom m 0 prev (char :: rest) = char :: subFrom m 0 (some char) rest := by
  rw [subFrom, unmatched]

/-- **One match.** -/
theorem subFrom_matched {prev : Option α} {char : α} {taken rest replacement : List α}
    (matched : m prev (char :: (taken ++ rest)) = some (taken.length, replacement)) :
    subFrom m 0 prev (char :: (taken ++ rest)) = replacement ++ subFrom m 0 (lastOf (some char) taken) rest := by
  rw [subFrom, matched]
  dsimp only
  rw [subFrom_skip]

/-- **A stretch without a match stays.** -/
theorem subFrom_unmatched {first rest : List α} {prev : Option α}
    (unmatched : ∀ before char later, first = before ++ char :: later →
      m (lastOf prev before) (char :: (later ++ rest)) = none) :
    subFrom m 0 prev (first ++ rest) = first ++ subFrom m 0 (lastOf prev first) rest := by
  induction first generalizing prev with
  | nil => rfl
  | cons char first ih =>
    have here := unmatched [] char first rfl
    rw [lastOf_nil] at here
    rw [List.cons_append, subFrom_none here, ih, lastOf_cons, List.cons_append]
    intro before next later split
    have further := unmatched (char :: before) next later (by rw [split, List.cons_append])
    rwa [lastOf_cons] at further

theorem takesLastFrom_skip (taken : List α) (prev : Option α) {rest : List α} (nonempty : rest ≠ []) :
    takesLastFrom m taken.length prev (taken ++ rest) = takesLastFrom m 0 (lastOf prev taken) rest := by
  induction taken generalizing prev with
  | nil => rfl
  | cons char taken ih =>
    have more : (taken ++ rest).isEmpty = false := by
      simpa using fun _ => nonempty
    rw [List.length_cons, List.cons_append, takesLastFrom, more, Bool.false_or, ih, lastOf_cons]

/-- A match that ends with the text takes its last character. -/
theorem takesLastFrom_end {taken : List α} (prev : Option α) (nonempty : taken ≠ []) :
    takesLastFrom m taken.length prev taken = true := by
  induction taken generalizing prev with
  | nil => exact absurd rfl nonempty
  | cons char taken ih =>
    rw [List.length_cons, takesLastFrom, Bool.or_eq_true, List.isEmpty_iff]
    by_cases last : taken = []
    · exact Or.inl last
    · exact Or.inr (ih _ last)

theorem takesLastFrom_unmatched {text : List α} {prev : Option α}
    (unmatched : ∀ before char later, text = before ++ char :: later → m (lastOf prev before) (char :: later) = none) :
    takesLastFrom m 0 prev text = false := by
  induction text generalizing prev with
  | nil => rfl
  | cons char text ih =>
    have here := unmatched [] char text rfl
    rw [lastOf_nil] at here
    rw [takesLastFrom, here]
    refine ih fun before next later split => ?_
    have further := unmatched (char :: before) next later (by rw [split, List.cons_append])
    rwa [lastOf_cons] at further

theorem takesLastFrom_congr {prev prev' : Option α} {text : List α} (same : m prev text = m prev' text) :
    takesLastFrom m 0 prev text = takesLastFrom m 0 prev' text := by
  cases text with
  | nil => rfl
  | cons char rest => rw [takesLastFrom, takesLastFrom, same]

/-- **One match in front of more text.** -/
theorem takesLastFrom_matched {prev : Option α} {char : α} {taken rest replacement : List α} (nonempty : rest ≠ [])
    (matched : m prev (char :: (taken ++ rest)) = some (taken.length, replacement)) :
    takesLastFrom m 0 prev (char :: (taken ++ rest)) = takesLastFrom m 0 (lastOf (some char) taken) rest := by
  have more : (taken ++ rest).isEmpty = false := by simpa using fun _ => nonempty
  rw [takesLastFrom, matched]
  dsimp only
  rw [more, Bool.false_or, takesLastFrom_skip _ _ nonempty]

theorem lastOf_of_ne_nil {text : List α} (prev prev' : Option α) (nonempty : text ≠ []) :
    lastOf prev text = lastOf prev' text := by
  rw [lastOf, lastOf, List.getLast?_eq_getLast_of_ne_nil nonempty, Option.some_or, Option.some_or]

/-- **What stands before counts only at the first position.** -/
theorem subFrom_congr {prev prev' : Option α} {text : List α} (same : m prev text = m prev' text) :
    subFrom m 0 prev text = subFrom m 0 prev' text := by
  cases text with
  | nil => rfl
  | cons char rest => rw [subFrom, subFrom, same]

/-- **A character that no match reaches** cuts the text in two. -/
theorem subFrom_cut {stop : α} {rest first : List α} {prev : Option α} {skip : ℕ}
    (free : ∀ prev char later, m prev (char :: (later ++ stop :: rest)) = m prev (char :: later))
    (fits : ∀ prev char later taken replacement, m prev (char :: later) = some (taken, replacement) →
      taken ≤ later.length)
    (unmatched : ∀ prev, m prev (stop :: rest) = none) (within : skip ≤ first.length) :
    subFrom m skip prev (first ++ stop :: rest) = subFrom m skip prev first ++ stop :: subFrom m 0 (some stop) rest := by
  induction first generalizing prev skip with
  | nil =>
    obtain rfl := Nat.le_zero.mp within
    rw [List.nil_append, subFrom_none (unmatched prev), subFrom_nil, List.nil_append]
  | cons char later ih =>
    cases skip with
    | succ skip => exact ih (Nat.le_of_succ_le_succ within)
    | zero =>
      rw [List.cons_append, subFrom, subFrom, free]
      cases matched : m prev (char :: later) with
      | none =>
        dsimp only
        rw [ih (Nat.zero_le _), List.cons_append]
      | some found =>
        obtain ⟨taken, replacement⟩ := found
        dsimp only
        rw [ih (fits prev char later taken replacement matched), List.append_assoc]

/-! ### Settled texts -/

/-- Every match in the text is replaced by itself. -/
def SettledFrom (m : Matcher α) (prev : Option α) (text : List α) : Prop :=
  ∀ before char later, text = before ++ char :: later → ∀ taken replacement,
    m (lastOf prev before) (char :: later) = some (taken, replacement) → replacement = char :: later.take taken

theorem settledFrom_nil (prev : Option α) : SettledFrom m prev [] := by
  intro before char later split
  simp at split

theorem settledFrom_cons {prev : Option α} {char : α} {rest : List α} :
    SettledFrom m prev (char :: rest) ↔
      (∀ taken replacement, m prev (char :: rest) = some (taken, replacement) →
        replacement = char :: rest.take taken) ∧ SettledFrom m (some char) rest := by
  constructor
  · intro settled
    refine ⟨fun taken replacement matched => settled [] char rest rfl taken replacement matched, ?_⟩
    intro before next later split taken replacement matched
    refine settled (char :: before) next later (by rw [split, List.cons_append]) taken replacement ?_
    rwa [lastOf_cons]
  · rintro ⟨here, behind⟩ before next later split taken replacement matched
    cases before with
    | nil =>
      cases split
      exact here taken replacement matched
    | cons first before =>
      cases split
      rw [lastOf_cons] at matched
      exact behind before next later rfl taken replacement matched

/-- What stands before a settled text counts only at its first position. -/
theorem SettledFrom.congr {prev prev' : Option α} {text : List α} (same : m prev text = m prev' text)
    (settled : SettledFrom m prev text) : SettledFrom m prev' text := by
  cases text with
  | nil => exact settledFrom_nil prev'
  | cons char rest =>
    rw [settledFrom_cons] at settled ⊢
    rwa [← same]

/-- The end of a settled text is settled. -/
theorem SettledFrom.behind {prev : Option α} {first rest : List α} (settled : SettledFrom m prev (first ++ rest)) :
    SettledFrom m (lastOf prev first) rest := by
  induction first generalizing prev with
  | nil => exact settled
  | cons char first ih =>
    rw [lastOf_cons]
    exact ih (settledFrom_cons.mp settled).2

/-- A stretch without a match in front of a settled text. -/
theorem SettledFrom.append {first rest : List α} {prev : Option α} (settled : SettledFrom m (lastOf prev first) rest)
    (unmatched : ∀ before char later, first = before ++ char :: later →
      m (lastOf prev before) (char :: (later ++ rest)) = none) : SettledFrom m prev (first ++ rest) := by
  induction first generalizing prev with
  | nil => exact settled
  | cons char first ih =>
    have here := unmatched [] char first rfl
    rw [lastOf_nil] at here
    rw [lastOf_cons] at settled
    rw [List.cons_append, settledFrom_cons]
    refine ⟨fun taken replacement matched => ?_, ih settled fun before next later split => ?_⟩
    · rw [here] at matched
      cases matched
    · have further := unmatched (char :: before) next later (by rw [split, List.cons_append])
      rwa [lastOf_cons] at further

theorem subFrom_drop (skip : ℕ) (prev : Option α) (text : List α) :
    subFrom m skip prev text = subFrom m 0 (lastOf prev (text.take skip)) (text.drop skip) := by
  induction text generalizing skip prev with
  | nil => simp [subFrom_nil]
  | cons char rest ih =>
    cases skip with
    | zero => rfl
    | succ skip => rw [subFrom, ih, List.take_succ_cons, List.drop_succ_cons, lastOf_cons]

/-- **A settled text stays.** -/
theorem subFrom_of_settled {prev : Option α} {text : List α} (settled : SettledFrom m prev text) :
    subFrom m 0 prev text = text := by
  induction length : text.length using Nat.strongRecOn generalizing text prev with
  | ind size ih =>
    cases text with
    | nil => rfl
    | cons char rest =>
      obtain ⟨here, behind⟩ := settledFrom_cons.mp settled
      rw [List.length_cons] at length
      cases matched : m prev (char :: rest) with
      | none => rw [subFrom_none matched, ih rest.length (by omega) behind rfl]
      | some found =>
        obtain ⟨taken, replacement⟩ := found
        have kept := here taken replacement matched
        rw [← List.take_append_drop taken rest] at behind
        have shorter : (rest.drop taken).length < size := by
          rw [List.length_drop]
          omega
        have later := ih _ shorter behind.behind rfl
        rw [subFrom, matched]
        dsimp only
        rw [subFrom_drop, later, kept, List.cons_append, List.take_append_drop]

end Substitution
