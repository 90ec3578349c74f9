/-
**Which references the scanner finds.**

`ACTION_REFERENCE` starts at a row, skips whitespace over any number of rows, and takes the first word behind
`uses:`, which may stand on a later row. So a match can begin above the row of its `uses:`, on the first of the
blank rows before it, and a match that begins further up can take the first word of a row.

`matchReference_above` says where a match from above ends. `findReferences_seen`: when no reference is the word
`-` or `uses:`, every row that reads as a `uses` is found, with the row at which its match begins.
-/

import McpAuth.Scripts.SupplyChain

namespace McpAuth

open PyText TextRows

/-! ### The row of a reference -/

/-- A row of whitespace. -/
def isBlankRow (row : Row) : Bool := row.all isSpace

/-- The text of a `uses` row between its indentation and its value. -/
def usesStart (dashed : Bool) (gap : ℕ) : Row := (if dashed then '-' :: ' ' :: spaces gap else []) ++ "uses:".toList

/-- A row that reads as a `uses`, after a dash or not. -/
structure UsesRow (dashed : Bool) (reference row : Row) : Prop where
  shape : ∃ indent gap separation trailing,
    row = spaces indent ++ usesStart dashed gap ++ separation ++ reference ++ trailing ∧
      separation ≠ [] ∧ (∀ char ∈ separation, isSpace char = true) ∧
        ∀ char ∈ trailing.head?, isReferenceChar char = false
  nonempty : reference ≠ []
  chars : ∀ char ∈ reference, isReferenceChar char = true

/-- What is behind the first character that a text does not skip. -/
theorem dropWhile_of_head {p : Char → Bool} {text : Row} (stops : ∀ char ∈ text.head?, p char = false) :
    text.dropWhile p = text ∧ text.takeWhile p = [] := by
  cases text with
  | nil => exact ⟨rfl, rfl⟩
  | cons first rest =>
    have stop := stops first rfl
    simp [stop]

/-- A row at the start of a text ends at a line feed or with the text. -/
theorem joinRows_cons (row : Row) (later : List Row) :
    ∃ tail, joinRows (row :: later) = row ++ tail ∧ ∀ char ∈ tail.head?, char = '\n' := by
  cases later with
  | nil => exact ⟨[], by simp, by simp⟩
  | cons next rest => exact ⟨_, joinRows_cons_cons row next rest, by simp⟩

theorem isReferenceChar_newline : isReferenceChar '\n' = false := by decide

/-- What follows the reference of a row. -/
theorem ends_of_trailing {trailing tail : Row} (ends : ∀ char ∈ trailing.head?, isReferenceChar char = false)
    (feeds : ∀ char ∈ tail.head?, char = '\n') : ∀ char ∈ (trailing ++ tail).head?, isReferenceChar char = false := by
  intro char isHead
  cases trailing with
  | nil =>
    rw [feeds char isHead]
    exact isReferenceChar_newline
  | cons first rest => exact ends char isHead

theorem not_isSpace_of_isReferenceChar {char : Char} (isChar : isReferenceChar char = true) :
    isSpace char = false := by
  rw [isReferenceChar, Bool.and_eq_true] at isChar
  simpa using isChar.1

/-- **The pattern behind its dash**: `uses:`, whitespace and the reference. -/
theorem matchUses_word {separation reference rest : Row} (isBlank : ∀ char ∈ separation, isSpace char = true)
    (nonempty : reference ≠ []) (chars : ∀ char ∈ reference, isReferenceChar char = true)
    (ends : ∀ char ∈ rest.head?, isReferenceChar char = false) :
    matchUses ("uses:".toList ++ (separation ++ (reference ++ rest))) = some (reference, rest) := by
  have found : afterPrefix "uses:".toList ("uses:".toList ++ (separation ++ (reference ++ rest))) =
      some (separation ++ (reference ++ rest)) := afterPrefix_eq_some.mpr rfl
  have skips : (separation ++ (reference ++ rest)).dropWhile isSpace = reference ++ rest := by
    obtain ⟨first, others, rfl⟩ := List.exists_cons_of_ne_nil nonempty
    have word := not_isSpace_of_isReferenceChar (chars first List.mem_cons_self)
    rw [List.dropWhile_append_of_pos isBlank, List.cons_append, List.dropWhile_cons, word, if_neg Bool.false_ne_true]
  obtain ⟨takes, drops⟩ := takeWhile_run chars ends
  unfold matchUses
  rw [found]
  dsimp only
  rw [skips, takes, drops, if_neg nonempty]

/-- **A match behind its dash ends in the rows above, or takes the first word below.** -/
theorem matchUses_above {upper lower reference rest : List Char}
    (found : matchUses (upper ++ '\n' :: lower) = some (reference, rest)) :
    (∃ early, rest = early ++ '\n' :: lower) ∨ reference = (lower.dropWhile isSpace).takeWhile isReferenceChar := by
  unfold matchUses at found
  split at found
  · cases found
  rename_i behind isBehind
  dsimp only at found
  split at found
  · cases found
  cases found
  obtain ⟨later, rfl⟩ : ∃ later, behind = later ++ '\n' :: lower := by
    rcases List.append_eq_append_iff.mp (afterPrefix_eq_some.mp isBehind) with ⟨more, isUses, rest⟩ | ⟨later, -, rest⟩
    · cases more with
      | nil => exact ⟨[], rest.symm⟩
      | cons first others =>
        obtain ⟨rfl, -⟩ := List.cons.inj rest
        have inside : '\n' ∈ "uses:".toList := by simp [isUses]
        exact absurd inside (by decide)
    · exact ⟨later, rest⟩
  rw [List.dropWhile_append]
  by_cases blank : (later.dropWhile isSpace).isEmpty = true
  · right
    have newline : isSpace '\n' = true := rfl
    rw [if_pos blank, List.dropWhile_cons, newline, if_pos rfl]
  · left
    rw [if_neg blank, List.dropWhile_append]
    split
    · exact ⟨[], by rw [List.dropWhile_cons, isReferenceChar_newline, if_neg Bool.false_ne_true, List.nil_append]⟩
    · exact ⟨_, rfl⟩

/-- **Where a match that begins above ends**: above, or it takes the first word below, or all that is above is
a dash before the `uses:` below. -/
theorem matchReference_above {upper lower reference rest : List Char}
    (content : upper.dropWhile isSpace ≠ []) (found : matchReference (upper ++ '\n' :: lower) = some (reference, rest)) :
    (∃ early, rest = early ++ '\n' :: lower) ∨ reference = (lower.dropWhile isSpace).takeWhile isReferenceChar ∨
      ((∃ blank, upper.dropWhile isSpace = '-' :: blank ∧ blank.dropWhile isSpace = []) ∧
        (afterPrefix "uses:".toList (lower.dropWhile isSpace)).isSome) := by
  have newline : isSpace '\n' = true := rfl
  have nonempty : ¬ (upper.dropWhile isSpace).isEmpty = true := fun empty => content (List.isEmpty_iff.mp empty)
  unfold matchReference at found
  rw [List.dropWhile_append, if_neg nonempty] at found
  cases shape : upper.dropWhile isSpace with
  | nil => exact absurd shape content
  | cons first others =>
    rw [shape, List.cons_append] at found
    by_cases dash : first = '-'
    · subst dash
      rw [behindDash, List.dropWhile_append] at found
      by_cases blank : (others.dropWhile isSpace).isEmpty = true
      · right
        right
        rw [if_pos blank, List.dropWhile_cons, newline, if_pos rfl] at found
        refine ⟨⟨others, rfl, List.isEmpty_iff.mp blank⟩, ?_⟩
        unfold matchUses at found
        split at found
        · cases found
        · rename_i isSome
          rw [isSome]
          rfl
      · rw [if_neg blank] at found
        exact (matchUses_above found).imp_right Or.inl
    · have kept : behindDash (first :: (others ++ '\n' :: lower)) = first :: others ++ '\n' :: lower := by
        rw [behindDash]
        · rfl
        · rintro _ same
          exact dash (List.cons.inj same).1
      rw [kept] at found
      exact (matchUses_above found).imp_right Or.inl

/-! ### Where a match begins -/

/-- **A match begins at the rows `lead`, below the rows `above`**: blank rows before the `uses` row, and where it
has no dash the row of a dash alone with the blank rows before that. -/
inductive Begins : Bool → List Row → List Row → Prop
  | blank {dashed : Bool} {above lead : List Row} : (∀ row ∈ lead, isBlankRow row = true) →
      (∀ last ∈ above.getLast?, isBlankRow last = false ∧ (dashed = false → stripRow last ≠ ['-'])) →
      Begins dashed above lead
  | dash {above upper lower : List Row} {row : Row} : (∀ row ∈ upper, isBlankRow row = true) →
      stripRow row = ['-'] → (∀ row ∈ lower, isBlankRow row = true) →
      (∀ last ∈ above.getLast?, isBlankRow last = false) → Begins false above (upper ++ row :: lower)

theorem Begins.last {dashed : Bool} {above lead : List Row} (begins : Begins dashed above lead) :
    ∀ last ∈ above.getLast?, isBlankRow last = false := by
  cases begins with
  | blank _ last => exact fun row member => (last row member).1
  | dash _ _ _ last => exact last

theorem getLast?_of_tail {first row : Row} {others : List Row} (isLast : row ∈ others.getLast?) :
    row ∈ (first :: others).getLast? := by
  rw [Option.mem_def] at isLast
  rw [Option.mem_def, List.getLast?_cons, isLast]
  rfl

theorem Begins.tail {dashed : Bool} {first : Row} {others lead : List Row}
    (begins : Begins dashed (first :: others) lead) : Begins dashed others lead := by
  cases begins with
  | blank isBlank last => exact .blank isBlank fun row isLast => last row (getLast?_of_tail isLast)
  | dash upper row lower last => exact .dash upper row lower fun row isLast => last row (getLast?_of_tail isLast)

/-- Blank rows in front of a text are skipped. -/
theorem dropWhile_joinRows {lead rows : List Row} (isBlank : ∀ row ∈ lead, isBlankRow row = true) (nonempty : rows ≠ []) :
    (joinRows (lead ++ rows)).dropWhile isSpace = (joinRows rows).dropWhile isSpace := by
  induction lead with
  | nil => rfl
  | cons row lead ih =>
    obtain ⟨here, others⟩ := List.forall_mem_cons.mp isBlank
    have newline : isSpace '\n' = true := rfl
    rw [List.cons_append, ← List.singleton_append, joinRows_append (List.cons_ne_nil _ _)
      (List.append_ne_nil_of_right_ne_nil _ nonempty), joinRows_singleton,
      List.dropWhile_append_of_pos (List.all_eq_true.mp here), List.dropWhile_cons, newline, if_pos rfl, ih others]

/-- A row that is a dash alone. -/
theorem dash_row {row : Row} (dash : stripRow row = ['-']) :
    ∃ blank, row.dropWhile isSpace = '-' :: blank ∧ ∀ char ∈ blank, isSpace char = true := by
  have split : (row.dropWhile isSpace).rdropWhile isSpace ++ (row.dropWhile isSpace).rtakeWhile isSpace =
      row.dropWhile isSpace := List.rdropWhile_append_rtakeWhile
  rw [show (row.dropWhile isSpace).rdropWhile isSpace = ['-'] from dash] at split
  exact ⟨_, split.symm, fun char member => List.mem_rtakeWhile_imp member⟩

/-- **The text at the row of a dash alone**, below blank rows. -/
theorem behind_dash {upper later : List Row} {row : Row} (isUpper : ∀ row ∈ upper, isBlankRow row = true)
    (isDash : stripRow row = ['-']) (nonempty : later ≠ []) :
    ∃ blank, (∀ char ∈ blank, isSpace char = true) ∧
      (joinRows (upper ++ row :: later)).dropWhile isSpace = '-' :: (blank ++ '\n' :: joinRows later) := by
  obtain ⟨blank, behind, isBlank⟩ := dash_row isDash
  refine ⟨blank, isBlank, ?_⟩
  have content : ¬ (row.dropWhile isSpace).isEmpty = true := by simp [behind]
  rw [dropWhile_joinRows isUpper (List.cons_ne_nil _ _), ← List.singleton_append,
    joinRows_append (List.cons_ne_nil _ _) nonempty, joinRows_singleton, List.dropWhile_append, if_neg content, behind]
  rfl

/-- **What a `uses` row looks like behind its indentation.** -/
theorem UsesRow.behind {dashed : Bool} {reference row : Row} (isUses : UsesRow dashed reference row)
    (later : List Row) : ∃ gap separation rest, (joinRows (row :: later)).dropWhile isSpace =
      usesStart dashed gap ++ (separation ++ (reference ++ rest)) ∧ separation ≠ [] ∧
        (∀ char ∈ separation, isSpace char = true) ∧ ∀ char ∈ rest.head?, isReferenceChar char = false := by
  obtain ⟨indent, gap, separation, trailing, rfl, nonempty, isBlank, ends⟩ := isUses.shape
  obtain ⟨tail, joined, feeds⟩ := joinRows_cons
    (spaces indent ++ usesStart dashed gap ++ separation ++ reference ++ trailing) later
  refine ⟨gap, separation, trailing ++ tail, ?_, nonempty, isBlank, ends_of_trailing ends feeds⟩
  rw [joined]
  simp only [List.append_assoc]
  rw [List.dropWhile_append_of_pos (spaces_blank indent)]
  cases dashed <;> rfl

theorem behindDash_usesStart (dashed : Bool) (gap : ℕ) (rest : List Char) :
    behindDash (usesStart dashed gap ++ rest) = "uses:".toList ++ rest := by
  cases dashed with
  | false => rfl
  | true =>
    have blank : ∀ char ∈ ' ' :: spaces gap, isSpace char = true := spaces_blank (gap + 1)
    have shape : usesStart true gap ++ rest = '-' :: ((' ' :: spaces gap) ++ ("uses:".toList ++ rest)) := by
      simp [usesStart]
    rw [shape, behindDash, List.dropWhile_append_of_pos blank]
    rfl

/-- The match of a `uses` row, below what is skipped before it. -/
theorem UsesRow.matchUses {dashed : Bool} {reference row : Row} (isUses : UsesRow dashed reference row)
    (later : List Row) : ∃ rest, matchUses (behindDash ((joinRows (row :: later)).dropWhile isSpace)) =
      some (reference, rest) := by
  obtain ⟨gap, separation, rest, behind, -, isBlank, ends⟩ := isUses.behind later
  refine ⟨rest, ?_⟩
  rw [behind, behindDash_usesStart]
  exact matchUses_word isBlank isUses.nonempty isUses.chars ends

theorem matchUses_key {reference row : Row} (isUses : UsesRow false reference row) (later : List Row) :
    ∃ rest, McpAuth.matchUses ((joinRows (row :: later)).dropWhile isSpace) = some (reference, rest) := by
  obtain ⟨gap, separation, rest, behind, -, isBlank, ends⟩ := isUses.behind later
  refine ⟨rest, ?_⟩
  rw [behind]
  exact matchUses_word isBlank isUses.nonempty isUses.chars ends

/-- **The match that begins at `lead` finds the reference.** -/
theorem Begins.matches {dashed : Bool} {above lead : List Row} (begins : Begins dashed above lead)
    {reference row : Row} (isUses : UsesRow dashed reference row) (after : List Row) :
    ∃ rest, matchReference (joinRows (lead ++ row :: after)) = some (reference, rest) := by
  cases begins with
  | blank isBlank _ =>
    rw [matchReference, dropWhile_joinRows isBlank (List.cons_ne_nil _ _)]
    exact isUses.matchUses after
  | dash isUpper isDash isLower _ =>
    obtain ⟨rest, found⟩ := matchUses_key isUses after
    refine ⟨rest, ?_⟩
    have newline : isSpace '\n' = true := rfl
    obtain ⟨blank, isBlank, behind⟩ := behind_dash isUpper isDash (List.append_ne_nil_of_right_ne_nil _
      (List.cons_ne_nil row after))
    rw [matchReference, List.append_assoc, List.cons_append, behind, behindDash, List.dropWhile_append_of_pos isBlank,
      List.dropWhile_cons, newline, if_pos rfl, dropWhile_joinRows isLower (List.cons_ne_nil _ _)]
    exact found

/-- The first word at or below `lead` is no reference that is pinned. -/
theorem Begins.firstWord {dashed : Bool} {above lead : List Row} (begins : Begins dashed above lead)
    {reference row : Row} (isUses : UsesRow dashed reference row) (after : List Row) :
    ((joinRows (lead ++ row :: after)).dropWhile isSpace).takeWhile isReferenceChar = ['-'] ∨
      ((joinRows (lead ++ row :: after)).dropWhile isSpace).takeWhile isReferenceChar = "uses:".toList := by
  cases begins with
  | blank isBlank _ =>
    obtain ⟨gap, separation, rest, behind, nonempty, separates, -⟩ := isUses.behind after
    rw [dropWhile_joinRows isBlank (List.cons_ne_nil _ _), behind]
    cases dashed with
    | true => exact Or.inl rfl
    | false =>
      obtain ⟨first, others, rfl⟩ := List.exists_cons_of_ne_nil nonempty
      have ends : ∀ char ∈ (first :: others ++ (reference ++ rest)).head?, isReferenceChar char = false := by
        intro char isHead
        cases isHead
        rw [isReferenceChar, separates first List.mem_cons_self]
        rfl
      have key : ∀ char ∈ "uses:".toList, isReferenceChar char = true := by decide
      exact Or.inr (takeWhile_run key ends).1
  | @dash _ upper lower dashRow isUpper isDash isLower _ =>
    left
    obtain ⟨blank, isBlank, behind⟩ := behind_dash isUpper isDash (List.append_ne_nil_of_right_ne_nil lower
      (List.cons_ne_nil row after))
    rw [List.append_assoc, List.cons_append, behind, List.takeWhile_cons]
    have ends : ∀ char ∈ (blank ++ '\n' :: joinRows (lower ++ row :: after)).head?, isReferenceChar char = false := by
      intro char isHead
      cases blank with
      | nil =>
        cases isHead
        exact isReferenceChar_newline
      | cons first others =>
        cases isHead
        rw [isReferenceChar, isBlank char List.mem_cons_self]
        rfl
    rw [(dropWhile_of_head ends).2]
    rfl

/-- A row that is not blank keeps the rows that end in it from being skipped. -/
theorem content_of_last {rows : List Row} {last : Row} (isLast : last ∈ rows.getLast?)
    (content : isBlankRow last = false) : (joinRows rows).dropWhile isSpace ≠ [] := by
  intro blank
  rw [List.dropWhile_eq_nil_iff] at blank
  have within : ∀ char ∈ last, isSpace char = true := fun char member =>
    blank char (mem_intercalate_of_mem (List.mem_of_getLast? isLast) member)
  rw [isBlankRow, List.all_eq_true.mpr within] at content
  cases content

/-- **Where all rows are one dash, the last one that is not blank is the row of the dash.** -/
theorem stripRow_of_dash {rows : List Row} {last blank : Row} (isLast : last ∈ rows.getLast?)
    (content : isBlankRow last = false) (dash : (joinRows rows).dropWhile isSpace = '-' :: blank)
    (isBlank : blank.dropWhile isSpace = []) : stripRow last = ['-'] := by
  have blanks := List.dropWhile_eq_nil_iff.mp isBlank
  have single : ('-' :: blank).rdropWhile isSpace = ['-'] := by
    have reversed : ∀ char ∈ blank.reverse, isSpace char = true := fun char member =>
      blanks char (List.mem_reverse.mp member)
    rw [List.rdropWhile, List.reverse_cons, List.dropWhile_append_of_pos reversed]
    rfl
  obtain ⟨upper, shape⟩ : ∃ upper, joinRows rows = upper ++ last := by
    obtain ⟨first, rfl⟩ := List.getLast?_eq_some_iff.mp isLast
    cases first with
    | nil => exact ⟨[], by simp⟩
    | cons row others =>
      exact ⟨joinRows (row :: others) ++ ['\n'], by
        rw [joinRows_append (List.cons_ne_nil _ _) (List.cons_ne_nil _ _), joinRows_singleton, List.append_assoc]
        rfl⟩
  rw [shape, List.dropWhile_append] at dash
  split at dash
  · rw [stripRow, dash, single]
  · obtain ⟨early, isEarly⟩ : ∃ early, upper.dropWhile isSpace = '-' :: early := by
      rename_i nonempty
      cases kept : upper.dropWhile isSpace with
      | nil => exact absurd (List.isEmpty_iff.mpr kept) nonempty
      | cons first others =>
        rw [kept, List.cons_append, List.cons.injEq] at dash
        exact ⟨others, by rw [dash.1]⟩
    rw [isEarly, List.cons_append, List.cons.injEq] at dash
    have within : ∀ char ∈ last, isSpace char = true := fun char member =>
      blanks char (dash.2 ▸ List.mem_append_right _ member)
    rw [isBlankRow, List.all_eq_true.mpr within] at content
    cases content

/-- **A match from the rows above ends there, or takes the first word below.** -/
theorem Begins.above_ends {dashed : Bool} {above lead : List Row} (begins : Begins dashed above lead)
    (nonempty : above ≠ []) {reference row : Row} (isUses : UsesRow dashed reference row) {after : List Row}
    {found : Row} {rest : List Char} (matched : matchReference (joinRows (above ++ (lead ++ row :: after))) =
      some (found, rest)) :
    (∃ early, rest = early ++ '\n' :: joinRows (lead ++ row :: after)) ∨ found = ['-'] ∨ found = "uses:".toList := by
  obtain ⟨last, isLast⟩ : ∃ last, last ∈ above.getLast? := ⟨_, List.getLast?_eq_some_getLast nonempty⟩
  have content := begins.last last isLast
  rw [joinRows_append nonempty (by simp)] at matched
  rcases matchReference_above (content_of_last isLast content) matched with ends | isWord | ⟨⟨blank, isDash, isBlank⟩, isUsesBelow⟩
  · exact Or.inl ends
  · exact Or.inr (isWord ▸ begins.firstWord isUses after)
  · have dashLast := stripRow_of_dash isLast content isDash isBlank
    obtain ⟨behind, isBehind⟩ := Option.isSome_iff_exists.mp isUsesBelow
    have starts := afterPrefix_eq_some.mp isBehind
    cases begins with
    | @blank dashed above lead isBlankLead lastRow =>
      cases dashed with
      | false => exact absurd dashLast ((lastRow last isLast).2 rfl)
      | true =>
        obtain ⟨gap, separation, more, shape, -⟩ := isUses.behind after
        rw [dropWhile_joinRows isBlankLead (List.cons_ne_nil _ _), shape] at starts
        cases starts
    | @dash _ upper lower dashRow isUpper isDashRow isLower _ =>
      obtain ⟨_, -, shape⟩ := behind_dash isUpper isDashRow (List.append_ne_nil_of_right_ne_nil lower
        (List.cons_ne_nil row after))
      rw [List.append_assoc, List.cons_append, shape] at starts
      cases starts

/-! ### The run of the scanner -/

/-- What a match takes of the rows: as many as it has line feeds. -/
theorem taken_le {above later : List Row} {rest early : List Char} (nonempty : above ≠ []) (nonempty' : later ≠ [])
    (free : ∀ row ∈ above ++ later, '\n' ∉ row) (shape : rest = early ++ '\n' :: joinRows later) :
    (joinRows (above ++ later)).count '\n' - rest.count '\n' ≤ above.length - 1 := by
  have freeAbove : ∀ row ∈ above, '\n' ∉ row := fun row member => free row (List.mem_append_left _ member)
  have count := count_joinRows freeAbove
  rw [joinRows_append nonempty nonempty', shape, List.count_append, List.count_append, count]
  omega

/-- **A row that reads as a `uses` is found**, numbered by the row at which its match begins, unless some match
takes a dash or a `uses:` for the reference. -/
theorem findReferences_seen {dashed : Bool} {above lead after : List Row} {reference row : Row}
    (begins : Begins dashed above lead) (isUses : UsesRow dashed reference row)
    (free : ∀ line ∈ above ++ (lead ++ row :: after), '\n' ∉ line) {taken index : ℕ} (within : taken ≤ above.length)
    (words : ∀ found ∈ findReferences taken index (above ++ (lead ++ row :: after)),
      found.2 ≠ ['-'] ∧ found.2 ≠ "uses:".toList) :
    (index + above.length, reference) ∈ findReferences taken index (above ++ (lead ++ row :: after)) := by
  induction above generalizing taken index with
  | nil =>
    cases Nat.le_zero.mp within
    obtain ⟨first, rest, shape⟩ := List.exists_cons_of_ne_nil (List.append_ne_nil_of_right_ne_nil lead
      (List.cons_ne_nil row after))
    obtain ⟨behind, matched⟩ := begins.matches isUses after
    rw [List.nil_append, shape] at words ⊢
    rw [shape] at matched
    rw [findReferences, matched]
    exact List.mem_cons_self
  | cons first others ih =>
    have below : lead ++ row :: after ≠ [] := List.append_ne_nil_of_right_ne_nil lead (List.cons_ne_nil row after)
    have freeBelow : ∀ line ∈ others ++ (lead ++ row :: after), '\n' ∉ line := fun line member =>
      free line (List.mem_cons_of_mem _ member)
    have moved : index + (first :: others).length = index + 1 + others.length := by
      rw [List.length_cons]
      omega
    rw [moved]
    rw [List.cons_append] at words ⊢
    cases taken with
    | succ taken =>
      rw [findReferences] at words ⊢
      exact ih begins.tail freeBelow (Nat.succ_le_succ_iff.mp within) words
    | zero =>
      cases matched : matchReference (joinRows (first :: (others ++ (lead ++ row :: after)))) with
      | none =>
        rw [findReferences, matched] at words ⊢
        exact ih begins.tail freeBelow (Nat.zero_le _) words
      | some found =>
        obtain ⟨found, rest⟩ := found
        rw [findReferences, matched] at words ⊢
        obtain ⟨noWord, wordsBelow⟩ := List.forall_mem_cons.mp words
        rcases begins.above_ends (List.cons_ne_nil _ _) isUses matched with ⟨early, ends⟩ | isDash | isKey
        · have fits := taken_le (List.cons_ne_nil first others) below free ends
          exact List.mem_cons_of_mem _ (ih begins.tail freeBelow fits wordsBelow)
        · exact absurd isDash noWord.1
        · exact absurd isKey noWord.2

/-- A reference that is pinned is neither a dash nor a `uses:`. -/
theorem PinnedReference.isWord {reference : Row} (pinned : PinnedReference reference) :
    reference ≠ ['-'] ∧ reference ≠ "uses:".toList := by
  have unpinned : ∀ {word : Row}, "./".toList.isPrefixOf word = false → "docker://".toList.isPrefixOf word = false →
      isPinned word = false → ¬ PinnedReference word := by
    intro word noLocal noContainer noCommit pinned
    cases pinned with
    | inRepository isLocal => exact Bool.false_ne_true (noLocal.symm.trans isLocal)
    | container isContainer _ _ => exact Bool.false_ne_true (noContainer.symm.trans isContainer)
    | commit _ isCommit => exact Bool.false_ne_true (noCommit.symm.trans isCommit)
  constructor
  · rintro rfl
    exact unpinned (by decide) (by decide) (by decide) pinned
  · rintro rfl
    exact unpinned (by decide) (by decide) (by decide) pinned

end McpAuth
