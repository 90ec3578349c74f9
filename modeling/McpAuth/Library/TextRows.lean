/-
**Rows of text — lines, indentation and comments.**

A row is a list of characters without `\n`. `rowsOf` cuts a text at `\n` and `joinRows` puts it together;
`splitLines` is `str.splitlines`, which cuts at more characters.

* `indentOf`, `stripRow`, `isSkipped`, `beforeComment` — what a scanner of indented text reads of a row;
* `afterPrefix` — a text behind a fixed start;
* `universalNewlines` — what reading in text mode makes of the line ends.

`splitLines_joinRows`: where `\n` is the only line boundary, the lines are the rows.
-/

import McpAuth.Library.PyText

namespace TextRows

open PyText

abbrev Row := List Char

/-! ### Rows and lines -/

/-- The rows of a text, cut at `\n`. -/
def rowsOf (text : List Char) : List Row := text.splitOn '\n'

/-- `"\n".join(rows)`. -/
def joinRows (rows : List Row) : List Char := ['\n'].intercalate rows

/-- A line boundary of `str.splitlines`. -/
def isLineBreak (char : Char) : Bool :=
  let code := char.toNat
  (0x0A ≤ code && code ≤ 0x0D) || (0x1C ≤ code && code ≤ 0x1E) || code == 0x85 || code == 0x2028 || code == 0x2029

/-- `str.splitlines` after the start of a line. -/
def splitLinesFrom (line : Row) : List Char → List Row
  | [] => if line = [] then [] else [line]
  | '\r' :: '\n' :: rest => line :: splitLinesFrom [] rest
  | char :: rest => if isLineBreak char then line :: splitLinesFrom [] rest else splitLinesFrom (line ++ [char]) rest

/-- `text.splitlines()`. -/
def splitLines (text : List Char) : List Row := splitLinesFrom [] text

theorem rowsOf_joinRows {rows : List Row} (nonempty : rows ≠ []) (free : ∀ row ∈ rows, '\n' ∉ row) :
    rowsOf (joinRows rows) = rows :=
  List.splitOn_intercalate '\n' free nonempty

@[simp] theorem joinRows_singleton (row : Row) : joinRows [row] = row := by
  simp [joinRows, List.intercalate]

theorem joinRows_cons_cons (row next : Row) (rest : List Row) :
    joinRows (row :: next :: rest) = row ++ '\n' :: joinRows (next :: rest) :=
  intercalate_cons_cons '\n' row next rest

theorem joinRows_append {first later : List Row} (nonempty : first ≠ []) (nonempty' : later ≠ []) :
    joinRows (first ++ later) = joinRows first ++ '\n' :: joinRows later := by
  induction first with
  | nil => exact absurd rfl nonempty
  | cons row rest ih =>
    cases rest with
    | nil =>
      obtain ⟨next, others, rfl⟩ := List.exists_cons_of_ne_nil nonempty'
      rw [List.singleton_append, joinRows_cons_cons, joinRows_singleton]
    | cons next others =>
      rw [List.cons_append, List.cons_append, joinRows_cons_cons, joinRows_cons_cons, ← List.cons_append,
        ih (List.cons_ne_nil _ _), List.append_assoc]
      rfl

/-- A joined text has one line feed fewer than it has rows. -/
theorem count_joinRows {rows : List Row} (free : ∀ row ∈ rows, '\n' ∉ row) :
    (joinRows rows).count '\n' = rows.length - 1 := by
  induction rows with
  | nil => rfl
  | cons row rest ih =>
    have here : row.count '\n' = 0 := List.count_eq_zero.mpr (free row List.mem_cons_self)
    cases rest with
    | nil => rw [joinRows_singleton, here, List.length_singleton]
    | cons next others =>
      have later := ih fun row member => free row (List.mem_cons_of_mem _ member)
      rw [joinRows_cons_cons, List.count_append, List.count_cons_self, here, later]
      simp

/-- A row without line boundaries is read to its end. -/
theorem splitLinesFrom_row {row : Row} (plain : ∀ char ∈ row, isLineBreak char = false) (line : Row)
    (rest : List Char) : splitLinesFrom line (row ++ rest) = splitLinesFrom (line ++ row) rest := by
  induction row generalizing line with
  | nil => rw [List.nil_append, List.append_nil]
  | cons char row ih =>
    obtain ⟨noBreak, others⟩ := List.forall_mem_cons.mp plain
    have notReturn : char ≠ '\r' := by
      rintro rfl
      exact absurd noBreak (by decide)
    rw [List.cons_append, splitLinesFrom, noBreak, if_neg Bool.false_ne_true, ih others, List.append_assoc,
      List.singleton_append]
    rintro _ rfl
    exact absurd rfl notReturn

/-- **Where `\n` is the only line boundary, the lines are the rows**, apart from an empty last row. -/
theorem splitLines_joinRows {rows : List Row} {last : Row}
    (plain : ∀ row ∈ rows, ∀ char ∈ row, isLineBreak char = false)
    (plainLast : ∀ char ∈ last, isLineBreak char = false) :
    splitLines (joinRows (rows ++ [last])) = if last = [] then rows else rows ++ [last] := by
  unfold splitLines
  induction rows with
  | nil =>
    rw [List.nil_append, joinRows_singleton]
    have whole := splitLinesFrom_row plainLast [] []
    rw [List.append_nil, List.nil_append] at whole
    rw [whole, splitLinesFrom]
  | cons row rest ih =>
    obtain ⟨here, others⟩ := List.forall_mem_cons.mp plain
    obtain ⟨next, later, shape⟩ := List.exists_cons_of_ne_nil (List.append_ne_nil_of_right_ne_nil rest
      (List.cons_ne_nil last []))
    have tail := ih others
    rw [List.cons_append, shape, joinRows_cons_cons, splitLinesFrom_row here, List.nil_append, splitLinesFrom,
      ← shape, tail]
    · have isBreak : isLineBreak '\n' = true := by decide
      rw [isBreak, if_pos rfl]
      split <;> rfl
    · rintro _ ⟨⟩

/-- Where `\n` is the only line boundary, the lines are the rows at the same places. -/
theorem lines_of_rows {rows : List Row} (nonempty : rows ≠ [])
    (plain : ∀ row ∈ rows, ∀ char ∈ row, isLineBreak char = false) :
    ∃ tail, rows = splitLines (joinRows rows) ++ tail ∧ ∀ row ∈ tail, row = [] := by
  obtain ⟨first, last, rfl⟩ := (List.eq_nil_or_concat rows).resolve_left nonempty
  rw [List.concat_eq_append] at plain ⊢
  rw [splitLines_joinRows (fun row member => plain row (by simp [member])) (plain last (by simp))]
  split
  · rename_i empty
    exact ⟨_, rfl, by simp [empty]⟩
  · exact ⟨[], by simp⟩

/-- What reading in text mode makes of the line ends. -/
def universalNewlines : List Char → List Char
  | [] => []
  | '\r' :: '\n' :: rest => '\n' :: universalNewlines rest
  | char :: rest => (if char = '\r' then '\n' else char) :: universalNewlines rest

theorem universalNewlines_of_notMem {text : List Char} (free : '\r' ∉ text) : universalNewlines text = text := by
  induction text with
  | nil => rfl
  | cons char rest ih =>
    rw [List.mem_cons, not_or] at free
    rw [universalNewlines, if_neg (Ne.symm free.1), ih free.2]
    rintro _ rfl
    exact absurd rfl free.1

theorem mem_universalNewlines {text : List Char} {char : Char} (member : char ∈ universalNewlines text) :
    char ∈ text ∨ char = '\n' := by
  fun_induction universalNewlines text with
  | case1 => cases member
  | case2 rest ih =>
    rcases List.mem_cons.mp member with rfl | later
    · exact Or.inr rfl
    · exact (ih later).imp_left fun inside => by simp [inside]
  | case3 first rest _ ih =>
    rcases List.mem_cons.mp member with rfl | later
    · split
      · exact Or.inr rfl
      · exact Or.inl List.mem_cons_self
    · exact (ih later).imp_left fun inside => List.mem_cons_of_mem _ inside

/-- The characters of the lines are characters of the text. -/
theorem mem_of_mem_splitLinesFrom {line row : Row} {text : List Char} (isRow : row ∈ splitLinesFrom line text)
    {char : Char} (member : char ∈ row) : char ∈ line ∨ char ∈ text := by
  fun_induction splitLinesFrom line text with
  | case1 => cases isRow
  | case2 line notEmpty =>
    rw [List.mem_singleton] at isRow
    exact Or.inl (isRow ▸ member)
  | case3 line rest ih =>
    rcases List.mem_cons.mp isRow with rfl | later
    · exact Or.inl member
    · exact Or.inr (by simpa using Or.inr (Or.inr ((ih later).resolve_left (by simp))))
  | case4 line first rest _ isBreak ih =>
    rcases List.mem_cons.mp isRow with rfl | later
    · exact Or.inl member
    · exact Or.inr (List.mem_cons_of_mem _ ((ih later).resolve_left (by simp)))
  | case5 line first rest _ noBreak ih =>
    rcases ih isRow with inside | later
    · rcases List.mem_append.mp inside with earlier | here
      · exact Or.inl earlier
      · exact Or.inr (List.mem_cons.mpr (Or.inl (List.mem_singleton.mp here)))
    · exact Or.inr (List.mem_cons_of_mem _ later)

/-- Every line is free of line boundaries. -/
theorem plain_of_mem_splitLinesFrom {line : Row} (plain : ∀ char ∈ line, isLineBreak char = false) {text : List Char}
    {row : Row} (member : row ∈ splitLinesFrom line text) : ∀ char ∈ row, isLineBreak char = false := by
  fun_induction splitLinesFrom line text with
  | case1 => cases member
  | case2 line notEmpty =>
    rw [List.mem_singleton] at member
    exact member ▸ plain
  | case3 line rest ih =>
    rcases List.mem_cons.mp member with rfl | later
    · exact plain
    · exact ih (by simp) later
  | case4 line char rest _ isBreak ih =>
    rcases List.mem_cons.mp member with rfl | later
    · exact plain
    · exact ih (by simp) later
  | case5 line char rest _ noBreak ih =>
    refine ih (fun other inside => ?_) member
    rcases List.mem_append.mp inside with earlier | here
    · exact plain other earlier
    · rw [List.mem_singleton.mp here]
      simpa using noBreak

/-- Rows that each end in `\n`. -/
theorem joinRows_append_nil (rows : List Row) : joinRows (rows ++ [[]]) = rows.flatMap (· ++ ['\n']) := by
  induction rows with
  | nil => exact joinRows_singleton []
  | cons row later ih =>
    obtain ⟨next, others, shape⟩ := List.exists_cons_of_ne_nil (List.append_ne_nil_of_right_ne_nil later
      (List.cons_ne_nil ([] : Row) []))
    rw [List.cons_append, shape, joinRows_cons_cons, ← shape, ih, List.flatMap_cons, List.append_assoc,
      List.singleton_append]

/-! ### What a scanner reads of a row -/

/-- `len(line) - len(line.lstrip(" "))`. -/
def indentOf (row : Row) : ℕ := (row.takeWhile (· == ' ')).length

def spaces (count : ℕ) : Row := List.replicate count ' '

/-- `line.strip()`. -/
def stripRow (row : Row) : Row := (row.dropWhile isSpace).rdropWhile isSpace

/-- A blank row or a comment: `not stripped or stripped.startswith("#")`. -/
def isSkipped (row : Row) : Bool :=
  match stripRow row with
  | [] => true
  | first :: _ => first == '#'

/-- The first row of content. -/
def firstContent (rows : List Row) : Option Row := rows.find? (!isSkipped ·)

/-- `stripped.split(" #", maxsplit=1)[0]`. -/
def beforeComment : Row → Row
  | ' ' :: '#' :: _ => []
  | char :: rest => char :: beforeComment rest
  | [] => []

/-- The text behind a fixed start. -/
def afterPrefix (start text : Row) : Option Row :=
  if start.isPrefixOf text then some (text.drop start.length) else none

theorem spaces_blank (count : ℕ) : ∀ char ∈ spaces count, isSpace char = true := by
  intro char member
  rw [List.eq_of_mem_replicate member]
  rfl

theorem indentOf_spaces {count : ℕ} {first : Char} {rest : Row} (other : first ≠ ' ') :
    indentOf (spaces count ++ first :: rest) = count := by
  have isSpaces : ∀ char ∈ spaces count, (char == ' ') = true := by
    intro char member
    rw [List.eq_of_mem_replicate member]
    rfl
  have stops : (first == ' ') = false := by simpa using other
  rw [indentOf, List.takeWhile_append_of_pos isSpaces, List.takeWhile_cons, stops, if_neg Bool.false_ne_true,
    List.append_nil, spaces, List.length_replicate]

theorem afterPrefix_eq_some {start text rest : Row} : afterPrefix start text = some rest ↔ text = start ++ rest := by
  unfold afterPrefix
  constructor
  · intro found
    split at found
    · rename_i starts
      obtain ⟨tail, rfl⟩ := List.isPrefixOf_iff_prefix.mp starts
      rw [List.drop_left, Option.some.injEq] at found
      rw [found]
    · cases found
  · rintro rfl
    rw [if_pos (List.isPrefixOf_iff_prefix.mpr (List.prefix_append _ _)), List.drop_left]

end TextRows
