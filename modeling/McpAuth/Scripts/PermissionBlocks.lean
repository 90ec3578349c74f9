/-
**What the scanner reads of a permissions block.**

`mem_permissionEntries_iff`: an entry of `_permission_entries` is the last one of its name among the rows below the
header that are indented deeper, down to the first row of content that is not.

The rows of a plain spelling are read as they are meant: the header (`permissionsHeader_plain`) and an entry
(`readEntry_plain`). `spelled_of_readEntry`: an entry that is read under its own name is spelled with the access
behind its colon. `permissionJob_iff`: the job of a block is the one whose header is read last above it.
-/

import McpAuth.Scripts.ActionReferences
import McpAuth.Library.YamlScalar

namespace McpAuth

open PyText TextRows YamlScalar

/-! ### Entries -/

/-- The entry of a row. -/
def readEntry (line : Row) : Option (String × String) := permissionEntry (beforeComment (stripRow line))

/-- The rows of content of a mapping below its header. -/
def mappingLines (indent : ℕ) (lines : List Row) : List Row :=
  (lines.filter (!isSkipped ·)).takeWhile (indent < indentOf ·)

theorem entriesFrom_eq_foldl (indent : ℕ) (entries : List (String × String)) (lines : List Row) :
    entriesFrom indent entries lines = ((mappingLines indent lines).filterMap readEntry).foldl
      (fun kept entry => Multidict.put Prod.fst entry kept) entries := by
  induction lines generalizing entries with
  | nil => rfl
  | cons line later ih =>
    unfold mappingLines at ih ⊢
    rw [entriesFrom]
    cases skipped : isSkipped line with
    | true =>
      rw [if_pos rfl, ih, List.filter_cons_of_neg (by simp [skipped])]
    | false =>
      rw [if_neg Bool.false_ne_true, List.filter_cons_of_pos (by simp [skipped])]
      by_cases shallow : indentOf line ≤ indent
      · rw [if_pos shallow, List.takeWhile_cons_of_neg (by simpa using shallow)]
        rfl
      · rw [if_neg shallow, List.takeWhile_cons_of_pos (by simpa using shallow), List.filterMap_cons, readEntry]
        cases permissionEntry (beforeComment (stripRow line)) with
        | none => exact ih entries
        | some entry => exact ih _

/-- The entries that are read in a mapping below its header. -/
def readEntries (indent : ℕ) (lines : List Row) : List (String × String) :=
  (mappingLines indent lines).filterMap readEntry

/-- The last entry of the name below the header gives it the access. -/
def ReadsLast (lines : List Row) (start indent : ℕ) (name access : String) : Prop :=
  (Multidict.under Prod.fst name (readEntries indent (lines.drop (start + 1)))).getLast? = some (name, access)

/-- **Which entries a block has.** -/
theorem mem_permissionEntries_iff {lines : List Row} {start indent : ℕ} {entry : String × String} :
    entry ∈ permissionEntries lines start indent ↔ ReadsLast lines start indent entry.1 entry.2 := by
  rw [permissionEntries, entriesFrom_eq_foldl, Multidict.mem_foldl_put]
  rfl

/-- **What an accepted block writes is allowed.** -/
theorem blockAccepted_iff {display : String} {lines : List Row} {block : PermissionBlock} :
    BlockAccepted display lines block ↔ stripRow block.value = [] ∧ ∀ name,
      ReadsLast lines block.row block.indent name "write" →
        name ∈ allowedWritePermissions display (permissionJob lines block.row block.indent) := by
  unfold BlockAccepted
  refine and_congr_right fun _ => ⟨?_, ?_⟩
  · intro allowed name reads
    exact allowed (name, "write") (mem_permissionEntries_iff.mpr reads) rfl
  · rintro allowed ⟨name, access⟩ member rfl
    exact allowed name (mem_permissionEntries_iff.mp member)

/-! ### Rows of a plain spelling -/

/-- The row of a key. -/
def keyRow (column : ℕ) (name gap rest : Row) : Row := spaces column ++ name ++ gap ++ ':' :: rest

/-- White space behind a scalar, and a comment behind a space. -/
def PlainTrailing (trailing : Row) : Prop :=
  ∃ blank, (∀ char ∈ blank, isWhite char = true) ∧ (trailing = blank ∨ ∃ comment, trailing = blank ++ ' ' :: '#' :: comment)

/-- **The header of a block is found.** -/
theorem permissionsHeader_plain (column : ℕ) (trailing : Row) (index : ℕ) :
    ∃ block, permissionsHeader index (keyRow column "permissions".toList [] trailing) = some block ∧
      block.row = index ∧ block.indent = column := by
  have shape : keyRow column "permissions".toList [] trailing =
      spaces column ++ 'p' :: ("ermissions:".toList ++ trailing) := by simp [keyRow]
  have indent : indentOf (keyRow column "permissions".toList [] trailing) = column := by
    rw [shape]
    exact indentOf_spaces (by decide)
  have dropped : (keyRow column "permissions".toList [] trailing).drop column = "permissions:".toList ++ trailing := by
    rw [shape, List.drop_left' (by simp [spaces])]
    rfl
  have found : afterPrefix "permissions:".toList ("permissions:".toList ++ trailing) = some trailing :=
    afterPrefix_eq_some.mpr rfl
  unfold permissionsHeader
  rw [indent, dropped, found]
  exact ⟨_, rfl, rfl, rfl⟩

/-- What a header that is found looks like. -/
theorem permissionsHeader_some {index : ℕ} {row : Row} {block : PermissionBlock}
    (found : permissionsHeader index row = some block) :
    block.row = index ∧ block.indent = indentOf row ∧ "permissions:".toList <+: row.drop (indentOf row) := by
  obtain ⟨rest, isRest, rfl⟩ := Option.map_eq_some_iff.mp found
  exact ⟨rfl, rfl, rest, (afterPrefix_eq_some.mp isRest).symm⟩

/-- **A header with white space in front of its colon is not found.** -/
theorem gap_of_permissionsHeader {column index : ℕ} {gap trailing : Row} {block : PermissionBlock}
    (isGap : ∀ char ∈ gap, isWhite char = true)
    (found : permissionsHeader index (keyRow column "permissions".toList gap trailing) = some block) :
    gap = [] ∧ block.indent = column := by
  have shape : keyRow column "permissions".toList gap trailing =
      spaces column ++ 'p' :: ("ermissions".toList ++ gap ++ ':' :: trailing) := by simp [keyRow]
  have indent : indentOf (keyRow column "permissions".toList gap trailing) = column := by
    rw [shape]
    exact indentOf_spaces (by decide)
  obtain ⟨-, isIndent, starts⟩ := permissionsHeader_some found
  refine ⟨?_, isIndent.trans indent⟩
  rw [indent, shape, List.drop_left' (by simp [spaces])] at starts
  cases gap with
  | nil => rfl
  | cons white gap =>
    have colon : ':' = white := by simpa using starts
    exact absurd (isGap white List.mem_cons_self) (by rw [← colon]; decide)

theorem mem_permissionBlocks {rows : List Row} {block : PermissionBlock} (member : block ∈ permissionBlocks rows) :
    ∃ header, rows[block.row]? = some header ∧ permissionsHeader block.row header = some block := by
  obtain ⟨⟨header, index⟩, isRow, found⟩ := List.mem_filterMap.mp member
  have isIndex := (permissionsHeader_some found).1
  subst isIndex
  exact ⟨header, List.mk_mem_zipIdx_iff_getElem?.mp isRow, found⟩

theorem beforeComment_append {first rest : Row} (noSpace : ' ' ∉ first) :
    beforeComment (first ++ rest) = first ++ beforeComment rest := by
  induction first with
  | nil => rfl
  | cons char first ih =>
    have other : char ≠ ' ' := fun same => noSpace (same ▸ List.mem_cons_self)
    rw [List.cons_append, beforeComment, ih fun member => noSpace (List.mem_cons_of_mem _ member), List.cons_append]
    rintro _ rfl
    exact absurd rfl other

/-- A character of a name is not white space, a colon or a hash. -/
theorem isNameChar_facts {char : Char} (isName : isNameChar char = true) :
    isSpace char = false ∧ char ≠ ' ' ∧ char ≠ ':' ∧ char ≠ '#' := by
  have code : 97 ≤ char.toNat ∧ char.toNat ≤ 122 ∨ char.toNat = 45 := by
    simp only [isNameChar, Bool.or_eq_true, Bool.and_eq_true, decide_eq_true_eq, beq_iff_eq] at isName
    rcases isName with ⟨low, high⟩ | rfl
    · exact Or.inl ⟨UInt32.le_iff_toNat_le.mp low, UInt32.le_iff_toNat_le.mp high⟩
    · exact Or.inr rfl
  refine ⟨?_, ?_, ?_, ?_⟩
  · by_contra space
    simp only [isSpace, Bool.not_eq_false, Bool.or_eq_true, Bool.and_eq_true, decide_eq_true_eq, beq_iff_eq] at space
    omega
  · rintro rfl
    revert code
    decide
  · rintro rfl
    revert code
    decide
  · rintro rfl
    revert code
    decide

/-- A row with a key, without the white space around it. -/
theorem stripRow_keyRow {column : ℕ} {name gap rest : Row} (nonempty : name ≠ [])
    (chars : ∀ char ∈ name, isNameChar char = true) :
    stripRow (keyRow column name gap rest) = name ++ gap ++ ':' :: rest.rdropWhile isSpace := by
  obtain ⟨first, others, rfl⟩ := List.exists_cons_of_ne_nil nonempty
  have word := (isNameChar_facts (chars first List.mem_cons_self)).1
  have begins : (keyRow column (first :: others) gap rest).dropWhile isSpace =
      (first :: others ++ gap ++ [':']) ++ rest := by
    unfold keyRow
    simp only [List.append_assoc]
    rw [List.dropWhile_append_of_pos (spaces_blank column), List.cons_append, List.dropWhile_cons, word,
      if_neg Bool.false_ne_true]
    simp
  have ends : (first :: others ++ gap ++ [':']).getLast? = some ':' := List.getLast?_concat
  rw [stripRow, begins, rdropWhile_append _ ends rfl]
  simp

theorem head_beforeComment (text : Row) : ∀ first ∈ (beforeComment text).head?, first ∈ text.head? := by
  intro first isHead
  unfold beforeComment at isHead
  split at isHead
  · cases isHead
  · exact isHead
  · cases isHead

theorem beforeComment_self {text : Row} (noHash : '#' ∉ text) : beforeComment text = text := by
  induction text with
  | nil => rfl
  | cons char text ih =>
    rw [beforeComment, ih fun member => noHash (List.mem_cons_of_mem _ member)]
    rintro _ - rfl
    exact noHash (by simp)

theorem beforeComment_comment {text : Row} (noHash : '#' ∉ text) (comment : Row) :
    beforeComment (text ++ ' ' :: '#' :: comment) = text := by
  induction text with
  | nil => rfl
  | cons char text ih =>
    rw [List.cons_append, beforeComment, ih fun member => noHash (List.mem_cons_of_mem _ member)]
    rintro rest - shape
    cases text with
    | nil => cases shape
    | cons next text =>
      cases shape
      exact noHash (by simp)

/-- The name of an entry is read to its end. -/
theorem takeWhile_name {name rest : Row} (chars : ∀ char ∈ name, isNameChar char = true)
    (ends : ∀ char ∈ rest.head?, isNameChar char = false) : (name ++ rest).takeWhile isNameChar = name := by
  rw [List.takeWhile_append_of_pos chars, (dropWhile_of_head ends).2, List.append_nil]

theorem beforeComment_isPrefix (text : Row) : beforeComment text <+: text := by
  fun_induction beforeComment text with
  | case1 => exact List.nil_prefix
  | case2 char rest _ ih => exact (List.prefix_cons_inj char).mpr ih
  | case3 => exact List.nil_prefix

/-- What a text starts with behind its blanks, a part from its start starts with. -/
theorem head_dropWhile_of_prefix {p : Char → Bool} {part text : Row} (isPrefix : part <+: text) :
    ∀ first ∈ (part.dropWhile p).head?, first ∈ (text.dropWhile p).head? := by
  obtain ⟨rest, rfl⟩ := isPrefix
  intro first isHead
  have nonempty : ¬ (part.dropWhile p).isEmpty = true := by
    intro empty
    rw [List.isEmpty_iff.mp empty] at isHead
    cases isHead
  rw [List.dropWhile_append, if_neg nonempty]
  exact List.mem_head?_append_of_mem_head? isHead

/-- A character that is no white space stays. -/
theorem mem_stripRow {row : Row} {char : Char} (word : isSpace char = false) (member : char ∈ row) :
    char ∈ stripRow row := by
  have inDropped : char ∈ row.dropWhile isSpace := by
    rw [← List.takeWhile_append_dropWhile (p := isSpace) (l := row), List.mem_append] at member
    exact member.resolve_left fun blank => Bool.false_ne_true (word.symm.trans (List.mem_takeWhile_imp blank))
  have split : (row.dropWhile isSpace).rdropWhile isSpace ++ (row.dropWhile isSpace).rtakeWhile isSpace =
      row.dropWhile isSpace := List.rdropWhile_append_rtakeWhile
  rw [← split, List.mem_append] at inDropped
  exact inDropped.resolve_right fun blank => Bool.false_ne_true (word.symm.trans (List.mem_rtakeWhile_imp blank))

/-- What is left of a text starts as the text does behind its blanks. -/
theorem head_of_stripRow {text : Row} {first : Char}
    (isHead : first ∈ (stripRow (beforeComment (text.rdropWhile isSpace))).head?) :
    first ∈ (text.dropWhile isSpace).head? := by
  have part : beforeComment (text.rdropWhile isSpace) <+: text :=
    (beforeComment_isPrefix _).trans (List.rdropWhile_prefix isSpace _)
  refine head_dropWhile_of_prefix part first ?_
  obtain ⟨tail, shape⟩ := List.head?_eq_some_iff.mp isHead
  have kept : stripRow (beforeComment (text.rdropWhile isSpace)) <+:
      (beforeComment (text.rdropWhile isSpace)).dropWhile isSpace := List.rdropWhile_prefix isSpace _
  rw [shape] at kept
  obtain ⟨more, whole⟩ := kept
  rw [← whole]
  rfl

/-- A hash that does not follow a space starts no comment. -/
theorem beforeComment_hash {text : Row} (noHash : '#' ∉ text) (last : text.getLast? ≠ some ' ') (rest : Row) :
    beforeComment (text ++ '#' :: rest) = text ++ '#' :: beforeComment rest := by
  induction text with
  | nil =>
    rw [List.nil_append, List.nil_append, beforeComment]
    rintro _ same
    cases same
  | cons char text ih =>
    cases text with
    | nil =>
      have other : char ≠ ' ' := fun same => last (by rw [same]; rfl)
      have hash : beforeComment ('#' :: rest) = '#' :: beforeComment rest := by
        rw [beforeComment]
        rintro _ same
        cases same
      rw [List.singleton_append, List.singleton_append, beforeComment, hash]
      rintro _ rfl
      exact absurd rfl other
    | cons next text =>
      have notHash : next ≠ '#' := fun same => noHash (by simp [same])
      have rest' := ih (fun member => noHash (List.mem_cons_of_mem _ member)) (by simpa using last)
      rw [List.cons_append, beforeComment, rest']
      · rfl
      · rintro _ - shape
        exact notHash (List.cons.inj shape).1

/-- **An entry that is read under its own name** is spelled with the access behind its colon. -/
theorem spelled_of_readEntry {column : ℕ} {name gap rest : Row} {access : String} (nonempty : name ≠ [])
    (isGap : ∀ char ∈ gap, isWhite char = true)
    (read : readEntry (keyRow column name gap rest) = some (String.ofList name, access)) :
    (∀ char ∈ name, isNameChar char = true) ∧ gap = [] ∧
      stripRow (beforeComment (rest.rdropWhile isSpace)) = access.toList := by
  have chars : ∀ char ∈ name, isNameChar char = true := by
    unfold readEntry permissionEntry at read
    dsimp only at read
    split at read
    · cases read
    · split at read
      · have same := String.ofList_inj.mp (congrArg Prod.fst (Option.some.inj read))
        intro char member
        rw [← same] at member
        exact List.mem_takeWhile_imp member
      · cases read
  have noSpace : ' ' ∉ name := fun member => (isNameChar_facts (chars _ member)).2.1 rfl
  rw [readEntry, stripRow_keyRow nonempty chars, List.append_assoc, beforeComment_append noSpace] at read
  cases gap with
  | nil =>
    have colon : beforeComment (':' :: rest.rdropWhile isSpace) = ':' :: beforeComment (rest.rdropWhile isSpace) := by
      rw [beforeComment]
      rintro _ same
      cases same
    have ends : ∀ char ∈ (':' :: beforeComment (rest.rdropWhile isSpace)).head?, isNameChar char = false := by
      rintro _ ⟨⟩
      rfl
    have behind : afterPrefix [':'] (':' :: beforeComment (rest.rdropWhile isSpace)) =
        some (beforeComment (rest.rdropWhile isSpace)) := afterPrefix_eq_some.mpr rfl
    unfold permissionEntry at read
    dsimp only at read
    rw [List.nil_append, colon, takeWhile_name chars ends, List.drop_left, behind] at read
    dsimp only at read
    split at read
    · refine ⟨chars, rfl, ?_⟩
      have same := congrArg Prod.snd (Option.some.inj read)
      dsimp only at same
      rw [← same, String.toList_ofList]
      rfl
    · cases read
  | cons white gap =>
    -- The character behind the name is white space, not a colon.
    exfalso
    have isWhiteSpace := isSpace_of_isWhite (isGap white List.mem_cons_self)
    have head : ∀ char ∈ (beforeComment ((white :: gap) ++ ':' :: rest.rdropWhile isSpace)).head?, char = white := by
      intro char isHead
      have first := head_beforeComment _ char isHead
      cases first
      rfl
    have ends : ∀ char ∈ (beforeComment ((white :: gap) ++ ':' :: rest.rdropWhile isSpace)).head?,
        isNameChar char = false := by
      intro char isHead
      rw [head char isHead]
      exact eq_false_of_ne_true fun isName =>
        Bool.false_ne_true ((isNameChar_facts isName).1.symm.trans isWhiteSpace)
    unfold permissionEntry at read
    dsimp only at read
    rw [takeWhile_name chars ends, List.drop_left] at read
    split at read
    · cases read
    · rename_i behind isBehind
      have shape := afterPrefix_eq_some.mp isBehind
      have isColon := head ':' (by rw [shape]; rfl)
      rw [← isColon] at isWhiteSpace
      exact absurd isWhiteSpace (by decide)

/-- **An entry in a plain spelling is read as it is meant.** -/
theorem readEntry_plain {column : ℕ} {name separation trailing : Row} {access : String} (nonempty : name ≠ [])
    (chars : ∀ char ∈ name, isNameChar char = true) (separates : ∀ char ∈ separation, isWhite char = true)
    (isAccess : access ∈ ["read", "write", "none"]) (isTrailing : PlainTrailing trailing) :
    readEntry (keyRow column name [] (separation ++ access.toList ++ trailing)) =
      some (String.ofList name, access) := by
  have facts : ∃ first last rest, access.toList = first :: rest ∧ access.toList.getLast? = some last ∧
      isSpace first = false ∧ isSpace last = false ∧ '#' ∉ access.toList := by
    simp only [List.mem_cons, List.not_mem_nil, or_false] at isAccess
    rcases isAccess with rfl | rfl | rfl
    · exact ⟨'r', 'd', _, rfl, rfl, rfl, rfl, by decide⟩
    · exact ⟨'w', 'e', _, rfl, rfl, rfl, rfl, by decide⟩
    · exact ⟨'n', 'e', _, rfl, rfl, rfl, rfl, by decide⟩
  obtain ⟨first, last, tail, begins, ends, wordFirst, wordLast, noHash⟩ := facts
  have blankSpace : ∀ {blank : Row}, (∀ char ∈ blank, isWhite char = true) → ∀ char ∈ blank, isSpace char = true :=
    fun isBlank char member => isSpace_of_isWhite (isBlank char member)
  have noHashWhite : ∀ {blank : Row}, (∀ char ∈ blank, isWhite char = true) → '#' ∉ blank :=
    fun isBlank member => absurd (isBlank _ member) (by decide)
  -- what is left of the row in front of a comment
  obtain ⟨blank, isBlank, cut⟩ : ∃ blank, (∀ char ∈ blank, isWhite char = true) ∧
      beforeComment (stripRow (keyRow column name [] (separation ++ access.toList ++ trailing))) =
        name ++ ':' :: (separation ++ access.toList ++ blank) := by
    have endsValue : (separation ++ access.toList).getLast? = some last := by
      rw [List.getLast?_append, ends]
      rfl
    have noHashValue : ∀ {blank : Row}, (∀ char ∈ blank, isWhite char = true) →
        '#' ∉ name ++ ':' :: (separation ++ access.toList ++ blank) := by
      intro blank isBlank
      simp only [List.mem_append, List.mem_cons, not_or]
      exact ⟨fun member => (isNameChar_facts (chars _ member)).2.2.2 rfl, by decide,
        ⟨noHashWhite separates, noHash⟩, noHashWhite isBlank⟩
    rw [stripRow_keyRow nonempty chars, List.append_nil, rdropWhile_append _ endsValue wordLast]
    obtain ⟨blank, isBlank, rfl | ⟨comment, rfl⟩⟩ := isTrailing
    · have none : trailing.rdropWhile isSpace = [] := List.rdropWhile_eq_nil_iff.mpr (blankSpace isBlank)
      refine ⟨[], fun _ member => absurd member List.not_mem_nil, ?_⟩
      rw [none]
      exact beforeComment_self (noHashValue fun _ member => absurd member List.not_mem_nil)
    · refine ⟨blank, isBlank, ?_⟩
      have endsHash : (blank ++ [' ', '#']).getLast? = some '#' := by
        rw [List.getLast?_append]
        rfl
      have kept : (blank ++ ' ' :: '#' :: comment).rdropWhile isSpace =
          blank ++ ' ' :: '#' :: comment.rdropWhile isSpace := by
        have stripped := rdropWhile_append comment endsHash (by decide : isSpace '#' = false)
        simpa using stripped
      rw [kept]
      have shape : name ++ ':' :: (separation ++ access.toList ++ (blank ++ ' ' :: '#' :: comment.rdropWhile isSpace)) =
          (name ++ ':' :: (separation ++ access.toList ++ blank)) ++ ' ' :: '#' :: comment.rdropWhile isSpace := by
        simp
      rw [shape]
      exact beforeComment_comment (noHashValue isBlank) _
  have found : afterPrefix [':'] (':' :: (separation ++ access.toList ++ blank)) =
      some (separation ++ access.toList ++ blank) := afterPrefix_eq_some.mpr rfl
  have value : ((separation ++ access.toList ++ blank).dropWhile isSpace).rdropWhile isSpace = access.toList := by
    have skipped : (separation ++ access.toList ++ blank).dropWhile isSpace = access.toList ++ blank := by
      rw [List.append_assoc, List.dropWhile_append_of_pos (blankSpace separates), begins, List.cons_append,
        List.dropWhile_cons, wordFirst, if_neg Bool.false_ne_true]
    rw [skipped, rdropWhile_append _ ends wordLast, List.rdropWhile_eq_nil_iff.mpr (blankSpace isBlank),
      List.append_nil]
  unfold readEntry permissionEntry
  dsimp only
  rw [cut, takeWhile_name chars (by simp [isNameChar]), List.drop_left, found]
  dsimp only
  rw [value, String.ofList_toList, if_pos ⟨nonempty, by simpa using isAccess⟩]

/-- A row is content when it begins with neither white space nor a hash. -/
theorem content_of_first {column : ℕ} {first : Char} {rest : Row} (word : isSpace first = false)
    (noHash : first ≠ '#') : isSkipped (spaces column ++ first :: rest) = false := by
  have kept := rdropWhile_append rest (List.getLast?_singleton : [first].getLast? = some first) word
  rw [List.singleton_append, List.singleton_append] at kept
  rw [isSkipped, stripRow, List.dropWhile_append_of_pos (spaces_blank column), List.dropWhile_cons, word,
    if_neg Bool.false_ne_true, kept]
  simpa using noHash

theorem content_keyRow {column : ℕ} {name gap rest : Row} (nonempty : name ≠ [])
    (chars : ∀ char ∈ name, isNameChar char = true) : isSkipped (keyRow column name gap rest) = false := by
  obtain ⟨first, others, rfl⟩ := List.exists_cons_of_ne_nil nonempty
  obtain ⟨word, -, -, noHash⟩ := isNameChar_facts (chars first List.mem_cons_self)
  simp only [keyRow, List.append_assoc, List.cons_append]
  exact content_of_first word noHash

/-- **Deeper rows below a header** belong to its mapping. -/
theorem mappingLines_append {indent : ℕ} {inside : List Row} (below : List Row)
    (deep : ∀ row ∈ inside, isSkipped row = false → indent < indentOf row) :
    mappingLines indent (inside ++ below) = inside.filter (!isSkipped ·) ++ mappingLines indent below := by
  have all : ∀ row ∈ inside.filter (!isSkipped ·), decide (indent < indentOf row) = true := by
    intro row member
    obtain ⟨isInside, content⟩ := List.mem_filter.mp member
    exact decide_eq_true (deep row isInside (by simpa using content))
  rw [mappingLines, List.filter_append, List.takeWhile_append_of_pos all, mappingLines]

/-- Blank rows at the end are not read. -/
theorem mappingLines_blank {indent : ℕ} {lines tail : List Row} (blank : ∀ row ∈ tail, row = []) :
    mappingLines indent (lines ++ tail) = mappingLines indent lines := by
  have none : tail.filter (!isSkipped ·) = [] := by
    rw [List.filter_eq_nil_iff]
    intro row member
    rw [blank row member]
    decide
  rw [mappingLines, mappingLines, List.filter_append, none, List.append_nil]

/-! ### The job above -/

theorem not_isJobChar_of_isSpace {char : Char} (space : isSpace char = true) : isJobChar char = false := by
  by_contra isJob
  rw [Bool.not_eq_false] at isJob
  have code : 48 ≤ char.toNat ∧ char.toNat ≤ 122 ∨ char.toNat = 45 := by
    simp only [isJobChar, UrlSplit.isAlpha, PyNumbers.isDigit, Bool.or_eq_true, Bool.and_eq_true, decide_eq_true_eq,
      beq_iff_eq] at isJob
    rcases isJob with (((⟨low, high⟩ | ⟨low, high⟩) | ⟨low, high⟩) | rfl) | rfl
    · exact Or.inl ⟨le_trans (by decide) (UInt32.le_iff_toNat_le.mp low), UInt32.le_iff_toNat_le.mp high⟩
    · exact Or.inl ⟨le_trans (by decide) (UInt32.le_iff_toNat_le.mp low),
        le_trans (UInt32.le_iff_toNat_le.mp high) (by decide)⟩
    · exact Or.inl ⟨UInt32.le_iff_toNat_le.mp low, le_trans (UInt32.le_iff_toNat_le.mp high) (by decide)⟩
    · exact Or.inl (by decide)
    · exact Or.inr rfl
  simp only [isSpace, Bool.or_eq_true, Bool.and_eq_true, decide_eq_true_eq, beq_iff_eq] at space
  omega

/-- A row that is spelled as the header of a job, two columns deep. -/
def IsJobHeader (name row : Row) : Prop :=
  ∃ trailing, row = keyRow 2 name [] trailing ∧ name ≠ [] ∧ (∀ char ∈ name, isJobChar char = true) ∧
    ∀ first ∈ (trailing.dropWhile isSpace).head?, first = '#'

theorem takeWhile_job {name rest : Row} (chars : ∀ char ∈ name, isJobChar char = true) :
    (name ++ ':' :: rest).takeWhile isJobChar = name := by
  rw [List.takeWhile_append_of_pos chars]
  simp [isJobChar, UrlSplit.isAlpha, PyNumbers.isDigit]

/-- **Which rows are read as the header of a job.** -/
theorem jobHeader_iff {row : Row} {name : String} : jobHeader row = some name ↔ IsJobHeader name.toList row := by
  have blank : ∀ rest : Row, (rest = [] ∨ rest.head? = some '#') ↔ ∀ first ∈ rest.head?, first = '#' := by
    intro rest
    cases rest <;> simp
  constructor
  · intro found
    unfold jobHeader at found
    split at found
    · rename_i rest
      dsimp only at found
      split at found
      · cases found
      rename_i trailing isTrailing
      split at found
      · rename_i accepted
        have isName := Option.some.inj found
        subst isName
        rw [String.toList_ofList]
        refine ⟨trailing, ?_, accepted.1, fun char member => List.mem_takeWhile_imp member,
          (blank _).mp accepted.2⟩
        have behind := afterPrefix_eq_some.mp isTrailing
        have split : rest.takeWhile isJobChar ++ rest.drop (rest.takeWhile isJobChar).length = rest := by
          conv_lhs =>
            enter [1]
            rw [List.prefix_iff_eq_take.mp (List.takeWhile_prefix isJobChar)]
          exact List.take_append_drop _ rest
        rw [behind] at split
        conv_lhs => rw [← split]
        simp [keyRow, spaces]
      · cases found
    · cases found
  · rintro ⟨trailing, rfl, nonempty, chars, comment⟩
    have shape : keyRow 2 name.toList [] trailing = ' ' :: ' ' :: (name.toList ++ ':' :: trailing) := by
      simp [keyRow, spaces]
    have found : afterPrefix [':'] (':' :: trailing) = some trailing := afterPrefix_eq_some.mpr rfl
    rw [shape, jobHeader, takeWhile_job chars, List.drop_left, found]
    dsimp only
    rw [if_pos ⟨nonempty, (blank _).mpr comment⟩, String.ofList_toList]

/-- The header of a job is content, two columns deep. -/
theorem IsJobHeader.shallow {name row : Row} (header : IsJobHeader name row) :
    isSkipped row = false ∧ indentOf row = 2 := by
  obtain ⟨trailing, rfl, nonempty, chars, -⟩ := header
  obtain ⟨first, others, rfl⟩ := List.exists_cons_of_ne_nil nonempty
  have isJob := chars first List.mem_cons_self
  have word : isSpace first = false :=
    eq_false_of_ne_true fun space => Bool.false_ne_true ((not_isJobChar_of_isSpace space).symm.trans isJob)
  simp only [keyRow, List.append_assoc, List.cons_append]
  constructor
  · exact content_of_first word fun same => absurd isJob (by rw [same]; decide)
  · refine indentOf_spaces fun same => ?_
    rw [same] at word
    exact absurd word (by decide)

/-- The lowest row above that is spelled as the header of a job, below every row `jobs:`. -/
def OwnerAbove (above : List Row) (name : Row) : Prop :=
  ∃ earlier header between, above = earlier ++ header :: between ∧ IsJobHeader name header ∧
    ∀ row ∈ between, row ≠ "jobs:".toList ∧ ∀ other, ¬ IsJobHeader other row

/-- A row further down is the header, or leaves the owner as it is. -/
theorem ownerAbove_concat {above : List Row} {name row : Row} :
    OwnerAbove (above ++ [row]) name ↔ IsJobHeader name row ∨
      (row ≠ "jobs:".toList ∧ ∀ other, ¬ IsJobHeader other row) ∧ OwnerAbove above name := by
  constructor
  · rintro ⟨earlier, header, between, split, isHeader, others⟩
    rcases List.eq_nil_or_concat between with rfl | ⟨between, last, rfl⟩
    · obtain ⟨-, same⟩ := List.append_inj' split rfl
      exact Or.inl (List.singleton_inj.mp same ▸ isHeader)
    · rw [List.concat_eq_append] at split others
      rw [← List.cons_append, ← List.append_assoc] at split
      obtain ⟨rfl, same⟩ := List.append_inj' split rfl
      refine Or.inr ⟨?_, earlier, header, between, rfl, isHeader, fun other member => others other (by simp [member])⟩
      rw [List.singleton_inj.mp same]
      exact others last (by simp)
  · rintro (isHeader | ⟨skips, earlier, header, between, rfl, isHeader, others⟩)
    · exact ⟨above, row, [], rfl, isHeader, fun _ member => absurd member List.not_mem_nil⟩
    · refine ⟨earlier, header, between ++ [row], by simp, isHeader, fun other member => ?_⟩
      rcases List.mem_append.mp member with inside | last
      · exact others other inside
      · rw [List.mem_singleton.mp last]
        exact skips

/-- **The job above is the one whose header is read last.** -/
theorem jobAbove_iff {above : List Row} {name : String} :
    jobAbove above.reverse = some name ↔ OwnerAbove above name.toList := by
  induction above using List.reverseRecOn with
  | nil =>
    refine iff_of_false (by simp [jobAbove]) ?_
    rintro ⟨earlier, header, between, split, -⟩
    simp at split
  | append_singleton above row ih =>
    rw [List.reverse_append, List.reverse_singleton, List.singleton_append, jobAbove, ownerAbove_concat, ← ih,
      ← jobHeader_iff]
    by_cases isJobs : row = "jobs:".toList
    · rw [if_pos isJobs]
      have noHeader : jobHeader row ≠ some name := by
        rw [isJobs]
        simp [jobHeader]
      exact iff_of_false (by simp) (not_or.mpr ⟨noHeader, fun other => other.1.1 isJobs⟩)
    · rw [if_neg isJobs]
      cases header : jobHeader row with
      | none =>
        have noHeader : ∀ other, ¬ IsJobHeader other row := by
          intro other isHeader
          rw [← String.toList_ofList (l := other), ← jobHeader_iff, header] at isHeader
          cases isHeader
        rw [or_iff_right (by simp), and_iff_right ⟨isJobs, noHeader⟩]
      | some found =>
        exact (or_iff_left fun other => other.1.2 _ (jobHeader_iff.mp header)).symm

/-- **Which job a block in the fourth column is read for.** -/
theorem permissionJob_iff {lines above : List Row} {start : ℕ} {name : String} (isAbove : lines.take start = above) :
    permissionJob lines start 4 = some name ↔ OwnerAbove above name.toList := by
  rw [permissionJob, if_neg (not_not.mpr rfl), isAbove]
  exact jobAbove_iff

/-- One job owns what is below. -/
theorem OwnerAbove.unique {above : List Row} {name name' : Row} (owner : OwnerAbove above name)
    (owner' : OwnerAbove above name') : name = name' := by
  rw [← String.toList_ofList (l := name), ← jobAbove_iff] at owner
  rw [← String.toList_ofList (l := name'), ← jobAbove_iff, owner] at owner'
  exact String.ofList_inj.mp (Option.some.inj owner')

/-- **Below the header of a job**, deeper rows leave it the owner. -/
theorem ownerAbove_deep {earlier between : List Row} {header name : Row} (isHeader : IsJobHeader name header)
    (deep : ∀ row ∈ between, isSkipped row = false → 3 ≤ indentOf row) :
    OwnerAbove (earlier ++ header :: between) name := by
  refine ⟨earlier, header, between, rfl, isHeader, fun row member => ⟨?_, fun other isHeader' => ?_⟩⟩
  · rintro rfl
    have indented := deep _ member (by decide)
    revert indented
    decide
  · have indented := deep row member isHeader'.shallow.1
    rw [isHeader'.shallow.2] at indented
    omega

end McpAuth
