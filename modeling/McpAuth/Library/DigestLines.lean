/-
**Checksum files — a line for each file: its digest, two spaces and its name.**

`fileText` writes the entries of a checksum file, `readFile` reads them from a text that was opened with universal
newlines.

* `Lists` — the lines of a text are those of the entries, and no name is there twice; `readFile_ok_iff` says that these
  entries are read, and `Lists.isFileName` which names they can have;
* `lists_fileText` — **what is written is read back**, where no name has a slash, a backslash or a line boundary.
-/

import McpAuth.Library.DistinctFold
import McpAuth.Library.Sha256
import McpAuth.Library.TextRows

namespace DigestLines

open DistinctFold Fallible PyText Sha256 TextRows

/-! ### Entries -/

/-- `[^/\\]+`, on one line. -/
def isPlainName (name : Row) : Bool := !name.isEmpty && name.all fun char => char != '/' && char != '\\'

/-- A name that can stand in a checksum file. -/
def IsFileName (name : String) : Prop :=
  isPlainName name.toList = true ∧ ∀ char ∈ name.toList, isLineBreak char = false

instance (name : String) : Decidable (IsFileName name) :=
  inferInstanceAs (Decidable (_ ∧ ∀ char ∈ name.toList, isLineBreak char = false))

/-- The line of a name and its digest. -/
def entryLine (entry : String × String) : Row := entry.2.toList ++ ' ' :: ' ' :: entry.1.toList

/-- The text of a checksum file. -/
def fileText (entries : List (String × String)) : String :=
  String.ofList (entries.flatMap fun entry => entryLine entry ++ ['\n'])

theorem isAscii_of_isHexDigit {char : Char} (digit : isHexDigit char = true) : isAscii char = true := by
  simp only [isHexDigit, Bool.or_eq_true, Bool.and_eq_true, decide_eq_true_eq, Char.le_def,
    UInt32.le_iff_toNat_le] at digit
  change (48 ≤ char.toNat ∧ char.toNat ≤ 57) ∨ (97 ≤ char.toNat ∧ char.toNat ≤ 102) at digit
  simp only [isAscii, decide_eq_true_eq]
  omega

/-- A checksum file is ASCII exactly when its names are. -/
theorem isAsciiText_fileText {entries : List (String × String)}
    (digests : ∀ entry ∈ entries, isDigest entry.2.toList = true) :
    IsAsciiText (fileText entries) ↔ ∀ entry ∈ entries, IsAsciiText entry.1 := by
  have digits : ∀ entry ∈ entries, ∀ char ∈ entry.2.toList, isAscii char = true := by
    intro entry member char inside
    have all := (Bool.and_eq_true _ _).mp (digests entry member)
    exact isAscii_of_isHexDigit (List.all_eq_true.mp all.2 char inside)
  simp only [IsAsciiText, fileText, String.toList_ofList, List.mem_flatMap, entryLine]
  constructor
  · intro ascii entry member char inside
    exact ascii char ⟨entry, member, by simp [inside]⟩
  · rintro ascii char ⟨entry, member, inside⟩
    simp only [List.mem_append, List.mem_cons, List.not_mem_nil, or_false] at inside
    rcases inside with (digit | rfl | rfl | here) | rfl
    · exact digits entry member char digit
    · decide
    · decide
    · exact ascii entry member char here
    · decide

/-- `^(?P<digest>[0-9a-f]{64})  (?P<name>[^/\\]+)$`. -/
def readEntry (line : Row) : Option (String × String) :=
  match line.drop 64 with
  | ' ' :: ' ' :: name =>
    if isDigest (line.take 64) && isPlainName name then some (String.ofList name, String.ofList (line.take 64)) else none
  | _ => none

theorem readEntry_eq_some {line : Row} {entry : String × String} :
    readEntry line = some entry ↔
      line = entryLine entry ∧ isDigest entry.2.toList = true ∧ isPlainName entry.1.toList = true := by
  obtain ⟨name, digest⟩ := entry
  constructor
  · intro reads
    unfold readEntry at reads
    split at reads
    · rename_i rest shape
      split at reads
      · rename_i valid
        rw [Bool.and_eq_true] at valid
        simp only [Option.some.injEq, Prod.mk.injEq] at reads
        obtain ⟨rfl, rfl⟩ := reads
        rw [entryLine, String.toList_ofList, String.toList_ofList, ← shape, List.take_append_drop]
        exact ⟨rfl, valid⟩
      · cases reads
    · cases reads
  · rintro ⟨rfl, isDigest, plain⟩
    have long : digest.toList.length = 64 := by
      rw [Sha256.isDigest, Bool.and_eq_true, beq_iff_eq] at isDigest
      exact isDigest.1
    have start : (entryLine (name, digest)).take 64 = digest.toList := by
      rw [entryLine, ← long, List.take_left]
    have rest : (entryLine (name, digest)).drop 64 = ' ' :: ' ' :: name.toList := by
      rw [entryLine, ← long, List.drop_left]
    rw [readEntry, rest, start]
    simp [isDigest, plain]

/-! ### Files -/

section Files

variable {ε : Type} {malformed : ε}

/-- One turn of the loop over the lines. -/
def readStep (malformed : ε) (parsed : List (String × String)) (line : Row) : Except ε (List (String × String)) := do
  let entry ← required malformed (readEntry line)
  check malformed !(parsed.map Prod.fst).contains entry.1
  .ok (parsed ++ [entry])

/-- The entries of a checksum file in the order of its lines. -/
def readFile (malformed : ε) (text : List Char) : Except ε (List (String × String)) :=
  (splitLines (universalNewlines text)).foldlM (readStep malformed) []

/-- The entry of a line that has one. -/
def entryOf (line : Row) : String × String := (readEntry line).getD ("", "")

theorem readStep_distinct :
    DistinctStep (readStep malformed) (fun line => (entryOf line).1) (fun parsed => (parsed.map Prod.fst).toFinset)
      (fun line => (readEntry line).isSome) fun parsed line => parsed ++ [entryOf line] where
  accepts parsed line next := by
    have isNew : (!(parsed.map Prod.fst).contains (entryOf line).1) = true ↔
        (entryOf line).1 ∉ (parsed.map Prod.fst).toFinset := by
      rw [Bool.not_eq_true', List.contains_eq_mem, decide_eq_false_iff_not, List.mem_toFinset]
    rw [← isNew]
    simp only [readStep, bind_eq_ok, required_eq_ok, check_eq_ok, exists_const, Except.ok.injEq, entryOf]
    constructor
    · rintro ⟨entry, found, fresh, rfl⟩
      rw [found]
      exact ⟨rfl, fresh, rfl⟩
    · rintro ⟨isEntry, fresh, rfl⟩
      obtain ⟨entry, found⟩ := Option.isSome_iff_exists.mp isEntry
      rw [found] at fresh ⊢
      exact ⟨entry, rfl, fresh, rfl⟩
  sees parsed line := by
    ext name
    simp

theorem foldl_append_singleton {α β : Type} (f : α → β) (values : List α) (start : List β) :
    values.foldl (fun done value => done ++ [f value]) start = start ++ values.map f := by
  induction values generalizing start with
  | nil => exact (List.append_nil start).symm
  | cons first later ih => rw [List.foldl_cons, ih, List.map_cons, List.append_assoc, List.singleton_append]

/-- **A text of entries with different names.** -/
structure Lists (text : List Char) (entries : List (String × String)) : Prop where
  lines : splitLines (universalNewlines text) = entries.map entryLine
  distinct : (entries.map Prod.fst).Nodup
  valid : ∀ entry ∈ entries, isDigest entry.2.toList = true ∧ isPlainName entry.1.toList = true

theorem lists_iff {text : List Char} {entries : List (String × String)} :
    Lists text entries ↔ splitLines (universalNewlines text) = entries.map entryLine ∧ (entries.map Prod.fst).Nodup ∧
      ∀ entry ∈ entries, isDigest entry.2.toList = true ∧ isPlainName entry.1.toList = true :=
  ⟨fun lists => ⟨lists.lines, lists.distinct, lists.valid⟩, fun ⟨lines, distinct, valid⟩ => ⟨lines, distinct, valid⟩⟩

theorem readFile_ok_iff {text : List Char} {parsed : List (String × String)} :
    readFile malformed text = .ok parsed ↔ Lists text parsed := by
  have reads : ∀ {line entry}, readEntry line = some entry → entryOf line = entry := fun isEntry => by
    rw [entryOf, isEntry, Option.getD_some]
  rw [readFile, foldlM_ok_iff readStep_distinct, foldl_append_singleton, List.nil_append, lists_iff]
  generalize splitLines (universalNewlines text) = lines
  have names : lines.map (fun line => (entryOf line).1) = (lines.map entryOf).map Prod.fst := by
    rw [List.map_map]
    rfl
  rw [names]
  constructor
  · rintro ⟨isEntry, distinct, -, rfl⟩
    refine ⟨?_, distinct, ?_⟩
    · rw [List.map_map]
      conv_lhs => rw [← List.map_id lines]
      refine List.map_congr_left fun line member => ?_
      obtain ⟨entry, found⟩ := Option.isSome_iff_exists.mp (isEntry line member)
      show line = entryLine (entryOf line)
      rw [reads found]
      exact (readEntry_eq_some.mp found).1
    · intro entry member
      obtain ⟨line, isLine, rfl⟩ := List.mem_map.mp member
      obtain ⟨entry, found⟩ := Option.isSome_iff_exists.mp (isEntry line isLine)
      rw [reads found]
      exact (readEntry_eq_some.mp found).2
  · rintro ⟨rfl, distinct, valid⟩
    have found : ∀ entry ∈ parsed, readEntry (entryLine entry) = some entry := fun entry member =>
      readEntry_eq_some.mpr ⟨rfl, valid entry member⟩
    have same : (parsed.map entryLine).map entryOf = parsed := by
      rw [List.map_map]
      conv_rhs => rw [← List.map_id parsed]
      exact List.map_congr_left fun entry member => reads (found entry member)
    rw [same]
    refine ⟨?_, distinct, by simp, rfl⟩
    intro line member
    obtain ⟨entry, inside, rfl⟩ := List.mem_map.mp member
    rw [found entry inside]
    rfl

/-- Only names that can stand in a checksum file are listed in one. -/
theorem Lists.isFileName {text : List Char} {entries : List (String × String)} (lists : Lists text entries)
    {entry : String × String} (member : entry ∈ entries) : IsFileName entry.1 := by
  refine ⟨(lists.valid entry member).2, fun char inside => ?_⟩
  have isLine : entryLine entry ∈ splitLinesFrom [] (universalNewlines text) := by
    show entryLine entry ∈ splitLines (universalNewlines text)
    rw [lists.lines]
    exact List.mem_map.mpr ⟨entry, member, rfl⟩
  exact plain_of_mem_splitLinesFrom (by simp) isLine char (by simp [entryLine, inside])

/-- The names in an ASCII text are ASCII. -/
theorem Lists.isAsciiText {text : String} {entries : List (String × String)} (lists : Lists text.toList entries)
    (ascii : IsAsciiText text) {entry : String × String} (member : entry ∈ entries) : IsAsciiText entry.1 := by
  intro char inside
  have isLine : entryLine entry ∈ splitLinesFrom [] (universalNewlines text.toList) := by
    show entryLine entry ∈ splitLines (universalNewlines text.toList)
    rw [lists.lines]
    exact List.mem_map.mpr ⟨entry, member, rfl⟩
  have isChar := (mem_of_mem_splitLinesFrom isLine (show char ∈ entryLine entry by simp [entryLine, inside])).resolve_left
    (by simp)
  rcases mem_universalNewlines isChar with isText | rfl
  · exact ascii char isText
  · decide

theorem isLineBreak_of_isHexDigit {char : Char} (digit : isHexDigit char = true) : isLineBreak char = false := by
  have code : 0x30 ≤ char.toNat ∧ char.toNat ≤ 0x66 := by
    simp only [isHexDigit, Bool.or_eq_true, Bool.and_eq_true, decide_eq_true_eq, Char.le_def] at digit
    simp only [UInt32.le_iff_toNat_le] at digit
    change (48 ≤ char.toNat ∧ char.toNat ≤ 57) ∨ (97 ≤ char.toNat ∧ char.toNat ≤ 102) at digit
    omega
  simp only [isLineBreak, Bool.or_eq_false_iff, Bool.and_eq_false_iff, decide_eq_false_iff_not, beq_eq_false_iff_ne]
  omega

/-- **What is written is read back.** -/
theorem lists_fileText {entries : List (String × String)} (distinct : (entries.map Prod.fst).Nodup)
    (digests : ∀ entry ∈ entries, isDigest entry.2.toList = true) (names : ∀ entry ∈ entries, IsFileName entry.1) :
    Lists (fileText entries).toList entries := by
  have plain : ∀ entry ∈ entries, ∀ char ∈ entryLine entry, isLineBreak char = false := by
    intro entry member char inside
    rw [entryLine, List.mem_append, List.mem_cons, List.mem_cons] at inside
    rcases inside with digit | rfl | rfl | here
    · have all := (Bool.and_eq_true _ _).mp (digests entry member)
      exact isLineBreak_of_isHexDigit (List.all_eq_true.mp all.2 char digit)
    · decide
    · decide
    · exact (names entry member).2 char here
  have text : (fileText entries).toList = joinRows (entries.map entryLine ++ [[]]) := by
    rw [joinRows_append_nil, fileText, String.toList_ofList, List.flatMap_map]
  have noReturn : '\r' ∉ (fileText entries).toList := by
    rw [fileText, String.toList_ofList, List.mem_flatMap]
    rintro ⟨entry, member, inside⟩
    rcases List.mem_append.mp inside with here | here
    · exact absurd (plain entry member _ here) (by decide)
    · cases List.mem_singleton.mp here
  refine ⟨?_, distinct, fun entry member => ⟨digests entry member, (names entry member).1⟩⟩
  rw [universalNewlines_of_notMem noReturn, text, splitLines_joinRows _ (by simp), if_pos rfl]
  intro row member
  obtain ⟨entry, inside, rfl⟩ := List.mem_map.mp member
  exact plain entry inside

end Files

end DigestLines
