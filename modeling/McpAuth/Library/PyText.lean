/-
**Python text — `str` and `bytes` operations on lists of characters.**

A Python `str` is a `String` (a sequence of Unicode scalar values) and a Python `bytes` is a list of
`UInt8`. The functions carry the names of the `str` methods they compute:

* `split` / `strip` — whitespace splitting and stripping, with Python's own whitespace set;
* `contains`, `rstripChar`, `joinWith`, `splitOnChar` — substring test, right strip of one
  character, `sep.join(parts)` and `text.split(sep)`;
* `sorted` — `sorted(set(...))`, the ascending list of a finite set;
* `encodeAscii` / `decodeAscii` / `decodeUtf8` / `b64decodeChars` — the codecs, which fail with `none`
  where Python raises `UnicodeEncodeError`, `UnicodeDecodeError` or `binascii.Error`.

`splitOnChar_joinWith`: splitting a joined list gives the list back when no part holds the
separator; `mem_splitOnChar_upTo`: what a stop character leaves of it. `decodeAscii_encodeAscii`: the
ASCII codec loses nothing.
-/

import Mathlib.Data.List.DropRight
import Mathlib.Data.Finset.Sort
import Mathlib.Data.String.Basic

namespace PyText

/-! ### Characters of a list -/

-- what holds of the characters of a list is decided along the list, before any search over all characters
instance (priority := 2000) decidableForallMem {α : Type} (p : α → Prop) [DecidablePred p] (list : List α) :
    Decidable (∀ element ∈ list, p element) :=
  List.decidableBAll p list

instance (priority := 2000) decidableExistsMem {α : Type} (p : α → Prop) [DecidablePred p] (list : List α) :
    Decidable (∃ element ∈ list, p element) :=
  List.decidableBEx p list

instance (priority := 2000) decidableForallMemOption {α : Type} (p : α → Prop) [DecidablePred p] (option : Option α) :
    Decidable (∀ element ∈ option, p element) :=
  Option.decidableForallMem option

/-- A Python `bytes` value. -/
abbrev Bytes := List UInt8

/-! ### Whitespace -/

/-- `str.isspace` of one character. -/
def isSpace (char : Char) : Bool :=
  let code := char.toNat
  (0x09 ≤ code && code ≤ 0x0D) || (0x1C ≤ code && code ≤ 0x20) || code == 0x85 || code == 0xA0 ||
    code == 0x1680 || (0x2000 ≤ code && code ≤ 0x200A) || code == 0x2028 || code == 0x2029 ||
    code == 0x202F || code == 0x205F || code == 0x3000

/-- `text.split()`: the maximal runs of non-whitespace. -/
def split (text : String) : List String :=
  ((text.toList.splitOnP isSpace).filter (· ≠ [])).map String.ofList

/-- `text.strip()`. -/
def strip (text : String) : String :=
  String.ofList ((text.toList.dropWhile isSpace).rdropWhile isSpace)

/-- No word of `text.split()` is empty. -/
theorem ne_empty_of_mem_split {text word : String} (member : word ∈ split text) : word ≠ "" := by
  obtain ⟨chars, inside, rfl⟩ := List.mem_map.mp member
  have nonempty : chars ≠ [] := by simpa using (List.mem_filter.mp inside).2
  intro same
  exact nonempty (by simpa using congrArg String.toList same)

/-- Stripping does not reach behind what does not end in a stripped character. -/
theorem rdropWhile_append {p : Char → Bool} {last : Char} {first : List Char} (later : List Char)
    (ends : first.getLast? = some last) (other : p last = false) :
    (first ++ later).rdropWhile p = first ++ later.rdropWhile p := by
  have kept : first.reverse.dropWhile p = first.reverse := by
    rw [← List.head?_reverse] at ends
    obtain ⟨rest, reversed⟩ := List.head?_eq_some_iff.mp ends
    simp [reversed, other]
  rw [List.rdropWhile, List.rdropWhile, List.reverse_append, List.dropWhile_append]
  by_cases all : (later.reverse.dropWhile p).isEmpty = true
  · rw [if_pos all, kept, List.reverse_reverse, List.isEmpty_iff.mp all, List.reverse_nil, List.append_nil]
  · rw [if_neg all, List.reverse_append, List.reverse_reverse]

/-- **A run of characters at the start of a text** ends where one follows that is not of the run. -/
theorem takeWhile_run {p : Char → Bool} {run rest : List Char} (chars : ∀ char ∈ run, p char = true)
    (ends : ∀ char ∈ rest.head?, p char = false) :
    (run ++ rest).takeWhile p = run ∧ (run ++ rest).dropWhile p = rest := by
  have stops : rest.takeWhile p = [] ∧ rest.dropWhile p = rest := by
    cases rest with
    | nil => exact ⟨rfl, rfl⟩
    | cons first rest => simp [ends first rfl]
  rw [List.takeWhile_append_of_pos chars, List.dropWhile_append_of_pos chars, stops.1, stops.2, List.append_nil]
  exact ⟨rfl, rfl⟩

/-- A text is its run and what follows. -/
theorem exists_run (p : Char → Bool) (text : List Char) : ∃ run rest, text = run ++ rest ∧
    (∀ char ∈ run, p char = true) ∧ ∀ char ∈ rest.head?, p char = false := by
  refine ⟨text.takeWhile p, text.dropWhile p, List.takeWhile_append_dropWhile.symm,
    fun char member => List.mem_takeWhile_imp member, fun char isHead => ?_⟩
  have stops := List.head?_dropWhile_not p text
  rw [Option.mem_def.mp isHead] at stops
  exact stops

/-! ### Substrings, joining and splitting -/

/-- `part in text`. -/
def contains (part text : String) : Bool := decide (part.toList <:+: text.toList)

/-- `text.rstrip(char)` for one character. -/
def rstripChar (char : Char) (text : String) : String :=
  String.ofList (text.toList.rdropWhile (· == char))

/-- `separator.join(parts)`. -/
def joinWith (separator : Char) (parts : List String) : String :=
  String.ofList ([separator].intercalate (parts.map String.toList))

/-- `text.split(separator)` for a one-character separator: empty parts are kept. -/
def splitOnChar (separator : Char) (text : String) : List String :=
  (text.toList.splitOn separator).map String.ofList

/-- **Splitting undoes joining** when no part holds the separator. -/
theorem splitOnChar_joinWith (separator : Char) (parts : List String) (nonempty : parts ≠ [])
    (free : ∀ part ∈ parts, separator ∉ part.toList) :
    splitOnChar separator (joinWith separator parts) = parts := by
  have charFree : ∀ chars ∈ parts.map String.toList, separator ∉ chars := by
    intro chars member
    obtain ⟨part, inside, rfl⟩ := List.mem_map.mp member
    exact free part inside
  have charsNonempty : parts.map String.toList ≠ [] := by simpa using nonempty
  rw [splitOnChar, joinWith, String.toList_ofList,
    List.splitOn_intercalate separator charFree charsNonempty, List.map_map]
  simp [Function.comp_def]

theorem splitOnChar_ne_nil (separator : Char) (text : String) : splitOnChar separator text ≠ [] := by
  unfold splitOnChar
  exact fun none => List.splitOn_ne_nil _ _ (List.map_eq_nil_iff.mp none)

/-- **Joining undoes splitting.** -/
theorem joinWith_splitOnChar (separator : Char) (text : String) : joinWith separator (splitOnChar separator text) = text := by
  have identity : String.toList ∘ String.ofList = id := by
    funext chars
    exact String.toList_ofList
  rw [joinWith, splitOnChar, List.map_map, identity, List.map_id, List.intercalate_splitOn, String.ofList_toList]

/-- `text.startswith(start)`. -/
def startsWithText (start text : String) : Bool := start.toList.isPrefixOf text.toList

theorem intercalate_cons_cons (separator : Char) (head next : List Char) (rest : List (List Char)) :
    [separator].intercalate (head :: next :: rest) =
      head ++ separator :: [separator].intercalate (next :: rest) := by
  simp [List.intercalate]

/-- A character of a joined text is the separator or a character of a part. -/
theorem mem_intercalate {separator char : Char} {parts : List (List Char)}
    (member : char ∈ [separator].intercalate parts) :
    char = separator ∨ ∃ part ∈ parts, char ∈ part := by
  induction parts with
  | nil => simp [List.intercalate] at member
  | cons head tail ih =>
    cases tail with
    | nil => exact Or.inr ⟨head, by simp, by simpa [List.intercalate] using member⟩
    | cons next rest =>
      rw [intercalate_cons_cons, List.mem_append, List.mem_cons] at member
      rcases member with inHead | isSeparator | inRest
      · exact Or.inr ⟨head, by simp, inHead⟩
      · exact Or.inl isSeparator
      · rcases ih inRest with isSeparator | ⟨part, inside, here⟩
        · exact Or.inl isSeparator
        · exact Or.inr ⟨part, List.mem_cons_of_mem _ inside, here⟩

/-- Every character of a part is in the joined text. -/
theorem mem_intercalate_of_mem {separator char : Char} {parts : List (List Char)} {part : List Char}
    (member : part ∈ parts) (inside : char ∈ part) : char ∈ [separator].intercalate parts := by
  induction parts with
  | nil => cases member
  | cons head tail ih =>
    cases tail with
    | nil =>
      rw [List.mem_singleton] at member
      subst member
      simpa [List.intercalate] using inside
    | cons next rest =>
      rw [intercalate_cons_cons, List.mem_append, List.mem_cons]
      rcases List.mem_cons.mp member with rfl | later
      · exact Or.inl inside
      · exact Or.inr (Or.inr (ih later))

/-- The text before the first occurrence of a character. -/
def upTo (stop : Char) (text : String) : String := String.ofList (text.toList.takeWhile (· ≠ stop))

theorem upTo_of_notMem {stop : Char} {text : String} (absent : stop ∉ text.toList) : upTo stop text = text := by
  have plain : ∀ char ∈ text.toList, decide (char ≠ stop) = true := fun char member =>
    decide_eq_true fun same => absent (same ▸ member)
  rw [upTo, List.takeWhile_eq_self_iff.mpr plain, String.ofList_toList]

/-- A split of a text at a separator splits both sides. -/
theorem splitOnChar_append (separator : Char) (first second : List Char) :
    splitOnChar separator (String.ofList (first ++ separator :: second)) =
      splitOnChar separator (String.ofList first) ++ splitOnChar separator (String.ofList second) := by
  simp only [splitOnChar, String.toList_ofList]
  rw [List.splitOn_append_cons_self, List.map_append]

/-- **The words of a joined text before a stop character** are those of the first parts, up to the one that holds
the character. -/
theorem mem_splitOnChar_upTo {separator stop : Char} (other : separator ≠ stop) {parts : List String}
    (nonempty : parts ≠ []) {word : String} :
    word ∈ splitOnChar separator (upTo stop (joinWith separator parts)) ↔ ∃ before part after,
      parts = before ++ part :: after ∧ (∀ earlier ∈ before, stop ∉ earlier.toList) ∧
        word ∈ splitOnChar separator (upTo stop part) := by
  induction parts with
  | nil => exact absurd rfl nonempty
  | cons part later ih =>
    cases later with
    | nil =>
      have whole : joinWith separator [part] = part := by simp [joinWith, List.intercalate]
      rw [whole]
      constructor
      · exact fun member => ⟨[], part, [], rfl, fun _ none => absurd none List.not_mem_nil, member⟩
      · rintro ⟨before, other, after, split, -, member⟩
        cases before with
        | nil => exact (List.cons.inj split).1 ▸ member
        | cons first rest => simp at split
    | cons next rest =>
      have joined : (joinWith separator (part :: next :: rest)).toList =
          part.toList ++ separator :: (joinWith separator (next :: rest)).toList := by
        simp only [joinWith, String.toList_ofList, List.map_cons, intercalate_cons_cons]
      have later := ih (List.cons_ne_nil _ _)
      by_cases stops : stop ∈ part.toList
      · -- the first part ends the text
        have cut : upTo stop (joinWith separator (part :: next :: rest)) = upTo stop part := by
          obtain ⟨first, second, shape⟩ := List.append_of_mem stops
          unfold upTo
          rw [joined]
          congr 1
          rw [List.takeWhile_append, if_neg]
          intro all
          have kept := List.takeWhile_eq_self_iff.mp
            ((List.takeWhile_prefix (· ≠ stop)).eq_of_length all) stop stops
          simp at kept
        rw [cut]
        constructor
        · exact fun member => ⟨[], part, _, rfl, fun _ none => absurd none List.not_mem_nil, member⟩
        · rintro ⟨before, other, after, split, free, member⟩
          cases before with
          | nil => exact (List.cons.inj split).1 ▸ member
          | cons first others =>
            obtain ⟨rfl, -⟩ := List.cons.inj split
            exact absurd stops (free part List.mem_cons_self)
      · have plain : ∀ char ∈ part.toList, decide (char ≠ stop) = true := fun char member =>
          decide_eq_true fun same => stops (same ▸ member)
        have kept := upTo_of_notMem stops
        have cut : upTo stop (joinWith separator (part :: next :: rest)) =
            String.ofList (part.toList ++ separator :: (upTo stop (joinWith separator (next :: rest))).toList) := by
          rw [upTo, joined, List.takeWhile_append_of_pos plain, List.takeWhile_cons_of_pos (by simpa using other),
            upTo, String.toList_ofList]
        rw [cut, splitOnChar_append, List.mem_append, String.ofList_toList, String.ofList_toList, later]
        constructor
        · rintro (here | ⟨before, found, after, split, free, member⟩)
          · exact ⟨[], part, _, rfl, fun _ none => absurd none List.not_mem_nil, kept.symm ▸ here⟩
          · refine ⟨part :: before, found, after, by rw [split, List.cons_append], ?_, member⟩
            exact List.forall_mem_cons.mpr ⟨stops, free⟩
        · rintro ⟨before, found, after, split, free, member⟩
          cases before with
          | nil =>
            obtain ⟨rfl, -⟩ := List.cons.inj split
            exact Or.inl (kept ▸ member)
          | cons first others =>
            exact Or.inr ⟨others, found, after, (List.cons.inj split).2,
              fun earlier isEarlier => free earlier (List.mem_cons_of_mem _ isEarlier), member⟩

/-! ### Sets of strings -/

/-- `sorted(values)` of a set of strings: ascending by code point. -/
def sorted (values : Finset String) : List String := values.sort (· ≤ ·)

@[simp] theorem mem_sorted {value : String} {values : Finset String} :
    value ∈ sorted values ↔ value ∈ values :=
  Finset.mem_sort _

@[simp] theorem sorted_toFinset (values : Finset String) : (sorted values).toFinset = values :=
  Finset.sort_toFinset _ _

@[simp] theorem sorted_empty : sorted ∅ = [] := Finset.sort_empty _

@[simp] theorem sorted_singleton (value : String) : sorted {value} = [value] :=
  Finset.sort_singleton _ _

theorem sorted_eq_nil_iff {values : Finset String} : sorted values = [] ↔ values = ∅ := by
  constructor
  · intro empty
    rw [← sorted_toFinset values, empty, List.toFinset_nil]
  · rintro rfl
    exact sorted_empty

/-- Two sorted sets with the same members are the same list. -/
theorem sorted_congr {first second : Finset String}
    (same : ∀ value, value ∈ sorted first ↔ value ∈ sorted second) : sorted first = sorted second := by
  congr 1
  ext value
  rw [← mem_sorted, same, mem_sorted]

/-- What stands before a value in the sorted list of a set are its smaller values. -/
theorem exists_sorted_split {values : Finset String} {p q : String → Prop} :
    (∃ before value after, sorted values = before ++ value :: after ∧ (∀ earlier ∈ before, p earlier) ∧ q value) ↔
      ∃ value ∈ values, (∀ earlier ∈ values, earlier < value → p earlier) ∧ q value := by
  have ascending : (sorted values).Pairwise (· < ·) := (Finset.sortedLT_sort values).pairwise
  constructor
  · rintro ⟨before, value, after, split, holds, here⟩
    refine ⟨value, mem_sorted.mp (by simp [split]), fun earlier member smaller => ?_, here⟩
    have inside := mem_sorted.mpr member
    rw [split] at inside ascending
    rcases List.mem_append.mp inside with isBefore | isAfter
    · exact holds earlier isBefore
    · rcases List.mem_cons.mp isAfter with rfl | isAfter
      · exact absurd smaller (lt_irrefl _)
      · have larger := (List.pairwise_cons.mp (List.pairwise_append.mp ascending).2.1).1 earlier isAfter
        exact absurd smaller (not_lt.mpr larger.le)
  · rintro ⟨value, member, holds, here⟩
    obtain ⟨before, after, split⟩ := List.append_of_mem (mem_sorted.mpr member)
    rw [split] at ascending
    refine ⟨before, value, after, split, fun earlier isBefore => ?_, here⟩
    exact holds earlier (mem_sorted.mp (by simp [split, isBefore]))
      ((List.pairwise_append.mp ascending).2.2 earlier isBefore value List.mem_cons_self)

/-! ### Codecs -/

/-- The code point fits in seven bits. -/
def isAscii (char : Char) : Bool := char.toNat < 128

/-- `text.encode("ascii")`, `none` where Python raises `UnicodeEncodeError`. -/
def encodeAscii (text : String) : Option Bytes :=
  if text.toList.all isAscii then some (text.toList.map fun char => UInt8.ofNat char.toNat) else none

/-- `raw.decode("ascii")`, `none` where Python raises `UnicodeDecodeError`. -/
def decodeAscii (raw : Bytes) : Option String :=
  if raw.all (· < 128) then some (String.ofList (raw.map fun byte => Char.ofNat byte.toNat))
  else none

/-- `raw.decode("utf-8")`, `none` where Python raises `UnicodeDecodeError`. -/
def decodeUtf8 (raw : Bytes) : Option String := String.fromUTF8? ⟨raw.toArray⟩

/-- The bytes literal `b"text"` of an ASCII text. -/
def asciiBytes (text : String) : Bytes := text.toList.map fun char => UInt8.ofNat char.toNat

/-- `raw.lower()`. -/
def lowerBytes (raw : Bytes) : Bytes :=
  raw.map fun byte => if 0x41 ≤ byte ∧ byte ≤ 0x5A then byte + 0x20 else byte

/-- Every character of the text is ASCII. -/
def IsAsciiText (text : String) : Prop := ∀ char ∈ text.toList, isAscii char = true

instance (text : String) : Decidable (IsAsciiText text) :=
  List.decidableBAll (fun char => isAscii char = true) text.toList

theorem isAsciiText_append {first second : String} :
    IsAsciiText (first ++ second) ↔ IsAsciiText first ∧ IsAsciiText second := by
  simp [IsAsciiText, or_imp, forall_and]

/-- A joined text is ASCII exactly when its parts are. -/
theorem isAsciiText_joinWith {separator : Char} (plain : isAscii separator = true)
    {parts : List String} :
    IsAsciiText (joinWith separator parts) ↔ ∀ part ∈ parts, IsAsciiText part := by
  constructor
  · intro ascii part member char inside
    refine ascii char ?_
    rw [joinWith, String.toList_ofList]
    exact mem_intercalate_of_mem (List.mem_map.mpr ⟨part, member, rfl⟩) inside
  · intro each char inside
    rw [joinWith, String.toList_ofList] at inside
    rcases mem_intercalate inside with rfl | ⟨chars, member, here⟩
    · exact plain
    · obtain ⟨part, isPart, rfl⟩ := List.mem_map.mp member
      exact each part isPart char here

theorem encodeAscii_isSome_iff {text : String} :
    (encodeAscii text).isSome ↔ IsAsciiText text := by
  unfold encodeAscii IsAsciiText
  by_cases ascii : text.toList.all isAscii = true
  · rw [if_pos ascii]
    simpa using List.all_eq_true.mp ascii
  · rw [if_neg ascii]
    simpa [List.all_eq_true] using ascii

theorem encodeAscii_eq_some {text : String} {raw : Bytes} :
    encodeAscii text = some raw ↔ IsAsciiText text ∧ raw = asciiBytes text := by
  have isAll : text.toList.all isAscii = true ↔ IsAsciiText text := List.all_eq_true
  rw [encodeAscii]
  split
  · rename_i ascii
    rw [Option.some.injEq, eq_comm, asciiBytes, and_iff_right (isAll.mp ascii)]
  · rename_i notAscii
    exact iff_of_false (fun none => nomatch none) fun encodes => notAscii (isAll.mpr encodes.1)

theorem toNat_ofNat_ascii {char : Char} (ascii : isAscii char = true) :
    (UInt8.ofNat char.toNat).toNat = char.toNat := by
  have small : char.toNat < 128 := by simpa [isAscii] using ascii
  rw [UInt8.toNat_ofNat']
  exact Nat.mod_eq_of_lt (by omega)

/-- **The ASCII codec loses nothing.** -/
theorem decodeAscii_encodeAscii {text : String} {raw : Bytes} (encoded : encodeAscii text = some raw) :
    decodeAscii raw = some text := by
  unfold encodeAscii at encoded
  by_cases ascii : text.toList.all isAscii = true
  · rw [if_pos ascii, Option.some.injEq] at encoded
    subst encoded
    have each : ∀ char ∈ text.toList, isAscii char = true := List.all_eq_true.mp ascii
    have small : (text.toList.map fun char => UInt8.ofNat char.toNat).all (· < 128) = true := by
      rw [List.all_map, List.all_eq_true]
      intro char member
      have bound : char.toNat < 128 := by simpa [isAscii] using each char member
      simpa [UInt8.lt_iff_toNat_lt, toNat_ofNat_ascii (each char member)] using bound
    have identity : text.toList.map ((fun byte : UInt8 => Char.ofNat byte.toNat) ∘
        fun char => UInt8.ofNat char.toNat) = text.toList := by
      conv_rhs => rw [← List.map_id text.toList]
      refine List.map_congr_left fun char member => ?_
      show Char.ofNat (UInt8.ofNat char.toNat).toNat = id char
      rw [toNat_ofNat_ascii (each char member), Char.ofNat_toNat, id]
    unfold decodeAscii
    rw [if_pos small, List.map_map, identity, String.ofList_toList]
  · rw [if_neg ascii] at encoded
    cases encoded

theorem toNat_ofNat_small : ∀ code < 128, (Char.ofNat code).toNat = code := by decide

/-- What is decoded is encoded to the same bytes. -/
theorem encodeAscii_decodeAscii {raw : Bytes} {text : String} (decoded : decodeAscii raw = some text) :
    encodeAscii text = some raw := by
  unfold decodeAscii at decoded
  by_cases small : raw.all (· < 128) = true
  · rw [if_pos small, Option.some.injEq] at decoded
    subst decoded
    have each : ∀ byte ∈ raw, (Char.ofNat byte.toNat).toNat = byte.toNat ∧ byte.toNat < 128 := by
      intro byte member
      have bound : byte.toNat < 128 := by
        simpa [UInt8.lt_iff_toNat_lt] using List.all_eq_true.mp small byte member
      exact ⟨toNat_ofNat_small _ bound, bound⟩
    have ascii : (raw.map fun byte => Char.ofNat byte.toNat).all isAscii = true := by
      rw [List.all_map, List.all_eq_true]
      intro byte member
      simpa [isAscii, (each byte member).1] using (each byte member).2
    have identity : raw.map ((fun char : Char => UInt8.ofNat char.toNat) ∘ fun byte => Char.ofNat byte.toNat) = raw := by
      conv_rhs => rw [← List.map_id raw]
      refine List.map_congr_left fun byte member => ?_
      show UInt8.ofNat (Char.ofNat byte.toNat).toNat = id byte
      rw [(each byte member).1, UInt8.ofNat_toNat, id]
    rw [encodeAscii, String.toList_ofList, if_pos ascii, List.map_map, identity]
  · rw [if_neg small] at decoded
    cases decoded
/-! ### Texts outside ASCII -/

/-- The Unicode character database behind `str.lower`, `unicodedata.normalize("NFKC", _)`, the `idna`
codec and `unicodedata.decimal`, as they act on texts and characters outside ASCII. -/
class UnicodeTables where
  lower : String → String
  nfkc : String → String
  toAscii : String → Option String
  decimal : Char → Option Nat

/-- Tables that act as the real ones do on ASCII. -/
abbrev asciiTables : UnicodeTables := ⟨id, id, fun _ => none, fun _ => none⟩

def asciiLowerChar (char : Char) : Char :=
  if 'A' ≤ char ∧ char ≤ 'Z' then Char.ofNat (char.toNat + 32) else char

/-- `text.lower()` of an ASCII text. -/
def asciiLower (text : String) : String := String.ofList (text.toList.map asciiLowerChar)

/-- `text.lower()`. -/
def lower [UnicodeTables] (text : String) : String :=
  if IsAsciiText text then asciiLower text else UnicodeTables.lower text

/-! ### Base64 -/

/-- The value of one base64 digit. -/
def base64Digit (char : Char) : Option Nat :=
  if 'A' ≤ char ∧ char ≤ 'Z' then some (char.toNat - 'A'.toNat)
  else if 'a' ≤ char ∧ char ≤ 'z' then some (char.toNat - 'a'.toNat + 26)
  else if '0' ≤ char ∧ char ≤ '9' then some (char.toNat - '0'.toNat + 52)
  else if char = '+' then some 62
  else if char = '/' then some 63
  else none

/-- `base64.b64decode(text, validate=True)`: four digits give three bytes, and only the last group
may be padded. `none` where Python raises `binascii.Error`. -/
def b64decodeChars : List Char → Option Bytes
  | [] => some []
  | [first, second, '=', '='] => do
    let a ← base64Digit first
    let b ← base64Digit second
    some [UInt8.ofNat (a * 4 + b / 16)]
  | [first, second, third, '='] => do
    let a ← base64Digit first
    let b ← base64Digit second
    let c ← base64Digit third
    some [UInt8.ofNat (a * 4 + b / 16), UInt8.ofNat (b % 16 * 16 + c / 4)]
  | first :: second :: third :: fourth :: rest => do
    let a ← base64Digit first
    let b ← base64Digit second
    let c ← base64Digit third
    let d ← base64Digit fourth
    let tail ← b64decodeChars rest
    some (UInt8.ofNat (a * 4 + b / 16) :: UInt8.ofNat (b % 16 * 16 + c / 4) ::
      UInt8.ofNat (c % 4 * 64 + d) :: tail)
  | _ => none

end PyText
