/-
**Python numerals — `int(text, base)` and `uuid.UUID`.**

* `hexDigit`, `digitsValue` — digits and what they denote;
* `parseInt` — `int(text, base)`, `none` where it raises `ValueError`: surrounding whitespace, a sign, a
  base prefix and single underscores between digits are read;
* `uuidText` — `str(UUID(text))`, `none` where it raises `ValueError`.

`mem_uuidText`: the text of a UUID consists of hexadecimal digits and hyphens.
-/

import Mathlib.Algebra.Group.Int.Defs
import McpAuth.Library.PyText

namespace PyNumbers

open PyText

/-! ### Digits -/

def isDigit (char : Char) : Bool := '0' ≤ char && char ≤ '9'

/-- The value of a hexadecimal digit. -/
def hexDigit (char : Char) : Option Nat :=
  if isDigit char then some (char.toNat - '0'.toNat)
  else if 'a' ≤ char ∧ char ≤ 'f' then some (char.toNat - 'a'.toNat + 10)
  else if 'A' ≤ char ∧ char ≤ 'F' then some (char.toNat - 'A'.toNat + 10)
  else none

/-- The value of a digit of the given base, at most 16. -/
def digitOf (base : Nat) (char : Char) : Option Nat := (hexDigit char).filter (· < base)

/-- The value of digits in a base, most significant first. -/
def digitsValue (base : Nat) (digits : List Nat) : Nat :=
  digits.foldl (fun value digit => value * base + digit) 0

/-! ### `int(text, base)` -/

/-- The whitespace that `int` skips in an ASCII buffer. -/
def isAsciiSpace (char : Char) : Bool := (0x09 ≤ char.toNat && char.toNat ≤ 0x0D) || char == ' '

/-- `_PyUnicode_TransformDecimalAndSpaceToASCII`. -/
def numeralBuffer [UnicodeTables] (text : List Char) : List Char :=
  if text.all isAscii then text
  else text.map fun char =>
    if isAscii char then char
    else if isSpace char then ' '
    else match UnicodeTables.decimal char with
      | some digit => Char.ofNat ('0'.toNat + digit)
      | none => '?'

/-- Digits with single underscores between them. -/
def parseDigits (base : Nat) : List Char → Option (List Nat)
  | [] => none
  | [char] => (digitOf base char).map fun digit => [digit]
  | char :: '_' :: rest => do
    let digit ← digitOf base char
    let digits ← parseDigits base rest
    some (digit :: digits)
  | char :: rest => do
    let digit ← digitOf base char
    let digits ← parseDigits base rest
    some (digit :: digits)

/-- The digits behind an optional `0x` of a base-16 numeral. -/
def dropBasePrefix (base : Nat) (text : List Char) : List Char :=
  match text with
  | '0' :: marker :: rest =>
    if base = 16 ∧ (marker = 'x' ∨ marker = 'X') then
      (match rest with
        | '_' :: rest => rest
        | rest => rest)
    else text
  | _ => text

/-- `sys.get_int_max_str_digits()`: longer decimal numerals are refused. -/
def maxDecimalDigits : Nat := 4300

/-- `int(text, base)` for base 10 or 16. -/
def parseInt [UnicodeTables] (base : Nat) (text : String) : Option Int :=
  let buffer := ((numeralBuffer text.toList).dropWhile isAsciiSpace).rdropWhile isAsciiSpace
  let (negative, unsigned) := match buffer with
    | '-' :: rest => (true, rest)
    | '+' :: rest => (false, rest)
    | rest => (false, rest)
  match parseDigits base (dropBasePrefix base unsigned) with
  | none => none
  | some digits =>
    if base = 10 ∧ maxDecimalDigits < digits.length then none
    else if negative then some (-(digitsValue base digits : Int))
    else some (digitsValue base digits)

/-! ### `uuid.UUID` -/

/-- `text.replace(part, "")`: `part` is dropped wherever it is found, from the left. -/
def removeAll (part : List Char) : Nat → List Char → List Char
  | 0, text => text
  | _, [] => []
  | fuel + 1, char :: rest =>
    if part ≠ [] ∧ part <+: char :: rest then removeAll part fuel ((char :: rest).drop part.length)
    else char :: removeAll part fuel rest

/-- `str(UUID(text))`. -/
def uuidText [UnicodeTables] (text : String) : Option String :=
  let chars := text.toList
  let bare := removeAll "uuid:".toList chars.length (removeAll "urn:".toList chars.length chars)
  let isBrace := fun char => char == '\x7b' || char == '\x7d'
  let hex := ((bare.dropWhile isBrace).rdropWhile isBrace).filter (· ≠ '-')
  if hex.length ≠ 32 then none
  else match parseInt 16 (String.ofList hex) with
    | none => none
    | some value =>
      if value < 0 ∨ 2 ^ 128 ≤ value then none
      else
        let digits := Nat.toDigits 16 value.toNat
        let padded := List.replicate (32 - digits.length) '0' ++ digits
        some (String.ofList (padded.take 8 ++ '-' :: (padded.drop 8).take 4 ++
          '-' :: (padded.drop 12).take 4 ++ '-' :: (padded.drop 16).take 4 ++ '-' :: padded.drop 20))

/-- The digits of a number are those of its base. -/
theorem mem_toDigits {base : Nat} (proper : 1 < base) (value : Nat) :
    ∀ char ∈ Nat.toDigits base value, ∃ digit < base, char = Nat.digitChar digit := by
  induction value using Nat.strongRecOn with
  | ind value ih =>
    intro char member
    by_cases small : value < base
    · rw [Nat.toDigits_of_lt_base small, List.mem_singleton] at member
      exact ⟨value, small, member⟩
    · have positive : 0 < value := by omega
      rw [Nat.toDigits_of_base_le proper (Nat.le_of_not_lt small), List.mem_append] at member
      rcases member with leading | last
      · exact ih (value / base) (Nat.div_lt_self positive proper) char leading
      · rw [List.mem_singleton] at last
        exact ⟨value % base, Nat.mod_lt value (by omega), last⟩

/-- **The text of a UUID consists of hexadecimal digits and hyphens.** -/
theorem mem_uuidText [UnicodeTables] {text normalized : String} (reads : uuidText text = some normalized) :
    ∀ char ∈ normalized.toList, char = '-' ∨ ∃ digit < 16, char = Nat.digitChar digit := by
  unfold uuidText at reads
  dsimp only at reads
  split at reads
  · cases reads
  split at reads
  · cases reads
  rename_i value _
  split at reads
  · cases reads
  rw [Option.some.injEq] at reads
  subst reads
  intro char member
  rw [String.toList_ofList] at member
  have padded : ∀ char ∈ List.replicate (32 - (Nat.toDigits 16 value.toNat).length) '0' ++
      Nat.toDigits 16 value.toNat, ∃ digit < 16, char = Nat.digitChar digit := by
    intro char member
    rcases List.mem_append.mp member with padding | digits
    · exact ⟨0, by decide, List.eq_of_mem_replicate padding⟩
    · exact mem_toDigits (by decide) value.toNat char digits
  simp only [List.mem_append, List.mem_cons] at member
  rcases member with (((first | hyphen | second) | hyphen | third) | hyphen | fourth) | hyphen | fifth
  · exact Or.inr (padded char (List.mem_of_mem_take first))
  · exact Or.inl hyphen
  · exact Or.inr (padded char (List.mem_of_mem_drop (List.mem_of_mem_take second)))
  · exact Or.inl hyphen
  · exact Or.inr (padded char (List.mem_of_mem_drop (List.mem_of_mem_take third)))
  · exact Or.inl hyphen
  · exact Or.inr (padded char (List.mem_of_mem_drop (List.mem_of_mem_take fourth)))
  · exact Or.inl hyphen
  · exact Or.inr (padded char (List.mem_of_mem_drop fifth))

end PyNumbers
