/-
**`json.loads` — the text of a JSON value, and that what `json.dumps` writes is read back.**

The reader follows the scanner of the standard library: `readValue` reads one value in front of a text and returns what
is behind it, with a fuel of one turn for each character. A string is read as code units, whose surrogate pairs are put
together afterwards (`joinUnits`); an integer of more than 4300 digits raises `ValueError`.

* `readValue_dumpAt` — a canonical value is read from its text, whatever the indentation and the text behind it;
* `readJson_dumps` — **the round trip**, also with a line feed at the end, which is how files are written;
* `readJsonFile_dumps` — the round trip through a file, with its encoding and its line ends.
-/

import McpAuth.Library.Base64
import McpAuth.Library.Fallible
import McpAuth.Library.JsonValue
import McpAuth.Library.Multidict
import McpAuth.Library.TextRows

namespace JsonText

open Fallible PyText PyNumbers TextRows

/-- What a reader raises: `UnicodeDecodeError`, `JSONDecodeError`, the `ValueError` of a huge integer, or a string with a
lone surrogate, which is no text here. -/
inductive ReadError
  | undecodable
  | malformed
  | hugeInteger
  | loneSurrogate
  deriving DecidableEq

/-- The whitespace between tokens. -/
def isBlank (char : Char) : Bool := char == ' ' || char == '\t' || char == '\n' || char == '\r'

def skipBlanks (text : List Char) : List Char := text.dropWhile isBlank

/-! ### Strings -/

/-- The value of four hexadecimal digits. -/
def unitOf (digits : List Char) : Option ℕ := (digits.mapM hexDigit).map (digitsValue 16)

/-- The character of a short escape. -/
def escapeOf (char : Char) : Option Char :=
  [('"', '"'), ('\\', '\\'), ('/', '/'), ('b', '\x08'), ('f', '\x0c'), ('n', '\n'), ('r', '\r'), ('t', '\t')].lookup char

/-- The code units of a string up to its closing quote, and the text behind it. -/
def readUnits : List Char → Option (List ℕ × List Char)
  | [] => none
  | '"' :: rest => some ([], rest)
  | '\\' :: 'u' :: a :: b :: c :: d :: rest => do
    let unit ← unitOf [a, b, c, d]
    let (units, later) ← readUnits rest
    some (unit :: units, later)
  | '\\' :: char :: rest => do
    let escaped ← escapeOf char
    let (units, later) ← readUnits rest
    some (escaped.toNat :: units, later)
  | char :: rest => do
    if char = '\\' ∨ char.toNat < 0x20 then none
    let (units, later) ← readUnits rest
    some (char.toNat :: units, later)

def isHigh (unit : ℕ) : Bool := 0xD800 ≤ unit && unit ≤ 0xDBFF

def isLow (unit : ℕ) : Bool := 0xDC00 ≤ unit && unit ≤ 0xDFFF

/-- The characters of code units, `none` where a surrogate stands alone. -/
def joinUnits : List ℕ → Option (List Char)
  | [] => some []
  | unit :: rest =>
    if isHigh unit then
      match rest with
      | [] => none
      | low :: later =>
        if isLow low then
          (joinUnits later).map (Char.ofNat (0x10000 + (unit - 0xD800) * 0x400 + (low - 0xDC00)) :: ·)
        else none
    else if isLow unit then none
    else (joinUnits rest).map (Char.ofNat unit :: ·)

/-- The string after an opening quote. -/
def readText (text : List Char) : Except ReadError (String × List Char) := do
  let (units, later) ← required .malformed (readUnits text)
  let chars ← required .loneSurrogate (joinUnits units)
  .ok (String.ofList chars, later)

/-! ### Numbers -/

/-- The `repr` of the float of a literal. -/
class FloatReader where
  repr : String → String

/-- Digits behind a dot. -/
def fractionOf : List Char → List Char × List Char
  | '.' :: rest =>
    let digits := rest.takeWhile isDigit
    if digits = [] then ([], '.' :: rest) else ('.' :: digits, rest.dropWhile isDigit)
  | text => ([], text)

/-- A sign in front of digits. -/
def signOf : List Char → List Char × List Char
  | '+' :: rest => (['+'], rest)
  | '-' :: rest => (['-'], rest)
  | text => ([], text)

/-- An exponent with at least one digit. -/
def exponentOf : List Char → List Char × List Char
  | [] => ([], [])
  | mark :: rest =>
    let (sign, unsigned) := signOf rest
    let digits := unsigned.takeWhile isDigit
    if (mark = 'e' ∨ mark = 'E') ∧ digits ≠ [] then (mark :: sign ++ digits, unsigned.dropWhile isDigit)
    else ([], mark :: rest)

/-- The digits of an integer: `0`, or digits that start with another one. -/
def integerOf : List Char → Option (List Char × List Char)
  | '0' :: rest => some (['0'], rest)
  | text =>
    let digits := text.takeWhile isDigit
    if digits = [] then none else some (digits, text.dropWhile isDigit)

/-- The number of digits that `int` reads. -/
def maxIntDigits : ℕ := 4300

/-- A number without its sign. -/
def readUnsigned [FloatReader] (negative : Bool) (text : List Char) : Except ReadError (Json × List Char) := do
  let (digits, rest) ← required .malformed (integerOf text)
  let (fraction, rest) := fractionOf rest
  let (exponent, rest) := exponentOf rest
  if fraction = [] ∧ exponent = [] then
    check .hugeInteger (digits.length ≤ maxIntDigits)
    let value : ℤ := Nat.ofDigitChars 10 digits 0
    .ok (.int (if negative then -value else value), rest)
  else
    let sign := if negative then ['-'] else []
    .ok (.float (FloatReader.repr (String.ofList (sign ++ digits ++ fraction ++ exponent))), rest)

def readNumber [FloatReader] : List Char → Except ReadError (Json × List Char)
  | '-' :: rest => readUnsigned true rest
  | text => readUnsigned false text

/-! ### Values -/

/-- A `dict` of the members that were read: a later one takes the place of an earlier one with its name. -/
def dictOf (members : List (String × Json)) : JsonObject :=
  members.foldl (fun kept member => Multidict.put Prod.fst member kept) []

mutual

/-- One value in front of a text, and the text behind it. -/
def readValue [FloatReader] : ℕ → List Char → Except ReadError (Json × List Char)
  | 0, _ => .error .malformed
  | fuel + 1, text =>
    match text with
    | '"' :: rest => do
      let (value, later) ← readText rest
      .ok (.str value, later)
    | '[' :: rest =>
      match skipBlanks rest with
      | ']' :: later => .ok (.arr [], later)
      | items => do
        let (items, later) ← readItems fuel items
        .ok (.arr items, later)
    | '\x7b' :: rest =>
      match skipBlanks rest with
      | '\x7d' :: later => .ok (.obj [], later)
      | members => do
        let (members, later) ← readMembers fuel members
        .ok (.obj (dictOf members), later)
    | 'n' :: 'u' :: 'l' :: 'l' :: rest => .ok (.null, rest)
    | 't' :: 'r' :: 'u' :: 'e' :: rest => .ok (.bool true, rest)
    | 'f' :: 'a' :: 'l' :: 's' :: 'e' :: rest => .ok (.bool false, rest)
    | 'N' :: 'a' :: 'N' :: rest => .ok (.float "nan", rest)
    | 'I' :: 'n' :: 'f' :: 'i' :: 'n' :: 'i' :: 't' :: 'y' :: rest => .ok (.float "inf", rest)
    | '-' :: 'I' :: 'n' :: 'f' :: 'i' :: 'n' :: 'i' :: 't' :: 'y' :: rest => .ok (.float "-inf", rest)
    | text => readNumber text

/-- The items of a list up to its closing bracket. -/
def readItems [FloatReader] : ℕ → List Char → Except ReadError (List Json × List Char)
  | 0, _ => .error .malformed
  | fuel + 1, text => do
    let (item, later) ← readValue fuel text
    match skipBlanks later with
    | ',' :: rest =>
      let (items, later) ← readItems fuel (skipBlanks rest)
      .ok (item :: items, later)
    | ']' :: rest => .ok ([item], rest)
    | _ => .error .malformed

/-- The members of a dictionary up to its closing brace. -/
def readMembers [FloatReader] : ℕ → List Char → Except ReadError (List (String × Json) × List Char)
  | 0, _ => .error .malformed
  | fuel + 1, text =>
    match text with
    | '"' :: rest => do
      let (name, later) ← readText rest
      match skipBlanks later with
      | ':' :: rest =>
        let (value, later) ← readValue fuel (skipBlanks rest)
        match skipBlanks later with
        | ',' :: rest =>
          let (members, later) ← readMembers fuel (skipBlanks rest)
          .ok ((name, value) :: members, later)
        | '\x7d' :: rest => .ok ([(name, value)], rest)
        | _ => .error .malformed
      | _ => .error .malformed
    | _ => .error .malformed

end

/-- `json.loads(text)`. Every turn takes a character, so the length of the text is fuel enough. -/
def readJson [FloatReader] (text : List Char) : Except ReadError Json := do
  let (value, later) ← readValue (text.length + 1) (skipBlanks text)
  check .malformed (skipBlanks later).isEmpty
  .ok value

/-- `json.loads(path.read_text(encoding="utf-8"))`. -/
def readJsonFile [FloatReader] (raw : Bytes) : Except ReadError Json := do
  let text ← required .undecodable (decodeUtf8 raw)
  readJson (universalNewlines text.toList)

/-! ### Strings are read back -/

theorem unitOf_digits {unit : ℕ} (small : unit < 0x10000) :
    unitOf ([unit / 4096, unit / 256 % 16, unit / 16 % 16, unit % 16].map Nat.digitChar) = some unit := by
  have digit : ∀ value < 16, hexDigit (Nat.digitChar value) = some value := by decide
  simp only [unitOf, List.map_cons, List.map_nil, List.mapM_cons, List.mapM_nil,
    digit _ (show unit / 4096 < 16 by omega), digit _ (Nat.mod_lt _ (by decide : 0 < 16)), Option.bind_eq_bind,
    Option.bind_some, Option.pure_def, Option.map_some, digitsValue, List.foldl_cons, List.foldl_nil, Option.some.injEq]
  omega

/-- The code units that `json.dumps` escapes a character to. -/
def unitsOf (char : Char) : List ℕ :=
  if char.toNat < 0x10000 then [char.toNat]
  else [0xD800 + (char.toNat - 0x10000) / 1024, 0xDC00 + (char.toNat - 0x10000) % 1024]

theorem readUnits_escapedUnit {unit : ℕ} (small : unit < 0x10000) (rest : List Char) :
    readUnits (escapedUnit unit ++ rest) = (readUnits rest).map fun read => (unit :: read.1, read.2) := by
  have digits := unitOf_digits small
  simp only [List.map_cons, List.map_nil] at digits
  simp only [escapedUnit, List.map_cons, List.map_nil, List.cons_append, List.nil_append, readUnits, digits]
  cases readUnits rest <;> rfl

theorem toNat_lt (char : Char) : char.toNat < 0x110000 := by
  rcases char.valid with small | ⟨-, below⟩
  · exact lt_trans small (by decide)
  · exact below

theorem readUnits_escape {char escaped : Char} (escapes : escapeOf char = some escaped) (rest : List Char) :
    readUnits ('\\' :: char :: rest) = (readUnits rest).map fun read => (escaped.toNat :: read.1, read.2) := by
  have notUnit : char ≠ 'u' := by
    rintro rfl
    cases escapes
  rw [readUnits, escapes]
  · cases readUnits rest <;> rfl
  · rintro a b c d later rfl -
    exact notUnit rfl

theorem readUnits_plain {char : Char} (noQuote : char ≠ '"') (noEscape : char ≠ '\\') (printed : 0x20 ≤ char.toNat)
    (rest : List Char) :
    readUnits (char :: rest) = (readUnits rest).map fun read => (char.toNat :: read.1, read.2) := by
  rw [readUnits, if_neg (not_or.mpr ⟨noEscape, Nat.not_lt.mpr printed⟩)]
  · cases readUnits rest <;> rfl
  · exact noQuote
  · rintro a b c d later rfl
    exact absurd rfl noEscape
  · rintro next later rfl
    exact absurd rfl noEscape

/-- **An escaped character is read as its code units.** -/
theorem readUnits_escapedChar (char : Char) (rest : List Char) :
    readUnits (escapedChar char ++ rest) = (readUnits rest).map fun read => (unitsOf char ++ read.1, read.2) := by
  have single : ∀ {escape : Char}, escapeOf escape = some char → char.toNat < 0x10000 →
      readUnits ('\\' :: escape :: rest) = (readUnits rest).map fun read => (unitsOf char ++ read.1, read.2) := by
    intro escape escapes small
    rw [readUnits_escape escapes, unitsOf, if_pos small]
    rfl
  unfold escapedChar
  split_ifs with quote backslash feed carriage tab back form printed small
  · exact single (by subst quote; rfl) (by subst quote; decide)
  · exact single (by subst backslash; rfl) (by subst backslash; decide)
  · exact single (by subst feed; rfl) (by subst feed; decide)
  · exact single (by subst carriage; rfl) (by subst carriage; decide)
  · exact single (by subst tab; rfl) (by subst tab; decide)
  · exact single (by subst back; rfl) (by subst back; decide)
  · exact single (by subst form; rfl) (by subst form; decide)
  · have low : 0x20 ≤ char.toNat := UInt32.le_iff_toNat_le.mp printed.1
    have high : char.toNat ≤ 0x7e := UInt32.le_iff_toNat_le.mp printed.2
    rw [List.singleton_append, readUnits_plain quote backslash low, unitsOf, if_pos (by omega)]
    rfl
  · rw [readUnits_escapedUnit small, unitsOf, if_pos small]
    rfl
  · have below := toNat_lt char
    rw [List.append_assoc, readUnits_escapedUnit (by omega), readUnits_escapedUnit (by omega), unitsOf, if_neg small,
      Option.map_map]
    rfl

theorem joinUnits_unitsOf (char : Char) (rest : List ℕ) :
    joinUnits (unitsOf char ++ rest) = (joinUnits rest).map (char :: ·) := by
  have below := toNat_lt char
  unfold unitsOf
  split_ifs with small
  · have noSurrogate : char.toNat < 0xD800 ∨ 0xDFFF < char.toNat := by
      rcases char.valid with lower | ⟨upper, -⟩
      · exact Or.inl lower
      · exact Or.inr upper
    have notHigh : isHigh char.toNat = false := by
      simp only [isHigh, Bool.and_eq_false_iff, decide_eq_false_iff_not]
      omega
    have notLow : isLow char.toNat = false := by
      simp only [isLow, Bool.and_eq_false_iff, decide_eq_false_iff_not]
      omega
    rw [List.singleton_append, joinUnits.eq_def]
    simp only [notHigh, notLow, Bool.false_eq_true, if_false, Char.ofNat_toNat]
  · have high : isHigh (0xD800 + (char.toNat - 0x10000) / 1024) = true := by
      simp only [isHigh, Bool.and_eq_true, decide_eq_true_eq]
      omega
    have low : isLow (0xDC00 + (char.toNat - 0x10000) % 1024) = true := by
      simp only [isLow, Bool.and_eq_true, decide_eq_true_eq]
      omega
    have joined : 0x10000 + (0xD800 + (char.toNat - 0x10000) / 1024 - 0xD800) * 0x400 +
        (0xDC00 + (char.toNat - 0x10000) % 1024 - 0xDC00) = char.toNat := by
      omega
    rw [List.cons_append, List.singleton_append, joinUnits.eq_def]
    simp only [high, low, if_true, joined, Char.ofNat_toNat]

/-- **A string is read back.** -/
theorem readText_quotedText (text : String) (rest : List Char) :
    readText (text.toList.flatMap escapedChar ++ '"' :: rest) = .ok (text, rest) := by
  have units : ∀ chars : List Char,
      readUnits (chars.flatMap escapedChar ++ '"' :: rest) = some (chars.flatMap unitsOf, rest) := by
    intro chars
    induction chars with
    | nil => simp [readUnits]
    | cons char later ih =>
      rw [List.flatMap_cons, List.append_assoc, readUnits_escapedChar, ih, List.flatMap_cons]
      rfl
  have joined : ∀ chars : List Char, joinUnits (chars.flatMap unitsOf) = some chars := by
    intro chars
    induction chars with
    | nil => rfl
    | cons char later ih => rw [List.flatMap_cons, joinUnits_unitsOf, ih, Option.map_some]
  refine bind_eq_ok.mpr ⟨_, required_eq_ok.mpr (units text.toList), ?_⟩
  refine bind_eq_ok.mpr ⟨_, required_eq_ok.mpr (joined text.toList), ?_⟩
  rw [String.ofList_toList]

/-! ### Numbers are read back -/

/-- What can stand behind a number without being read as part of it. -/
def EndsNumber (rest : List Char) : Prop :=
  ∀ char ∈ rest.head?, isDigit char = false ∧ char ≠ '.' ∧ char ≠ 'e' ∧ char ≠ 'E'

theorem isDigit_of_mem_toDigits {value : ℕ} {char : Char} (member : char ∈ Nat.toDigits 10 value) :
    isDigit char = true := by
  obtain ⟨digit, small, rfl⟩ := mem_toDigits (by decide) value char member
  have digits : ∀ digit < 10, isDigit (Nat.digitChar digit) = true := by decide
  exact digits digit small

/-- A number other than zero does not start with zero. -/
theorem head_toDigits {value : ℕ} (positive : 0 < value) : ∀ char ∈ (Nat.toDigits 10 value).head?, char ≠ '0' := by
  induction value using Nat.strong_induction_on with
  | _ value ih =>
    by_cases small : value < 10
    · have digits : ∀ digit < 10, 0 < digit → Nat.digitChar digit ≠ '0' := by decide
      rw [Nat.toDigits_of_lt_base small]
      rintro _ ⟨⟩
      exact digits value small positive
    · rw [Nat.toDigits_of_base_le (by decide) (Nat.le_of_not_lt small),
        List.head?_append_of_ne_nil _ Nat.toDigits_ne_nil]
      exact ih (value / 10) (by omega) (by omega)

theorem integerOf_toDigits {value : ℕ} {rest : List Char} (ends : EndsNumber rest) :
    integerOf (Nat.toDigits 10 value ++ rest) = some (Nat.toDigits 10 value, rest) := by
  rcases Nat.eq_zero_or_pos value with rfl | positive
  · rw [Nat.toDigits_zero]
    rfl
  · obtain ⟨first, later, shape⟩ := List.exists_cons_of_ne_nil (Nat.toDigits_ne_nil (b := 10) (n := value))
    have notZero : first ≠ '0' := head_toDigits positive first (by rw [shape]; rfl)
    obtain ⟨taken, dropped⟩ := takeWhile_run (fun char member => isDigit_of_mem_toDigits member)
      (fun char isHead => (ends char isHead).1)
    rw [shape, List.cons_append] at taken dropped ⊢
    rw [integerOf, taken, dropped, if_neg (List.cons_ne_nil _ _)]
    intro _ same
    exact notZero (List.cons.inj same).1

theorem toList_toString_int (value : ℤ) : (toString value).toList =
    if value < 0 then '-' :: Nat.toDigits 10 value.natAbs else Nat.toDigits 10 value.natAbs := by
  cases value with
  | ofNat value =>
    have notNegative : ¬ Int.ofNat value < 0 := Int.not_lt.mpr (Int.natCast_nonneg value)
    rw [if_neg notNegative]
    exact Nat.toList_repr
  | negSucc value =>
    rw [if_pos (Int.negSucc_lt_zero value)]
    show ("-" ++ Nat.repr (value + 1)).toList = _
    rw [String.toList_append, Nat.toList_repr]
    rfl

section Reader

variable [FloatReader]

theorem readUnsigned_toDigits {value : ℕ} {negative : Bool} {rest : List Char}
    (small : (Nat.toDigits 10 value).length ≤ maxIntDigits) (ends : EndsNumber rest) :
    readUnsigned negative (Nat.toDigits 10 value ++ rest) =
      .ok (.int (if negative then -(value : ℤ) else value), rest) := by
  have noFraction : fractionOf rest = ([], rest) := by
    cases rest with
    | nil => rfl
    | cons first later =>
      have notDot := (ends first rfl).2.1
      unfold fractionOf
      split
      · rename_i shape
        cases shape
        exact absurd rfl notDot
      · rfl
  have noExponent : exponentOf rest = ([], rest) := by
    cases rest with
    | nil => rfl
    | cons first later =>
      obtain ⟨-, -, notLower, notUpper⟩ := ends first rfl
      simp [exponentOf, notLower, notUpper]
  refine bind_eq_ok.mpr ⟨_, required_eq_ok.mpr (integerOf_toDigits ends), ?_⟩
  simp only [noFraction, noExponent, and_self, if_true]
  refine bind_eq_ok.mpr ⟨(), check_eq_ok.mpr (decide_eq_true small), ?_⟩
  rw [Nat.ofDigitChars_ten_toDigits]

/-- An integer is read back as a number. -/
theorem readNumber_toString {value : ℤ} {rest : List Char}
    (small : (Nat.toDigits 10 value.natAbs).length ≤ maxIntDigits) (ends : EndsNumber rest) :
    readNumber ((toString value).toList ++ rest) = .ok (.int value, rest) := by
  rw [toList_toString_int]
  split_ifs with negative
  · rw [List.cons_append, readNumber, readUnsigned_toDigits small ends, if_pos rfl]
    congr 3
    omega
  · obtain ⟨first, later, shape⟩ := List.exists_cons_of_ne_nil (Nat.toDigits_ne_nil (b := 10) (n := value.natAbs))
    have digit : isDigit first = true := isDigit_of_mem_toDigits (by rw [shape]; exact List.mem_cons_self)
    have unsigned := @readUnsigned_toDigits _ value.natAbs false rest small ends
    rw [shape, List.cons_append] at unsigned ⊢
    rw [readNumber, unsigned, if_neg Bool.false_ne_true]
    · congr 3
      omega
    · intro _ same
      rw [(List.cons.inj same).1] at digit
      cases digit

end Reader

/-! ### Values are read back -/

/-- **A value that `json.dumps` keeps**: no float, no huge integer, and members in the order of their names. -/
inductive Canonical : Json → Prop
  | null : Canonical .null
  | bool (value : Bool) : Canonical (.bool value)
  | int {value : ℤ} (small : (Nat.toDigits 10 value.natAbs).length ≤ maxIntDigits) : Canonical (.int value)
  | str (text : String) : Canonical (.str text)
  | arr {items : List Json} (each : ∀ item ∈ items, Canonical item) : Canonical (.arr items)
  | obj {members : JsonObject} (sorted : members.Pairwise fun first second => first.1 < second.1)
      (each : ∀ member ∈ members, Canonical member.2) : Canonical (.obj members)

/-- A record with its names in order. -/
theorem Canonical.record (names : List String) (inOrder : names.Pairwise (· < ·)) {members : JsonObject}
    (named : members.map Prod.fst = names) (each : ∀ member ∈ members, Canonical member.2) : Canonical (.obj members) := by
  subst named
  exact .obj (List.pairwise_map.mp inOrder) each

theorem dumpItems_eq_map (indent : Option ℕ) (level : ℕ) (items : List Json) :
    dumpItems indent level items = items.map (dumpAt indent level) := by
  induction items with
  | nil => rfl
  | cons item later ih => rw [dumpItems, ih, List.map_cons]

theorem dumpMembers_eq_map (indent : Option ℕ) (level : ℕ) (members : List (String × Json)) :
    dumpMembers indent level members = members.map fun member => (member.1, dumpAt indent level member.2) := by
  induction members with
  | nil => rfl
  | cons member later ih => rw [dumpMembers, ih, List.map_cons]

/-- The text of a member at a level. -/
def memberAt (indent : Option ℕ) (level : ℕ) (member : String × Json) : List Char :=
  memberText (member.1, dumpAt indent level member.2)

theorem dumpAt_arr (indent : Option ℕ) (level : ℕ) (items : List Json) : dumpAt indent level (.arr items) =
    container indent level '[' ']' (items.map (dumpAt indent (level + 1))) := by
  rw [dumpAt, dumpItems_eq_map]

/-- Members that are in order are written in order. -/
theorem dumpAt_obj {members : JsonObject} (sorted : members.Pairwise fun first second => first.1 < second.1)
    (indent : Option ℕ) (level : ℕ) : dumpAt indent level (.obj members) =
      container indent level '\x7b' '\x7d' (members.map (memberAt indent (level + 1))) := by
  have inOrder : (dumpMembers indent (level + 1) members).Pairwise fun first second => first.1 ≤ second.1 := by
    rw [dumpMembers_eq_map, List.pairwise_map]
    exact sorted.imp fun less => le_of_lt less
  show container indent level _ _ (((dumpMembers indent (level + 1) members).insertionSort _).map memberText) = _
  rw [inOrder.insertionSort_eq, dumpMembers_eq_map, List.map_map]
  rfl

/-- The dictionary of members with different names has them in order. -/
theorem dictOf_sorted {members : JsonObject} (sorted : members.Pairwise fun first second => first.1 < second.1) :
    dictOf members = members := by
  refine Multidict.foldl_put_of_nodup ?_
  exact List.pairwise_map.mpr (sorted.imp fun less => ne_of_lt less)

/-! #### Blanks -/

theorem skipBlanks_of_head {first : Char} (notBlank : isBlank first = false) (later : List Char) :
    skipBlanks (first :: later) = first :: later := by
  rw [skipBlanks, List.dropWhile_cons, notBlank, if_neg Bool.false_ne_true]

theorem skipBlanks_breakAt (indent : Option ℕ) (level : ℕ) (rest : List Char) :
    skipBlanks (breakAt indent level ++ rest) = skipBlanks rest := by
  have blank : ∀ char ∈ breakAt indent level, isBlank char = true := by
    cases indent with
    | none => simp [breakAt]
    | some width =>
      intro char member
      rcases List.mem_cons.mp member with rfl | inside
      · rfl
      · rw [List.eq_of_mem_replicate inside]
        rfl
  exact List.dropWhile_append_of_pos blank

/-- Behind a separator there are blanks and the next element. -/
theorem skipBlanks_separatorAt (indent : Option ℕ) (level : ℕ) (rest : List Char) :
    ∃ later, skipBlanks (separatorAt indent level ++ rest) = ',' :: later ∧ skipBlanks later = skipBlanks rest := by
  unfold separatorAt
  split
  · exact ⟨breakAt indent level ++ rest, skipBlanks_of_head (by rfl) _, skipBlanks_breakAt indent level rest⟩
  · exact ⟨' ' :: rest, skipBlanks_of_head (by rfl) _, rfl⟩

theorem endsNumber_cons {first : Char} (notDigit : isDigit first = false)
    (others : first ≠ '.' ∧ first ≠ 'e' ∧ first ≠ 'E') (later : List Char) : EndsNumber (first :: later) := by
  rintro _ ⟨⟩
  exact ⟨notDigit, others⟩

theorem endsNumber_breakAt (indent : Option ℕ) (level : ℕ) {rest : List Char} (ends : EndsNumber rest) :
    EndsNumber (breakAt indent level ++ rest) := by
  cases indent with
  | none => exact ends
  | some width => exact endsNumber_cons (by rfl) (by decide) _

theorem endsNumber_separatorAt (indent : Option ℕ) (level : ℕ) (rest : List Char) :
    EndsNumber (separatorAt indent level ++ rest) := by
  unfold separatorAt
  split <;> exact endsNumber_cons (by rfl) (by decide) _

theorem length_separatorAt (indent : Option ℕ) (level : ℕ) : 0 < (separatorAt indent level).length := by
  unfold separatorAt
  split <;> exact Nat.succ_pos _

/-! #### The first character -/

/-- The character that a text of a value starts with. -/
structure StartsValue (text : List Char) (first : Char) : Prop where
  isHead : text.head? = some first
  notBlank : isBlank first = false
  notClosing : first ≠ ']'

theorem container_head (indent : Option ℕ) (level : ℕ) (start stop : Char) (elements : List (List Char)) :
    (container indent level start stop elements).head? = some start := by
  unfold container
  split <;> rfl

theorem isBlank_of_isDigit {char : Char} (digit : isDigit char = true) : isBlank char = false := by
  rw [Bool.eq_false_iff]
  intro blank
  simp only [isBlank, Bool.or_eq_true, beq_iff_eq] at blank
  rcases blank with ((rfl | rfl) | rfl) | rfl <;> cases digit

theorem startsValue_dumpAt {value : Json} (canonical : Canonical value) (indent : Option ℕ) (level : ℕ) :
    ∃ first, StartsValue (dumpAt indent level value) first := by
  cases canonical with
  | null => exact ⟨'n', ⟨rfl, rfl, by decide⟩⟩
  | bool value =>
    cases value
    · exact ⟨'f', ⟨rfl, rfl, by decide⟩⟩
    · exact ⟨'t', ⟨rfl, rfl, by decide⟩⟩
  | str text => exact ⟨'"', ⟨rfl, rfl, by decide⟩⟩
  | arr each => exact ⟨'[', ⟨by rw [dumpAt]; exact container_head _ _ _ _ _, rfl, by decide⟩⟩
  | obj sorted each => exact ⟨'\x7b', ⟨by rw [dumpAt]; exact container_head _ _ _ _ _, rfl, by decide⟩⟩
  | int small =>
    rename_i value
    rw [dumpAt, toList_toString_int]
    split_ifs
    · exact ⟨'-', ⟨rfl, rfl, by decide⟩⟩
    · obtain ⟨first, later, shape⟩ := List.exists_cons_of_ne_nil (Nat.toDigits_ne_nil (b := 10) (n := value.natAbs))
      have digit : isDigit first = true := isDigit_of_mem_toDigits (by rw [shape]; exact List.mem_cons_self)
      refine ⟨first, ⟨by rw [shape]; rfl, ?_, ?_⟩⟩
      · exact isBlank_of_isDigit digit
      · rintro rfl
        cases digit

theorem StartsValue.skip {text : List Char} {first : Char} (starts : StartsValue text first) (rest : List Char) :
    skipBlanks (text ++ rest) = text ++ rest := by
  obtain ⟨later, rfl⟩ := List.head?_eq_some_iff.mp starts.isHead
  exact skipBlanks_of_head starts.notBlank _

theorem StartsValue.head?_append {text : List Char} {first : Char} (starts : StartsValue text first)
    (rest : List Char) : (text ++ rest).head? = some first := by
  obtain ⟨later, rfl⟩ := List.head?_eq_some_iff.mp starts.isHead
  rfl

/-- Joined elements start with the first of them. -/
theorem StartsValue.intercalate {text : List Char} {first : Char} (starts : StartsValue text first)
    (separator : List Char) (others : List (List Char)) : StartsValue (separator.intercalate (text :: others)) first := by
  refine ⟨?_, starts.notBlank, starts.notClosing⟩
  obtain ⟨later, shape⟩ := List.head?_eq_some_iff.mp starts.isHead
  cases others with
  | nil => rw [List.intercalate_singleton, shape, List.head?_cons]
  | cons next others =>
    rw [List.intercalate_cons_cons, shape]
    rfl

/-! #### Elements and members -/

section Elements

variable [FloatReader] {indent : Option ℕ}

/-- A value is read from its text, whatever is behind it. -/
def ReadsBack (indent : Option ℕ) (value : Json) : Prop :=
  ∀ (level fuel : ℕ) (rest : List Char), (dumpAt indent level value).length ≤ fuel → EndsNumber rest →
    readValue fuel (dumpAt indent level value ++ rest) = .ok (value, rest)

/-- **The items of a list are read back.** -/
theorem readItems_intercalate {items : List Json} (nonempty : items ≠ []) (canonical : ∀ item ∈ items, Canonical item)
    (readsBack : ∀ item ∈ items, ReadsBack indent item) {level outer fuel : ℕ} {rest : List Char}
    (enough : ((separatorAt indent level).intercalate (items.map (dumpAt indent level))).length < fuel) :
    readItems fuel ((separatorAt indent level).intercalate (items.map (dumpAt indent level)) ++
      (breakAt indent outer ++ ']' :: rest)) = .ok (items, rest) := by
  induction items generalizing fuel with
  | nil => exact absurd rfl nonempty
  | cons item later ih =>
    obtain ⟨fuel, rfl⟩ : ∃ less, fuel = less + 1 := ⟨fuel - 1, by omega⟩
    have readsItem := readsBack item List.mem_cons_self
    cases later with
    | nil =>
      rw [List.map_singleton, List.intercalate_singleton] at enough ⊢
      have ends : EndsNumber (breakAt indent outer ++ ']' :: rest) :=
        endsNumber_breakAt indent outer (endsNumber_cons (by rfl) (by decide) rest)
      rw [readItems]
      refine bind_eq_ok.mpr ⟨_, readsItem level fuel _ (by omega) ends, ?_⟩
      simp only [skipBlanks_breakAt, skipBlanks_of_head (show isBlank ']' = false by rfl)]
    | cons next others =>
      obtain ⟨first, starts⟩ := startsValue_dumpAt (canonical next (by simp)) indent level
      rw [List.map_cons, List.map_cons, List.intercalate_cons_cons, List.append_assoc, List.append_assoc]
      rw [List.map_cons, List.map_cons, List.intercalate_cons_cons, List.length_append, List.length_append] at enough
      have tail := ih (List.cons_ne_nil _ _) (fun item member => canonical item (List.mem_cons_of_mem _ member))
        (fun item member => readsBack item (List.mem_cons_of_mem _ member))
        (show ((separatorAt indent level).intercalate (List.map (dumpAt indent level) (next :: others))).length < fuel by
          have separated := length_separatorAt indent level
          rw [List.map_cons]
          omega)
      rw [List.map_cons] at tail
      obtain ⟨behind, skipped, same⟩ := skipBlanks_separatorAt indent level
        ((separatorAt indent level).intercalate (dumpAt indent level next :: others.map (dumpAt indent level)) ++
          (breakAt indent outer ++ ']' :: rest))
      rw [readItems]
      refine bind_eq_ok.mpr ⟨_, readsItem level fuel _ (by omega) (endsNumber_separatorAt _ _ _), ?_⟩
      simp only [skipped, same, (starts.intercalate _ _).skip, tail]
      rfl

omit [FloatReader] in
theorem memberAt_append (indent : Option ℕ) (level : ℕ) (member : String × Json) (rest : List Char) :
    memberAt indent level member ++ rest =
      '"' :: (member.1.toList.flatMap escapedChar ++ '"' :: ':' :: ' ' :: (dumpAt indent level member.2 ++ rest)) := by
  simp [memberAt, memberText, quotedText]

omit [FloatReader] in
theorem startsValue_memberAt (indent : Option ℕ) (level : ℕ) (member : String × Json) :
    StartsValue (memberAt indent level member) '"' :=
  ⟨rfl, rfl, by decide⟩

omit [FloatReader] in
theorem length_memberAt (indent : Option ℕ) (level : ℕ) (member : String × Json) :
    (dumpAt indent level member.2).length + 4 ≤ (memberAt indent level member).length := by
  have shape := memberAt_append indent level member []
  rw [List.append_nil, List.append_nil] at shape
  rw [shape]
  simp only [List.length_cons, List.length_append]
  omega

/-- **The members of a dictionary are read back.** -/
theorem readMembers_intercalate {members : JsonObject} (nonempty : members ≠ [])
    (canonical : ∀ member ∈ members, Canonical member.2) (readsBack : ∀ member ∈ members, ReadsBack indent member.2)
    {level outer fuel : ℕ} {rest : List Char}
    (enough : ((separatorAt indent level).intercalate (members.map (memberAt indent level))).length < fuel) :
    readMembers fuel ((separatorAt indent level).intercalate (members.map (memberAt indent level)) ++
      (breakAt indent outer ++ '\x7d' :: rest)) = .ok (members, rest) := by
  induction members generalizing fuel with
  | nil => exact absurd rfl nonempty
  | cons member later ih =>
    obtain ⟨fuel, rfl⟩ : ∃ less, fuel = less + 1 := ⟨fuel - 1, by omega⟩
    have readsValue := readsBack member List.mem_cons_self
    obtain ⟨first, starts⟩ := startsValue_dumpAt (canonical member List.mem_cons_self) indent level
    have long := length_memberAt indent level member
    have afterColon : ∀ text : List Char, skipBlanks (' ' :: (dumpAt indent level member.2 ++ text)) =
        dumpAt indent level member.2 ++ text := fun text => starts.skip text
    cases later with
    | nil =>
      rw [List.map_singleton, List.intercalate_singleton] at enough ⊢
      have ends : EndsNumber (breakAt indent outer ++ '\x7d' :: rest) :=
        endsNumber_breakAt indent outer (endsNumber_cons (by rfl) (by decide) rest)
      rw [memberAt_append, readMembers]
      refine bind_eq_ok.mpr ⟨_, readText_quotedText member.1 _, ?_⟩
      simp only [skipBlanks_of_head (show isBlank ':' = false by rfl), afterColon]
      refine bind_eq_ok.mpr ⟨_, readsValue level fuel _ (by omega) ends, ?_⟩
      simp only [skipBlanks_breakAt, skipBlanks_of_head (show isBlank '\x7d' = false by rfl)]
    | cons next others =>
      rw [List.map_cons, List.map_cons, List.intercalate_cons_cons, List.append_assoc, List.append_assoc]
      rw [List.map_cons, List.map_cons, List.intercalate_cons_cons, List.length_append, List.length_append] at enough
      have tail := ih (List.cons_ne_nil _ _) (fun member inside => canonical member (List.mem_cons_of_mem _ inside))
        (fun member inside => readsBack member (List.mem_cons_of_mem _ inside))
        (show ((separatorAt indent level).intercalate (List.map (memberAt indent level) (next :: others))).length < fuel by
          have separated := length_separatorAt indent level
          rw [List.map_cons]
          omega)
      rw [List.map_cons] at tail
      obtain ⟨behind, skipped, same⟩ := skipBlanks_separatorAt indent level
        ((separatorAt indent level).intercalate (memberAt indent level next :: others.map (memberAt indent level)) ++
          (breakAt indent outer ++ '\x7d' :: rest))
      rw [memberAt_append, readMembers]
      refine bind_eq_ok.mpr ⟨_, readText_quotedText member.1 _, ?_⟩
      simp only [skipBlanks_of_head (show isBlank ':' = false by rfl), afterColon]
      refine bind_eq_ok.mpr ⟨_, readsValue level fuel _ (by omega) (endsNumber_separatorAt _ _ _), ?_⟩
      simp only [skipped, same, ((startsValue_memberAt indent level next).intercalate _ _).skip, tail]
      rfl

/-! #### Values -/

theorem readValue_number {first : Char} (number : isDigit first = true ∨ first = '-') {later : List Char}
    (finite : first = '-' → ∀ char ∈ later.head?, char ≠ 'I') (fuel : ℕ) :
    readValue (fuel + 1) (first :: later) = readNumber (first :: later) := by
  rw [readValue.eq_def]
  dsimp only
  split
  case h_10 => rfl
  case h_9 =>
    rename_i shape
    obtain ⟨isMinus, rfl⟩ := List.cons.inj shape
    exact absurd rfl (finite isMinus 'I' rfl)
  all_goals
    rename_i shape
    rw [(List.cons.inj shape).1] at number
    exact absurd number (by decide)

theorem readValue_list {text later : List Char} {items : List Json} {first : Char} {fuel : ℕ}
    (isHead : (skipBlanks text).head? = some first) (notClosing : first ≠ ']')
    (reads : readItems fuel (skipBlanks text) = .ok (items, later)) :
    readValue (fuel + 1) ('[' :: text) = .ok (.arr items, later) := by
  rw [readValue]
  split
  · rename_i shape
    rw [shape] at isHead
    cases isHead
    exact absurd rfl notClosing
  · exact bind_eq_ok.mpr ⟨_, reads, rfl⟩

theorem readValue_dict {text later : List Char} {members : JsonObject} {first : Char} {fuel : ℕ}
    (isHead : (skipBlanks text).head? = some first) (notClosing : first ≠ '\x7d')
    (reads : readMembers fuel (skipBlanks text) = .ok (members, later)) :
    readValue (fuel + 1) ('\x7b' :: text) = .ok (.obj (dictOf members), later) := by
  rw [readValue]
  split
  · rename_i shape
    rw [shape] at isHead
    cases isHead
    exact absurd rfl notClosing
  · exact bind_eq_ok.mpr ⟨_, reads, rfl⟩

/-- A value has a text, so there is fuel for one turn. -/
theorem readsBack_of_step {value : Json} (canonical : Canonical value)
    (step : ∀ (level fuel : ℕ) (rest : List Char), (dumpAt indent level value).length ≤ fuel + 1 → EndsNumber rest →
      readValue (fuel + 1) (dumpAt indent level value ++ rest) = .ok (value, rest)) : ReadsBack indent value := by
  intro level fuel rest enough ends
  obtain ⟨first, starts⟩ := startsValue_dumpAt canonical indent level
  have positive : 0 < (dumpAt indent level value).length := List.length_pos_of_mem (List.mem_of_head? starts.isHead)
  obtain ⟨fuel, rfl⟩ : ∃ less, fuel = less + 1 := ⟨fuel - 1, by omega⟩
  exact step level fuel rest enough ends

omit [FloatReader] in
theorem container_cons (indent : Option ℕ) (level : ℕ) (start stop : Char) (element : List Char) (others : List (List Char))
    (rest : List Char) : container indent level start stop (element :: others) ++ rest =
      start :: (breakAt indent (level + 1) ++ ((separatorAt indent (level + 1)).intercalate (element :: others) ++
        (breakAt indent level ++ stop :: rest))) := by
  rw [container, if_neg (List.cons_ne_nil _ _)]
  simp only [List.cons_append, List.append_assoc, List.nil_append]

omit [FloatReader] in
theorem length_container (indent : Option ℕ) (level : ℕ) (start stop : Char) (element : List Char) (others : List (List Char)) :
    ((separatorAt indent (level + 1)).intercalate (element :: others)).length + 2 ≤
      (container indent level start stop (element :: others)).length := by
  have shape := container_cons indent level start stop element others []
  rw [List.append_nil] at shape
  rw [shape]
  simp only [List.length_cons, List.length_append]
  omega

/-- **A canonical value is read from its text.** -/
theorem readValue_dumpAt {value : Json} (canonical : Canonical value) : ReadsBack indent value := by
  induction canonical with
  | null =>
    refine readsBack_of_step .null ?_
    intro level fuel rest _ _
    rfl
  | bool value =>
    refine readsBack_of_step (.bool value) ?_
    intro level fuel rest _ _
    cases value <;> rfl
  | str text =>
    refine readsBack_of_step (.str text) ?_
    intro level fuel rest _ _
    have shape : dumpAt indent level (.str text) ++ rest = '"' :: (text.toList.flatMap escapedChar ++ '"' :: rest) := by
      simp [dumpAt, quotedText]
    rw [shape]
    exact bind_eq_ok.mpr ⟨_, readText_quotedText text rest, rfl⟩
  | int small =>
    rename_i value
    refine readsBack_of_step (.int small) ?_
    intro level fuel rest _ ends
    rw [dumpAt, ← readNumber_toString small ends, toList_toString_int]
    obtain ⟨first, later, shape⟩ := List.exists_cons_of_ne_nil (Nat.toDigits_ne_nil (b := 10) (n := value.natAbs))
    have digit : isDigit first = true := isDigit_of_mem_toDigits (by rw [shape]; exact List.mem_cons_self)
    rw [shape]
    split_ifs
    · refine readValue_number (Or.inr rfl) ?_ fuel
      rintro - _ ⟨⟩ rfl
      cases digit
    · refine readValue_number (Or.inl digit) ?_ fuel
      rintro rfl
      cases digit
  | arr each ih =>
    rename_i items
    refine readsBack_of_step (.arr each) ?_
    intro level fuel rest enough _
    rw [dumpAt_arr] at enough ⊢
    cases items with
    | nil => rfl
    | cons item others =>
      obtain ⟨first, starts⟩ := startsValue_dumpAt (each item List.mem_cons_self) indent (level + 1)
      have joined := starts.intercalate (separatorAt indent (level + 1)) (others.map (dumpAt indent (level + 1)))
      rw [List.map_cons] at enough ⊢
      have long := length_container indent level '[' ']' (dumpAt indent (level + 1) item)
        (others.map (dumpAt indent (level + 1)))
      rw [container_cons]
      refine readValue_list ?_ starts.notClosing ?_
      · rw [skipBlanks_breakAt, joined.skip]
        exact joined.head?_append _
      · rw [skipBlanks_breakAt, joined.skip]
        refine readItems_intercalate (List.cons_ne_nil _ _) each (fun item member => ih item member) ?_
        rw [List.map_cons]
        omega
  | obj sorted each ih =>
    rename_i members
    refine readsBack_of_step (.obj sorted each) ?_
    intro level fuel rest enough _
    rw [dumpAt_obj sorted] at enough ⊢
    cases members with
    | nil => rfl
    | cons member others =>
      have joined := (startsValue_memberAt indent (level + 1) member).intercalate (separatorAt indent (level + 1))
        (others.map (memberAt indent (level + 1)))
      rw [List.map_cons] at enough ⊢
      have long := length_container indent level '\x7b' '\x7d' (memberAt indent (level + 1) member)
        (others.map (memberAt indent (level + 1)))
      rw [container_cons]
      conv_rhs => rw [← dictOf_sorted sorted]
      refine readValue_dict ?_ (show '"' ≠ '\x7d' by decide) ?_
      · rw [skipBlanks_breakAt, joined.skip]
        exact joined.head?_append _
      · rw [skipBlanks_breakAt, joined.skip]
        refine readMembers_intercalate (List.cons_ne_nil _ _) each (fun member inside => ih member inside) ?_
        rw [List.map_cons]
        omega

/-- **The round trip**: a canonical value is read back, with or without a line feed behind it. -/
theorem readJson_dumps {value : Json} (canonical : Canonical value) {rest : List Char}
    (blank : ∀ char ∈ rest, isBlank char = true) : readJson ((dumps indent value).toList ++ rest) = .ok value := by
  obtain ⟨first, starts⟩ := startsValue_dumpAt canonical indent 0
  have ends : EndsNumber rest := by
    intro char isHead
    have isBlank := blank char (List.mem_of_head? isHead)
    refine ⟨?_, ?_, ?_, ?_⟩
    · rw [Bool.eq_false_iff]
      intro digit
      rw [isBlank_of_isDigit digit] at isBlank
      cases isBlank
    all_goals
      rintro rfl
      cases isBlank
  have all : skipBlanks rest = [] := List.dropWhile_eq_nil_iff.mpr blank
  rw [readJson, dumps, String.toList_ofList, starts.skip]
  refine bind_eq_ok.mpr ⟨_, readValue_dumpAt canonical 0 _ rest ?_ ends, ?_⟩
  · rw [List.length_append]
    omega
  · exact bind_eq_ok.mpr ⟨(), check_eq_ok.mpr (by rw [all]; rfl), rfl⟩

end Elements

/-! ### Files are read back -/

/-- A character that `json.dumps` writes. -/
def IsJsonChar (char : Char) : Prop := char = '\n' ∨ 0x20 ≤ char.toNat ∧ char.toNat ≤ 0x7e

instance (char : Char) : Decidable (IsJsonChar char) :=
  inferInstanceAs (Decidable (char = '\n' ∨ 0x20 ≤ char.toNat ∧ char.toNat ≤ 0x7e))

theorem isJsonChar_digitChar : ∀ value < 16, IsJsonChar (Nat.digitChar value) := by decide

theorem isJsonChar_escapedUnit {unit : ℕ} (small : unit < 0x10000) : ∀ char ∈ escapedUnit unit, IsJsonChar char := by
  have quarter := isJsonChar_digitChar (unit / 4096) (by omega)
  have digit : ∀ value, IsJsonChar (Nat.digitChar (value % 16)) := fun value =>
    isJsonChar_digitChar _ (Nat.mod_lt _ (by decide))
  simp only [escapedUnit, List.map_cons, List.map_nil, List.forall_mem_cons]
  exact ⟨by decide, by decide, quarter, digit _, digit _, digit _, by simp⟩

theorem isJsonChar_escapedChar (char : Char) : ∀ other ∈ escapedChar char, IsJsonChar other := by
  have below := toNat_lt char
  unfold escapedChar
  split_ifs with quote backslash feed carriage tab back form printed small
  iterate 7 decide
  · intro other member
    rw [List.mem_singleton.mp member]
    exact Or.inr ⟨UInt32.le_iff_toNat_le.mp printed.1, UInt32.le_iff_toNat_le.mp printed.2⟩
  · exact isJsonChar_escapedUnit small
  · intro other member
    rcases List.mem_append.mp member with high | low
    · exact isJsonChar_escapedUnit (by omega) other high
    · exact isJsonChar_escapedUnit (by omega) other low

theorem isJsonChar_quotedText (text : String) : ∀ char ∈ quotedText text, IsJsonChar char := by
  intro char member
  rw [quotedText, List.mem_append, List.mem_cons, List.mem_flatMap, List.mem_singleton] at member
  rcases member with (rfl | ⟨escaped, -, inside⟩) | rfl
  · decide
  · exact isJsonChar_escapedChar escaped char inside
  · decide

theorem forall_mem_intercalate {holds : Char → Prop} {separator : List Char} {parts : List (List Char)}
    (between : ∀ char ∈ separator, holds char) (each : ∀ part ∈ parts, ∀ char ∈ part, holds char) :
    ∀ char ∈ separator.intercalate parts, holds char := by
  induction parts with
  | nil => simp
  | cons part later ih =>
    rw [List.forall_mem_cons] at each
    cases later with
    | nil =>
      rw [List.intercalate_singleton]
      exact each.1
    | cons next others =>
      intro char member
      rw [List.intercalate_cons_cons, List.mem_append, List.mem_append] at member
      rcases member with (inside | inside) | inside
      · exact each.1 char inside
      · exact between char inside
      · exact ih each.2 char inside

theorem isJsonChar_breakAt (indent : Option ℕ) (level : ℕ) : ∀ char ∈ breakAt indent level, IsJsonChar char := by
  cases indent with
  | none => simp [breakAt]
  | some width =>
    intro char member
    rcases List.mem_cons.mp member with rfl | inside
    · decide
    · rw [List.eq_of_mem_replicate inside]
      decide

theorem isJsonChar_container {indent : Option ℕ} {level : ℕ} {start stop : Char} {elements : List (List Char)}
    (ends : IsJsonChar start ∧ IsJsonChar stop) (each : ∀ element ∈ elements, ∀ char ∈ element, IsJsonChar char) :
    ∀ char ∈ container indent level start stop elements, IsJsonChar char := by
  have between : ∀ char ∈ separatorAt indent (level + 1), IsJsonChar char := by
    unfold separatorAt
    split
    · exact List.forall_mem_cons.mpr ⟨by decide, isJsonChar_breakAt indent (level + 1)⟩
    · decide
  intro char member
  unfold container at member
  split at member
  · simp only [List.mem_cons, List.not_mem_nil, or_false] at member
    rcases member with rfl | rfl
    · exact ends.1
    · exact ends.2
  · simp only [List.cons_append, List.mem_cons, List.mem_append, List.not_mem_nil, or_false] at member
    rcases member with rfl | ((inside | inside) | inside) | rfl
    · exact ends.1
    · exact isJsonChar_breakAt indent (level + 1) char inside
    · exact forall_mem_intercalate between each char inside
    · exact isJsonChar_breakAt indent level char inside
    · exact ends.2

theorem isJsonChar_dumpAt {value : Json} (canonical : Canonical value) (indent : Option ℕ) (level : ℕ) :
    ∀ char ∈ dumpAt indent level value, IsJsonChar char := by
  induction canonical generalizing level with
  | null =>
    show ∀ char ∈ "null".toList, IsJsonChar char
    decide
  | bool value =>
    show ∀ char ∈ if value then "true".toList else "false".toList, IsJsonChar char
    cases value <;> decide
  | str text => exact isJsonChar_quotedText text
  | int small =>
    rename_i value
    have digits : ∀ char ∈ Nat.toDigits 10 value.natAbs, IsJsonChar char := by
      intro char member
      obtain ⟨digit, small, rfl⟩ := mem_toDigits (by decide) _ char member
      exact isJsonChar_digitChar digit (by omega)
    rw [dumpAt, toList_toString_int]
    split_ifs
    · exact List.forall_mem_cons.mpr ⟨by decide, digits⟩
    · exact digits
  | arr each ih =>
    rw [dumpAt_arr]
    refine isJsonChar_container (by decide) fun element member => ?_
    obtain ⟨item, inside, rfl⟩ := List.mem_map.mp member
    exact ih item inside (level + 1)
  | obj sorted each ih =>
    rw [dumpAt_obj sorted]
    refine isJsonChar_container (by decide) fun element inside => ?_
    obtain ⟨member, isMember, rfl⟩ := List.mem_map.mp inside
    intro char here
    rw [memberAt, memberText, List.mem_append, List.mem_cons, List.mem_cons] at here
    rcases here with name | rfl | rfl | value
    · exact isJsonChar_quotedText member.1 char name
    · decide
    · decide
    · exact ih member isMember (level + 1) char value

/-- **The round trip through a file.** -/
theorem readJsonFile_dumps [FloatReader] {value : Json} (canonical : Canonical value) (indent : Option ℕ) :
    readJsonFile (utf8Bytes (dumps indent value ++ "\n")) = .ok value := by
  have noReturn : '\r' ∉ (dumps indent value ++ "\n").toList := by
    rw [String.toList_append, List.mem_append, dumps, String.toList_ofList]
    rintro (inside | inside)
    · exact absurd (isJsonChar_dumpAt canonical indent 0 _ inside) (by decide)
    · exact absurd inside (by decide)
  refine bind_eq_ok.mpr ⟨_, required_eq_ok.mpr (decodeUtf8_utf8Bytes _), ?_⟩
  rw [universalNewlines_of_notMem noReturn, String.toList_append]
  exact readJson_dumps canonical (by decide)

end JsonText
