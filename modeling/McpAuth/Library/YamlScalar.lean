/-
**Scalars of YAML — plain, single-quoted and double-quoted.**

A scalar is what a text spells (`Scalar.text`) and the string a reader of YAML takes from it (`Scalar.value`). A
plain scalar stands for itself, a single-quoted one doubles its quotes, and a double-quoted one has escapes: of
one character, by code point, and of the end of a row.

`Scalar.WellFormed` leaves out scalars that fold a line feed into a space.
-/

import McpAuth.Library.PyNumbers
import McpAuth.Library.TextRows

namespace YamlScalar

open PyText PyNumbers TextRows

/-- A space or a tab: `s-white`. -/
def isWhite (char : Char) : Bool := char == ' ' || char == '\t'

theorem isSpace_of_isWhite {char : Char} (white : isWhite char = true) : isSpace char = true := by
  rw [isWhite, Bool.or_eq_true, beq_iff_eq, beq_iff_eq] at white
  rcases white with rfl | rfl
  · rfl
  · rfl

/-! ### Pieces of a double-quoted scalar -/

/-- A piece of a double-quoted scalar. -/
inductive Piece
  | literal (char : Char)
  /-- A backslash and a letter. -/
  | escape (letter : Char)
  /-- A backslash, `x`, `u` or `U`, and the digits of a code point. -/
  | code (letter : Char) (digits : Row)
  /-- A backslash at the end of a row, with the indentation of the next one. -/
  | fold (indent : ℕ)
  deriving DecidableEq

/-- The escapes of one character. -/
def escapes : List (Char × Char) :=
  [('0', '\x00'), ('a', '\x07'), ('b', '\x08'), ('t', '\t'), ('\t', '\t'), ('n', '\n'), ('v', '\x0b'), ('f', '\x0c'),
    ('r', '\r'), ('e', '\x1b'), (' ', ' '), ('"', '"'), ('/', '/'), ('\\', '\\'), ('N', '\u0085'), ('_', '\u00a0'),
    ('L', '\u2028'), ('P', '\u2029')]

/-- How many digits follow `x`, `u` and `U`. -/
def codeLengths : List (Char × ℕ) := [('x', 2), ('u', 4), ('U', 8)]

def Piece.text : Piece → Row
  | .literal char => [char]
  | .escape letter => ['\\', letter]
  | .code letter digits => '\\' :: letter :: digits
  | .fold indent => '\\' :: '\n' :: List.replicate indent ' '

def Piece.value : Piece → Row
  | .literal char => [char]
  | .escape letter => (escapes.lookup letter).toList
  | .code _ digits => (digits.mapM hexDigit).elim [] fun values => [Char.ofNat (digitsValue 16 values)]
  | .fold _ => []

def Piece.WellFormed : Piece → Prop
  | .literal char => char ≠ '"' ∧ char ≠ '\\' ∧ char ≠ '\n'
  | .escape letter => (escapes.lookup letter).isSome
  | .code letter digits => codeLengths.lookup letter = some digits.length ∧ (digits.mapM hexDigit).isSome
  | .fold _ => True

/-! ### Scalars -/

/-- A scalar in one of its styles. -/
inductive Scalar
  | plain (content : Row)
  | single (content : Row)
  | double (pieces : List Piece)
  deriving DecidableEq

/-- A quote inside a single-quoted scalar is doubled. -/
def quoted (char : Char) : Row := if char = '\'' then ['\'', '\''] else [char]

/-- How the scalar is spelled. -/
def Scalar.text : Scalar → Row
  | .plain content => content
  | .single content => '\'' :: (content.flatMap quoted ++ ['\''])
  | .double pieces => '"' :: (pieces.flatMap Piece.text ++ ['"'])

/-- The string that the scalar denotes. -/
def Scalar.value : Scalar → Row
  | .plain content => content
  | .single content => content
  | .double pieces => pieces.flatMap Piece.value

/-- Characters that a plain scalar cannot begin with. -/
def indicators : List Char :=
  ['-', '?', ':', ',', '[', ']', '\x7b', '\x7d', '#', '&', '*', '!', '|', '>', '\'', '"', '%', '@', '\x60']

/-- Two characters that may follow each other in a plain scalar. -/
def Together (first second : Char) : Prop :=
  ¬ (first = ':' ∧ isWhite second = true) ∧ ¬ (isWhite first = true ∧ second = '#')

instance : DecidableRel Together := fun _ _ => inferInstanceAs (Decidable (_ ∧ _))

/-- A plain scalar on one row. `-`, `?` and `:` begin one when a character follows that is not white space. -/
structure IsPlain (content : Row) : Prop where
  begins : ∀ char ∈ content.head?, isWhite char = false ∧ (char ∈ indicators → char ∈ ['-', '?', ':'] ∧
    ∃ next ∈ content.tail.head?, isWhite next = false)
  nonempty : content ≠ []
  together : content.IsChain Together
  ends : ∀ char ∈ content.getLast?, isWhite char = false ∧ char ≠ ':'
  oneRow : '\n' ∉ content

def Scalar.WellFormed : Scalar → Prop
  | .plain content => IsPlain content
  | .single content => '\n' ∉ content
  | .double pieces => ∀ piece ∈ pieces, piece.WellFormed

/-- What a scalar begins with: a quote, or the content of a plain one. -/
theorem Scalar.head_text (scalar : Scalar) :
    (∃ quote ∈ ['\'', '"'], ∃ rest, scalar.text = quote :: (rest ++ [quote])) ∨ scalar.text = scalar.value := by
  cases scalar with
  | plain content => exact Or.inr rfl
  | single content => exact Or.inl ⟨'\'', by decide, _, rfl⟩
  | double pieces => exact Or.inl ⟨'"', by decide, _, rfl⟩

/-- What can stand behind a scalar on its row: white space, and a comment behind that. -/
structure Trailing (row : Row) : Prop where
  begins : ∀ first ∈ row.head?, isWhite first = true
  comment : ∀ first ∈ (row.dropWhile isWhite).head?, first = '#'
  oneRow : '\n' ∉ row

theorem Trailing.nil : Trailing [] := ⟨by simp, by simp, by simp⟩

/-- Behind any white space, only a comment follows. -/
theorem Trailing.hash {row : Row} (trailing : Trailing row) : ∀ first ∈ (row.dropWhile isSpace).head?, first = '#' := by
  have blank : ∀ char ∈ row.takeWhile isWhite, isSpace char = true := fun char member =>
    isSpace_of_isWhite (List.mem_takeWhile_imp member)
  rw [← List.takeWhile_append_dropWhile (p := isWhite) (l := row), List.dropWhile_append_of_pos blank]
  cases rest : row.dropWhile isWhite with
  | nil =>
    rintro _ ⟨⟩
  | cons first others =>
    have hash := trailing.comment first (by rw [rest]; rfl)
    rw [hash]
    rintro _ ⟨⟩
    rfl

end YamlScalar
