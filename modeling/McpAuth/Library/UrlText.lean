/-
**The text of a URL and its normal spelling.**

`UrlParts` is a text `scheme://netloc tail`, cut where a URL parser cuts it; `UrlParts.ofText` reads one
and `ofText_text` says that it reads back what was written. `normalizedText` lowers the scheme and the host
and removes a port that is empty or the scheme's default one.

`normalizedText_eq_self_iff`: a text is its own normal spelling exactly when its scheme and its netloc are,
whatever the tail is.
-/

import McpAuth.Library.UrlSplit

namespace UrlText

open PyText PyNumbers UrlSplit

/-! ### The parts of a text -/

/-- A text `scheme://netloc tail`. -/
structure UrlParts where
  scheme : List Char
  netloc : List Char
  tail : List Char
  scheme_free : ':' ∉ scheme
  netloc_free : ∀ char ∈ netloc, isNetlocEnd char = false
  tail_starts : ∀ char ∈ tail.head?, isNetlocEnd char = true

namespace UrlParts

def text (parts : UrlParts) : List Char := parts.scheme ++ [':', '/', '/'] ++ parts.netloc ++ parts.tail

theorem ext_parts {first second : UrlParts} (scheme : first.scheme = second.scheme)
    (netloc : first.netloc = second.netloc) (tail : first.tail = second.tail) : first = second := by
  cases first
  cases second
  simp_all

/-- The authority of a text after its `//`. -/
def authority (rest : List Char) : List Char := rest.takeWhile fun char => !isNetlocEnd char

/-- What follows the authority. -/
def afterAuthority (rest : List Char) : List Char := rest.dropWhile fun char => !isNetlocEnd char

theorem before_free (char : Char) (text : List Char) : char ∉ before char text := by
  intro member
  simpa using List.mem_takeWhile_imp member

theorem authority_free (rest : List Char) : ∀ char ∈ authority rest, isNetlocEnd char = false := by
  intro char member
  simpa using List.mem_takeWhile_imp member

theorem afterAuthority_starts (rest : List Char) :
    ∀ char ∈ (afterAuthority rest).head?, isNetlocEnd char = true := by
  intro char isHead
  have stops := List.head?_dropWhile_not (fun char => !isNetlocEnd char) rest
  rw [show (rest.dropWhile fun char => !isNetlocEnd char).head? = some char from isHead] at stops
  simpa using stops

/-- The parts of a text. -/
def ofText (text : List Char) : Option UrlParts :=
  if (after ':' text).take 2 = ['/', '/'] then
    some
      { scheme := before ':' text
        netloc := authority ((after ':' text).drop 2)
        tail := afterAuthority ((after ':' text).drop 2)
        scheme_free := before_free ':' text
        netloc_free := authority_free _
        tail_starts := afterAuthority_starts _ }
  else none

theorem before_append {char : Char} {first : List Char} (free : char ∉ first) (later : List Char) :
    before char (first ++ char :: later) = first := by
  have passes : ∀ other ∈ first, decide (other ≠ char) = true := by
    intro other member
    rw [decide_eq_true_eq]
    rintro rfl
    exact free member
  rw [before, List.takeWhile_append_of_pos passes, List.takeWhile_cons_of_neg (by simp), List.append_nil]

theorem after_append {char : Char} {first : List Char} (free : char ∉ first) (later : List Char) :
    after char (first ++ char :: later) = later := by
  have passes : ∀ other ∈ first, decide (other ≠ char) = true := by
    intro other member
    rw [decide_eq_true_eq]
    rintro rfl
    exact free member
  rw [after, List.dropWhile_append_of_pos passes, List.dropWhile_cons_of_neg (by simp), List.drop_one,
    List.tail_cons]

theorem authority_append {netloc tail : List Char} (free : ∀ char ∈ netloc, isNetlocEnd char = false)
    (starts : ∀ char ∈ tail.head?, isNetlocEnd char = true) :
    authority (netloc ++ tail) = netloc ∧ afterAuthority (netloc ++ tail) = tail := by
  have passes : ∀ char ∈ netloc, (!isNetlocEnd char) = true := by
    intro char member
    simp [free char member]
  rw [authority, afterAuthority, List.takeWhile_append_of_pos passes, List.dropWhile_append_of_pos passes]
  cases tail with
  | nil => simp
  | cons first later =>
    have stops : isNetlocEnd first = true := starts first rfl
    simp [stops]

/-- **A text is read back into its parts.** -/
theorem ofText_text (parts : UrlParts) : ofText parts.text = some parts := by
  have shape : parts.text = parts.scheme ++ ':' :: '/' :: '/' :: (parts.netloc ++ parts.tail) := by
    simp [text]
  obtain ⟨isNetloc, isTail⟩ := authority_append parts.netloc_free parts.tail_starts
  have rest : after ':' parts.text = '/' :: '/' :: (parts.netloc ++ parts.tail) := by
    rw [shape, after_append parts.scheme_free]
  have slashes : (after ':' parts.text).take 2 = ['/', '/'] := by rw [rest]; rfl
  rw [ofText, if_pos slashes, Option.some.injEq]
  refine ext_parts ?_ ?_ ?_
  · show before ':' parts.text = parts.scheme
    rw [shape, before_append parts.scheme_free]
  · show authority ((after ':' parts.text).drop 2) = parts.netloc
    rw [rest]
    exact isNetloc
  · show afterAuthority ((after ':' parts.text).drop 2) = parts.tail
    rw [rest]
    exact isTail

/-- **What the parts of a text are parts of.** -/
theorem text_of_ofText {text : List Char} {parts : UrlParts} (read : ofText text = some parts) :
    parts.text = text := by
  unfold ofText at read
  split at read
  · rename_i slashes
    cases read
    have rest : after ':' text = '/' :: '/' :: (after ':' text).drop 2 := by
      have split := List.take_append_drop 2 (after ':' text)
      rw [slashes] at split
      exact split.symm
    have colon : text = before ':' text ++ ':' :: after ':' text := by
      have stops := List.head?_dropWhile_not (fun char => decide (char ≠ ':')) text
      have split : before ':' text ++ text.dropWhile (· ≠ ':') = text := List.takeWhile_append_dropWhile
      cases dropped : text.dropWhile (· ≠ ':') with
      | nil =>
        rw [after, dropped] at rest
        cases rest
      | cons first later =>
        rw [show text.dropWhile (fun char => decide (char ≠ ':')) = first :: later from dropped] at stops
        have isColon : first = ':' := by simpa using stops
        rw [isColon] at dropped
        rw [after, dropped, List.drop_one, List.tail_cons, ← dropped]
        exact split.symm
    have parted : authority ((after ':' text).drop 2) ++ afterAuthority ((after ':' text).drop 2) =
        (after ':' text).drop 2 := List.takeWhile_append_dropWhile
    calc before ':' text ++ [':', '/', '/'] ++ authority ((after ':' text).drop 2) ++
          afterAuthority ((after ':' text).drop 2)
        = before ':' text ++ ':' :: '/' :: '/' :: (authority ((after ':' text).drop 2) ++
          afterAuthority ((after ':' text).drop 2)) := by simp
      _ = before ':' text ++ ':' :: after ':' text := by rw [parted, ← rest]
      _ = text := colon.symm
  · cases read

end UrlParts

/-! ### The parts that `urlsplit` reads -/

/-- The scheme in lower case, without spaces before it. -/
def schemeName (scheme : List Char) : List Char :=
  (scheme.dropWhile fun char => char.toNat ≤ 0x20).map asciiLowerChar

/-- **`urlsplit` reads the parts of a text** without control characters. -/
structure SplitOf (parts : UrlParts) (parsed : SplitResult) : Prop where
  scheme : parsed.scheme = String.ofList (schemeName parts.scheme)
  netloc : parsed.netloc = String.ofList parts.netloc
  path : parsed.path = String.ofList (before '?' (before '#' parts.tail))
  query : parsed.query = String.ofList (after '?' (before '#' parts.tail))
  fragment : parsed.fragment = String.ofList (after '#' parts.tail)

/-- Spaces before a text are no part of what follows its first colon. -/
theorem after_dropWhile (text : List Char) :
    after ':' (text.dropWhile fun char => char.toNat ≤ 0x20) = after ':' text ∧
      before ':' (text.dropWhile fun char => char.toNat ≤ 0x20) =
        (before ':' text).dropWhile fun char => char.toNat ≤ 0x20 := by
  induction text with
  | nil => simp [after, before]
  | cons first later ih =>
    by_cases space : first.toNat ≤ 0x20
    · have other : first ≠ ':' := by
        rintro rfl
        exact absurd space (by decide)
      simpa [after, before, space, other] using ih
    · by_cases colon : first = ':'
      · simp [after, before, colon]
      · simp [after, before, space, colon]

/-- What passes two checks. -/
theorem eq_of_checked {α : Type} {first second : Prop} [Decidable first] [Decidable second] {value result : α}
    (checked : (if first then none else if second then none else some value) = some result) :
    value = result := by
  split at checked
  · cases checked
  · split at checked
    · cases checked
    · exact Option.some.inj checked

/-- A text without control characters is read as it stands, apart from the spaces before it. -/
theorem filter_clean {text : List Char} (clean : ∀ char ∈ text, ¬ char.toNat < 0x20) :
    (text.dropWhile fun char => char.toNat ≤ 0x20).filter
        (fun char => !(char == '\t' || char == '\r' || char == '\n')) =
      text.dropWhile fun char => char.toNat ≤ 0x20 := by
  refine List.filter_eq_self.mpr fun char member => ?_
  have printable := clean char ((List.dropWhile_suffix _).subset member)
  have notTab : char ≠ '\t' := by
    rintro rfl
    exact printable (by decide)
  have notReturn : char ≠ '\r' := by
    rintro rfl
    exact printable (by decide)
  have notNewline : char ≠ '\n' := by
    rintro rfl
    exact printable (by decide)
  simp [notTab, notReturn, notNewline]

theorem urlsplit_parts [UnicodeTables] {url : String} {parsed : SplitResult}
    (split : urlsplit url = some parsed) (clean : ∀ char ∈ url.toList, ¬ char.toNat < 0x20)
    (scheme : parsed.scheme ≠ "") (netloc : parsed.netloc ≠ "") :
    ∃ parts : UrlParts, url.toList = parts.text ∧ SplitOf parts parsed := by
  obtain ⟨sameAfter, sameBefore⟩ := after_dropWhile url.toList
  unfold urlsplit at split
  rw [filter_clean clean] at split
  generalize url.toList.dropWhile (fun char => char.toNat ≤ 0x20) = stripped at split sameAfter sameBefore
  dsimp only at split
  have isScheme : splitScheme stripped =
      (schemeName (before ':' url.toList), after ':' url.toList) := by
    by_contra other
    have noScheme : splitScheme stripped = ([], stripped) := by
      by_cases hasScheme : ':' ∈ stripped ∧ (before ':' stripped).head?.any isAlpha ∧
          (before ':' stripped).all isSchemeChar
      · refine absurd ?_ other
        rw [splitScheme, if_pos hasScheme, sameAfter, sameBefore]
        rfl
      · exact if_neg hasScheme
    rw [noScheme] at split
    exact scheme (eq_of_checked split ▸ rfl)
  rw [isScheme] at split
  dsimp only at split
  have slashes : (after ':' url.toList).take 2 = ['/', '/'] := by
    by_contra none
    rw [if_neg none, if_neg none] at split
    exact netloc (eq_of_checked split ▸ rfl)
  rw [if_pos slashes, if_pos slashes] at split
  obtain rfl := eq_of_checked split
  exact ⟨_, (UrlParts.text_of_ofText (if_pos slashes)).symm, rfl, rfl, rfl, rfl, rfl⟩

/-- A scheme that `urlsplit` recognises. -/
def IsScheme (scheme : List Char) : Prop :=
  (scheme.dropWhile fun char => char.toNat ≤ 0x20).head?.any isAlpha = true ∧
    (scheme.dropWhile fun char => char.toNat ≤ 0x20).all isSchemeChar = true

/-- What `urlsplit` makes of the parts of a text. -/
def UrlParts.split (parts : UrlParts) : SplitResult where
  scheme := String.ofList (schemeName parts.scheme)
  netloc := String.ofList parts.netloc
  path := String.ofList (before '?' (before '#' parts.tail))
  query := String.ofList (after '?' (before '#' parts.tail))
  fragment := String.ofList (after '#' parts.tail)

theorem UrlParts.after_text (parts : UrlParts) :
    ':' ∈ parts.text ∧ before ':' parts.text = parts.scheme ∧
      after ':' parts.text = '/' :: '/' :: (parts.netloc ++ parts.tail) := by
  have shape : parts.text = parts.scheme ++ ':' :: '/' :: '/' :: (parts.netloc ++ parts.tail) := by
    simp [UrlParts.text]
  refine ⟨by simp [shape], ?_, ?_⟩
  · rw [shape, UrlParts.before_append parts.scheme_free]
  · rw [shape, UrlParts.after_append parts.scheme_free]

/-- The colon of a text is behind the spaces before it. -/
theorem mem_dropWhile_colon {text : List Char} (colon : ':' ∈ text) :
    ':' ∈ text.dropWhile fun char => char.toNat ≤ 0x20 := by
  rw [← List.takeWhile_append_dropWhile (p := fun char : Char => decide (char.toNat ≤ 0x20)) (l := text)] at colon
  rcases List.mem_append.mp colon with skipped | kept
  · have space := List.mem_takeWhile_imp skipped
    exact absurd space (by decide)
  · exact kept

/-- The scheme of a text is recognised, or the whole text is read without one. -/
theorem splitScheme_text (parts : UrlParts) :
    (IsScheme parts.scheme → splitScheme (parts.text.dropWhile fun char => char.toNat ≤ 0x20) =
        (schemeName parts.scheme, '/' :: '/' :: (parts.netloc ++ parts.tail))) ∧
      (¬ IsScheme parts.scheme → (splitScheme (parts.text.dropWhile fun char => char.toNat ≤ 0x20)).1 = []) := by
  obtain ⟨colon, isBefore, isAfter⟩ := parts.after_text
  obtain ⟨sameAfter, sameBefore⟩ := after_dropWhile parts.text
  rw [isBefore] at sameBefore
  rw [isAfter] at sameAfter
  constructor
  · rintro ⟨alpha, chars⟩
    rw [splitScheme, sameBefore, sameAfter, if_pos ⟨mem_dropWhile_colon colon, alpha, chars⟩]
    rfl
  · intro unnamed
    rw [splitScheme, sameBefore, if_neg]
    rintro ⟨-, alpha, chars⟩
    exact unnamed ⟨alpha, chars⟩

section Reading

variable [UnicodeTables]

/-- **What `urlsplit` does with a text that has a scheme**: only the netloc can be refused. -/
theorem urlsplit_text {url : String} {parts : UrlParts} (isText : url.toList = parts.text)
    (clean : ∀ char ∈ parts.text, ¬ char.toNat < 0x20) (named : IsScheme parts.scheme) :
    urlsplit url =
      if (('[' ∈ parts.netloc) ≠ (']' ∈ parts.netloc)) ∨ ('[' ∈ parts.netloc ∧ !bracketedNetlocOk parts.netloc)
      then none
      else if !netlocOk parts.netloc then none else some parts.split := by
  obtain ⟨isNetloc, isTail⟩ := UrlParts.authority_append parts.netloc_free parts.tail_starts
  rw [UrlParts.authority] at isNetloc
  rw [UrlParts.afterAuthority] at isTail
  unfold urlsplit
  rw [isText, filter_clean clean]
  dsimp only
  rw [(splitScheme_text parts).1 named]
  simp only [List.take_succ_cons, List.take_zero, List.drop_succ_cons, List.drop_zero, if_true, isNetloc, isTail]
  rfl

theorem isScheme_of_urlsplit {url : String} {parts : UrlParts} {parsed : SplitResult}
    (isText : url.toList = parts.text) (clean : ∀ char ∈ parts.text, ¬ char.toNat < 0x20)
    (split : urlsplit url = some parsed) (scheme : parsed.scheme ≠ "") : IsScheme parts.scheme := by
  by_contra unnamed
  have noScheme := (splitScheme_text parts).2 unnamed
  unfold urlsplit at split
  rw [isText, filter_clean clean] at split
  dsimp only at split
  refine scheme ?_
  rw [← eq_of_checked split, noScheme]

/-- **Only the tail is read anew** where two texts have the same scheme and netloc. -/
theorem urlsplit_retailed {first second : String} {parts retailed : UrlParts} {parsed : SplitResult}
    (isFirst : first.toList = parts.text) (isSecond : second.toList = retailed.text)
    (clean : ∀ char ∈ parts.text, ¬ char.toNat < 0x20) (clean' : ∀ char ∈ retailed.text, ¬ char.toNat < 0x20)
    (sameScheme : retailed.scheme = parts.scheme) (sameNetloc : retailed.netloc = parts.netloc)
    (split : urlsplit first = some parsed) (scheme : parsed.scheme ≠ "") :
    urlsplit second = some retailed.split := by
  have named := isScheme_of_urlsplit isFirst clean split scheme
  rw [urlsplit_text isFirst clean named] at split
  rw [urlsplit_text isSecond clean' (sameScheme ▸ named), sameNetloc]
  split at split
  · cases split
  · rename_i bracketed
    split at split
    · cases split
    · rename_i checked
      rw [if_neg bracketed, if_neg checked]

end Reading

/-! ### Normal spelling -/

/-- The netloc before its host. -/
def userinfoText (netloc : List Char) : List Char :=
  if '@' ∈ netloc then beforeLast '@' netloc ++ ['@'] else []

/-- The host of `host:port`, with the brackets of an address. -/
def hostText (hostport : List Char) : List Char :=
  if '[' ∈ hostport then before ']' hostport ++ [']'] else before ':' hostport

/-- The port of `host:port`, with its colon. -/
def portText (hostport : List Char) : List Char :=
  if '[' ∈ hostport then after ']' hostport else hostport.dropWhile (· ≠ ':')

/-- The default port of a scheme. -/
def schemePort (scheme : List Char) : Option ℕ :=
  if scheme = ['h', 't', 't', 'p', 's'] then some 443
  else if scheme = ['h', 't', 't', 'p'] then some 80 else none

/-- A port that is empty or the default one of its scheme. -/
def isDefaultPort (scheme : List Char) : List Char → Bool
  | ':' :: digits => digits.all isDigit &&
    (digits.isEmpty ||
      some (digitsValue 10 (digits.map fun char => char.toNat - '0'.toNat)) == schemePort scheme)
  | _ => false

section Spelling

variable [UnicodeTables]

/-- The netloc with a lowered host and without a default port. -/
def normalizedNetloc (scheme netloc : List Char) : List Char :=
  let hostport := afterLast '@' netloc
  userinfoText netloc ++ (lower (String.ofList (hostText hostport))).toList ++
    if isDefaultPort (schemeName scheme) (portText hostport) then [] else portText hostport

/-- **The text with its scheme and host lowered and a default port removed.** -/
def normalizedText (url : String) : String :=
  match UrlParts.ofText url.toList with
  | none => url
  | some parts => String.ofList (parts.scheme.map asciiLowerChar ++ [':', '/', '/'] ++
      normalizedNetloc parts.scheme parts.netloc ++ parts.tail)

/-- A netloc and a scheme that are spelled normally. -/
def UrlParts.Normal (parts : UrlParts) : Prop :=
  parts.scheme.map asciiLowerChar = parts.scheme ∧ normalizedNetloc parts.scheme parts.netloc = parts.netloc

/-- **Only the scheme and the netloc decide** whether a text is spelled normally. -/
theorem normalizedText_eq_self_iff {url : String} {parts : UrlParts} (isText : url.toList = parts.text) :
    normalizedText url = url ↔ parts.Normal := by
  have read : UrlParts.ofText url.toList = some parts := by rw [isText, UrlParts.ofText_text]
  have chars : normalizedText url = url ↔ parts.scheme.map asciiLowerChar ++ [':', '/', '/'] ++
      normalizedNetloc parts.scheme parts.netloc ++ parts.tail = parts.text := by
    rw [normalizedText, read, ← isText]
    constructor
    · intro same
      simpa using congrArg String.toList same
    · intro same
      rw [← String.ofList_toList (s := url), ← same]
  rw [chars, UrlParts.text, UrlParts.Normal]
  constructor
  · intro same
    obtain ⟨scheme, netloc⟩ := List.append_inj (by simpa using same) (List.length_map _)
    exact ⟨scheme, by simpa using netloc⟩
  · rintro ⟨scheme, netloc⟩
    rw [scheme, netloc]

end Spelling

end UrlText
