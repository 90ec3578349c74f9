/-
**Where the log redactor hides what it is to hide.**

A site is a sensitive key, a credential behind `bearer`, or a value behind a name and `=`; its fillings are the values
that differ only there. `redaction_hides_iff`: all fillings of a site have one redaction exactly when the place hides
everything, or the site is free.

* A credential is free unless an earlier bearer match takes its keyword: of two keywords in a row the second one is the
  credential of the first one, and what follows it stays.
* A value is free unless an earlier bearer match takes its name, which ends at a `,` or `;` of the value, or the text
  behind it straddles: it goes on with the end of a keyword, white space and a credential, so that it depends on the end
  of the value whether there is a bearer match.
-/

import McpAuth.Entrypoints.RedactionScan

namespace McpAuth

open PyText PyNumbers Substitution

/-! ### Words in front of white space -/

/-- The text is the end of a keyword. -/
def EndsKeyword (text : List Char) : Prop := ∃ missing, MatchesWord bearerWord (missing ++ text)

theorem EndsKeyword.chars {text : List Char} (ends : EndsKeyword text) : ∀ char ∈ text, isValueChar char = true := by
  obtain ⟨missing, isKeyword⟩ := ends
  exact fun char member => (bearer_chars isKeyword char (List.mem_append_right _ member)).2

theorem not_isSpace_of_isValueChar {char : Char} (isChar : isValueChar char = true) : isSpace char = false := by
  rw [isValueChar, Bool.and_eq_true] at isChar
  simpa using isChar.1

theorem isValueChar_of_isSpace {char : Char} (space : isSpace char = true) : isValueChar char = false := by
  rw [isValueChar, space, Bool.not_true, Bool.false_and]

theorem isCredentialChar_of_isSpace {char : Char} (space : isSpace char = true) : isCredentialChar char = false := by
  rw [isCredentialChar, space, Bool.not_true, Bool.false_and, Bool.false_and]

/-- Where a word in front of white space ends. -/
theorem word_run {word behind : List Char} (chars : ∀ char ∈ word, isSpace char = false)
    (ends : ∀ char ∈ behind.head?, isSpace char = true) :
    (word ++ behind).takeWhile (fun char => !isSpace char) = word ∧
      (word ++ behind).dropWhile (fun char => !isSpace char) = behind :=
  takeWhile_run (fun char member => by rw [chars char member, Bool.not_false])
    (fun char isHead => by rw [ends char isHead, Bool.not_true])

section Words

variable [WordTable]

/-- A match that begins in a word in front of white space takes the word for the keyword. -/
theorem bearerMatch_of_word {prev : Option Char} {word behind : List Char} (chars : ∀ char ∈ word, isSpace char = false)
    (ends : ∀ char ∈ behind.head?, isSpace char = true) (matched : bearerPattern prev (word ++ behind) ≠ none) :
    ∃ space credential rest, behind = space ++ (credential ++ rest) ∧ BearerMatch prev word space credential rest := by
  obtain ⟨keyword, space, credential, rest, shape, isMatch⟩ := exists_bearerMatch matched
  have ofWord := word_run chars ends
  have spaceHead : ∀ char ∈ (space ++ (credential ++ rest)).head?, isSpace char = true := by
    obtain ⟨first, others, rfl⟩ := List.exists_cons_of_ne_nil isMatch.space.1
    intro char isHead
    cases isHead
    exact isMatch.space.2 _ List.mem_cons_self
  have ofKeyword := word_run
    (fun char member => not_isSpace_of_isCredentialChar (bearer_chars isMatch.keyword char member).1) spaceHead
  rw [shape] at ofWord
  obtain rfl : word = keyword := ofWord.1.symm.trans ofKeyword.1
  exact ⟨space, credential, rest, ofWord.2.symm.trans ofKeyword.2, isMatch⟩

/-- **A word in front of white space** stays, or its end is a keyword and the credential behind it is replaced. -/
theorem scan_word {prev : Option Char} {word behind : List Char} (chars : ∀ char ∈ word, isSpace char = false)
    (ends : ∀ char ∈ behind.head?, isSpace char = true) :
    subFrom bearerPattern 0 prev (word ++ behind) = word ++ subFrom bearerPattern 0 none behind ∨
      ∃ first keyword space credential rest, word = first ++ keyword ∧ behind = space ++ (credential ++ rest) ∧
        BearerMatch (lastOf prev first) keyword space credential rest ∧
        subFrom bearerPattern 0 prev (word ++ behind) =
          first ++ (bearerRedacted ++ subFrom bearerPattern 0 none rest) := by
  induction word generalizing prev with
  | nil =>
    left
    exact subFrom_congr (bearerPattern_behind none fun char isHead => isCredentialChar_of_isSpace (ends char isHead))
  | cons char word ih =>
    by_cases unmatched : bearerPattern prev (char :: word ++ behind) = none
    · have scans : subFrom bearerPattern 0 prev (char :: word ++ behind) =
          char :: subFrom bearerPattern 0 (some char) (word ++ behind) := subFrom_none unmatched
      rw [scans]
      have later := @ih (some char) fun next member => chars next (List.mem_cons_of_mem _ member)
      rcases later with stays | ⟨first, keyword, space, credential, rest, rfl, isBehind, isMatch, replaced⟩
      · left
        rw [stays, List.cons_append]
      · right
        refine ⟨char :: first, keyword, space, credential, rest, rfl, isBehind, ?_, ?_⟩
        · rwa [lastOf_cons]
        · rw [replaced, List.cons_append]
    · obtain ⟨space, credential, rest, rfl, isMatch⟩ := bearerMatch_of_word chars ends unmatched
      exact Or.inr ⟨[], char :: word, space, credential, rest, rfl, rfl, isMatch, subFrom_bearerMatch isMatch⟩

/-- **Behind a word that is no end of a keyword**, what a text becomes does not depend on what stands before the word. -/
theorem scan_fixed {word behind : List Char} (chars : ∀ char ∈ word, isSpace char = false)
    (ends : ∀ char ∈ behind.head?, isSpace char = true) (other : ¬ EndsKeyword word) :
    ∃ out, ∀ first prev, (∀ char ∈ first, isSpace char = false) →
      subFrom bearerPattern 0 prev (first ++ (word ++ behind)) = first ++ out := by
  cases word with
  | nil => exact absurd ⟨bearerWord, by decide⟩ other
  | cons char word =>
    refine ⟨char :: subFrom bearerPattern 0 (some char) (word ++ behind), fun first prev firstChars => ?_⟩
    have shape : first ++ (char :: word ++ behind) = (first ++ [char]) ++ (word ++ behind) := by simp
    rw [shape, subFrom_unmatched, lastOf_append, lastOf_cons, lastOf_nil, List.append_assoc, List.singleton_append]
    intro before next later split
    -- a match from here has the keyword up to the white space, and the word at its end
    by_contra matched
    have front : ∀ inside ∈ next :: later ++ word, isSpace inside = false := by
      intro inside member
      rcases List.mem_append.mp member with isFirst | isWord
      · have isPart : inside ∈ first ++ [char] := by
          rw [split]
          exact List.mem_append_right _ isFirst
        rcases List.mem_append.mp isPart with isFirst | isChar
        · exact firstChars inside isFirst
        · rw [List.mem_singleton.mp isChar]
          exact chars char List.mem_cons_self
      · exact chars inside (List.mem_cons_of_mem _ isWord)
    have matched' : bearerPattern (lastOf prev before) (next :: later ++ word ++ behind) ≠ none := by
      rwa [List.append_assoc]
    obtain ⟨_, _, _, -, isMatch⟩ := bearerMatch_of_word front ends matched'
    have isLast : (next :: later).getLast? = some char := by
      have last := congrArg List.getLast? split
      rw [List.getLast?_append, List.getLast?_singleton, Option.some_or,
        List.getLast?_append_of_ne_nil _ (List.cons_ne_nil next later)] at last
      exact last.symm
    obtain ⟨missing, isEnd⟩ := List.getLast?_eq_some_iff.mp isLast
    refine other ⟨missing, ?_⟩
    have isKeyword := isMatch.keyword
    rwa [isEnd, List.append_assoc, List.singleton_append] at isKeyword

end Words

/-! ### What stays -/

/-- No bearer match begins in a text without the first letter of a keyword. -/
theorem bearer_stays [WordTable] {first : List Char} {prev : Option Char}
    (other : ∀ char ∈ first, sameLetter 'b' char = false) (rest : List Char) :
    subFrom bearerPattern 0 prev (first ++ rest) = first ++ subFrom bearerPattern 0 (lastOf prev first) rest := by
  refine subFrom_unmatched fun before char later split => bearerPattern_none_of_head (other char ?_)
  rw [split]
  exact List.mem_append_right _ List.mem_cons_self

/-- No query match begins in a text without names. -/
theorem query_stays {first rest : List Char} (unnamed : ∀ before char later, first = before ++ char :: later →
    nameAt (char :: (later ++ rest)) = none) :
    subFrom querySecretPattern 0 none (first ++ rest) = first ++ subFrom querySecretPattern 0 none rest := by
  have stays : subFrom querySecretPattern 0 none (first ++ rest) =
      first ++ subFrom querySecretPattern 0 (lastOf none first) rest :=
    subFrom_unmatched fun before char later split => querySecretPattern_none (unnamed before char later split)
  rw [stays, query_behind]

/-- No name begins in `[REDACTED]`. -/
theorem redacted_unnamed {expected : List Char} (suffix : expected <:+ redactedText.toList) (nonempty : expected ≠ []) :
    ∀ name ∈ querySecretNames, ∀ rest, startsWith name (expected ++ rest) = false := by
  rw [← List.mem_tails] at suffix
  have parts : redactedText.toList.tails = [redactedText.toList, "REDACTED]".toList, "EDACTED]".toList,
    "DACTED]".toList, "ACTED]".toList, "CTED]".toList, "TED]".toList, "ED]".toList, "D]".toList, "]".toList, []] := by
    decide
  rw [parts] at suffix
  simp only [List.mem_cons, List.not_mem_nil, or_false] at suffix
  intro name member rest
  simp only [querySecretNames, List.mem_cons, List.not_mem_nil, or_false] at member
  rcases suffix with rfl | rfl | rfl | rfl | rfl | rfl | rfl | rfl | rfl | rfl | rfl <;>
    first
    | exact absurd rfl nonempty
    | rcases member with rfl | rfl | rfl | rfl <;> rfl

theorem startsWith_of_append {word more text : List Char} (starts : startsWith (word ++ more) text = true) :
    startsWith word text = true := by
  induction word generalizing text with
  | nil => cases text <;> rfl
  | cons letter word ih =>
    cases text with
    | nil => cases starts
    | cons char text =>
      rw [List.cons_append, startsWith, Bool.and_eq_true] at starts
      rw [startsWith, starts.1, ih starts.2, Bool.true_and]

theorem nameAt_redacted {expected : List Char} (suffix : expected <:+ redactedText.toList) (nonempty : expected ≠ [])
    (rest : List Char) : nameAt (expected ++ rest) = none := by
  refine nameAt_eq_none.mpr fun name member => ?_
  by_contra starts
  rw [Bool.not_eq_false] at starts
  exact Bool.false_ne_true ((redacted_unnamed suffix nonempty name member rest).symm.trans (startsWith_of_append starts))

/-- What replaces a credential stays. -/
theorem query_mark (rest : List Char) : subFrom querySecretPattern 0 none (redactedText.toList ++ rest) =
    redactedText.toList ++ subFrom querySecretPattern 0 none rest := by
  refine query_stays fun before char later split => ?_
  exact nameAt_redacted ⟨before, split.symm⟩ (List.cons_ne_nil char later) rest

/-- **Behind a replaced credential** the text is scanned on its own. -/
theorem query_redacted (out rest : List Char) :
    subFrom querySecretPattern 0 none (out ++ (bearerRedacted ++ rest)) =
      subFrom querySecretPattern 0 none (out ++ "Bearer".toList) ++
        ' ' :: (redactedText.toList ++ subFrom querySecretPattern 0 none rest) := by
  have shape : out ++ (bearerRedacted ++ rest) = (out ++ "Bearer".toList) ++ ' ' :: (redactedText.toList ++ rest) := by
    rw [List.append_assoc]
    rfl
  rw [shape, query_cut (by decide), query_mark]

/-- Characters that are none of a credential stay. -/
theorem query_apart {first : List Char} (apart : ∀ char ∈ first, isCredentialChar char = false) (rest : List Char) :
    subFrom querySecretPattern 0 none (first ++ rest) = first ++ subFrom querySecretPattern 0 none rest := by
  refine query_stays fun before char later split => nameAt_apart (apart char ?_) _
  rw [split]
  exact List.mem_append_right _ List.mem_cons_self

theorem bearer_apart [WordTable] {first : List Char} {prev : Option Char}
    (apart : ∀ char ∈ first, isCredentialChar char = false) (rest : List Char) :
    subFrom bearerPattern 0 prev (first ++ rest) = first ++ subFrom bearerPattern 0 (lastOf prev first) rest := by
  refine bearer_stays (fun char member => ?_) rest
  by_contra same
  rw [Bool.not_eq_false] at same
  have isChar : ∀ next ∈ [char], isCredentialChar next = true := forall_of_matchesWord (.cons same .nil) (by decide)
  exact Bool.false_ne_true ((apart char member).symm.trans (isChar char List.mem_cons_self))

/-- **A digit behind a credential** and characters that are none of it can be seen. -/
theorem visible_digit [WordTable] {first : List Char} (apart : ∀ char ∈ first, isCredentialChar char = false)
    (out post : List Char) : ∃ front back, ∀ digit, digit = '1' ∨ digit = '2' →
      subFrom querySecretPattern 0 none
        (out ++ (bearerRedacted ++ subFrom bearerPattern 0 none (first ++ digit :: post))) = front ++ digit :: back := by
  refine ⟨subFrom querySecretPattern 0 none (out ++ "Bearer".toList) ++ ' ' :: (redactedText.toList ++ first),
    subFrom querySecretPattern 0 none (subFrom bearerPattern 0 (some '1') post), fun digit isDigit => ?_⟩
  -- a digit is a word character and begins neither a keyword nor a name
  have behind : ∀ prev, subFrom bearerPattern 0 prev (digit :: post) = digit :: subFrom bearerPattern 0 (some '1') post := by
    intro prev
    have unmatched : bearerPattern prev (digit :: post) = none := by
      rcases isDigit with rfl | rfl <;> exact bearerPattern_none_of_head rfl
    rw [subFrom_none unmatched]
    have same : bearerPattern (some digit) post = bearerPattern (some '1') post := by
      rcases isDigit with rfl | rfl <;> rfl
    rw [subFrom_congr same]
  have digitStays : ∀ rest, subFrom querySecretPattern 0 none (digit :: rest) =
      digit :: subFrom querySecretPattern 0 none rest := by
    intro rest
    have unnamed : nameAt (digit :: rest) = none := by
      rcases isDigit with rfl | rfl <;> rfl
    rw [subFrom_none (querySecretPattern_none unnamed), query_behind]
  rw [query_redacted, bearer_apart apart, behind, query_apart apart, digitStays]
  simp only [List.append_assoc, List.cons_append]

/-! ### Credentials behind a keyword -/

/-- The two substitutions. -/
def redactChars [WordTable] (text : List Char) : List Char := sub querySecretPattern (sub bearerPattern text)

def IsCredential (text : List Char) : Prop := text ≠ [] ∧ ∀ char ∈ text, isCredentialChar char = true

def IsValue (text : List Char) : Prop := text ≠ [] ∧ ∀ char ∈ text, isValueChar char = true

/-- A place for a credential: `bearer`, in any case, that no word character stands before, and white space. -/
structure BearerSite [WordTable] where
  pre : List Char
  boundary : pre.getLast?.any isWord = false
  keyword : List Char
  isKeyword : MatchesWord bearerWord keyword
  space : List Char
  isBlank : space ≠ [] ∧ ∀ char ∈ space, isSpace char = true
  post : List Char

namespace BearerSite

variable [WordTable]

def fill (site : BearerSite) (credential : List Char) : List Char :=
  site.pre ++ site.keyword ++ (site.space ++ (credential ++ site.post))

/-- No earlier bearer match takes the keyword. -/
def Free (site : BearerSite) : Prop := takesLast bearerPattern (site.pre ++ site.keyword) = false

/-- **Two credentials have one redaction exactly at a free place.** -/
theorem hides_iff (site : BearerSite) :
    (∀ first second, IsCredential first → IsCredential second →
      redactChars (site.fill first) = redactChars (site.fill second)) ↔ site.Free := by
  have long : bearerWord.length ≤ site.keyword.length := site.isKeyword.length_eq.le
  have chars : ∀ char ∈ site.keyword, isCredentialChar char = true :=
    fun char member => (bearer_chars site.isKeyword char member).1
  obtain ⟨out, ⟨taken, scans⟩ | ⟨free, scans⟩⟩ := scan_before long chars site.pre none
  · -- the match takes the keyword, and the white space ends it
    have apart : ∀ char ∈ site.space, isCredentialChar char = false :=
      fun char member => isCredentialChar_of_isSpace (site.isBlank.2 char member)
    obtain ⟨front, back, visible⟩ := visible_digit apart out site.post
    have seen : ∀ digit, digit = '1' ∨ digit = '2' → redactChars (site.fill [digit]) = front ++ digit :: back := by
      intro digit isDigit
      obtain ⟨first, others, isSpace⟩ := List.exists_cons_of_ne_nil site.isBlank.1
      have stops : (site.space ++ digit :: site.post).dropWhile isCredentialChar = site.space ++ digit :: site.post := by
        rw [isSpace, List.cons_append, List.dropWhile_cons_of_neg]
        rw [apart first (by simp [isSpace])]
        exact Bool.false_ne_true
      rw [← visible digit isDigit, redactChars, Substitution.sub, Substitution.sub, fill, scans, List.singleton_append,
        stops]
    refine iff_of_false (fun hides => ?_) (by rw [Free, takesLast, taken]; decide)
    have same := hides ['1'] ['2'] ⟨List.cons_ne_nil _ _, by decide⟩ ⟨List.cons_ne_nil _ _, by decide⟩
    rw [seen '1' (Or.inl rfl), seen '2' (Or.inr rfl), List.append_cancel_left_eq] at same
    exact absurd (List.cons.inj same).1 (by decide)
  · refine iff_of_true ?_ free
    obtain ⟨more, behind, isPost, moreChars, ends⟩ := exists_run isCredentialChar site.post
    have scanned : ∀ credential, IsCredential credential →
        sub bearerPattern (site.fill credential) = out ++ (bearerRedacted ++ subFrom bearerPattern 0 none behind) := by
      intro credential isCredential
      have isMatch : BearerMatch (lastOf none site.pre) site.keyword site.space (credential ++ more) behind :=
        { boundary := by rw [lastOf, Option.or_none]; exact site.boundary
          keyword := site.isKeyword
          space := site.isBlank
          credential := ⟨by simp [isCredential.1], by
            simpa [or_imp, forall_and] using ⟨isCredential.2, moreChars⟩⟩
          ends := ends }
      have replaced := subFrom_bearerMatch isMatch
      rw [sub, fill, scans, isPost, ← List.append_assoc credential, replaced]
    intro first second isFirst isSecond
    rw [redactChars, redactChars, scanned first isFirst, scanned second isSecond]

end BearerSite

/-! ### Reading back what was replaced -/

theorem head_query (prev : Option Char) (text : List Char) :
    (subFrom querySecretPattern 0 prev text).head? = text.head? := by
  cases text with
  | nil => rfl
  | cons char text =>
    by_cases unmatched : querySecretPattern prev (char :: text) = none
    · rw [subFrom_none unmatched, List.head?_cons, List.head?_cons]
    · obtain ⟨name, member, first, behind, out, isName, shape, replaced⟩ := exists_query_named unmatched
      have nonempty : first ≠ [] := by
        rintro rfl
        have empty := List.length_eq_zero_iff.mp isName.length_eq
        exact absurd (empty ▸ member) (by decide)
      rw [replaced, shape, List.head?_append_of_ne_nil _ nonempty, List.head?_append_of_ne_nil _ nonempty]

/-- Whether a text begins with a character of a credential is kept. -/
theorem head_bearer [WordTable] (prev : Option Char) (text : List Char) :
    (subFrom bearerPattern 0 prev text).head?.map isCredentialChar = text.head?.map isCredentialChar := by
  by_cases unmatched : bearerPattern prev text = none
  · cases text with
    | nil => rfl
    | cons char text => rw [subFrom_none unmatched, List.head?_cons, List.head?_cons]
  · obtain ⟨keyword, space, credential, rest, rfl, isMatch⟩ := exists_bearerMatch unmatched
    obtain ⟨first, others, rfl⟩ := List.exists_cons_of_ne_nil
      (List.ne_nil_of_length_pos (by rw [← isMatch.keyword.length_eq]; decide) : keyword ≠ [])
    have isChar := (bearer_chars isMatch.keyword first List.mem_cons_self).1
    rw [subFrom_bearerMatch isMatch, List.cons_append, List.head?_cons, Option.map_some, isChar]
    rfl

/-- **A text that becomes `[REDACTED]`**, or an end of it, is that text. -/
theorem scanned_redacted [WordTable] {expected tail text : List Char} {prev : Option Char}
    (suffix : expected <:+ redactedText.toList)
    (same : subFrom querySecretPattern 0 none (subFrom bearerPattern 0 prev text) = expected ++ tail) :
    ∃ rest, text = expected ++ rest ∧
      subFrom querySecretPattern 0 none (subFrom bearerPattern 0 (lastOf prev expected) rest) = tail := by
  induction expected generalizing text prev with
  | nil => exact ⟨text, rfl, same⟩
  | cons char expected ih =>
    have head := congrArg List.head? same
    rw [head_query, List.cons_append, List.head?_cons] at head
    by_cases unmatched : bearerPattern prev text = none
    · cases text with
      | nil => cases head
      | cons next text =>
        rw [subFrom_none unmatched] at same head
        obtain rfl : next = char := Option.some.inj head
        by_cases unnamed : querySecretPattern none (next :: subFrom bearerPattern 0 (some next) text) = none
        · rw [subFrom_none unnamed, query_behind, List.cons_append, List.cons.injEq] at same
          obtain ⟨rest, rfl, behind⟩ := ih ((List.suffix_cons next expected).trans suffix) same.2
          exact ⟨rest, rfl, by rwa [lastOf_cons]⟩
        · obtain ⟨name, member, first, behind, out, isName, -, replaced⟩ := exists_query_named unnamed
          have starts : startsWith name (next :: expected ++ tail) = true := by
            rw [← same, replaced]
            exact startsWith_append isName out
          have never := redacted_unnamed suffix (List.cons_ne_nil next expected) name member tail
          exact absurd (starts.symm.trans never) (by decide)
    · obtain ⟨keyword, space, credential, rest, rfl, isMatch⟩ := exists_bearerMatch unmatched
      rw [subFrom_bearerMatch isMatch] at head
      obtain rfl : 'B' = char := Option.some.inj head
      exact absurd (suffix.subset List.mem_cons_self) (by decide)

/-! ### Values behind a name -/

/-- **The text behind a value straddles**: it is the end of a keyword, white space and a credential, and does not read
as if the credential were replaced. -/
structure Straddles (post ending space credential rest : List Char) : Prop where
  isPost : post = ending ++ (space ++ (credential ++ rest))
  isEnding : EndsKeyword ending
  isBlank : space ≠ [] ∧ ∀ char ∈ space, isSpace char = true
  isCredential : IsCredential credential
  ends : ∀ char ∈ rest.head?, isCredentialChar char = false
  differs : ¬ (space = [' '] ∧ credential = redactedText.toList)

/-- A place for a value: a name and `=`. -/
structure QuerySite where
  pre : List Char
  name : List Char
  isName : name ∈ querySecretNames
  post : List Char

theorem name_long {name : List Char} (isName : name ∈ querySecretNames) :
    bearerWord.length ≤ (name ++ ['=']).length ∧ (∀ char ∈ name ++ ['='], isCredentialChar char = true) ∧
      ∀ char ∈ name ++ ['='], sameLetter 'b' char = false := by
  have names : ∀ name ∈ querySecretNames, bearerWord.length ≤ (name ++ ['=']).length ∧
      ∀ char ∈ name ++ ['='], sameLetter 'b' char = false := by decide
  exact ⟨(names name isName).1, fun char member => (name_letters name isName char member).1.1, (names name isName).2⟩

section Values

variable [WordTable]

/-- What a credential becomes is what stays of `[REDACTED]`. -/
theorem scan_redacted {rest : List Char} (ends : ∀ char ∈ rest.head?, isCredentialChar char = false) :
    subFrom bearerPattern 0 none (' ' :: (redactedText.toList ++ rest)) =
      ' ' :: (redactedText.toList ++ subFrom bearerPattern 0 none rest) := by
  have stays : subFrom bearerPattern 0 none (' ' :: redactedText.toList ++ rest) = _ := bearer_stays (by decide) rest
  rw [List.cons_append] at stays
  rw [stays, subFrom_congr (bearerPattern_behind none ends), List.cons_append]

/-- White space stays at the front. -/
theorem head_blank {text : List Char} (blank : ∀ char ∈ text.head?, isSpace char = true) :
    (subFrom bearerPattern 0 none text).head? = text.head? := by
  cases text with
  | nil => rfl
  | cons char text =>
    have apart : ∀ next ∈ [char], isCredentialChar next = false :=
      List.forall_mem_singleton.mpr (isCredentialChar_of_isSpace (blank char rfl))
    have stays : subFrom bearerPattern 0 none ([char] ++ text) = [char] ++ subFrom bearerPattern 0 (some char) text :=
      bearer_apart apart text
    rw [List.singleton_append, List.singleton_append] at stays
    rw [stays, List.head?_cons, List.head?_cons]

/-- **White space and a credential read as a replaced one only if they are.** -/
theorem blank_of_redacted {space credential rest tail : List Char} (isBlank : space ≠ [] ∧ ∀ char ∈ space, isSpace char = true)
    (isCredential : IsCredential credential) (ends : ∀ char ∈ rest.head?, isCredentialChar char = false)
    (isTail : tail.head?.map isCredentialChar = rest.head?.map isCredentialChar)
    (same : subFrom querySecretPattern 0 none (subFrom bearerPattern 0 none (space ++ (credential ++ rest))) =
      ' ' :: (redactedText.toList ++ tail)) : space = [' '] ∧ credential = redactedText.toList := by
  have apart : ∀ char ∈ space, isCredentialChar char = false :=
    fun char member => isCredentialChar_of_isSpace (isBlank.2 char member)
  rw [bearer_apart apart, query_apart apart] at same
  obtain ⟨first, others, rfl⟩ := List.exists_cons_of_ne_nil isBlank.1
  rw [List.cons_append, List.cons.injEq] at same
  obtain ⟨rfl, same⟩ := same
  obtain rfl : others = [] := by
    cases others with
    | nil => rfl
    | cons next others =>
      have isBracket := (List.cons.inj same).1
      have blank := isBlank.2 next (by simp)
      rw [isBracket] at blank
      exact absurd blank (by decide)
  refine ⟨rfl, ?_⟩
  obtain ⟨behind, shape, isBehind⟩ := scanned_redacted (List.suffix_refl _) same
  have heads : behind.head?.map isCredentialChar = rest.head?.map isCredentialChar := by
    rw [← isTail, ← isBehind, head_query, head_bearer]
  have endsBehind : ∀ char ∈ behind.head?, isCredentialChar char = false := by
    intro char isHead
    rw [Option.mem_def.mp isHead, Option.map_some] at heads
    obtain ⟨next, isNext, kind⟩ := Option.map_eq_some_iff.mp heads.symm
    rw [← kind]
    exact ends next isNext
  have taken := (takeWhile_run isCredential.2 ends).1
  rw [shape, (takeWhile_run (by decide) endsBehind).1] at taken
  exact taken.symm

end Values

namespace QuerySite

variable [WordTable]

def fill (site : QuerySite) (value : List Char) : List Char :=
  site.pre ++ (site.name ++ ['=']) ++ (value ++ site.post)

/-- No earlier bearer match takes the name, and the text behind does not straddle. -/
def Free (site : QuerySite) : Prop :=
  takesLast bearerPattern (site.pre ++ (site.name ++ ['='])) = false ∧
    ∀ ending space credential rest, ¬ Straddles site.post ending space credential rest

/-- **What becomes of a value** that no earlier bearer match takes: what stands before does not depend on it. -/
theorem exists_redacted (site : QuerySite) (free : takesLast bearerPattern (site.pre ++ (site.name ++ ['='])) = false) :
    ∃ out, HidesValue out ∧ ∀ value, ∃ prev,
      redactChars (site.fill value) =
        subFrom querySecretPattern 0 none (out ++ subFrom bearerPattern 0 prev (value ++ site.post)) := by
  obtain ⟨long, chars, other⟩ := name_long site.isName
  obtain ⟨out, ⟨taken, -⟩ | ⟨-, scans⟩⟩ := scan_before long chars site.pre none
  · exact absurd (free.symm.trans taken) (by decide)
  · refine ⟨out ++ (site.name ++ ['=']), query_value site.isName out, fun value =>
      ⟨lastOf (lastOf none site.pre) (site.name ++ ['=']), ?_⟩⟩
    rw [redactChars, Substitution.sub, Substitution.sub, fill, scans, bearer_stays other,
      List.append_assoc out (site.name ++ ['='])]

/-- **A value in front of text that does not straddle** leaves nothing of itself. -/
theorem hidden_of_free {site : QuerySite} (free : site.Free) :
    ∃ redacted, ∀ value, IsValue value → redactChars (site.fill value) = redacted := by
  obtain ⟨out, ⟨outQuery, hides⟩, scans⟩ := site.exists_redacted free.1
  obtain ⟨word, behind, isPost, wordChars, ends⟩ := exists_run (fun char => !isSpace char) site.post
  have notSpace : ∀ char ∈ word, isSpace char = false := fun char member => by simpa using wordChars char member
  have blank : ∀ char ∈ behind.head?, isSpace char = true := fun char isHead => by simpa using ends char isHead
  have valueSpace : ∀ value, IsValue value → ∀ char ∈ value, isSpace char = false :=
    fun value isValue char member => not_isSpace_of_isValueChar (isValue.2 char member)
  by_cases ending : EndsKeyword word
  · refine ⟨outQuery ++ subFrom querySecretPattern 0 none (subFrom bearerPattern 0 none behind), fun value isValue => ?_⟩
    obtain ⟨prev, scanned⟩ := scans value
    have chars : ∀ char ∈ value ++ word, isValueChar char = true := by
      simpa [or_imp, forall_and] using ⟨isValue.2, ending.chars⟩
    rw [scanned, isPost, ← List.append_assoc value]
    rcases scan_word (fun char member => not_isSpace_of_isValueChar (chars char member)) blank with
      stays | ⟨first, keyword, space, credential, rest, split, isBehind, isMatch, replaced⟩
    · rw [stays]
      refine hides (value ++ word) _ (by simp [isValue.1]) chars fun char isHead => ?_
      rw [head_blank blank] at isHead
      exact isValueChar_of_isSpace (blank char isHead)
    · -- the end of the value and the text behind it make a keyword
      have unseen : space = [' '] ∧ credential = redactedText.toList := by
        by_contra differs
        exact free.2 word space credential rest ⟨isPost.trans (by rw [isBehind]), ending, isMatch.space,
          isMatch.credential, isMatch.ends, differs⟩
      obtain ⟨rfl, rfl⟩ := unseen
      have shape : first ++ (bearerRedacted ++ subFrom bearerPattern 0 none rest) =
          (first ++ "Bearer".toList) ++ (' ' :: (redactedText.toList ++ subFrom bearerPattern 0 none rest)) := by
        rw [List.append_assoc]
        rfl
      have same := scan_redacted isMatch.ends
      rw [replaced, shape, isBehind, ← same]
      refine hides (first ++ "Bearer".toList) _ (by simp) (fun char member => ?_) (fun char isHead => ?_)
      · rcases List.mem_append.mp member with inside | inside
        · exact chars char (by rw [split]; exact List.mem_append_left _ inside)
        · have letters : ∀ char ∈ "Bearer".toList, isValueChar char = true := by decide
          exact letters char inside
      · rw [same] at isHead
        cases isHead
        decide
  · obtain ⟨outBearer, fixed⟩ := scan_fixed notSpace blank ending
    obtain ⟨run, rest, rfl, runChars, stops⟩ := exists_run isValueChar outBearer
    refine ⟨outQuery ++ subFrom querySecretPattern 0 none rest, fun value isValue => ?_⟩
    obtain ⟨prev, scanned⟩ := scans value
    have hidden := hides (value ++ run) rest (by simp [isValue.1])
      (by simpa [or_imp, forall_and] using ⟨isValue.2, runChars⟩) stops
    rw [scanned, isPost, fixed value prev (valueSpace value isValue), ← hidden, List.append_assoc]

/-- **A name in an earlier bearer match**: what follows a `;` of the value can be seen. -/
theorem visible_of_taken {site : QuerySite} (taken : takesLast bearerPattern (site.pre ++ (site.name ++ ['='])) = true) :
    ∃ front back, ∀ digit, digit = '1' ∨ digit = '2' → redactChars (site.fill [';', digit]) = front ++ digit :: back := by
  obtain ⟨long, chars, -⟩ := name_long site.isName
  obtain ⟨out, ⟨-, scans⟩ | ⟨free, -⟩⟩ := scan_before long chars site.pre none
  · have apart : ∀ char ∈ [';'], isCredentialChar char = false := by decide
    obtain ⟨front, back, visible⟩ := visible_digit apart out site.post
    refine ⟨front, back, fun digit isDigit => ?_⟩
    rw [← visible digit isDigit, redactChars, Substitution.sub, Substitution.sub, fill, scans]
    rfl
  · exact absurd (free.symm.trans taken) (by decide)

/-- **Text that straddles**: a value that completes the keyword, and one that does not. -/
theorem visible_of_straddles {site : QuerySite} {ending space credential rest : List Char}
    (free : takesLast bearerPattern (site.pre ++ (site.name ++ ['='])) = false)
    (straddles : Straddles site.post ending space credential rest) :
    ∃ first second, IsValue first ∧ IsValue second ∧ redactChars (site.fill first) ≠ redactChars (site.fill second) := by
  obtain ⟨out, ⟨outQuery, hides⟩, scans⟩ := site.exists_redacted free
  obtain ⟨missing, isKeyword⟩ := straddles.isEnding
  have blank : ∀ char ∈ (space ++ (credential ++ rest)).head?, isSpace char = true := by
    obtain ⟨first, others, rfl⟩ := List.exists_cons_of_ne_nil straddles.isBlank.1
    intro char isHead
    cases isHead
    exact straddles.isBlank.2 _ List.mem_cons_self
  have missingChars : ∀ char ∈ missing, isValueChar char = true :=
    fun char member => (bearer_chars isKeyword char (List.mem_append_left _ member)).2
  -- the value completes the keyword, and the credential behind it is replaced
  have completed : redactChars (site.fill ('-' :: missing)) =
      outQuery ++ (' ' :: (redactedText.toList ++ subFrom querySecretPattern 0 none (subFrom bearerPattern 0 none rest))) := by
    obtain ⟨prev, scanned⟩ := scans ('-' :: missing)
    have isMatch : BearerMatch (some '-') (missing ++ ending) space credential rest :=
      ⟨rfl, isKeyword, straddles.isBlank, straddles.isCredential, straddles.ends⟩
    have dash : bearerPattern prev ('-' :: (missing ++ ending ++ (space ++ (credential ++ rest)))) = none :=
      bearerPattern_none_of_head rfl
    have shape : '-' :: missing ++ site.post = '-' :: (missing ++ ending ++ (space ++ (credential ++ rest))) := by
      rw [straddles.isPost, List.cons_append, List.append_assoc]
    have mark : '-' :: (bearerRedacted ++ subFrom bearerPattern 0 none rest) =
        "-Bearer".toList ++ ' ' :: (redactedText.toList ++ subFrom bearerPattern 0 none rest) := rfl
    have blankMark := query_cut (by decide : isValueChar ' ' = false) []
      (redactedText.toList ++ subFrom bearerPattern 0 none rest)
    rw [query_mark] at blankMark
    rw [scanned, shape, subFrom_none dash, subFrom_bearerMatch isMatch, mark]
    refine Eq.trans ?_ (congrArg (outQuery ++ ·) blankMark)
    refine hides "-Bearer".toList _ (by decide) (by decide) fun char isHead => ?_
    cases isHead
    decide
  -- a digit in front of the end of a keyword is no keyword
  have stays : redactChars (site.fill ['1']) =
      outQuery ++ subFrom querySecretPattern 0 none (subFrom bearerPattern 0 none (space ++ (credential ++ rest))) := by
    obtain ⟨prev, scanned⟩ := scans ['1']
    have chars : ∀ char ∈ '1' :: ending, isValueChar char = true :=
      List.forall_mem_cons.mpr ⟨by decide, straddles.isEnding.chars⟩
    have shape : ['1'] ++ site.post = '1' :: ending ++ (space ++ (credential ++ rest)) := by
      rw [straddles.isPost]
      rfl
    rw [scanned, shape]
    rcases scan_word (fun char member => not_isSpace_of_isValueChar (chars char member)) blank with
      stays | ⟨first, keyword, space', credential', rest', split, -, isMatch, -⟩
    · rw [stays]
      refine hides ('1' :: ending) _ (List.cons_ne_nil _ _) chars fun char isHead => ?_
      rw [head_blank blank] at isHead
      exact isValueChar_of_isSpace (blank char isHead)
    · exfalso
      have size := isMatch.keyword.length_eq.symm.trans isKeyword.length_eq
      rw [List.length_append] at size
      cases first with
      | nil =>
        obtain rfl : '1' :: ending = keyword := split
        cases isMatch.keyword with
        | cons same _ => exact absurd same (by decide)
      | cons char first =>
        obtain ⟨rfl, isEnding⟩ := List.cons.inj split
        have sizes := (congrArg List.length isEnding).trans List.length_append
        have empty : first = [] := List.length_eq_zero_iff.mp (by omega)
        have boundary := isMatch.boundary
        rw [empty, lastOf_cons, lastOf_nil] at boundary
        have digit : (some '1').any isWord = true := rfl
        exact absurd (digit.symm.trans boundary) (by decide)
  refine ⟨'-' :: missing, ['1'], ⟨List.cons_ne_nil _ _, List.forall_mem_cons.mpr ⟨by decide, missingChars⟩⟩,
    ⟨List.cons_ne_nil _ _, by decide⟩, fun same => straddles.differs ?_⟩
  rw [completed, stays, List.append_cancel_left_eq] at same
  refine blank_of_redacted straddles.isBlank straddles.isCredential straddles.ends ?_ same.symm
  rw [head_query, head_bearer]

/-- **Two values have one redaction exactly at a free place.** -/
theorem hides_iff (site : QuerySite) :
    (∀ first second, IsValue first → IsValue second → redactChars (site.fill first) = redactChars (site.fill second)) ↔
      site.Free := by
  constructor
  · intro hides
    by_cases free : takesLast bearerPattern (site.pre ++ (site.name ++ ['='])) = false
    · refine ⟨free, fun ending space credential rest straddles => ?_⟩
      obtain ⟨first, second, isFirst, isSecond, differ⟩ := visible_of_straddles free straddles
      exact differ (hides first second isFirst isSecond)
    · exfalso
      obtain ⟨front, back, seen⟩ := visible_of_taken (eq_true_of_ne_false free)
      have same := hides [';', '1'] [';', '2'] ⟨List.cons_ne_nil _ _, by decide⟩ ⟨List.cons_ne_nil _ _, by decide⟩
      rw [seen '1' (Or.inl rfl), seen '2' (Or.inr rfl), List.append_cancel_left_eq] at same
      exact absurd (List.cons.inj same).1 (by decide)
  · intro free first second isFirst isSecond
    obtain ⟨redacted, hidden⟩ := hidden_of_free free
    rw [hidden first isFirst, hidden second isSecond]

end QuerySite

/-! ### Events -/

section Events

variable {α : Type} [UnicodeTables] [WordTable]

/-- What of an event is secret: a value under a sensitive key, a credential or a value in a string. -/
inductive SecretSite (α : Type) (place : LogPlace α)
  | field (sensitive : isSensitive place.name = true)
  | bearer (site : BearerSite)
  | query (site : QuerySite)

namespace SecretSite

variable {place : LogPlace α}

/-- The values at the place that differ only in the secret. -/
def Filling : SecretSite α place → LogValue α → Prop
  | field _, _ => True
  | bearer site, value => ∃ credential, IsCredential credential ∧ value = .text (String.ofList (site.fill credential))
  | query site, value => ∃ secret, IsValue secret ∧ value = .text (String.ofList (site.fill secret))

/-- Nothing takes the secret apart. -/
def Free : SecretSite α place → Prop
  | field _ => True
  | bearer site => site.Free
  | query site => site.Free

end SecretSite

omit [UnicodeTables] in
theorem redactText_ofList (text : List Char) : redactText (String.ofList text) = String.ofList (redactChars text) := by
  rw [redactText, String.toList_ofList, redactChars]

omit [WordTable] in
/-- A place under a sensitive key hides what is there. -/
theorem hides_of_sensitive {place : LogPlace α} (sensitive : isSensitive place.name = true) : place.Hides := by
  unfold LogPlace.name at sensitive
  cases isLast : place.frames.getLast? with
  | none =>
    rw [isLast] at sensitive
    exact Or.inl sensitive
  | some frame =>
    rw [isLast] at sensitive
    exact Or.inr ⟨frame, List.mem_of_getLast? isLast, Or.inl sensitive⟩

/-- **The strings of a place** have one redaction exactly when the place hides them or the substitutions agree. -/
theorem texts_hide_iff (place : LogPlace α) (fill : List Char → List Char) (isSecret : List Char → Prop) :
    (∀ first second : LogValue α, (∃ secret, isSecret secret ∧ first = .text (String.ofList (fill secret))) →
      (∃ secret, isSecret secret ∧ second = .text (String.ofList (fill secret))) →
        redactSecuritySecrets (place.fill first) = redactSecuritySecrets (place.fill second)) ↔
      place.Hides ∨ ∀ first second, isSecret first → isSecret second → redactChars (fill first) = redactChars (fill second) := by
  have eachIff : ∀ first second : List Char,
      redactSecuritySecrets (place.fill (.text (String.ofList (fill first)))) =
        redactSecuritySecrets (place.fill (.text (String.ofList (fill second)))) ↔
      place.Hides ∨ redactChars (fill first) = redactChars (fill second) := by
    intro first second
    rw [LogPlace.redact_eq_iff, redact_text_iff, redactText_ofList, redactText_ofList, String.ofList_inj,
      ← or_assoc, or_iff_left_of_imp hides_of_sensitive]
  constructor
  · intro same
    refine or_iff_not_imp_left.mpr fun shows first second isFirst isSecond => ?_
    exact ((eachIff first second).mp (same _ _ ⟨first, isFirst, rfl⟩ ⟨second, isSecond, rfl⟩)).resolve_left shows
  · rintro hidden _ _ ⟨first, isFirst, rfl⟩ ⟨second, isSecond, rfl⟩
    exact (eachIff first second).mpr (hidden.imp_right fun same => same first second isFirst isSecond)

/-- **Two events that differ in one secret** have one redaction exactly when the place hides it or the site is free. -/
theorem redaction_hides_iff (place : LogPlace α) (site : SecretSite α place) :
    (∀ first second, site.Filling first → site.Filling second →
      redactSecuritySecrets (place.fill first) = redactSecuritySecrets (place.fill second)) ↔
        place.Hides ∨ site.Free := by
  cases site with
  | field sensitive =>
    refine iff_of_true (fun first second _ _ => ?_) (Or.inr trivial)
    exact LogPlace.redact_eq_iff.mpr (Or.inl (hides_of_sensitive sensitive))
  | bearer site => exact (texts_hide_iff place site.fill IsCredential).trans (or_congr_right site.hides_iff)
  | query site => exact (texts_hide_iff place site.fill IsValue).trans (or_congr_right site.hides_iff)

end Events

/-- Word characters of ASCII alone. -/
@[reducible] def asciiWords : WordTable := ⟨fun _ => false⟩

/-- The message `bearer bearer` and a credential. -/
def doubledSite [WordTable] : BearerSite where
  pre := "bearer ".toList
  boundary := rfl
  keyword := "bearer".toList
  isKeyword := by decide
  space := " ".toList
  isBlank := by decide
  post := []

/-- The message of an event. -/
def messagePlace : LogPlace Unit := ⟨[], "event", [], []⟩

/-- **Behind a second keyword** the credential stays. -/
theorem doubled_bearer_shows :
    let _ := asciiTables
    let _ := asciiWords
    ¬ ∀ (place : LogPlace Unit) (site : SecretSite Unit place) (first second : LogValue Unit),
      site.Filling first → site.Filling second →
        redactSecuritySecrets (place.fill first) = redactSecuritySecrets (place.fill second) := by
  intro _ _ hides
  have cases := (texts_hide_iff messagePlace doubledSite.fill IsCredential).mp (hides messagePlace (.bearer doubledSite))
  have shows : ¬ messagePlace.Hides := by
    rintro (sensitive | ⟨frame, member, -⟩)
    · exact absurd sensitive (by decide)
    · cases member
  have free := doubledSite.hides_iff.mp (cases.resolve_left shows)
  have taken : takesLast bearerPattern (doubledSite.pre ++ doubledSite.keyword) = true := by decide
  exact absurd (taken.symm.trans free) (by decide)

end McpAuth
