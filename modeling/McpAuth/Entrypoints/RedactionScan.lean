/-
**What the two patterns of the redactor see of a string.**

* `bearerPattern_of_match`, `exists_bearerMatch` — a match of `_BEARER_PATTERN` is a keyword that no word character
  stands before, whitespace, and all the characters of a credential that follow;
* `scan_before` — a run of credential characters behind any text is taken by a match that begins in the text, or is
  scanned as if nothing stood before it. Which of the two it is does not depend on what follows;
* `query_value` — the text behind a name and `=` is replaced up to the end of the value, whatever the value is.
-/

import Mathlib.Data.List.Find
import McpAuth.Entrypoints.LogRedaction

namespace McpAuth

open PyText PyNumbers Substitution

/-! ### Letters -/

/-- The text is the word, up to case. -/
abbrev MatchesWord (word text : List Char) : Prop := List.Forall₂ (fun letter char => sameLetter letter char = true) word text

theorem startsWith_append {word text : List Char} (isWord : MatchesWord word text) (rest : List Char) :
    startsWith word (text ++ rest) = true := by
  induction isWord with
  | nil => cases rest <;> rfl
  | cons same _ ih => rw [List.cons_append, startsWith, same, ih]; rfl

/-- **A text that starts with a word.** -/
theorem startsWith_iff {word text : List Char} :
    startsWith word text = true ↔ ∃ first rest, text = first ++ rest ∧ MatchesWord word first := by
  constructor
  · intro starts
    induction word generalizing text with
    | nil => exact ⟨[], text, rfl, .nil⟩
    | cons letter word ih =>
      cases text with
      | nil => cases starts
      | cons char text =>
        rw [startsWith, Bool.and_eq_true] at starts
        obtain ⟨first, rest, rfl, isWord⟩ := ih starts.2
        exact ⟨char :: first, rest, rfl, .cons starts.1 isWord⟩
  · rintro ⟨first, rest, rfl, isWord⟩
    exact startsWith_append isWord rest

/-- The characters that a letter stands for. -/
theorem cases_of_sameLetter {letter char : Char} (same : sameLetter letter char = true) :
    char = letter ∨ (97 ≤ letter.toNat ∧ char = Char.ofNat (letter.toNat - 32)) ∨ (letter, char) ∈ extraCases := by
  rw [sameLetter, Bool.or_eq_true, beq_iff_eq, List.contains_iff_mem] at same
  rcases same with lowered | extra
  · unfold asciiLowerChar at lowered
    split at lowered
    · rename_i upper
      have low : 65 ≤ char.toNat := UInt32.le_iff_toNat_le.mp upper.1
      have high : char.toNat ≤ 90 := UInt32.le_iff_toNat_le.mp upper.2
      right
      left
      have back : ∀ code < 91, 65 ≤ code → 97 ≤ (Char.ofNat (code + 32)).toNat ∧
          Char.ofNat ((Char.ofNat (code + 32)).toNat - 32) = Char.ofNat code := by
        decide
      obtain ⟨isLower, same⟩ := back char.toNat (by omega) low
      rw [← lowered]
      exact ⟨isLower, by rw [same, Char.ofNat_toNat]⟩
    · exact Or.inl lowered
  · exact Or.inr (Or.inr extra)

/-- What holds of the letters of a word in each case holds of a text that is the word. -/
theorem forall_of_matchesWord {word text : List Char} {holds : Char → Prop} (isWord : MatchesWord word text)
    (letters : ∀ letter ∈ word, holds letter ∧ (97 ≤ letter.toNat → holds (Char.ofNat (letter.toNat - 32))) ∧
      ∀ extra ∈ extraCases, extra.1 = letter → holds extra.2) : ∀ char ∈ text, holds char := by
  induction isWord with
  | nil => exact fun _ member => absurd member List.not_mem_nil
  | @cons letter char word text same _ ih =>
    obtain ⟨here, later⟩ := List.forall_mem_cons.mp letters
    refine List.forall_mem_cons.mpr ⟨?_, ih later⟩
    rcases cases_of_sameLetter same with rfl | ⟨isLower, rfl⟩ | extra
    · exact here.1
    · exact here.2.1 isLower
    · exact here.2.2 _ extra rfl

/-- The characters of a keyword. -/
theorem bearer_chars {keyword : List Char} (isKeyword : MatchesWord bearerWord keyword) :
    ∀ char ∈ keyword, isCredentialChar char = true ∧ isValueChar char = true :=
  forall_of_matchesWord isKeyword (by decide +kernel)

/-! ### The bearer pattern -/

theorem not_isSpace_of_isCredentialChar {char : Char} (isChar : isCredentialChar char = true) :
    isSpace char = false := by
  rw [isCredentialChar, Bool.and_eq_true, Bool.and_eq_true] at isChar
  simpa using isChar.1.1

section Bearer

variable [WordTable]

/-- **A match of the bearer pattern**: the keyword, white space, the credential, and what is behind it. -/
structure BearerMatch (prev : Option Char) (keyword space credential rest : List Char) : Prop where
  boundary : prev.any isWord = false
  keyword : MatchesWord bearerWord keyword
  space : space ≠ [] ∧ ∀ char ∈ space, isSpace char = true
  credential : credential ≠ [] ∧ ∀ char ∈ credential, isCredentialChar char = true
  ends : ∀ char ∈ rest.head?, isCredentialChar char = false

/-- What replaces a bearer credential. -/
def bearerRedacted : List Char := "Bearer ".toList ++ redactedText.toList

theorem bearerPattern_of_match {prev : Option Char} {keyword space credential rest : List Char}
    (isMatch : BearerMatch prev keyword space credential rest) :
    bearerPattern prev (keyword ++ (space ++ (credential ++ rest))) =
      some (keyword.length + space.length + credential.length - 1, bearerRedacted) := by
  have starts := startsWith_append isMatch.keyword (space ++ (credential ++ rest))
  have length := isMatch.keyword.length_eq
  have wordBehind : ∀ char ∈ (credential ++ rest).head?, isSpace char = false := by
    obtain ⟨first, others, rfl⟩ := List.exists_cons_of_ne_nil isMatch.credential.1
    intro char isHead
    cases isHead
    exact not_isSpace_of_isCredentialChar (isMatch.credential.2 first List.mem_cons_self)
  have spaces := takeWhile_run isMatch.space.2 wordBehind
  have credentials := takeWhile_run isMatch.credential.2 isMatch.ends
  unfold bearerPattern
  rw [isMatch.boundary, if_neg Bool.false_ne_true, if_pos starts]
  dsimp only
  rw [length, List.drop_left, spaces.1, List.drop_left, credentials.1,
    if_neg (not_or.mpr ⟨isMatch.space.1, isMatch.credential.1⟩)]
  rfl

theorem exists_bearerMatch {prev : Option Char} {text : List Char} (matched : bearerPattern prev text ≠ none) :
    ∃ keyword space credential rest, text = keyword ++ (space ++ (credential ++ rest)) ∧
      BearerMatch prev keyword space credential rest := by
  unfold bearerPattern at matched
  split at matched
  · exact absurd rfl matched
  rename_i boundary
  split at matched
  · rename_i starts
    obtain ⟨keyword, behind, rfl, isKeyword⟩ := startsWith_iff.mp starts
    obtain ⟨space, behindSpace, rfl, isBlank, word⟩ := exists_run isSpace behind
    obtain ⟨credential, rest, rfl, chars, ends⟩ := exists_run isCredentialChar behindSpace
    dsimp only at matched
    rw [isKeyword.length_eq, List.drop_left, (takeWhile_run isBlank word).1, List.drop_left,
      (takeWhile_run chars ends).1] at matched
    have nonempty : ¬ (space = [] ∨ credential = []) := fun empty => matched (if_pos empty)
    rw [not_or] at nonempty
    exact ⟨keyword, space, credential, rest, rfl, eq_false_of_ne_true boundary, isKeyword, ⟨nonempty.1, isBlank⟩,
      ⟨nonempty.2, chars⟩, ends⟩
  · exact absurd rfl matched

/-- No match begins within a word that has no white space. -/
theorem bearerPattern_none_of_word {prev : Option Char} {text : List Char}
    (chars : ∀ char ∈ text, isCredentialChar char = true) : bearerPattern prev text = none := by
  by_contra matched
  obtain ⟨keyword, space, credential, rest, rfl, isMatch⟩ := exists_bearerMatch matched
  obtain ⟨first, others, rfl⟩ := List.exists_cons_of_ne_nil isMatch.space.1
  have word := not_isSpace_of_isCredentialChar (chars first (by simp))
  exact Bool.false_ne_true (word.symm.trans (isMatch.space.2 first List.mem_cons_self))

/-- Where no keyword begins there is no match. -/
theorem bearerPattern_none_of_head {prev : Option Char} {char : Char} {rest : List Char}
    (other : sameLetter 'b' char = false) : bearerPattern prev (char :: rest) = none := by
  have starts : startsWith bearerWord (char :: rest) = false := by
    rw [show bearerWord = 'b' :: "earer".toList from rfl, startsWith, other, Bool.false_and]
  unfold bearerPattern
  rw [starts, if_neg Bool.false_ne_true, ite_self]

/-- Behind a credential it does not count what stands before. -/
theorem bearerPattern_behind {prev : Option Char} (prev' : Option Char) {rest : List Char}
    (ends : ∀ char ∈ rest.head?, isCredentialChar char = false) : bearerPattern prev rest = bearerPattern prev' rest := by
  cases rest with
  | nil => rw [bearerPattern_none_of_word (by simp), bearerPattern_none_of_word (by simp)]
  | cons char rest =>
    have other : sameLetter 'b' char = false := by
      by_contra same
      rw [Bool.not_eq_false] at same
      have isChar := @forall_of_matchesWord ['b'] [char] (fun char => isCredentialChar char = true) (.cons same .nil)
        (by decide +kernel) char List.mem_cons_self
      exact Bool.false_ne_true ((ends char rfl).symm.trans isChar)
    rw [bearerPattern_none_of_head other, bearerPattern_none_of_head other]

/-- **One bearer credential is replaced.** -/
theorem subFrom_bearerMatch {prev : Option Char} {keyword space credential rest : List Char}
    (isMatch : BearerMatch prev keyword space credential rest) :
    subFrom bearerPattern 0 prev (keyword ++ (space ++ (credential ++ rest))) =
      bearerRedacted ++ subFrom bearerPattern 0 none rest := by
  have matched := bearerPattern_of_match isMatch
  obtain ⟨first, others, rfl⟩ := List.exists_cons_of_ne_nil
    (List.ne_nil_of_length_pos (by rw [← isMatch.keyword.length_eq]; decide) : keyword ≠ [])
  have shape : first :: others ++ (space ++ (credential ++ rest)) = first :: ((others ++ space ++ credential) ++ rest) := by
    simp
  have length : (first :: others).length + space.length + credential.length - 1 =
      (others ++ space ++ credential).length := by
    simp only [List.length_append, List.length_cons]
    omega
  rw [shape, length] at matched
  rw [shape, subFrom_matched matched, subFrom_congr (bearerPattern_behind none isMatch.ends)]

/-- **What follows a run as long as a keyword** does not make a match begin before it. -/
theorem bearerPattern_append {run pre later : List Char} {prev : Option Char} (long : bearerWord.length ≤ run.length)
    (chars : ∀ char ∈ run, isCredentialChar char = true) (nonempty : pre ≠ [])
    (unmatched : bearerPattern prev (pre ++ run) = none) : bearerPattern prev (pre ++ run ++ later) = none := by
  by_contra matched
  obtain ⟨keyword, space, credential, rest, shape, isMatch⟩ := exists_bearerMatch matched
  have size : keyword.length < (pre ++ run).length := by
    rw [← isMatch.keyword.length_eq, List.length_append]
    have positive := List.length_pos_iff.mpr nonempty
    omega
  -- the text in front of `later` reaches behind the keyword and the white space
  obtain ⟨behind, isText, isBehind⟩ : ∃ behind, pre ++ run = keyword ++ behind ∧
      behind ++ later = space ++ (credential ++ rest) := by
    rcases List.append_eq_append_iff.mp shape with ⟨more, isKeyword, -⟩ | ⟨behind, isText, isRest⟩
    · have short := congrArg List.length isKeyword
      rw [List.length_append] at short
      omega
    · exact ⟨behind, isText, isRest.symm⟩
  have nonemptyBehind : behind ≠ [] := by
    rintro rfl
    rw [isText, List.append_nil] at size
    exact lt_irrefl _ size
  have lastChar : ∀ char ∈ behind.getLast?, isSpace char = false := by
    intro char isLast
    have last := congrArg List.getLast? isText
    rw [List.getLast?_append_of_ne_nil _ (List.ne_nil_of_length_pos (lt_of_lt_of_le (by decide) long)),
      List.getLast?_append_of_ne_nil _ nonemptyBehind, Option.mem_def.mp isLast] at last
    exact not_isSpace_of_isCredentialChar (chars char (List.mem_of_getLast? last))
  obtain ⟨behind', isSplit, isCredential⟩ : ∃ behind', behind = space ++ behind' ∧
      behind' ++ later = credential ++ rest := by
    rcases List.append_eq_append_iff.mp isBehind with ⟨more, isSpaceText, -⟩ | ⟨behind', isSplit, isRest⟩
    · have last := lastChar _ (List.getLast?_eq_getLast_of_ne_nil nonemptyBehind)
      have blank := isMatch.space.2 _ (by rw [isSpaceText]; exact List.mem_append_left _ (List.getLast_mem nonemptyBehind))
      exact absurd (blank.symm.trans last) (by decide)
    · exact ⟨behind', isSplit, isRest.symm⟩
  obtain ⟨first, others, isCons⟩ := List.exists_cons_of_ne_nil isMatch.credential.1
  have nonempty' : behind' ≠ [] := by
    rintro rfl
    rw [List.append_nil] at isSplit
    have last := lastChar _ (List.getLast?_eq_getLast_of_ne_nil nonemptyBehind)
    have blank := isMatch.space.2 (behind.getLast nonemptyBehind) (isSplit ▸ List.getLast_mem nonemptyBehind)
    exact absurd (blank.symm.trans last) (by decide)
  obtain ⟨head, tail, isHead⟩ := List.exists_cons_of_ne_nil nonempty'
  have isFirst : head = first := by
    rw [isHead, isCons] at isCredential
    exact (List.cons.inj isCredential).1
  obtain ⟨found, remaining, isRun, foundChars, ends⟩ := exists_run isCredentialChar behind'
  have foundNonempty : found ≠ [] := by
    rintro rfl
    rw [List.nil_append] at isRun
    have stops := ends head (by rw [← isRun, isHead]; rfl)
    have goes := isMatch.credential.2 first (by simp [isCons])
    rw [isFirst, goes] at stops
    cases stops
  have isMatch' : BearerMatch prev keyword space found remaining :=
    ⟨isMatch.boundary, isMatch.keyword, isMatch.space, ⟨foundNonempty, foundChars⟩, ends⟩
  have found' := bearerPattern_of_match isMatch'
  rw [← isRun, ← isSplit, ← isText, unmatched] at found'
  cases found'

omit [WordTable] in
/-- What is behind a match in front of a run begins before the run. -/
theorem exists_before_run {run pre first rest : List Char} (chars : ∀ char ∈ run, isCredentialChar char = true)
    (shape : pre ++ run = first ++ rest) (nonempty : rest ≠ [])
    (ends : ∀ char ∈ rest.head?, isCredentialChar char = false) : ∃ later, pre = first ++ later ∧ rest = later ++ run := by
  rcases List.append_eq_append_iff.mp shape with ⟨more, -, isRun⟩ | ⟨later, isPre, isRest⟩
  · obtain ⟨head, tail, rfl⟩ := List.exists_cons_of_ne_nil nonempty
    have goes := chars head (by simp [isRun])
    exact absurd (goes.symm.trans (ends head rfl)) (by decide)
  · exact ⟨later, isPre, isRest⟩

/-- **A run of credential characters behind any text**, as long as a keyword: a match that begins in the text takes
it, and what follows it up to the end of the credential, or it is scanned from its beginning. -/
theorem scan_before {run : List Char} (long : bearerWord.length ≤ run.length)
    (chars : ∀ char ∈ run, isCredentialChar char = true) (pre : List Char) (prev : Option Char) :
    ∃ out, (takesLastFrom bearerPattern 0 prev (pre ++ run) = true ∧ ∀ later,
        subFrom bearerPattern 0 prev (pre ++ run ++ later) =
          out ++ (bearerRedacted ++ subFrom bearerPattern 0 none (later.dropWhile isCredentialChar))) ∨
      (takesLastFrom bearerPattern 0 prev (pre ++ run) = false ∧ ∀ later,
        subFrom bearerPattern 0 prev (pre ++ run ++ later) =
          out ++ subFrom bearerPattern 0 (lastOf prev pre) (run ++ later)) := by
  induction length : pre.length using Nat.strong_induction_on generalizing pre prev with
  | _ size ih =>
    cases pre with
    | nil =>
      refine ⟨[], Or.inr ⟨takesLastFrom_unmatched fun before char later split => ?_, fun later => by simp⟩⟩
      exact bearerPattern_none_of_word fun next member => chars next (by
        rw [List.nil_append] at split
        simp [split, member])
    | cons first pre =>
      by_cases unmatched : bearerPattern prev (first :: pre ++ run) = none
      · obtain ⟨out, found⟩ := ih pre.length (by simp [← length]) pre (some first) rfl
        have here : ∀ later, bearerPattern prev (first :: (pre ++ run ++ later)) = none := fun later =>
          bearerPattern_append long chars (List.cons_ne_nil first pre) unmatched
        have takes : takesLastFrom bearerPattern 0 prev (first :: pre ++ run) =
            takesLastFrom bearerPattern 0 (some first) (pre ++ run) := by
          rw [List.cons_append] at unmatched ⊢
          rw [takesLastFrom, unmatched]
        have scans : ∀ later, subFrom bearerPattern 0 prev (first :: pre ++ run ++ later) =
            first :: subFrom bearerPattern 0 (some first) (pre ++ run ++ later) := fun later =>
          subFrom_none (here later)
        refine ⟨first :: out, found.imp ?_ ?_⟩
        · rintro ⟨takesRun, scansRun⟩
          exact ⟨takes.trans takesRun, fun later => by rw [scans, scansRun, List.cons_append]⟩
        · rintro ⟨leavesRun, scansRun⟩
          exact ⟨takes.trans leavesRun, fun later => by rw [scans, scansRun, lastOf_cons, List.cons_append]⟩
      · obtain ⟨keyword, space, credential, rest, shape, isMatch⟩ := exists_bearerMatch unmatched
        obtain ⟨head, others, isKeyword⟩ := List.exists_cons_of_ne_nil
          (List.ne_nil_of_length_pos (by rw [← isMatch.keyword.length_eq]; decide) : keyword ≠ [])
        have takenLength : keyword.length + space.length + credential.length - 1 =
            (others ++ space ++ credential).length := by
          simp only [isKeyword, List.length_append, List.length_cons]
          omega
        have found : bearerPattern prev (head :: (others ++ space ++ credential ++ rest)) =
            some ((others ++ space ++ credential).length, bearerRedacted) := by
          have matched := bearerPattern_of_match isMatch
          rw [takenLength, isKeyword] at matched
          simpa using matched
        have isText : first :: pre ++ run = head :: (others ++ space ++ credential ++ rest) := by
          rw [shape, isKeyword]
          simp
        have takenNonempty : others ++ space ++ credential ≠ [] := by simp [isMatch.credential.1]
        by_cases last : rest = []
        · -- the match takes the run, and goes on behind it
          refine ⟨[], Or.inl ⟨?_, fun later => ?_⟩⟩
          · rw [last, List.append_nil] at found isText
            rw [isText, takesLastFrom, found]
            dsimp only
            rw [takesLastFrom_end _ takenNonempty, Bool.or_true]
          · obtain ⟨more, behind, rfl, moreChars, ends⟩ := exists_run isCredentialChar later
            have further : BearerMatch prev keyword space (credential ++ more) behind :=
              ⟨isMatch.boundary, isMatch.keyword, isMatch.space, ⟨by simp [isMatch.credential.1], by
                simpa [or_imp, forall_and] using ⟨isMatch.credential.2, moreChars⟩⟩, ends⟩
            have scanned := subFrom_bearerMatch further
            rw [(takeWhile_run moreChars ends).2, List.nil_append, ← scanned, shape, last]
            simp
        · -- the match ends in front of the run
          obtain ⟨later', isPre, isRest⟩ := exists_before_run chars (shape.trans (by simp :
            keyword ++ (space ++ (credential ++ rest)) = (keyword ++ space ++ credential) ++ rest)) last isMatch.ends
          have shorter : later'.length < size := by
            have sizes := congrArg List.length isText
            rw [isRest] at sizes
            simp only [List.length_append, List.length_cons] at sizes length
            have positive := List.length_pos_iff.mpr takenNonempty
            simp only [List.length_append] at positive
            omega
          have nonempty : later' ≠ [] := by
            rintro rfl
            obtain ⟨char, tail, isRun⟩ := List.exists_cons_of_ne_nil
              (List.ne_nil_of_length_pos (lt_of_lt_of_le (by decide) long) : run ≠ [])
            have stops := isMatch.ends char (by rw [isRest, isRun]; rfl)
            exact absurd ((chars char (by simp [isRun])).symm.trans stops) (by decide)
          obtain ⟨out, scanned⟩ := ih later'.length shorter later' none rfl
          have takes : takesLastFrom bearerPattern 0 prev (first :: pre ++ run) =
              takesLastFrom bearerPattern 0 none (later' ++ run) := by
            rw [isText, takesLastFrom_matched last found, ← isRest]
            exact takesLastFrom_congr (bearerPattern_behind _ isMatch.ends)
          have scans : ∀ later, subFrom bearerPattern 0 prev (first :: pre ++ run ++ later) =
              bearerRedacted ++ subFrom bearerPattern 0 none (later' ++ run ++ later) := by
            intro later
            have ends : ∀ char ∈ (rest ++ later).head?, isCredentialChar char = false := by
              intro char isHead
              rw [List.head?_append_of_ne_nil _ last] at isHead
              exact isMatch.ends char isHead
            have further : BearerMatch prev keyword space credential (rest ++ later) :=
              ⟨isMatch.boundary, isMatch.keyword, isMatch.space, isMatch.credential, ends⟩
            rw [← isRest, ← subFrom_bearerMatch further, shape]
            simp
          have same : lastOf prev (first :: pre) = lastOf none later' := by
            rw [isPre, lastOf_append]
            exact lastOf_of_ne_nil _ _ nonempty
          refine ⟨bearerRedacted ++ out, scanned.imp ?_ ?_⟩
          · rintro ⟨takesRun, scansRun⟩
            exact ⟨takes.trans takesRun, fun later => by rw [scans, scansRun, List.append_assoc]⟩
          · rintro ⟨leavesRun, scansRun⟩
            exact ⟨takes.trans leavesRun, fun later => by rw [scans, scansRun, same, List.append_assoc]⟩

end Bearer

/-! ### The query pattern -/

/-- The letters of a name and the `=` behind it are characters of credentials and values, in each case. -/
theorem name_letters : ∀ name ∈ querySecretNames, ∀ letter ∈ name ++ ['='],
    (isCredentialChar letter = true ∧ isValueChar letter = true) ∧
      (97 ≤ letter.toNat → isCredentialChar (Char.ofNat (letter.toNat - 32)) = true ∧
        isValueChar (Char.ofNat (letter.toNat - 32)) = true) ∧
      ∀ extra ∈ extraCases, extra.1 = letter → isCredentialChar extra.2 = true ∧ isValueChar extra.2 = true := by
  decide +kernel

theorem name_chars {name text : List Char} (member : name ∈ querySecretNames) (isName : MatchesWord (name ++ ['=']) text) :
    ∀ char ∈ text, isCredentialChar char = true ∧ isValueChar char = true :=
  forall_of_matchesWord isName (name_letters name member)

/-- A character that matches no letter of the word ends it. -/
theorem startsWith_cut {word text : List Char} {stop : Char} (other : ∀ letter ∈ word, sameLetter letter stop = false)
    (rest : List Char) : startsWith word (text ++ stop :: rest) = startsWith word text := by
  induction word generalizing text with
  | nil => cases text <;> rfl
  | cons letter word ih =>
    cases text with
    | nil =>
      show (sameLetter letter stop && startsWith word rest) = false
      rw [other letter List.mem_cons_self, Bool.false_and]
    | cons char text =>
      rw [List.cons_append, startsWith, startsWith, ih fun next member => other next (List.mem_cons_of_mem _ member)]

/-- The `=` behind a name is the first one of the text. -/
theorem startsWith_named {name text : List Char} (letters : ∀ letter ∈ name, sameLetter letter '=' = false)
    (named : '=' ∈ text) (later : List Char) :
    startsWith (name ++ ['=']) (text ++ later) = startsWith (name ++ ['=']) text := by
  induction name generalizing text with
  | nil =>
    obtain ⟨char, others, rfl⟩ := List.exists_cons_of_ne_nil (List.ne_nil_of_mem named)
    rfl
  | cons letter name ih =>
    obtain ⟨char, others, rfl⟩ := List.exists_cons_of_ne_nil (List.ne_nil_of_mem named)
    rw [List.cons_append, List.cons_append, startsWith, startsWith]
    rcases List.mem_cons.mp named with rfl | behind
    · rw [letters letter List.mem_cons_self, Bool.false_and, Bool.false_and]
    · rw [ih (fun next member => letters next (List.mem_cons_of_mem _ member)) behind]

/-- The name that a text starts with, with its `=`. -/
def nameAt (text : List Char) : Option (List Char) :=
  querySecretNames.find? fun name => startsWith (name ++ ['=']) text

theorem nameAt_eq_none {text : List Char} :
    nameAt text = none ↔ ∀ name ∈ querySecretNames, startsWith (name ++ ['=']) text = false := by
  simp [nameAt]

/-- **A name at the front of a text.** -/
theorem exists_of_nameAt {text name : List Char} (found : nameAt text = some name) :
    name ∈ querySecretNames ∧ ∃ first behind, text = first ++ behind ∧ MatchesWord (name ++ ['=']) first := by
  have starts : startsWith (name ++ ['=']) text = true := List.find?_some (p := fun name => startsWith (name ++ ['=']) text) found
  exact ⟨List.mem_of_find?_eq_some found, startsWith_iff.mp starts⟩

theorem nameAt_named {text : List Char} (named : '=' ∈ text) (later : List Char) : nameAt (text ++ later) = nameAt text := by
  have letters : ∀ name ∈ querySecretNames, ∀ letter ∈ name, sameLetter letter '=' = false := by decide
  exact List.find?_congr fun name member => startsWith_named (letters name member) named later

theorem nameAt_cut {text : List Char} {stop : Char} (stops : isValueChar stop = false) (rest : List Char) :
    nameAt (text ++ stop :: rest) = nameAt text := by
  refine List.find?_congr fun name member => startsWith_cut (fun letter isLetter => ?_) rest
  by_contra same
  rw [Bool.not_eq_false] at same
  have goes : ∀ char ∈ [stop], isCredentialChar char = true ∧ isValueChar char = true :=
    forall_of_matchesWord (.cons same .nil) (List.forall_mem_singleton.mpr (name_letters name member letter isLetter))
  exact Bool.false_ne_true (stops.symm.trans (goes stop List.mem_cons_self).2)

/-- No name begins with what is none of a credential. -/
theorem nameAt_apart {char : Char} (apart : isCredentialChar char = false) (rest : List Char) : nameAt (char :: rest) = none := by
  by_contra named
  obtain ⟨name, found⟩ := Option.ne_none_iff_exists'.mp named
  obtain ⟨member, first, behind, shape, isName⟩ := exists_of_nameAt found
  cases first with
  | nil => exact absurd isName.length_eq (by simp)
  | cons head others =>
    obtain rfl := (List.cons.inj shape).1
    exact Bool.false_ne_true (apart.symm.trans (name_chars member isName char List.mem_cons_self).1)

theorem querySecretPattern_none {prev : Option Char} {text : List Char} (unnamed : nameAt text = none) :
    querySecretPattern prev text = none := by
  rw [querySecretPattern, show querySecretNames.find? _ = none from unnamed]

/-- **A match of the query pattern**, in a text cut behind the value. -/
theorem querySecretPattern_named (prev : Option Char) {name first value rest : List Char}
    (found : nameAt (first ++ (value ++ rest)) = some name) (isName : MatchesWord (name ++ ['=']) first) (chars : ∀ char ∈ value, isValueChar char = true)
    (ends : ∀ char ∈ rest.head?, isValueChar char = false) :
    querySecretPattern prev (first ++ (value ++ rest)) =
      if value = [] then none
      else some (name.length + value.length, first.take name.length ++ '=' :: redactedText.toList) := by
  have length : name.length + 1 = first.length := by
    rw [← isName.length_eq, List.length_append, List.length_singleton]
  rw [querySecretPattern, show querySecretNames.find? _ = some name from found]
  dsimp only
  rw [length, List.drop_left, (takeWhile_run chars ends).1, List.take_append_of_le_length (by omega)]

/-- The query pattern does not look at what stands before. -/
theorem query_behind (prev : Option Char) (text : List Char) :
    subFrom querySecretPattern 0 prev text = subFrom querySecretPattern 0 none text :=
  subFrom_congr rfl

/-- What a match takes is within the text. -/
theorem querySecretPattern_fits {prev : Option Char} {char : Char} {later replacement : List Char} {taken : ℕ}
    (matched : querySecretPattern prev (char :: later) = some (taken, replacement)) : taken ≤ later.length := by
  cases found : nameAt (char :: later) with
  | none =>
    rw [querySecretPattern_none found] at matched
    cases matched
  | some name =>
    obtain ⟨-, first, behind, shape, isName⟩ := exists_of_nameAt found
    obtain ⟨value, rest, rfl, chars, ends⟩ := exists_run isValueChar behind
    have sizes := congrArg List.length shape
    have length := isName.length_eq
    rw [shape] at found
    rw [shape, querySecretPattern_named prev found isName chars ends] at matched
    split at matched
    · cases matched
    · cases matched
      simp only [List.length_append, List.length_cons, List.length_nil] at sizes length
      omega

/-- A character that is none of a value ends what the pattern sees. -/
theorem querySecretPattern_cut {stop : Char} (stops : isValueChar stop = false) (prev : Option Char) (text rest : List Char) :
    querySecretPattern prev (text ++ stop :: rest) = querySecretPattern prev text := by
  have names : nameAt (text ++ stop :: rest) = nameAt text := nameAt_cut stops rest
  cases found : nameAt text with
  | none => rw [querySecretPattern_none found, querySecretPattern_none (names.trans found)]
  | some name =>
    rw [found] at names
    obtain ⟨-, first, behind, rfl, isName⟩ := exists_of_nameAt found
    obtain ⟨value, tail, rfl, chars, ends⟩ := exists_run isValueChar behind
    have further : ∀ char ∈ (tail ++ stop :: rest).head?, isValueChar char = false := by
      cases tail with
      | nil =>
        intro char isHead
        cases isHead
        exact stops
      | cons next tail => exact ends
    have shape : first ++ (value ++ tail) ++ stop :: rest = first ++ (value ++ (tail ++ stop :: rest)) := by
      simp only [List.append_assoc]
    rw [shape] at names ⊢
    rw [querySecretPattern_named prev found isName chars ends, querySecretPattern_named prev names isName chars further]

/-- **A character that is none of a value** cuts the text for the query pattern. -/
theorem query_cut {stop : Char} (stops : isValueChar stop = false) (first rest : List Char) :
    subFrom querySecretPattern 0 none (first ++ stop :: rest) =
      subFrom querySecretPattern 0 none first ++ stop :: subFrom querySecretPattern 0 none rest := by
  rw [← query_behind (some stop) rest]
  refine subFrom_cut (fun prev char later => ?_) (fun _ _ _ _ _ => querySecretPattern_fits) (fun prev => ?_) (Nat.zero_le _)
  · exact querySecretPattern_cut stops prev (char :: later) rest
  · exact (querySecretPattern_cut stops prev [] rest).trans (querySecretPattern_none rfl)

/-- **One value is replaced.** -/
theorem query_named {prev : Option Char} {name first value rest : List Char}
    (found : nameAt (first ++ (value ++ rest)) = some name) (isName : MatchesWord (name ++ ['=']) first)
    (nonempty : value ≠ []) (chars : ∀ char ∈ value, isValueChar char = true)
    (ends : ∀ char ∈ rest.head?, isValueChar char = false) :
    subFrom querySecretPattern 0 prev (first ++ (value ++ rest)) =
      first.take name.length ++ '=' :: redactedText.toList ++ subFrom querySecretPattern 0 none rest := by
  have length : name.length + 1 = first.length := by
    rw [← isName.length_eq, List.length_append, List.length_singleton]
  have matched := querySecretPattern_named prev found isName chars ends
  rw [if_neg nonempty] at matched
  cases first with
  | nil => cases length
  | cons char others =>
    have taken : name.length + value.length = (others ++ value).length := by
      rw [List.length_cons, Nat.add_right_cancel_iff] at length
      rw [List.length_append, length]
    have shape : char :: others ++ (value ++ rest) = char :: (others ++ value ++ rest) := by
      rw [List.cons_append, List.append_assoc]
    rw [taken, shape] at matched
    rw [shape, subFrom_matched matched, query_behind]

/-- **A match of the query pattern**: what it replaces begins with a name. -/
theorem exists_query_named {prev : Option Char} {text : List Char} (matched : querySecretPattern prev text ≠ none) :
    ∃ name ∈ querySecretNames, ∃ first behind out, MatchesWord name first ∧ text = first ++ behind ∧
      subFrom querySecretPattern 0 prev text = first ++ out := by
  cases found : nameAt text with
  | none => exact absurd (querySecretPattern_none found) matched
  | some name =>
    obtain ⟨member, first, behind, rfl, isName⟩ := exists_of_nameAt found
    obtain ⟨value, rest, rfl, chars, ends⟩ := exists_run isValueChar behind
    have nonempty : value ≠ [] := by
      rintro rfl
      exact matched ((querySecretPattern_named prev found isName chars ends).trans (if_pos rfl))
    have replaced : subFrom querySecretPattern 0 prev (first ++ (value ++ rest)) = _ :=
      query_named found isName nonempty chars ends
    rw [List.append_assoc] at replaced
    refine ⟨name, member, first.take name.length, first.drop name.length ++ (value ++ rest), _, ?_, ?_, replaced⟩
    · have taken := List.forall₂_take name.length isName
      rwa [List.take_left] at taken
    · exact (congrArg (· ++ (value ++ rest)) (List.take_append_drop name.length first).symm).trans (List.append_assoc ..)

/-- A value behind the text is replaced up to its end, whatever it is. -/
def HidesValue (text : List Char) : Prop :=
  ∃ out, ∀ value rest, value ≠ [] → (∀ char ∈ value, isValueChar char = true) →
    (∀ char ∈ rest.head?, isValueChar char = false) →
      subFrom querySecretPattern 0 none (text ++ (value ++ rest)) = out ++ subFrom querySecretPattern 0 none rest

theorem hidesValue_of_nameAt {text name : List Char} (chars : ∀ char ∈ text, isValueChar char = true) (named : '=' ∈ text)
    (found : nameAt text = some name) : HidesValue text := by
  obtain ⟨-, first, behind, shape, isName⟩ := exists_of_nameAt found
  refine ⟨first.take name.length ++ '=' :: redactedText.toList, fun value rest nonempty valueChars ends => ?_⟩
  have behindChars : ∀ char ∈ behind ++ value, isValueChar char = true := by
    intro char member
    rcases List.mem_append.mp member with inside | inside
    · exact chars char (by rw [shape]; exact List.mem_append_right _ inside)
    · exact valueChars char inside
  have foundLater := (nameAt_named named (value ++ rest)).trans found
  have reshape : first ++ behind ++ (value ++ rest) = first ++ ((behind ++ value) ++ rest) := by
    simp only [List.append_assoc]
  rw [shape, reshape] at foundLater ⊢
  exact query_named foundLater isName (by simp [nonempty]) behindChars ends

theorem HidesValue.cons {char : Char} {text : List Char} (hides : HidesValue text) (named : '=' ∈ char :: text)
    (unnamed : nameAt (char :: text) = none) : HidesValue (char :: text) := by
  obtain ⟨out, scans⟩ := hides
  refine ⟨char :: out, fun value rest nonempty chars ends => ?_⟩
  have unmatched : querySecretPattern none (char :: (text ++ (value ++ rest))) = none :=
    querySecretPattern_none ((nameAt_named named (value ++ rest)).trans unnamed)
  rw [List.cons_append, subFrom_none unmatched, query_behind, scans value rest nonempty chars ends, List.cons_append]

theorem HidesValue.cut {stop : Char} {text : List Char} (hides : HidesValue text) (stops : isValueChar stop = false)
    (first : List Char) : HidesValue (first ++ stop :: text) := by
  obtain ⟨out, scans⟩ := hides
  refine ⟨subFrom querySecretPattern 0 none first ++ stop :: out, fun value rest nonempty chars ends => ?_⟩
  rw [List.append_assoc, List.cons_append, query_cut stops, scans value rest nonempty chars ends, List.append_assoc,
    List.cons_append]

/-- **Behind a name and `=`** a value is replaced, whatever stands before. -/
theorem query_value {name : List Char} (member : name ∈ querySecretNames) (pre : List Char) :
    HidesValue (pre ++ (name ++ ['='])) := by
  -- a text without delimiters, by its first name
  have run : ∀ pre : List Char, (∀ char ∈ pre, isValueChar char = true) → HidesValue (pre ++ (name ++ ['='])) := by
    intro pre preChars
    have chars : ∀ char ∈ pre ++ (name ++ ['=']), isValueChar char = true := by
      intro char inside
      rcases List.mem_append.mp inside with front | front
      · exact preChars char front
      · exact (name_letters name member char front).1.2
    induction pre with
    | nil =>
      have itself : ∀ name ∈ querySecretNames, nameAt (name ++ ['=']) = some name := by decide
      exact hidesValue_of_nameAt chars (by simp) (itself name member)
    | cons char pre ih =>
      cases found : nameAt (char :: pre ++ (name ++ ['='])) with
      | none =>
        refine HidesValue.cons (ih (fun next inside => preChars next (List.mem_cons_of_mem _ inside)) ?_) (by simp) found
        exact fun next inside => chars next (List.mem_cons_of_mem _ inside)
      | some other => exact hidesValue_of_nameAt chars (by simp) found
  induction length : pre.length using Nat.strong_induction_on generalizing pre with
  | _ size ih =>
    obtain ⟨first, rest, rfl, chars, ends⟩ := exists_run isValueChar pre
    cases rest with
    | nil => exact run _ (by simpa using chars)
    | cons stop rest =>
      have shorter : rest.length < size := by
        rw [← length, List.length_append, List.length_cons]
        omega
      rw [List.append_assoc, List.cons_append]
      exact (ih rest.length shorter rest rfl).cut (ends stop rfl) first

end McpAuth
