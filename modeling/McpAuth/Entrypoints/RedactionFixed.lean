/-
**A redacted event is redacted.**

Redaction runs over every event on its way to a renderer, and an event may pass it more than once. The two
substitutions disturb each other: the second one cuts into what the first one has written, as in
`access_token=Bearer [REDACTED]`.

* `bearer_settled` — behind the first substitution every bearer match is replaced by itself;
* `query_settled` — the second substitution keeps that, and is its own fixed point (`query_fixed`).

`redactSecuritySecrets_idem`: redacting an event twice is redacting it once.
-/

import McpAuth.Entrypoints.RedactionScan

namespace McpAuth

open PyText PyNumbers Substitution

/-! ### Heads -/

/-- A bearer match begins with a letter of credentials and values. -/
theorem begins_chars {char : Char} (begins : sameLetter 'b' char = true) :
    isCredentialChar char = true ∧ isValueChar char = true :=
  @forall_of_matchesWord ['b'] [char] (fun char => isCredentialChar char = true ∧ isValueChar char = true)
    (.cons begins .nil) (by decide +kernel) char List.mem_cons_self

/-- No other letter of the keyword, and no white space, begins a match. -/
theorem not_begins_of_earer {text : List Char} (isWord : MatchesWord "earer".toList text) :
    ∀ char ∈ text, sameLetter 'b' char = false :=
  forall_of_matchesWord isWord (by decide +kernel)

theorem not_begins_of_isSpace {char : Char} (space : isSpace char = true) : sameLetter 'b' char = false := by
  by_contra begins
  rw [Bool.not_eq_false] at begins
  have word := not_isSpace_of_isCredentialChar (begins_chars begins).1
  exact Bool.false_ne_true (word.symm.trans space)

theorem matchesWord_bearer_cons {char : Char} {others : List Char} (isKeyword : MatchesWord bearerWord (char :: others)) :
    sameLetter 'b' char = true ∧ MatchesWord "earer".toList others := by
  have shape : bearerWord = 'b' :: "earer".toList := rfl
  rw [shape] at isKeyword
  cases isKeyword with
  | cons begins others => exact ⟨begins, others⟩

section Patterns

variable [WordTable]

/-- Where no match begins it does not count what stands before. -/
theorem bearerPattern_congr_head {prev : Option Char} (prev' : Option Char) {text : List Char}
    (other : ∀ char ∈ text.head?, sameLetter 'b' char = false) :
    bearerPattern prev text = bearerPattern prev' text := by
  cases text with
  | nil => exact bearerPattern_behind prev' (by simp)
  | cons char rest => rw [bearerPattern_none_of_head (other char rfl), bearerPattern_none_of_head (other char rfl)]

/-- A text in which no match begins. -/
theorem bearer_unmatched {first rest : List Char} {prev : Option Char}
    (free : ∀ char ∈ first, sameLetter 'b' char = false) :
    ∀ before char later, first = before ++ char :: later →
      bearerPattern (lastOf prev before) (char :: (later ++ rest)) = none := by
  rintro before char later rfl
  exact bearerPattern_none_of_head (free char (by simp))

/-- **A match that begins at a character**: the letters and the white space behind it. -/
structure BearerHead (char : Char) (rest behind : List Char) : Prop where
  begins : sameLetter 'b' char = true
  split : ∃ others space, rest = others ++ (space ++ behind) ∧ MatchesWord "earer".toList others ∧
    space ≠ [] ∧ ∀ char ∈ space, isSpace char = true
  credential : ∃ first later, behind = first :: later ∧ isCredentialChar first = true

theorem exists_bearerHead {prev : Option Char} {char : Char} {rest : List Char}
    (matched : bearerPattern prev (char :: rest) ≠ none) :
    prev.any isWord = false ∧ ∃ behind, BearerHead char rest behind := by
  obtain ⟨keyword, space, credential, tail, shape, isMatch⟩ := exists_bearerMatch matched
  obtain ⟨head, others, rfl⟩ := List.exists_cons_of_ne_nil
    (List.ne_nil_of_length_pos (by rw [← isMatch.keyword.length_eq]; decide) : keyword ≠ [])
  obtain ⟨first, later, rfl⟩ := List.exists_cons_of_ne_nil isMatch.credential.1
  obtain ⟨rfl, rfl⟩ := List.cons.inj shape
  obtain ⟨begins, isWord⟩ := matchesWord_bearer_cons isMatch.keyword
  refine ⟨isMatch.boundary, first :: (later ++ tail), begins, ⟨others, space, rfl, isWord, isMatch.space⟩, ?_⟩
  exact ⟨first, _, rfl, isMatch.credential.2 first List.mem_cons_self⟩

/-- **The whole match** from its head: the credential goes on as long as it can. -/
theorem BearerHead.matches {prev : Option Char} {char : Char} {rest behind : List Char}
    (head : BearerHead char rest behind) (boundary : prev.any isWord = false) :
    ∃ taken, bearerPattern prev (char :: rest) = some (taken, bearerRedacted) ∧
      ∃ others space credential tail, rest = others ++ (space ++ (credential ++ tail)) ∧
        behind = credential ++ tail ∧ BearerMatch prev (char :: others) space credential tail ∧
        taken = (others ++ space ++ credential).length := by
  obtain ⟨others, space, rfl, isWord, isSpace⟩ := head.split
  obtain ⟨first, later, rfl, isFirst⟩ := head.credential
  obtain ⟨credential, tail, shape, chars, ends⟩ := exists_run isCredentialChar (first :: later)
  have nonempty : credential ≠ [] := by
    rintro rfl
    rw [List.nil_append] at shape
    rw [← shape] at ends
    exact Bool.false_ne_true ((ends first rfl).symm.trans isFirst)
  have isMatch : BearerMatch prev (char :: others) space credential tail :=
    ⟨boundary, .cons head.begins isWord, isSpace, ⟨nonempty, chars⟩, ends⟩
  have matched := bearerPattern_of_match isMatch
  rw [shape]
  refine ⟨_, matched, others, space, credential, tail, rfl, rfl, isMatch, ?_⟩
  simp only [List.length_append, List.length_cons]
  omega

/-! ### The bearer substitution -/

/-- A text in which no match begins stays. -/
theorem subFrom_bearer_before {first : List Char} (free : ∀ char ∈ first, sameLetter 'b' char = false)
    (prev : Option Char) (rest : List Char) :
    subFrom bearerPattern 0 prev (first ++ rest) =
      first ++ subFrom bearerPattern 0 (lastOf prev first) rest :=
  subFrom_unmatched (bearer_unmatched free)

/-- Where a match may begin, what comes out begins with such a letter as well. -/
theorem subFrom_bearer_begins {char : Char} (begins : sameLetter 'b' char = true) (prev : Option Char)
    (rest : List Char) :
    ∃ next later, subFrom bearerPattern 0 prev (char :: rest) = next :: later ∧ sameLetter 'b' next = true := by
  by_cases matched : bearerPattern prev (char :: rest) = none
  · exact ⟨char, _, subFrom_none matched, begins⟩
  · obtain ⟨keyword, space, credential, tail, shape, isMatch⟩ := exists_bearerMatch matched
    rw [shape, subFrom_bearerMatch isMatch]
    exact ⟨'B', _, rfl, by decide⟩

/-- What may begin a match behind the substitution may begin one before it. -/
theorem BearerHead.back {prev : Option Char} {char : Char} {rest behind : List Char}
    (head : BearerHead char (subFrom bearerPattern 0 prev rest) behind) :
    ∃ behind', BearerHead char rest behind' := by
  obtain ⟨others, space, shape, isWord, isBlank⟩ := head.split
  obtain ⟨first, later, rfl, isFirst⟩ := head.credential
  obtain ⟨before, after, rfl, free, stops⟩ := exists_run (fun char => !sameLetter 'b' char) rest
  have free' : ∀ char ∈ before, sameLetter 'b' char = false := by simpa using free
  rw [subFrom_bearer_before free', ← List.append_assoc] at shape
  have freeHead : ∀ char ∈ others ++ space, sameLetter 'b' char = false := by
    intro char member
    rcases List.mem_append.mp member with letter | blank
    · exact not_begins_of_earer isWord char letter
    · exact not_begins_of_isSpace (isBlank.2 char blank)
  -- the letters and the white space end before the next place where a match may begin
  have within : ∃ inside, before = others ++ space ++ inside := by
    rcases List.append_eq_append_iff.mp shape with ⟨inside, split, isAfter⟩ | ⟨inside, split, -⟩
    · cases inside with
      | nil => exact ⟨[], by rw [split, List.append_nil, List.append_nil]⟩
      | cons next inside =>
        cases after with
        | nil =>
          rw [subFrom_nil] at isAfter
          cases isAfter
        | cons stop after =>
          obtain ⟨next', later', out, begins⟩ := subFrom_bearer_begins (by simpa using stops stop rfl)
            (lastOf prev before) after
          rw [out] at isAfter
          obtain rfl : next' = next := (List.cons.inj isAfter).1
          have other := freeHead next' (by rw [split]; simp)
          exact absurd (begins.symm.trans other) Bool.false_ne_true.symm
    · exact ⟨inside, split⟩
  obtain ⟨inside, rfl⟩ := within
  rw [List.append_assoc (others ++ space), List.append_cancel_left_eq] at shape
  refine ⟨inside ++ after, head.begins, ⟨others, space, by simp, isWord, isBlank⟩, ?_⟩
  cases inside with
  | cons next inside =>
    obtain rfl : next = first := (List.cons.inj shape).1
    exact ⟨next, _, rfl, isFirst⟩
  | nil =>
    cases after with
    | nil =>
      rw [subFrom_nil] at shape
      cases shape
    | cons stop after => exact ⟨stop, after, rfl, (begins_chars (by simpa using stops stop rfl)).1⟩

omit [WordTable] in
theorem bearerRedacted_free : ∃ others, bearerRedacted = 'B' :: others ∧
    ∀ char ∈ others, sameLetter 'b' char = false := by
  exact ⟨"earer [REDACTED]".toList, by decide +kernel, by decide +kernel⟩

/-- What replaces a credential is replaced by itself. -/
theorem bearerRedacted_match {prev : Option Char} (boundary : prev.any isWord = false) {tail : List Char}
    (ends : ∀ char ∈ tail.head?, isCredentialChar char = false) :
    BearerMatch prev "Bearer".toList " ".toList redactedText.toList tail :=
  ⟨boundary, by decide +kernel, by decide +kernel, by decide +kernel, ends⟩

theorem bearerRedacted_here {prev : Option Char} (boundary : prev.any isWord = false) {tail : List Char}
    (ends : ∀ char ∈ tail.head?, isCredentialChar char = false) {char : Char} {others : List Char}
    (shape : bearerRedacted = char :: others) :
    ∀ taken replacement, bearerPattern prev (char :: (others ++ tail)) = some (taken, replacement) →
      replacement = char :: (others ++ tail).take taken := by
  intro taken replacement isMatch
  have matched := bearerPattern_of_match (bearerRedacted_match boundary ends)
  have text : "Bearer".toList ++ (" ".toList ++ (redactedText.toList ++ tail)) = bearerRedacted ++ tail := rfl
  rw [text, shape, List.cons_append, isMatch, Option.some.injEq] at matched
  have length : others.length = taken := by
    have sizes := congrArg List.length shape
    have parts : bearerRedacted.length = "Bearer".toList.length + " ".toList.length + redactedText.toList.length := by
      decide +kernel
    rw [(Prod.mk.inj matched).1, ← parts, sizes, List.length_cons, Nat.add_sub_cancel]
  rw [(Prod.mk.inj matched).2, ← length, List.take_left]

/-- What is replaced by itself in front of a settled text. -/
theorem bearerRedacted_settled {prev : Option Char} (boundary : prev.any isWord = false) {tail : List Char}
    (ends : ∀ char ∈ tail.head?, isCredentialChar char = false) (settled : SettledFrom bearerPattern none tail) :
    SettledFrom bearerPattern prev (bearerRedacted ++ tail) := by
  obtain ⟨others, shape, free⟩ := bearerRedacted_free
  rw [shape, List.cons_append, settledFrom_cons]
  constructor
  · exact bearerRedacted_here boundary ends shape
  · refine SettledFrom.append ?_ (bearer_unmatched free)
    exact settled.congr (bearerPattern_behind _ ends)

/-- What is behind a credential comes out with the same first character. -/
theorem subFrom_bearer_ends {rest : List Char} (ends : ∀ char ∈ rest.head?, isCredentialChar char = false)
    (prev : Option Char) :
    ∀ char ∈ (subFrom bearerPattern 0 prev rest).head?, isCredentialChar char = false := by
  cases rest with
  | nil => exact ends
  | cons char rest =>
    have other : sameLetter 'b' char = false := by
      by_contra begins
      rw [Bool.not_eq_false] at begins
      exact Bool.false_ne_true ((ends char rfl).symm.trans (begins_chars begins).1)
    rw [subFrom_none (bearerPattern_none_of_head other)]
    exact ends

/-- **Behind the bearer substitution every match is replaced by itself.** -/
theorem bearer_settled (prev : Option Char) (text : List Char) :
    SettledFrom bearerPattern prev (subFrom bearerPattern 0 prev text) := by
  induction length : text.length using Nat.strong_induction_on generalizing text prev with
  | _ size ih =>
    cases text with
    | nil => exact settledFrom_nil prev
    | cons char rest =>
      by_cases matched : bearerPattern prev (char :: rest) = none
      · rw [subFrom_none matched, settledFrom_cons]
        refine ⟨fun taken replacement isMatch => ?_, ih rest.length (by simp [← length]) (some char) rest rfl⟩
        -- a match there would begin one in the text
        obtain ⟨boundary, behind, head⟩ := exists_bearerHead (by rw [isMatch]; simp)
        obtain ⟨behind', back⟩ := head.back
        obtain ⟨taken', found, -⟩ := back.matches boundary
        rw [matched] at found
        cases found
      · obtain ⟨keyword, space, credential, tail, shape, isMatch⟩ := exists_bearerMatch matched
        have shorter : tail.length < size := by
          have sizes := congrArg List.length shape
          have nonempty := List.length_pos_of_ne_nil isMatch.space.1
          simp only [List.length_append] at sizes
          omega
        rw [shape, subFrom_bearerMatch isMatch]
        exact bearerRedacted_settled isMatch.boundary (subFrom_bearer_ends isMatch.ends none)
          (ih tail.length shorter none tail rfl)

end Patterns

/-! ### The query substitution -/

/-- **A match of the query pattern**: a name, `=`, a value, and what is behind it. -/
structure QueryMatch (name front value rest : List Char) : Prop where
  member : name ∈ querySecretNames
  isName : MatchesWord name front
  found : nameAt (front ++ ['=']) = some name
  value : value ≠ [] ∧ ∀ char ∈ value, isValueChar char = true
  ends : ∀ char ∈ rest.head?, isValueChar char = false

/-- The letters of a name: none is `=`, and none begins a bearer match. -/
theorem QueryMatch.front_free {name front value rest : List Char} (isMatch : QueryMatch name front value rest) :
    ∀ char ∈ front, char ≠ '=' ∧ sameLetter 'b' char = false := by
  have letters : ∀ name ∈ querySecretNames, ∀ letter ∈ name,
      (letter ≠ '=' ∧ sameLetter 'b' letter = false) ∧
        (97 ≤ letter.toNat → Char.ofNat (letter.toNat - 32) ≠ '=' ∧
          sameLetter 'b' (Char.ofNat (letter.toNat - 32)) = false) ∧
        ∀ extra ∈ extraCases, extra.1 = letter → extra.2 ≠ '=' ∧ sameLetter 'b' extra.2 = false := by
    decide +kernel
  exact forall_of_matchesWord isMatch.isName (letters name isMatch.member)

/-- A name with its `=`, up to case. -/
theorem split_named {name first : List Char} (isName : MatchesWord (name ++ ['=']) first) :
    ∃ front, first = front ++ ['='] ∧ MatchesWord name front := by
  induction name generalizing first with
  | nil =>
    cases isName with
    | cons same others =>
      cases others
      rcases cases_of_sameLetter same with rfl | ⟨lower, -⟩ | extra
      · exact ⟨[], rfl, .nil⟩
      · exact absurd lower (by decide)
      · simp [extraCases] at extra
  | cons letter name ih =>
    cases isName with
    | @cons _ char _ others same isOthers =>
      obtain ⟨front, rfl, isFront⟩ := ih isOthers
      exact ⟨char :: front, rfl, .cons same isFront⟩

theorem exists_queryMatch {prev : Option Char} {text : List Char} (matched : querySecretPattern prev text ≠ none) :
    ∃ name front value rest, text = front ++ '=' :: (value ++ rest) ∧ QueryMatch name front value rest := by
  cases found : nameAt text with
  | none => exact absurd (querySecretPattern_none found) matched
  | some name =>
    obtain ⟨member, first, behind, rfl, isName⟩ := exists_of_nameAt found
    obtain ⟨value, rest, rfl, chars, ends⟩ := exists_run isValueChar behind
    have nonempty : value ≠ [] := by
      rintro rfl
      exact matched ((querySecretPattern_named prev found isName chars ends).trans (if_pos rfl))
    obtain ⟨front, rfl, isFront⟩ := split_named isName
    rw [nameAt_named (by simp)] at found
    exact ⟨name, front, value, rest, by simp, member, isFront, found, ⟨nonempty, chars⟩, ends⟩

/-- **One match.** -/
theorem QueryMatch.replaced {name front value rest : List Char} (isMatch : QueryMatch name front value rest)
    (prev : Option Char) :
    subFrom querySecretPattern 0 prev (front ++ '=' :: (value ++ rest)) =
      front ++ '=' :: (redactedText.toList ++ subFrom querySecretPattern 0 none rest) := by
  have length := isMatch.isName.length_eq
  have isNamed : MatchesWord (name ++ ['=']) (front ++ ['=']) :=
    List.rel_append isMatch.isName (.cons (by decide) .nil)
  have found : nameAt (front ++ ['='] ++ (value ++ rest)) = some name := by
    rw [nameAt_named (by simp), isMatch.found]
  have named : subFrom querySecretPattern 0 prev (front ++ ['='] ++ (value ++ rest)) = _ :=
    query_named found isNamed isMatch.value.1 isMatch.value.2 isMatch.ends
  rw [length, List.take_left] at named
  simpa using named

/-- Two texts that are equal up to their first `=`. -/
theorem append_equals {first first' rest rest' : List Char} (free : '=' ∉ first) (free' : '=' ∉ first')
    (same : first' ++ '=' :: rest' = first ++ '=' :: rest) : first' = first ∧ rest' = rest := by
  have run : ∀ {text : List Char} (tail : List Char), '=' ∉ text →
      (text ++ '=' :: tail).takeWhile (· != '=') = text ∧ (text ++ '=' :: tail).dropWhile (· != '=') = '=' :: tail := by
    intro text tail isFree
    refine takeWhile_run (fun char member => ?_) (fun char isHead => ?_)
    · simp only [bne_iff_ne, ne_eq]
      rintro rfl
      exact isFree member
    · cases isHead
      rfl
  obtain ⟨taken, dropped⟩ := run rest free
  obtain ⟨taken', dropped'⟩ := run rest' free'
  rw [same] at taken' dropped'
  exact ⟨taken'.symm.trans taken, (List.cons.inj (dropped'.symm.trans dropped)).2⟩

/-- A text without `=` ends before the first `=`. -/
theorem exists_before_equals {word first rest behind : List Char} (free : '=' ∉ word)
    (same : first ++ '=' :: rest = word ++ behind) : ∃ inside, first = word ++ inside ∧ behind = inside ++ '=' :: rest := by
  rcases List.append_eq_append_iff.mp same with ⟨inside, split, isRest⟩ | ⟨inside, split, isBehind⟩
  · cases inside with
    | nil => exact ⟨[], by simpa using split.symm, by simpa using isRest.symm⟩
    | cons next inside =>
      obtain rfl : '=' = next := (List.cons.inj isRest).1
      exact absurd (by rw [split]; simp) free
  · exact ⟨inside, split, isBehind⟩

theorem queryPattern_equals (prev : Option Char) (rest : List Char) : querySecretPattern prev ('=' :: rest) = none := by
  by_contra matched
  obtain ⟨name, front, value, behind, shape, isMatch⟩ := exists_queryMatch matched
  cases front with
  | nil =>
    have found := isMatch.found
    have unnamed : nameAt ['='] = none := by decide
    rw [List.nil_append, unnamed] at found
    cases found
  | cons char front =>
    obtain rfl := (List.cons.inj shape).1
    exact (isMatch.front_free '=' List.mem_cons_self).1 rfl

/-- What is no value comes out with the same first character. -/
theorem subFrom_query_ends {rest : List Char} (ends : ∀ char ∈ rest.head?, isValueChar char = false) (prev : Option Char) :
    ∀ char ∈ (subFrom querySecretPattern 0 prev rest).head?, isValueChar char = false := by
  cases rest with
  | nil => exact ends
  | cons char rest =>
    have unmatched : querySecretPattern prev (char :: rest) = none :=
      (querySecretPattern_cut (ends char rfl) prev [] rest).trans (querySecretPattern_none rfl)
    rw [subFrom_none unmatched]
    exact ends

/-- Without `=` there is no match. -/
theorem queryPattern_free {text : List Char} (free : '=' ∉ text) (prev : Option Char) : querySecretPattern prev text = none := by
  by_contra matched
  obtain ⟨name, front, value, behind, rfl, -⟩ := exists_queryMatch matched
  exact free (by simp)

theorem subFrom_query_free {text : List Char} (free : '=' ∉ text) (prev : Option Char) :
    subFrom querySecretPattern 0 prev text = text := by
  induction text generalizing prev with
  | nil => rfl
  | cons char text ih =>
    rw [subFrom_none (queryPattern_free free prev), ih fun member => free (List.mem_cons_of_mem _ member)]

/-- **Up to the first `=`** the text stays, and what is no value behind it stays none. -/
theorem subFrom_query_upto {first : List Char} (free : '=' ∉ first) (rest : List Char) (prev : Option Char) :
    ∃ out, subFrom querySecretPattern 0 prev (first ++ '=' :: rest) = first ++ '=' :: out ∧
      ((∀ char ∈ rest.head?, isValueChar char = false) → ∀ char ∈ out.head?, isValueChar char = false) := by
  induction first generalizing prev with
  | nil =>
    refine ⟨_, subFrom_none (queryPattern_equals prev rest), fun ends => subFrom_query_ends ends _⟩
  | cons char first ih =>
    by_cases matched : querySecretPattern prev (char :: first ++ '=' :: rest) = none
    · obtain ⟨out, kept, ends⟩ := ih (fun member => free (List.mem_cons_of_mem _ member)) (some char)
      rw [List.cons_append] at matched
      exact ⟨out, by rw [List.cons_append, subFrom_none matched, kept, List.cons_append], ends⟩
    · obtain ⟨name, front, value, behind, shape, isMatch⟩ := exists_queryMatch matched
      have frontFree : '=' ∉ front := fun member => (isMatch.front_free '=' member).1 rfl
      obtain ⟨rfl, isRest⟩ := append_equals frontFree free shape
      rw [shape, isMatch.replaced]
      refine ⟨_, rfl, fun ends => ?_⟩
      obtain ⟨head, others, isValue⟩ := List.exists_cons_of_ne_nil isMatch.value.1
      rw [isRest, isValue] at ends
      have isChar := isMatch.value.2 head (by rw [isValue]; simp)
      exact absurd (isChar.symm.trans (ends head rfl)) (by simp)

/-- The text up to the first `=`, with what follows it. -/
theorem exists_upto {text : List Char} (named : '=' ∈ text) : ∃ first rest, text = first ++ '=' :: rest ∧ '=' ∉ first := by
  obtain ⟨first, rest, rfl, chars, ends⟩ := exists_run (· != '=') text
  have free : '=' ∉ first := fun member => absurd (chars '=' member) (by decide)
  cases rest with
  | nil => exact absurd (by simpa using named) free
  | cons stop rest =>
    obtain rfl : stop = '=' := by simpa using ends stop rfl
    exact ⟨first, rest, rfl, free⟩

/-- Where there is no match there is none behind the substitution. -/
theorem queryPattern_back {prev : Option Char} {char : Char} {rest : List Char}
    (unmatched : querySecretPattern prev (char :: rest) = none) :
    querySecretPattern prev (char :: subFrom querySecretPattern 0 (some char) rest) = none := by
  by_cases named : '=' ∈ char :: rest
  · rcases List.mem_cons.mp named with rfl | behind
    · exact queryPattern_equals prev _
    · obtain ⟨first, later, rfl, free⟩ := exists_upto behind
      obtain ⟨out, kept, ends⟩ := subFrom_query_upto free later (some char)
      rw [kept]
      by_contra matched
      obtain ⟨name, front, value, tail, shape, isMatch⟩ := exists_queryMatch matched
      by_cases isEquals : char = '='
      · subst isEquals
        exact matched (queryPattern_equals prev _)
      have frontFree : '=' ∉ front := fun member => (isMatch.front_free '=' member).1 rfl
      have firstFree : '=' ∉ char :: first := by simp [Ne.symm isEquals, free]
      obtain ⟨rfl, isOut⟩ := append_equals firstFree frontFree shape.symm
      -- the value is not empty, so that there was one in the text as well
      obtain ⟨head, others, isValue⟩ := List.exists_cons_of_ne_nil isMatch.value.1
      have isChar := isMatch.value.2 head (by rw [isValue]; simp)
      obtain ⟨value', tail', rfl, chars', ends'⟩ := exists_run isValueChar later
      have isNamed : MatchesWord (name ++ ['=']) (char :: first ++ ['=']) :=
        List.rel_append isMatch.isName (.cons (by decide) .nil)
      have found : nameAt (char :: first ++ ['='] ++ (value' ++ tail')) = some name := by
        rw [nameAt_named (by simp), isMatch.found]
      have pattern := querySecretPattern_named prev found isNamed chars' ends'
      have text : char :: first ++ ['='] ++ (value' ++ tail') = char :: (first ++ '=' :: (value' ++ tail')) := by simp
      rw [text, unmatched] at pattern
      have empty : value' = [] := by
        by_contra nonempty
        rw [if_neg nonempty] at pattern
        cases pattern
      subst empty
      have stops := ends (by simpa using ends')
      rw [← isOut, isValue] at stops
      exact absurd (isChar.symm.trans (stops head rfl)) (by simp)
  · rw [subFrom_query_free (fun member => named (List.mem_cons_of_mem _ member))]
    exact unmatched

/-- **The query substitution is its own fixed point.** -/
theorem query_fixed (text : List Char) :
    subFrom querySecretPattern 0 none (subFrom querySecretPattern 0 none text) = subFrom querySecretPattern 0 none text := by
  induction length : text.length using Nat.strong_induction_on generalizing text with
  | _ size ih =>
    cases text with
    | nil => rfl
    | cons char rest =>
      by_cases matched : querySecretPattern none (char :: rest) = none
      · have later := ih rest.length (by simp [← length]) rest rfl
        have back := queryPattern_back matched
        rw [query_behind] at back
        rw [subFrom_none matched, query_behind (some char), subFrom_none back, query_behind (some char), later]
      · obtain ⟨name, front, value, tail, shape, isMatch⟩ := exists_queryMatch matched
        have shorter : tail.length < size := by
          have sizes := congrArg List.length shape
          simp only [List.length_append, List.length_cons] at sizes length
          omega
        have later := ih tail.length shorter tail rfl
        have ends := subFrom_query_ends isMatch.ends none
        have again : QueryMatch name front redactedText.toList (subFrom querySecretPattern 0 none tail) :=
          ⟨isMatch.member, isMatch.isName, isMatch.found, by decide +kernel, ends⟩
        rw [shape, isMatch.replaced, again.replaced, later]

section Together

variable [WordTable]

omit [WordTable] in
/-- The head of a bearer match ends before the first `=`, so that it does not count what is behind that. -/
theorem BearerHead.before_equals {char : Char} {first out behind : List Char}
    (head : BearerHead char (first ++ '=' :: out) behind) (later : List Char) :
    ∃ behind', BearerHead char (first ++ '=' :: later) behind' := by
  obtain ⟨others, space, shape, isWord, isBlank⟩ := head.split
  obtain ⟨next, rest, rfl, isNext⟩ := head.credential
  have noEquals : '=' ∉ others ++ space := by
    intro member
    rcases List.mem_append.mp member with letter | blank
    · have other : ∀ char ∈ others, char ≠ '=' := forall_of_matchesWord isWord (by decide +kernel)
      exact other '=' letter rfl
    · exact absurd (isBlank.2 '=' blank) (by decide)
  rw [← List.append_assoc] at shape
  obtain ⟨inside, rfl, isBehind⟩ := exists_before_equals noEquals shape
  refine ⟨inside ++ '=' :: later, head.begins, ⟨others, space, by simp, isWord, isBlank⟩, ?_⟩
  cases inside with
  | nil => exact ⟨'=', later, rfl, by decide⟩
  | cons first inside =>
    obtain rfl : next = first := (List.cons.inj isBehind).1
    exact ⟨next, _, rfl, isNext⟩

/-- A match of the bearer pattern that is replaced by itself is one behind the query substitution. -/
theorem bearer_kept {prev : Option Char} {char : Char} {rest : List Char}
    (settled : ∀ taken replacement, bearerPattern prev (char :: rest) = some (taken, replacement) →
      replacement = char :: rest.take taken) :
    ∀ taken replacement,
      bearerPattern prev (char :: subFrom querySecretPattern 0 (some char) rest) = some (taken, replacement) →
        replacement = char :: (subFrom querySecretPattern 0 (some char) rest).take taken := by
  by_cases named : '=' ∈ rest
  · intro taken replacement matched
    obtain ⟨first, later, rfl, free⟩ := exists_upto named
    obtain ⟨out, kept, -⟩ := subFrom_query_upto free later (some char)
    rw [kept] at matched ⊢
    obtain ⟨boundary, behind, head⟩ := exists_bearerHead (by rw [matched]; simp)
    obtain ⟨behind', head'⟩ := head.before_equals later
    obtain ⟨taken', found, others, space, credential, tail, shape, -, isMatch, isTaken⟩ := head'.matches boundary
    -- the match in the text is what replaces a credential, and ends before the first `=`
    have itself := settled taken' bearerRedacted found
    have isRedacted : bearerRedacted = char :: (others ++ space ++ credential) := by
      rw [itself, isTaken, shape, ← List.append_assoc, ← List.append_assoc, List.take_left]
    have noEquals : '=' ∉ others ++ space ++ credential := by
      have absent : '=' ∉ bearerRedacted := by decide +kernel
      rw [isRedacted] at absent
      exact fun member => absent (List.mem_cons_of_mem _ member)
    rw [← List.append_assoc, ← List.append_assoc] at shape
    obtain ⟨inside, rfl, rfl⟩ := exists_before_equals noEquals shape
    have ends : ∀ char ∈ (inside ++ '=' :: out).head?, isCredentialChar char = false := by
      cases inside with
      | nil => exact absurd (isMatch.ends '=' rfl) (by decide)
      | cons next inside => exact isMatch.ends
    have text : others ++ space ++ credential ++ inside ++ '=' :: out =
        others ++ space ++ credential ++ (inside ++ '=' :: out) := List.append_assoc ..
    rw [text] at matched ⊢
    exact bearerRedacted_here boundary ends isRedacted taken replacement matched
  · rw [subFrom_query_free named]
    exact settled

/-- **The query substitution keeps every bearer match replaced by itself.** -/
theorem query_settled {prev : Option Char} {text : List Char} (settled : SettledFrom bearerPattern prev text) :
    SettledFrom bearerPattern prev (subFrom querySecretPattern 0 none text) := by
  induction length : text.length using Nat.strong_induction_on generalizing text prev with
  | _ size ih =>
    cases text with
    | nil => exact settledFrom_nil prev
    | cons char rest =>
      by_cases matched : querySecretPattern none (char :: rest) = none
      · obtain ⟨here, behind⟩ := settledFrom_cons.mp settled
        have later := ih rest.length (by simp [← length]) behind rfl
        rw [subFrom_none matched, settledFrom_cons]
        exact ⟨bearer_kept here, query_behind (some char) rest ▸ later⟩
      · obtain ⟨name, front, value, tail, shape, isMatch⟩ := exists_queryMatch matched
        have shorter : tail.length < size := by
          have sizes := congrArg List.length shape
          simp only [List.length_append, List.length_cons] at sizes length
          omega
        have noBegin : ∀ char ∈ tail.head?, sameLetter 'b' char = false := by
          intro char isHead
          by_contra begins
          rw [Bool.not_eq_false] at begins
          exact Bool.false_ne_true ((isMatch.ends char isHead).symm.trans (begins_chars begins).2)
        -- no bearer match begins in what replaces the value
        have free : ∀ char ∈ front ++ '=' :: redactedText.toList, sameLetter 'b' char = false := by
          intro char member
          rcases List.mem_append.mp member with letter | behind
          · exact (isMatch.front_free char letter).2
          · have fixed : ∀ char ∈ '=' :: redactedText.toList, sameLetter 'b' char = false := by decide +kernel
            exact fixed char behind
        have whole : front ++ '=' :: (value ++ tail) = front ++ '=' :: value ++ tail := by simp
        have replaced : front ++ '=' :: (redactedText.toList ++ subFrom querySecretPattern 0 none tail) =
            front ++ '=' :: redactedText.toList ++ subFrom querySecretPattern 0 none tail := by simp
        rw [shape, whole] at settled
        rw [shape, isMatch.replaced, replaced]
        refine SettledFrom.append ?_ (bearer_unmatched free)
        exact ih tail.length shorter (settled.behind.congr (bearerPattern_congr_head _ noBegin)) rfl

/-- **A redacted text is redacted.** -/
theorem redactText_idem (text : String) : redactText (redactText text) = redactText text := by
  have settled : SettledFrom bearerPattern none (sub querySecretPattern (sub bearerPattern text.toList)) :=
    query_settled (bearer_settled none text.toList)
  have kept : sub bearerPattern (sub querySecretPattern (sub bearerPattern text.toList)) =
      sub querySecretPattern (sub bearerPattern text.toList) := subFrom_of_settled settled
  have fixed : sub querySecretPattern (sub querySecretPattern (sub bearerPattern text.toList)) =
      sub querySecretPattern (sub bearerPattern text.toList) := query_fixed _
  rw [redactText, redactText, String.toList_ofList, kept, fixed]

/-! ### Events -/

variable {α : Type} [UnicodeTables]

/-- The entries of a dict that is built a second time, when their values are redacted already. -/
theorem dictOf_redactEntries {entries : List (LogKey α × LogValue α)}
    (inner : ∀ entry ∈ entries, ∀ key, redactLogValue key (redactLogValue key entry.2) = redactLogValue key entry.2) :
    dictOf (redactEntries (dictOf (redactEntries entries))) = dictOf (redactEntries entries) := by
  have fixed : ∀ entry ∈ redactEntries entries, redactLogValue entry.1 entry.2 = entry.2 := by
    intro entry member
    rw [redactEntries_eq_map] at member
    obtain ⟨original, isOriginal, rfl⟩ := List.mem_map.mp member
    exact inner original isOriginal original.1.shown
  have none : (([] : List (String × LogValue α)).map Prod.fst).Nodup := List.nodup_nil
  have unique : (((redactEntries entries).foldl (fun kept entry => Multidict.put Prod.fst entry kept) []).map
      Prod.fst).Nodup := Multidict.nodup_map_foldl_put none
  have again : redactEntries (dictOf (redactEntries entries)) =
      (redactEntries entries).foldl (fun kept entry => Multidict.put Prod.fst entry kept) [] := by
    rw [dictOf, redactEntries_eq_map, List.map_map]
    refine List.map_congr_left (fun entry member => ?_) |>.trans (List.map_id _)
    have isEntry := List.mem_of_getLast? (Multidict.mem_foldl_put.mp member)
    exact Prod.ext rfl (fixed entry (Multidict.mem_under.mp isEntry).1)
  rw [again, dictOf, Multidict.foldl_put_of_nodup (by simpa using unique), List.nil_append, ← dictOf]

/-- **A redacted value is redacted.** -/
theorem redactLogValue_idem (key : String) (value : LogValue α) :
    redactLogValue key (redactLogValue key value) = redactLogValue key value := by
  cases sensitive : isSensitive key with
  | true => rw [redactLogValue.eq_def, redactLogValue.eq_def key value, if_pos sensitive, if_pos sensitive]
  | false =>
    have kept : ¬ isSensitive key = true := by simp [sensitive]
    cases value with
    | dict entries =>
      have inner : ∀ entry ∈ entries, ∀ key,
          redactLogValue key (redactLogValue key entry.2) = redactLogValue key entry.2 := by
        intro entry _ key
        exact redactLogValue_idem key entry.2
      rw [redactLogValue.eq_def key (.dict entries), if_neg kept, redactLogValue.eq_def, if_neg kept]
      exact congrArg LogValue.dict (dictOf_redactEntries inner)
    | list items =>
      have inner : ∀ item ∈ items, redactLogValue "" (redactLogValue "" item) = redactLogValue "" item := by
        intro item _
        exact redactLogValue_idem "" item
      rw [redactLogValue.eq_def key (.list items), if_neg kept, redactLogValue.eq_def, if_neg kept]
      simpa [redactItems_eq_map] using inner
    | tuple items =>
      have inner : ∀ item ∈ items, redactLogValue "" (redactLogValue "" item) = redactLogValue "" item := by
        intro item _
        exact redactLogValue_idem "" item
      rw [redactLogValue.eq_def key (.tuple items), if_neg kept, redactLogValue.eq_def, if_neg kept]
      simpa [redactItems_eq_map] using inner
    | text string =>
      rw [redactLogValue.eq_def key (.text string), if_neg kept, redactLogValue.eq_def, if_neg kept]
      exact congrArg LogValue.text (redactText_idem string)
    | other scalar => rw [redactLogValue.eq_def key (.other scalar), if_neg kept, redactLogValue.eq_def, if_neg kept]
termination_by sizeOf value
decreasing_by
  · rename_i member
    have inside := List.sizeOf_lt_of_mem member
    have part : sizeOf entry.2 < sizeOf entry := by
      obtain ⟨key, value⟩ := entry
      simp
    simp only [LogValue.dict.sizeOf_spec]
    omega
  · rename_i member
    have inside := List.sizeOf_lt_of_mem member
    simp only [LogValue.list.sizeOf_spec]
    omega
  · rename_i member
    have inside := List.sizeOf_lt_of_mem member
    simp only [LogValue.tuple.sizeOf_spec]
    omega

/-- **An event that was redacted is left as it is**, so that it does not matter how often the processor runs. -/
theorem redactSecuritySecrets_idem (event : List (String × LogValue α)) :
    redactSecuritySecrets (redactSecuritySecrets event) = redactSecuritySecrets event := by
  simp [redactSecuritySecrets, redactLogValue_idem]

end Together

end McpAuth
