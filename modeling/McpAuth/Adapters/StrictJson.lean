/-
**`parse_json_object` accepts exactly the strict documents.**

A strict document is bounded UTF-8 text, readable at every node of its syntax tree, with an object at the
root and no repeated member name in any object of the tree. The duplicate check is a hook that the scanner
calls bottom-up: `objectWithoutDuplicates_keeps` is what one call does, `JsonWalk` carries it over the tree.

`parseJsonObject_exact_iff`: the parser returns exactly the strict documents and raises `OidcDocumentError`
for all others, unless the first obstacle in a document is an integer literal that is too long.
-/

import McpAuth.Adapters.OidcDocuments
import McpAuth.Library.Base64
import McpAuth.Library.JsonWalk

namespace McpAuth

open PyText JsonText

/-! ### The hook -/

theorem objectWithoutDuplicatesFrom_eq (pairs result : JsonObject) :
    objectWithoutDuplicatesFrom pairs result =
      if (pairs.map Prod.fst).Nodup ∧ ∀ name ∈ pairs.map Prod.fst, name ∉ result.map Prod.fst then
        .ok (result ++ pairs)
      else .error ⟨"OIDC document contains duplicate JSON object keys"⟩ := by
  induction pairs generalizing result with
  | nil => simp [objectWithoutDuplicatesFrom]
  | cons pair pairs ih =>
    obtain ⟨key, value⟩ := pair
    rw [objectWithoutDuplicatesFrom]
    by_cases seen : key ∈ result.map Prod.fst
    · rw [if_pos seen, if_neg]
      rintro ⟨-, fresh⟩
      exact fresh key (by simp) seen
    · have later : ((pairs.map Prod.fst).Nodup ∧
          ∀ name ∈ pairs.map Prod.fst, name ∉ (result ++ [(key, value)]).map Prod.fst) ↔
          (((key, value) :: pairs).map Prod.fst).Nodup ∧
            ∀ name ∈ ((key, value) :: pairs).map Prod.fst, name ∉ result.map Prod.fst := by
        rw [List.map_append, List.map_cons, List.map_nil, List.map_cons, List.nodup_cons, List.forall_mem_cons]
        simp only [List.mem_append, List.mem_singleton, not_or]
        constructor
        · rintro ⟨nodup, fresh⟩
          exact ⟨⟨fun again => (fresh key again).2 rfl, nodup⟩, seen, fun name member => (fresh name member).1⟩
        · rintro ⟨⟨absent, nodup⟩, -, fresh⟩
          exact ⟨nodup, fun name member => ⟨fresh name member, fun same => absent (same ▸ member)⟩⟩
      rw [if_neg seen, ih]
      simp only [later, List.append_assoc, List.singleton_append]

/-- **One call of the hook** keeps an object without repeated names and refuses any other. -/
theorem objectWithoutDuplicates_keeps : KeepsAccepted List.Nodup objectWithoutDuplicates where
  keeps pairs nodup := by
    rw [objectWithoutDuplicates, objectWithoutDuplicatesFrom_eq, if_pos ⟨nodup, by simp⟩, List.nil_append]
  refuses pairs repeated := by
    rw [objectWithoutDuplicates, objectWithoutDuplicatesFrom_eq, if_neg fun holds => repeated holds.1]
    exact ⟨_, rfl⟩

section Parser

variable [JsonGrammar]

/-! ### Strict documents -/

/-- The content is a strict document with this object at its root. -/
structure StrictDocument (content : Bytes) (maxBytes : Int) (object : JsonObject) : Prop where
  nonempty : content ≠ []
  bounded : content.length ≤ maxBytes
  decodes : ∃ text, decodeUtf8 content = some text ∧
    (JsonGrammar.scan text).root.All Syntax.Readable ∧ (JsonGrammar.scan text).extraData = false ∧
    (JsonGrammar.scan text).root.All (Syntax.Accepted List.Nodup) ∧ (JsonGrammar.scan text).root.value = .obj object

/-- The content passes the checks before `json.loads`, and from left to right the first obstacle in its
syntax is an integer literal that is too long. -/
def HugeIntegerFirst (content : Bytes) (maxBytes : Int) : Prop :=
  content ≠ [] ∧ content.length ≤ maxBytes ∧
    ∃ text, decodeUtf8 content = some text ∧ (JsonGrammar.scan text).root.HugeFirst List.Nodup

/-- The parser returns exactly the strict documents, and raises `OidcDocumentError` for all others. -/
def ParsesExactly (content : Bytes) (maxBytes : Int) : Prop :=
  (∀ object, parseJsonObject content maxBytes = .ok object ↔ StrictDocument content maxBytes object) ∧
    ((∀ object, ¬ StrictDocument content maxBytes object) →
      ∃ error, parseJsonObject content maxBytes = .error (.document error))

omit [JsonGrammar] in
theorem loads_ok_iff (document : Document) (value : Json) :
    loads objectWithoutDuplicates document = .ok value ↔
      document.root.All Syntax.Readable ∧ document.extraData = false ∧
        document.root.All (Syntax.Accepted List.Nodup) ∧ document.root.value = value := by
  rw [loads, Fallible.bind_eq_ok]
  simp only [loadsValue_ok_iff objectWithoutDuplicates_keeps]
  have both := @Syntax.all_and Syntax.Readable (Syntax.Accepted List.Nodup) document.root
  constructor
  · rintro ⟨_, ⟨free, rfl⟩, ended⟩
    obtain ⟨readable, accepted⟩ := both.mp free
    cases extra : document.extraData with
    | true => simp [extra] at ended
    | false =>
      rw [extra] at ended
      exact ⟨readable, rfl, accepted, by simpa using ended⟩
  · rintro ⟨readable, ended, accepted, rfl⟩
    exact ⟨_, ⟨both.mpr ⟨readable, accepted⟩, rfl⟩, by simp [ended]⟩

omit [JsonGrammar] in
theorem loads_value_iff (document : Document) :
    loads objectWithoutDuplicates document = .error .value ↔ document.root.HugeFirst List.Nodup := by
  rw [loads, Fallible.bind_eq_error, loadsValue_value_iff objectWithoutDuplicates_keeps]
  refine or_iff_left ?_
  rintro ⟨value, -, ended⟩
  split at ended <;> cases ended

/-- **The parser returns exactly the strict documents.** -/
theorem parseJsonObject_ok_iff {content : Bytes} {maxBytes : Int} {object : JsonObject} :
    parseJsonObject content maxBytes = .ok object ↔ StrictDocument content maxBytes object := by
  unfold parseJsonObject
  by_cases size : content = [] ∨ maxBytes < content.length
  · rw [if_pos size]
    refine iff_of_false (by simp) fun strict => ?_
    rcases size with empty | long
    · exact strict.nonempty empty
    · exact absurd strict.bounded (by omega)
  · rw [if_neg size]
    obtain ⟨nonempty, bounded⟩ := not_or.mp size
    cases decodes : decodeUtf8 content with
    | none =>
      refine iff_of_false (by simp) fun strict => ?_
      obtain ⟨text, decoded, -⟩ := strict.decodes
      rw [decodes] at decoded
      cases decoded
    | some text =>
      have found := loads_ok_iff (JsonGrammar.scan text)
      constructor
      · intro returned
        dsimp only at returned
        split at returned
        · cases returned
        · cases returned
        · cases returned
        · rename_i value loaded
          split at returned
          · rename_i root isRoot
            cases returned
            have isObject : value = .obj object := by
              cases value <;> simp [Json.asObject] at isRoot
              rw [isRoot]
            exact ⟨nonempty, not_lt.mp bounded, text, decodes, isObject ▸ (found value).mp loaded⟩
          · cases returned
      · rintro ⟨-, -, text', decoded, strict⟩
        rw [decodes, Option.some.injEq] at decoded
        subst decoded
        have loaded := (found (.obj object)).mpr strict
        simp only [loaded, Json.asObject]

/-- What the parser raises. -/
theorem parseJsonObject_error {content : Bytes} {maxBytes : Int} {error : Raised}
    (raises : parseJsonObject content maxBytes = .error error) :
    error = .valueError ∨ ∃ document, error = .document document := by
  unfold parseJsonObject at raises
  split at raises
  · cases raises
    exact Or.inr ⟨_, rfl⟩
  · split at raises
    · cases raises
      exact Or.inr ⟨_, rfl⟩
    · split at raises
      · cases raises
        exact Or.inr ⟨_, rfl⟩
      · cases raises
        exact Or.inl rfl
      · cases raises
        exact Or.inr ⟨_, rfl⟩
      · split at raises
        · cases raises
        · cases raises
          exact Or.inr ⟨_, rfl⟩

theorem plainValueError_iff {content : Bytes} {maxBytes : Int} :
    PlainValueError content maxBytes ↔ HugeIntegerFirst content maxBytes := by
  simp only [PlainValueError, HugeIntegerFirst, loads_value_iff]

/-- What escapes as a plain `ValueError` is neither returned nor an `OidcDocumentError`. -/
theorem not_parsesExactly {content : Bytes} {maxBytes : Int} (huge : HugeIntegerFirst content maxBytes) :
    ¬ ParsesExactly content maxBytes := by
  rw [← plainValueError_iff, ← parseJsonObject_escapes] at huge
  obtain ⟨error, escaped, escapes⟩ := huge
  rintro ⟨returns, raises⟩
  have none : ∀ object, ¬ StrictDocument content maxBytes object := by
    intro object strict
    rw [(returns object).mpr strict] at escaped
    cases escaped
  obtain ⟨document, raised⟩ := raises none
  rw [raised] at escaped
  cases escaped
  exact not_escapes_document _ escapes

/-- **The parser is exact unless an integer literal that is too long comes first.** -/
theorem parseJsonObject_exact_iff (content : Bytes) (maxBytes : Int) :
    ParsesExactly content maxBytes ↔ ¬ HugeIntegerFirst content maxBytes := by
  refine ⟨fun exact' huge => not_parsesExactly huge exact', fun caught => ?_⟩
  rw [← plainValueError_iff, ← parseJsonObject_escapes] at caught
  refine ⟨fun object => parseJsonObject_ok_iff, fun none => ?_⟩
  cases parsed : parseJsonObject content maxBytes with
  | ok object => exact absurd (parseJsonObject_ok_iff.mp parsed) (none object)
  | error error =>
    rcases parseJsonObject_error parsed with rfl | ⟨document, rfl⟩
    · exact absurd ⟨_, parsed, trivial⟩ caught
    · exact ⟨document, rfl⟩

end Parser

/-- `{"n": 1…1}` with 4301 digits. -/
def hugeText : String := String.ofList ("\x7b\"n\": ".toList ++ List.replicate 4301 '1' ++ ['\x7d'])

theorem utf8Bytes_ne_nil {text : String} (nonempty : text.toList ≠ []) : utf8Bytes text ≠ [] := by
  intro empty
  have decoded := decodeUtf8_utf8Bytes text
  have blank : decodeUtf8 [] = some "" := decodeUtf8_utf8Bytes ""
  rw [empty, blank, Option.some.injEq] at decoded
  rw [← decoded] at nonempty
  exact nonempty rfl

theorem hugeText_toList_ne_nil : hugeText.toList ≠ [] := by
  unfold hugeText
  generalize List.replicate 4301 '1' = digits
  simp

/-- What the grammar makes of that text. -/
abbrev hugeGrammar : JsonGrammar :=
  ⟨fun text => if text = hugeText then ⟨.obj [("n", .hugeInteger)], false⟩ else ⟨.grammarError, false⟩⟩

theorem parseJsonObject_escapes_huge :
    letI := hugeGrammar
    ¬ ParsesExactly (utf8Bytes hugeText) (utf8Bytes hugeText).length := by
  let _ := hugeGrammar
  refine not_parsesExactly ⟨utf8Bytes_ne_nil hugeText_toList_ne_nil, le_refl _, hugeText, decodeUtf8_utf8Bytes hugeText, ?_⟩
  have scanned : JsonGrammar.scan hugeText = ⟨.obj [("n", .hugeInteger)], false⟩ := if_pos rfl
  rw [scanned]
  exact Or.inl trivial

end McpAuth
