/-
**Discovery and JWKS documents, from an HTTP outcome to trusted data.**

* `parseJsonObject` — one bounded UTF-8 JSON object without duplicate member names;
* `readMetadata` — the discovery document, bound to the configured issuer;
* `readRawKeys`, `indexKeys` — the JWKS document and its keys by `kid`.

Each returns the exception it raises (`Raised`). `readMetadata_trusted`: metadata names the configured
issuer and a trusted JWKS URI. `indexKeys_lookup`: an indexed key is the only object of the document
with its `kid`. `readMetadata_escapes`, `readKeys_escapes`: what is left uncaught comes from the client's
`InvalidURL` or from a plain `ValueError` of `json.loads`.
-/

import McpAuth.Adapters.OidcNetworkPolicy
import McpAuth.Adapters.VerifiedClaims
import McpAuth.Library.Rearrangement

namespace McpAuth

open PyText JsonText UrlSplit

/-! ### Outcomes of a request -/

/-- Raised when a discovery or JWKS document is structurally unsafe or invalid. -/
structure OidcDocumentError where
  message : String
  deriving DecidableEq

/-- The exceptions of token verification, in the classes its handlers tell apart. -/
inductive Raised
  | discovery (message : String)
  | signingKey (message : String)
  | invalidToken
  | httpError
  | networkSecurity (error : OidcNetworkSecurityError)
  | document (error : OidcDocumentError)
  | invalidUrl
  | valueError
  | claim (error : ClaimError)
  deriving DecidableEq

/-- What the clients read of an `httpx.Response`. -/
structure OidcResponse where
  statusCode : ℕ
  contentType : Option String
  content : Bytes
  deriving DecidableEq

/-- How `http_client.get(url)` ends: a response, an `httpx.HTTPError`, an error of the pinned transport,
or `httpx.InvalidURL`, which is no `HTTPError`. -/
inductive HttpOutcome
  | response (response : OidcResponse)
  | httpError
  | networkSecurity (error : OidcNetworkSecurityError)
  | invalidUrl
  deriving DecidableEq

/-- `await http_client.get(url)`. -/
def HttpOutcome.get : HttpOutcome → Except Raised OidcResponse
  | .response received => .ok received
  | .httpError => .error .httpError
  | .networkSecurity error => .error (.networkSecurity error)
  | .invalidUrl => .error .invalidUrl

/-- `response.raise_for_status()`. -/
def OidcResponse.raiseForStatus (response : OidcResponse) : Except Raised Unit :=
  if 200 ≤ response.statusCode ∧ response.statusCode ≤ 299 then .ok () else .error .httpError

/-- `response.headers.get("Content-Type", "").split(";", maxsplit=1)[0].lower()`. -/
def OidcResponse.mediaType [UnicodeTables] (response : OidcResponse) : String :=
  lower (String.ofList (before ';' (response.contentType.getD "").toList))

/-! ### Strict JSON -/

/-- The JSON grammar of `json.loads`. -/
class JsonGrammar where
  scan : String → Document

/-- The loop of `_object_without_duplicates` over the remaining pairs. -/
def objectWithoutDuplicatesFrom : JsonObject → JsonObject → Except OidcDocumentError JsonObject
  | [], result => .ok result
  | (key, value) :: pairs, result =>
    if key ∈ result.map Prod.fst then
      .error ⟨"OIDC document contains duplicate JSON object keys"⟩
    else objectWithoutDuplicatesFrom pairs (result ++ [(key, value)])

/-- `_object_without_duplicates`. -/
def objectWithoutDuplicates (pairs : JsonObject) : Except OidcDocumentError JsonObject :=
  objectWithoutDuplicatesFrom pairs []

section Documents

variable [JsonGrammar]

/-- `parse_json_object`. -/
def parseJsonObject (content : Bytes) (maxBytes : Int) : Except Raised JsonObject :=
  if content = [] ∨ maxBytes < content.length then
    .error (.document ⟨"OIDC document size is invalid"⟩)
  else match decodeUtf8 content with
    | none => .error (.document ⟨"OIDC document is not valid UTF-8 JSON"⟩)
    | some decoded => match loads objectWithoutDuplicates (JsonGrammar.scan decoded) with
      | .error .jsonDecode => .error (.document ⟨"OIDC document is not valid UTF-8 JSON"⟩)
      | .error .value => .error .valueError
      | .error (.hook error) => .error (.document error)
      | .ok value => match value.asObject with
        | some object => .ok object
        | none => .error (.document ⟨"OIDC document root must be a JSON object"⟩)

variable [UnicodeTables]

/-- The checks both clients make before they look into a document. -/
def readDocument (mediaTypes : List String) (unsupported : String) (maxBytes : Int)
    (outcome : HttpOutcome) : Except Raised JsonObject := do
  let response ← outcome.get
  response.raiseForStatus
  if response.mediaType ∈ mediaTypes then parseJsonObject response.content maxBytes
  else .error (.document ⟨unsupported⟩)

/-! ### Discovery -/

/-- The subset of discovery metadata the server depends on. -/
structure OidcMetadata where
  issuer : String
  jwksUri : String
  deriving DecidableEq

/-- A member that is a non-empty string. -/
def requiredText (document : JsonObject) (name message : String) : Except Raised String :=
  match (get document name).asText with
  | some text => if text = "" then .error (.document ⟨message⟩) else .ok text
  | none => .error (.document ⟨message⟩)

/-- The discovery document of a response, with the checks of `OidcDiscoveryClient._fetch`. -/
def readMetadata (policy : OidcNetworkSecurityPolicy) (outcome : HttpOutcome) :
    Except Raised OidcMetadata := do
  let document ← readDocument ["application/json"] "OIDC discovery response must be application/json"
    policy.discoveryMaxBytes outcome
  let issuer ← requiredText document "issuer" "OIDC discovery issuer must be a non-empty string"
  let jwksUri ← requiredText document "jwks_uri"
    "OIDC discovery jwks_uri must be a non-empty string"
  (policy.assertMetadataTrusted issuer jwksUri).mapError .networkSecurity
  .ok ⟨issuer, jwksUri⟩

/-- **Accepted metadata names the configured issuer and a trusted JWKS URI.** -/
theorem readMetadata_trusted {policy : OidcNetworkSecurityPolicy} {outcome : HttpOutcome}
    {metadata : OidcMetadata} (reads : readMetadata policy outcome = .ok metadata) :
    metadata.issuer = policy.issuerUrl ∧ policy.assertJwksUriTrusted metadata.jwksUri = .ok () := by
  obtain ⟨document, -, reads⟩ := Fallible.bind_eq_ok.mp reads
  obtain ⟨issuer, -, reads⟩ := Fallible.bind_eq_ok.mp reads
  obtain ⟨jwksUri, -, reads⟩ := Fallible.bind_eq_ok.mp reads
  obtain ⟨_, trusted, reads⟩ := Fallible.bind_eq_ok.mp reads
  cases reads
  have asserted := Fallible.mapError_eq_ok.mp trusted
  unfold OidcNetworkSecurityPolicy.assertMetadataTrusted at asserted
  split at asserted
  · cases asserted
  · rename_i same
    exact ⟨not_not.mp same, asserted⟩

/-! ### JWKS -/

/-- The indexed keys of one JWKS document. -/
abbrev KeySet := List (String × JsonObject)

def maxKidLength : ℕ := 256

/-- The `kid` of a key, when it is a bounded non-empty string. -/
def usableKid (key : JsonObject) : Option String :=
  (get key "kid").asText.filter fun kid => kid ≠ "" ∧ kid.length ≤ maxKidLength

/-- Neither `use` nor `key_ops` excludes verification. -/
def isSigningKey (key : JsonObject) : Bool :=
  ((get key "use").isNone || (get key "use").isText "sig") &&
    ((get key "key_ops").isNone ||
      ((get key "key_ops").asList.any fun operations => operations.any (·.isText "verify")))

/-- The loop of `_index_keys` over the remaining entries. -/
def indexKeysFrom : List Json → KeySet → List String → Except Raised KeySet
  | [], indexed, _ => .ok indexed
  | raw :: rawKeys, indexed, seenKids =>
    match raw.asObject with
    | none => indexKeysFrom rawKeys indexed seenKids
    | some key =>
      match usableKid key with
      | none => indexKeysFrom rawKeys indexed seenKids
      | some kid =>
        if kid ∈ seenKids then .error (.document ⟨"JWKS contains duplicate kid values"⟩)
        else if isSigningKey key then
          indexKeysFrom rawKeys (indexed ++ [(kid, key)]) (kid :: seenKids)
        else indexKeysFrom rawKeys indexed (kid :: seenKids)

/-- `_index_keys`. -/
def indexKeys (rawKeys : List Json) : Except Raised KeySet := indexKeysFrom rawKeys [] []

/-- The `keys` member of a JWKS response, with the checks of `JwksKeyResolver._fetch_keys`. -/
def readRawKeys (policy : OidcNetworkSecurityPolicy) (maxKeys : ℕ) (outcome : HttpOutcome) :
    Except Raised (List Json) := do
  let document ← readDocument ["application/json", "application/jwk-set+json"]
    "JWKS response has an unsupported media type" policy.jwksMaxBytes outcome
  match (get document "keys").asList with
  | none => .error (.document ⟨"JWKS keys member must be an array"⟩)
  | some rawKeys =>
    if maxKeys < rawKeys.length then .error (.document ⟨"JWKS contains too many keys"⟩)
    else .ok rawKeys

/-- The indexed keys of a JWKS response. -/
def readKeys (policy : OidcNetworkSecurityPolicy) (maxKeys : ℕ) (outcome : HttpOutcome) :
    Except Raised KeySet := do
  let rawKeys ← readRawKeys policy maxKeys outcome
  indexKeys rawKeys

end Documents

/-- The objects of a JWKS document with the given `kid`. -/
def entriesWithKid (kid : String) (rawKeys : List Json) : List JsonObject :=
  (rawKeys.filterMap Json.asObject).filter fun key => (get key "kid").isText kid

theorem usableKid_eq_some {key : JsonObject} {kid : String} :
    usableKid key = some kid ↔
      get key "kid" = .str kid ∧ kid ≠ "" ∧ kid.length ≤ maxKidLength := by
  unfold usableKid
  rw [Option.filter_eq_some_iff, Json.asText_eq_some, decide_eq_true_iff]

/-- An object entry under its usable `kid`. -/
def kidEntry (raw : Json) : Option (String × JsonObject) :=
  raw.asObject.bind fun key => (usableKid key).map fun kid => (kid, key)

/-- The entries of a document that have a usable `kid`, in order. -/
def kidEntries (rawKeys : List Json) : KeySet := rawKeys.filterMap kidEntry

theorem kidEntry_eq_some {raw : Json} {kid : String} {key : JsonObject} :
    kidEntry raw = some (kid, key) ↔ raw = .obj key ∧ usableKid key = some kid := by
  cases raw <;> simp [kidEntry, Json.asObject]
  grind

theorem mem_kidEntries {rawKeys : List Json} {kid : String} {key : JsonObject} :
    (kid, key) ∈ kidEntries rawKeys ↔ .obj key ∈ rawKeys ∧ usableKid key = some kid := by
  simp only [kidEntries, List.mem_filterMap, kidEntry_eq_some]
  constructor
  · rintro ⟨raw, member, rfl, usable⟩
    exact ⟨member, usable⟩
  · rintro ⟨member, usable⟩
    exact ⟨_, member, rfl, usable⟩

/-- What the loop computes, from what it has indexed and seen so far. -/
theorem indexKeysFrom_eq (rawKeys : List Json) (indexed : KeySet) (seenKids : List String) :
    indexKeysFrom rawKeys indexed seenKids =
      if ((kidEntries rawKeys).map Prod.fst).Nodup ∧ ∀ kid ∈ (kidEntries rawKeys).map Prod.fst, kid ∉ seenKids then
        .ok (indexed ++ (kidEntries rawKeys).filter fun entry => isSigningKey entry.2)
      else .error (.document ⟨"JWKS contains duplicate kid values"⟩) := by
  induction rawKeys generalizing indexed seenKids with
  | nil => simp [indexKeysFrom, kidEntries]
  | cons raw rawKeys ih =>
    rw [indexKeysFrom]
    cases object : raw.asObject with
    | none =>
      have skipped : kidEntries (raw :: rawKeys) = kidEntries rawKeys :=
        List.filterMap_cons_none (by simp [kidEntry, object])
      rw [skipped, ← ih]
    | some key =>
      cases usable : usableKid key with
      | none =>
        have skipped : kidEntries (raw :: rawKeys) = kidEntries rawKeys :=
          List.filterMap_cons_none (by simp [kidEntry, object, usable])
        simp only [usable]
        rw [skipped, ← ih]
      | some kid =>
        have taken : kidEntries (raw :: rawKeys) = (kid, key) :: kidEntries rawKeys :=
          List.filterMap_cons_some (by simp [kidEntry, object, usable])
        simp only [usable]
        rw [taken]
        simp only [List.map_cons, List.nodup_cons]
        by_cases seen : kid ∈ seenKids
        · simp [seen]
        · -- The `kid` is now seen: it is none of the later ones.
          have later : (((kidEntries rawKeys).map Prod.fst).Nodup ∧
              ∀ other ∈ (kidEntries rawKeys).map Prod.fst, other ∉ kid :: seenKids) ↔
              ((kid ∉ (kidEntries rawKeys).map Prod.fst ∧ ((kidEntries rawKeys).map Prod.fst).Nodup) ∧
                ∀ other ∈ kid :: (kidEntries rawKeys).map Prod.fst, other ∉ seenKids) := by
            simp only [List.mem_cons, not_or, forall_eq_or_imp]
            constructor
            · rintro ⟨nodup, fresh⟩
              exact ⟨⟨fun again => (fresh kid again).1 rfl, nodup⟩, seen, fun other member => (fresh other member).2⟩
            · rintro ⟨⟨absent, nodup⟩, -, fresh⟩
              exact ⟨nodup, fun other member => ⟨fun same => absent (same ▸ member), fresh other member⟩⟩
          rw [if_neg seen, ih, ih]
          simp only [later, List.filter_cons]
          by_cases signing : isSigningKey key = true <;> simp [signing]

/-- **The loop in closed form**: it raises for a repeated `kid`, and else indexes the signature keys. -/
theorem indexKeys_eq (rawKeys : List Json) :
    indexKeys rawKeys =
      if ((kidEntries rawKeys).map Prod.fst).Nodup then
        .ok ((kidEntries rawKeys).filter fun entry => isSigningKey entry.2)
      else .error (.document ⟨"JWKS contains duplicate kid values"⟩) := by
  rw [indexKeys, indexKeysFrom_eq]
  simp

/-- The objects with a usable `kid`, as entries. -/
theorem entriesWithKid_eq {kid : String} (bounded : kid ≠ "" ∧ kid.length ≤ maxKidLength) (rawKeys : List Json) :
    entriesWithKid kid rawKeys = ((kidEntries rawKeys).filter fun entry => entry.1 = kid).map Prod.snd := by
  induction rawKeys with
  | nil => rfl
  | cons raw rawKeys ih =>
    rw [entriesWithKid, kidEntries] at *
    cases object : raw.asObject with
    | none =>
      rw [List.filterMap_cons_none object, List.filterMap_cons_none (by simp [kidEntry, object]), ih]
    | some key =>
      have isEntry : (get key "kid").isText kid = true ↔ usableKid key = some kid := by
        rw [Json.isText_iff, usableKid_eq_some]
        simp [bounded]
      rw [List.filterMap_cons_some object, List.filter_cons]
      cases usable : usableKid key with
      | none =>
        have noEntry : kidEntry raw = none := by simp [kidEntry, object, usable]
        rw [List.filterMap_cons_none noEntry, ← ih]
        simp [isEntry, usable]
      | some found =>
        have isFound : kidEntry raw = some (found, key) := by simp [kidEntry, object, usable]
        rw [List.filterMap_cons_some isFound, List.filter_cons]
        by_cases same : found = kid <;> simp [isEntry, usable, same, ih]

/-- **An indexed key is the only object of the document with its `kid`.** -/
theorem indexKeys_lookup {rawKeys : List Json} {keys : KeySet}
    (built : indexKeys rawKeys = .ok keys) {kid : String} {entry : JsonObject}
    (found : keys.lookup kid = some entry) :
    entriesWithKid kid rawKeys = [entry] ∧ usableKid entry = some kid ∧ isSigningKey entry = true := by
  rw [indexKeys_eq] at built
  split at built
  · rename_i unique
    cases built
    obtain ⟨before, after, split, -⟩ := List.lookup_eq_some_iff.mp found
    have member : (kid, entry) ∈ (kidEntries rawKeys).filter fun entry => isSigningKey entry.2 := by
      rw [split]
      simp
    obtain ⟨inside, signing⟩ := List.mem_filter.mp member
    have usable := (mem_kidEntries.mp inside).2
    refine ⟨?_, usable, signing⟩
    rw [entriesWithKid_eq (usableKid_eq_some.mp usable).2, Rearrangement.filter_key_of_mem unique inside]
    rfl
  · cases built

/-! ### Uncaught exceptions -/

/-- No handler names the class, neither the client's nor the verifier's. -/
def Raised.Escapes : Raised → Prop
  | .invalidUrl | .valueError | .claim _ => True
  | _ => False

/-- A computation that raises an uncaught exception. -/
def EscapesFrom {α : Type} (computation : Except Raised α) : Prop :=
  ∃ error, computation = .error error ∧ error.Escapes

/-- What follows the first part raises nothing uncaught. -/
theorem escapesFrom_bind {α β : Type} {first : Except Raised α} {next : α → Except Raised β}
    (caught : ∀ value error, next value = .error error → ¬ error.Escapes) :
    EscapesFrom (first >>= next) ↔ EscapesFrom first := by
  constructor
  · rintro ⟨error, raises, escapes⟩
    rcases Fallible.bind_eq_error.mp raises with early | ⟨value, -, late⟩
    · exact ⟨error, early, escapes⟩
    · exact absurd escapes (caught value error late)
  · rintro ⟨error, raises, escapes⟩
    exact ⟨error, Fallible.bind_eq_error.mpr (Or.inl raises), escapes⟩

theorem not_escapes_document (error : OidcDocumentError) : ¬ (Raised.document error).Escapes := id

theorem not_escapes_networkSecurity (error : OidcNetworkSecurityError) :
    ¬ (Raised.networkSecurity error).Escapes := id

section Documents

variable [JsonGrammar] [UnicodeTables]

omit [UnicodeTables] in
/-- `json.loads` raises a plain `ValueError` on this content, which passes the checks before it. -/
def PlainValueError (content : Bytes) (maxBytes : Int) : Prop :=
  content ≠ [] ∧ (content.length : Int) ≤ maxBytes ∧ ∃ decoded, decodeUtf8 content = some decoded ∧
    loads objectWithoutDuplicates (JsonGrammar.scan decoded) = .error .value

omit [UnicodeTables] in
theorem parseJsonObject_escapes {content : Bytes} {maxBytes : Int} :
    EscapesFrom (parseJsonObject content maxBytes) ↔ PlainValueError content maxBytes := by
  unfold parseJsonObject PlainValueError EscapesFrom
  by_cases size : content = [] ∨ maxBytes < content.length
  · rw [if_pos size]
    constructor
    · rintro ⟨_, same, escapes⟩
      cases same
      exact absurd escapes (not_escapes_document _)
    · rintro ⟨nonempty, bounded, -⟩
      rcases size with empty | long
      · exact absurd empty nonempty
      · omega
  · rw [if_neg size]
    obtain ⟨nonempty, bounded⟩ := not_or.mp size
    cases decodes : decodeUtf8 content with
    | none =>
      constructor
      · rintro ⟨_, same, escapes⟩
        cases same
        exact absurd escapes (not_escapes_document _)
      · rintro ⟨-, -, decoded, same, -⟩
        cases same
    | some decoded =>
      dsimp only
      constructor
      · rintro ⟨error, raises, escapes⟩
        refine ⟨nonempty, not_lt.mp bounded, decoded, rfl, ?_⟩
        split at raises
        · cases raises
          exact absurd escapes (not_escapes_document _)
        · assumption
        · cases raises
          exact absurd escapes (not_escapes_document _)
        · split at raises
          · cases raises
          · cases raises
            exact absurd escapes (not_escapes_document _)
      · rintro ⟨-, -, other, same, raises⟩
        cases same
        rw [raises]
        exact ⟨.valueError, rfl, trivial⟩

/-- The outcome poisons a document read: the client refused the URL, or `json.loads` raises a plain
`ValueError` on a response that passes every check before it. -/
def HttpOutcome.Poisons (mediaTypes : List String) (maxBytes : Int) : HttpOutcome → Prop
  | .invalidUrl => True
  | .response received => received.raiseForStatus = .ok () ∧ received.mediaType ∈ mediaTypes ∧
      PlainValueError received.content maxBytes
  | .httpError | .networkSecurity _ => False

theorem readDocument_escapes {mediaTypes : List String} {unsupported : String} {maxBytes : Int}
    {outcome : HttpOutcome} :
    EscapesFrom (readDocument mediaTypes unsupported maxBytes outcome) ↔
      outcome.Poisons mediaTypes maxBytes := by
  cases outcome with
  | httpError =>
    refine iff_of_false ?_ id
    rintro ⟨_, same, escapes⟩
    cases same
    exact escapes
  | networkSecurity error =>
    refine iff_of_false ?_ id
    rintro ⟨_, same, escapes⟩
    cases same
    exact not_escapes_networkSecurity _ escapes
  | invalidUrl => exact iff_of_true ⟨_, rfl, trivial⟩ trivial
  | response response =>
    show EscapesFrom (response.raiseForStatus >>= fun _ => if response.mediaType ∈ mediaTypes then
      parseJsonObject response.content maxBytes else .error (.document ⟨unsupported⟩)) ↔ _ ∧ _ ∧ _
    rw [← parseJsonObject_escapes]
    cases status : response.raiseForStatus with
    | error error =>
      refine iff_of_false ?_ fun holds => by cases holds.1
      rintro ⟨_, same, escapes⟩
      cases same
      unfold OidcResponse.raiseForStatus at status
      split at status
      · cases status
      · cases status
        exact escapes
    | ok _ =>
      show EscapesFrom (if response.mediaType ∈ mediaTypes then
        parseJsonObject response.content maxBytes else .error (.document ⟨unsupported⟩)) ↔ _
      split
      · rename_i listed
        exact ⟨fun escapes => ⟨rfl, listed, escapes⟩, fun holds => holds.2.2⟩
      · rename_i unlisted
        refine iff_of_false ?_ fun holds => unlisted holds.2.1
        rintro ⟨_, same, escapes⟩
        cases same
        exact not_escapes_document _ escapes

omit [JsonGrammar] [UnicodeTables] in
theorem requiredText_caught {document : JsonObject} {name message : String} {error : Raised}
    (raises : requiredText document name message = .error error) : ¬ error.Escapes := by
  unfold requiredText at raises
  split at raises
  · split at raises <;> cases raises
    exact not_escapes_document _
  · cases raises
    exact not_escapes_document _

/-- **What reading the discovery document leaves uncaught.** -/
theorem readMetadata_escapes {policy : OidcNetworkSecurityPolicy} {outcome : HttpOutcome} :
    EscapesFrom (readMetadata policy outcome) ↔
      outcome.Poisons ["application/json"] policy.discoveryMaxBytes := by
  refine (escapesFrom_bind fun document error raises => ?_).trans readDocument_escapes
  rcases Fallible.bind_eq_error.mp raises with early | ⟨issuer, -, raises⟩
  · exact requiredText_caught early
  · rcases Fallible.bind_eq_error.mp raises with early | ⟨jwksUri, -, raises⟩
    · exact requiredText_caught early
    · rcases Fallible.bind_eq_error.mp raises with early | ⟨_, -, raises⟩
      · cases asserted : policy.assertMetadataTrusted issuer jwksUri with
        | ok _ =>
          rw [asserted] at early
          cases early
        | error refused =>
          rw [asserted] at early
          cases early
          exact not_escapes_networkSecurity _
      · cases raises

omit [JsonGrammar] [UnicodeTables] in
theorem indexKeysFrom_caught {rawKeys : List Json} {indexed : KeySet} {seenKids : List String}
    {error : Raised} (raises : indexKeysFrom rawKeys indexed seenKids = .error error) :
    ¬ error.Escapes := by
  induction rawKeys generalizing indexed seenKids with
  | nil => cases raises
  | cons raw rawKeys ih =>
    rw [indexKeysFrom] at raises
    split at raises
    · exact ih raises
    · split at raises
      · exact ih raises
      · split at raises
        · cases raises
          exact not_escapes_document _
        · split at raises <;> exact ih raises

/-- **What reading a JWKS document leaves uncaught.** -/
theorem readKeys_escapes {policy : OidcNetworkSecurityPolicy} {maxKeys : ℕ} {outcome : HttpOutcome} :
    EscapesFrom (readKeys policy maxKeys outcome) ↔
      outcome.Poisons ["application/json", "application/jwk-set+json"] policy.jwksMaxBytes := by
  refine (escapesFrom_bind fun rawKeys error raises => indexKeysFrom_caught raises).trans ?_
  refine (escapesFrom_bind fun document error raises => ?_).trans readDocument_escapes
  split at raises
  · cases raises
    exact not_escapes_document _
  · split at raises <;> cases raises
    exact not_escapes_document _

end Documents

end McpAuth
