/-
**`JwksKeyResolver`: the signing key of a token from a bounded, trusted and cached JWKS document.**

* `compatibleKey` — the key of a `kid` for one signing algorithm;
* `keysFor` — the cached keys of a URI, refreshed under the lock and, when forced, under a cooldown;
* `resolve` — the key of a token, after one forced refresh on a miss.

`compatibleKey_eq_some`: a compatible key is the entry of its `kid` and fits the algorithm.
`resolveKey_accounted`: `resolve` raises an exception the verifier does not catch exactly when a document
it read was poisoned.
-/

import McpAuth.Adapters.OidcDiscovery

namespace McpAuth

open Cooperative JsonText PyText

/-! ### PyJWT -/

/-- `PyJWK.from_dict(raw, algorithm)`: it is made of these two. -/
structure PyJWK where
  raw : JsonObject
  algorithm : String

/-- The parts of PyJWT the server calls. `unverifiedHeader` and `decode` yield `none` where they raise an
`InvalidTokenError`, `keyAccepted` is false where `from_dict` raises. -/
class PyJwt where
  unverifiedHeader : String → Option JsonObject
  keyAccepted : JsonObject → String → Bool
  verifies : String → PyJWK → String → Bool
  decode : (now : ℚ) → (token : String) → (key : PyJWK) → (algorithms : List String) →
    (audience issuer : String) → (leeway : ℚ) → (required : List String) → Option JsonObject

/-! ### The resolver -/

def acceptedAlgorithms : List String := ["RS256", "ES256"]

/-- Resolves a token's `kid` from trusted JWKS. -/
structure JwksKeyResolver where
  policy : OidcNetworkSecurityPolicy
  lifespanSeconds : Int
  cacheSize : Int
  maxKeys : Int
  refreshCooldownSeconds : ℚ
  positive : 0 < lifespanSeconds ∧ 0 < cacheSize ∧ 0 < maxKeys
  cooldownPositive : 0 < refreshCooldownSeconds

/-- `JwksKeyResolver.__init__`, with the message of its `ValueError`. -/
def JwksKeyResolver.init (policy : OidcNetworkSecurityPolicy) (lifespanSeconds : Int := 300)
    (cacheSize : Int := 8) (maxKeys : Int := 64) (refreshCooldownSeconds : ℚ := 30) :
    Except String JwksKeyResolver :=
  if positive : 0 < lifespanSeconds ∧ 0 < cacheSize ∧ 0 < maxKeys then
    if cooldownPositive : 0 < refreshCooldownSeconds then
      .ok ⟨policy, lifespanSeconds, cacheSize, maxKeys, refreshCooldownSeconds, positive,
        cooldownPositive⟩
    else .error "JWKS refresh cooldown must be positive"
  else .error "JWKS cache TTL, cache size and max_keys must be positive"

/-- The empty cache of a new resolver. -/
def JwksKeyResolver.cache (resolver : JwksKeyResolver) : TtlCache.Cache String KeySet ℚ where
  maxsize := resolver.cacheSize.toNat
  ttl := resolver.lifespanSeconds

/-- The state of a server whose clients are new. -/
def OidcState.initial (client : OidcDiscoveryClient) (resolver : JwksKeyResolver) : OidcState where
  discoveryCache := client.cache
  jwksCache := resolver.cache

/-- `except (HTTPError, OidcDocumentError, OidcNetworkSecurityError)` of `_fetch_keys`. -/
def Raised.inFetchKeys : Raised → Raised
  | .httpError | .document _ | .networkSecurity _ => .signingKey "could not resolve trusted JWKS"
  | error => error

theorem inFetchKeys_uncaught (error : Raised) : error.inFetchKeys.Uncaught ↔ error.Escapes := by
  cases error <;> rfl

/-- `expected_key_type`. -/
def expectedKeyType (algorithm : String) : String := if algorithm = "RS256" then "RSA" else "EC"

/-- `_compatible_key`. -/
def compatibleKey [PyJwt] (keys : KeySet) (kid algorithm : String) : Option PyJWK :=
  match keys.lookup kid with
  | none => none
  | some raw =>
    if !(get raw "alg").isNone && !(get raw "alg").isText algorithm then none
    else if !(get raw "kty").isText (expectedKeyType algorithm) then none
    else if algorithm = "ES256" && !(get raw "crv").isText "P-256" then none
    else if PyJwt.keyAccepted raw algorithm then some ⟨raw, algorithm⟩
    else none

/-- The algorithm of a header, when it is an accepted string. -/
def acceptedAlgorithm (header : JsonObject) : Option String :=
  (get header "alg").asText.filter (· ∈ acceptedAlgorithms)

theorem acceptedAlgorithm_eq_some {header : JsonObject} {algorithm : String}
    (accepted : acceptedAlgorithm header = some algorithm) :
    get header "alg" = .str algorithm ∧ (algorithm = "RS256" ∨ algorithm = "ES256") := by
  obtain ⟨isText, listed⟩ := Option.filter_eq_some_iff.mp accepted
  refine ⟨Json.asText_eq_some.mp isText, ?_⟩
  simpa [acceptedAlgorithms] using listed

/-- The entry is a key of the algorithm's type, and its own `alg`, when there is one, is the algorithm. -/
structure KeyFits (entry : JsonObject) (algorithm : String) : Prop where
  advertised : get entry "alg" = .null ∨ get entry "alg" = .str algorithm
  typed : algorithm = "RS256" ∧ get entry "kty" = .str "RSA" ∨
    algorithm = "ES256" ∧ get entry "kty" = .str "EC" ∧ get entry "crv" = .str "P-256"

/-- **A compatible key is the entry of its `kid`, and fits the algorithm.** -/
theorem compatibleKey_eq_some [PyJwt] {keys : KeySet} {kid algorithm : String} {key : PyJWK}
    (accepted : algorithm = "RS256" ∨ algorithm = "ES256")
    (compatible : compatibleKey keys kid algorithm = some key) :
    ∃ entry, keys.lookup kid = some entry ∧ key = ⟨entry, algorithm⟩ ∧ KeyFits entry algorithm := by
  unfold compatibleKey at compatible
  split at compatible
  · cases compatible
  · rename_i entry found
    split at compatible
    · cases compatible
    · rename_i advertised
      split at compatible
      · cases compatible
      · rename_i kty
        split at compatible
        · cases compatible
        · rename_i crv
          split at compatible
          · cases compatible
            refine ⟨entry, found, rfl, ⟨?_, ?_⟩⟩
            · by_cases absent : (get entry "alg").isNone = true
              · exact Or.inl (Json.isNone_iff.mp absent)
              · exact Or.inr (Json.isText_iff.mp (by simpa [absent] using advertised))
            · have typed : get entry "kty" = .str (expectedKeyType algorithm) :=
                Json.isText_iff.mp (by simpa using kty)
              rcases accepted with rfl | rfl
              · exact Or.inl ⟨rfl, typed⟩
              · exact Or.inr ⟨rfl, typed, Json.isText_iff.mp (by simpa using crv)⟩
          · cases compatible

variable [Clocks] [JsonGrammar] [UnicodeTables]

namespace JwksKeyResolver

/-- `_fetch_keys`. -/
def fetchKeys (resolver : JwksKeyResolver) (jwksUri : String) : OidcAsync KeySet :=
  ExceptT.adapt Raised.inFetchKeys do
    Async.ofExcept ((resolver.policy.assertJwksUriTrusted jwksUri).mapError .networkSecurity)
    httpGet .jwks jwksUri (readKeys resolver.policy resolver.maxKeys.toNat)

/-- The end of `_keys_for`: fetch and cache. -/
def fetchAndStore (resolver : JwksKeyResolver) (jwksUri : String) (forceRefresh cached : Bool) :
    OidcAsync KeySet := do
  startFetch .jwks jwksUri forceRefresh cached
  let keys ← resolver.fetchKeys jwksUri
  jwksCache.store jwksUri keys
  pure keys

/-- `self._last_forced_refresh[jwks_uri] = now`. -/
def stamp (jwksUri : String) (now : ℚ) : OidcAsync Unit :=
  Async.lift (.write fun state =>
    { state with lastForcedRefresh := (jwksUri, now) :: state.lastForcedRefresh })

/-- The body of `async with self._fetch_lock` in `_keys_for`. -/
def refresh (resolver : JwksKeyResolver) (jwksUri : String) (forceRefresh : Bool) :
    OidcAsync KeySet := do
  match ← jwksCache.lookup jwksUri with
  | some cached =>
    if !forceRefresh then pure cached
    else do
      let state ← Async.lift .read
      let now ← monotonic
      if (state.lastForcedRefresh.lookup jwksUri).any
          fun lastRefresh => now - lastRefresh < resolver.refreshCooldownSeconds then
        pure cached
      else do
        stamp jwksUri now
        resolver.fetchAndStore jwksUri true true
  -- A forced refresh that finds nothing cached leaves no stamp.
  | none => resolver.fetchAndStore jwksUri forceRefresh false

/-- `_keys_for`. -/
def keysFor (resolver : JwksKeyResolver) (jwksUri : String) (forceRefresh : Bool := false) :
    OidcAsync KeySet :=
  if forceRefresh then jwksLock.locked (resolver.refresh jwksUri true)
  else do
    match ← jwksCache.lookup jwksUri with
    | some cached => pure cached
    | none => jwksLock.locked (resolver.refresh jwksUri false)

variable [PyJwt]

/-- The part of `resolve` after the header checks. -/
def resolveKid (resolver : JwksKeyResolver) (jwksUri kid algorithm : String) : OidcAsync PyJWK := do
  let keys ← resolver.keysFor jwksUri
  match compatibleKey keys kid algorithm with
  | some resolved => pure resolved
  | none => do
    let keys ← resolver.keysFor jwksUri true
    match compatibleKey keys kid algorithm with
    | some resolved => pure resolved
    | none => throw (.signingKey "no matching trusted JWKS signing key")

/-- `resolve`. -/
def resolve (resolver : JwksKeyResolver) (jwksUri token : String) : OidcAsync PyJWK :=
  match PyJwt.unverifiedHeader token with
  | none => throw (.signingKey "JWT header could not be decoded")
  | some header =>
    match usableKid header with
    | none => throw (.signingKey "JWT header must contain a bounded non-empty kid")
    | some kid =>
      match acceptedAlgorithm header with
      | none => throw (.signingKey "JWT signing algorithm is not accepted")
      | some algorithm =>
        match resolver.policy.assertJwksUriTrusted jwksUri with
        | .error _ => throw (.signingKey "JWKS URI is outside the configured trust boundary")
        | .ok () => resolver.resolveKid jwksUri kid algorithm

end JwksKeyResolver

/-! ### Exceptions -/

variable {discoveryMaxBytes : Int}

theorem fetchAndStore_accounted (resolver : JwksKeyResolver) (jwksUri : String)
    (forceRefresh cached : Bool) :
    Accounted Raised.Uncaught (Poisoned discoveryMaxBytes resolver.policy.jwksMaxBytes) (fun _ => True)
      (resolver.fetchAndStore jwksUri forceRefresh cached) := by
  refine (startFetch_accounted _ _ _ _).bind fun _ _ => ?_
  have fetched : Accounted Raised.Uncaught (Poisoned discoveryMaxBytes resolver.policy.jwksMaxBytes)
      (fun _ => True) (resolver.fetchKeys jwksUri) := by
    refine Accounted.adapt (Accounted.bind (.ofExcept (fun _ _ => trivial) ?_) fun _ _ => ?_)
      inFetchKeys_uncaught
    · intro error raised
      cases trusted : resolver.policy.assertJwksUriTrusted jwksUri with
      | ok _ =>
        rw [trusted] at raised
        cases raised
      | error refused =>
        rw [trusted] at raised
        cases raised
        exact not_escapes_networkSecurity _
    · exact httpGet_accounted fun _ => readKeys_escapes
  refine fetched.bind fun keys _ => ?_
  exact (store_accounted _ _ _).bind fun _ _ => .pure trivial

theorem keysFor_accounted (resolver : JwksKeyResolver) (jwksUri : String) (forceRefresh : Bool) :
    Accounted Raised.Uncaught (Poisoned discoveryMaxBytes resolver.policy.jwksMaxBytes) (fun _ => True)
      (resolver.keysFor jwksUri forceRefresh) := by
  have inside : ∀ forceRefresh, Accounted Raised.Uncaught
      (Poisoned discoveryMaxBytes resolver.policy.jwksMaxBytes) (fun _ => True)
      (resolver.refresh jwksUri forceRefresh) := by
    intro forceRefresh
    refine (lookup_accounted _ _).bind fun found _ => ?_
    cases found with
    | none => exact fetchAndStore_accounted resolver jwksUri forceRefresh false
    | some cached =>
      dsimp only
      split
      · exact .pure trivial
      · refine (Accounted.lift .read).bind fun state _ => ?_
        refine (Accounted.lift (.access fun _ => .done _)).bind fun now _ => ?_
        split
        · exact .pure trivial
        · refine (Accounted.lift (.write _)).bind fun _ _ => ?_
          exact fetchAndStore_accounted resolver jwksUri true true
  unfold JwksKeyResolver.keysFor
  split
  · exact .locked (fun _ _ => id) (inside true)
  · refine (lookup_accounted _ _).bind fun cached _ => ?_
    cases cached with
    | some cached => exact .pure trivial
    | none => exact .locked (fun _ _ => id) (inside false)

/-- **Key resolution leaves an exception uncaught exactly when it read a poisoned document.** -/
theorem resolveKey_accounted [PyJwt] (resolver : JwksKeyResolver) (jwksUri token : String) :
    Accounted Raised.Uncaught (Poisoned discoveryMaxBytes resolver.policy.jwksMaxBytes) (fun _ => True)
      (resolver.resolve jwksUri token) := by
  unfold JwksKeyResolver.resolve
  split
  · exact .throw id
  · split
    · exact .throw id
    · split
      · exact .throw id
      · split
        · exact .throw id
        · refine (keysFor_accounted _ _ _).bind fun keys _ => ?_
          split
          · exact .pure trivial
          · refine (keysFor_accounted _ _ _).bind fun keys _ => ?_
            split
            · exact .pure trivial
            · exact .throw id

/-! ### One issuer -/

def issuerJwksUri : String := "https://issuer.example/jwks"

def issuerDiscovery : OidcDiscoveryClient := ⟨issuerPolicy, 3600, 8, by decide⟩

def issuerKeyResolver : JwksKeyResolver := ⟨issuerPolicy, 300, 8, 64, 30, by decide, by decide⟩

def initialState : OidcState := .initial issuerDiscovery issuerKeyResolver

/-- A JSON response. -/
def jsonResponse (text : String) : HttpOutcome :=
  .response ⟨200, some "application/json", asciiBytes text⟩

/-- The answers of a network with one outcome for each client. -/
def networkAnswer (discovery jwks : HttpOutcome) : (want : OidcWait) → want.Answer
  | .get .discovery _ => discovery
  | .get .jwks _ => jwks
  | .turn _ _ => ()

end McpAuth
