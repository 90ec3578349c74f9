/-
**The token verifiers: bearer string to access token.**

`GenericOidcTokenVerifier.verifyToken` resolves metadata and key, decodes the token and builds the SDK's
record; `EntraTokenVerifier.verifyToken` binds the result to a tenant. What `jwt.decode` promises of the
claims it returns is `TokenDecoded`.

`verifyToken_returns_iff`: a call returns, whatever the caches hold and the network answers, exactly when
no answer it got was poisoned.
-/

import McpAuth.Adapters.JwksKeyResolver

namespace McpAuth

open Cooperative JsonText PyText

/-! ### What `jwt.decode` promises -/

/-- The `aud` claim is the audience or a list that holds it. -/
def NamesAudience (claim : Json) (audience : String) : Prop :=
  claim = .str audience ∨ ∃ items, claim = .arr items ∧ .str audience ∈ items

section Decode

variable [PyJwt] [PyRepr] [UnicodeTables]

/-- What is true of the claims of a decoded token. -/
structure TokenDecoded (now : ℚ) (token : String) (key : PyJWK) (algorithms : List String)
    (audience issuer : String) (leeway : ℚ) (required : List String) (claims : JsonObject) :
    Prop where
  signed : ∃ header algorithm, PyJwt.unverifiedHeader token = some header ∧
    get header "alg" = .str algorithm ∧ algorithm ∈ algorithms ∧
    PyJwt.verifies token key algorithm = true
  sameIssuer : get claims "iss" = .str issuer
  sameAudience : NamesAudience (get claims "aud") audience
  unexpired : get claims "exp" ≠ .null → ∃ expires, (get claims "exp").toInt = some expires ∧
    now < expires + leeway
  present : ∀ name ∈ required, get claims name ≠ .null

/-- **`jwt.decode` returns claims only of a token it checked.** -/
def DecodeDocumented : Prop :=
  ∀ (now : ℚ) (token : String) (key : PyJWK) (algorithms : List String) (audience issuer : String)
    (leeway : ℚ) (required : List String) (claims : JsonObject),
    PyJwt.decode now token key algorithms audience issuer leeway required = some claims →
      TokenDecoded now token key algorithms audience issuer leeway required claims

end Decode

/-! ### The verifiers -/

def clockSkewLeewaySeconds : ℚ := 60

def requiredClaims : List String := ["exp", "iat", "iss", "aud", "sub"]

/-- Verifies bearer tokens of one issuer for one audience. -/
structure GenericOidcTokenVerifier where
  issuerUrl : String
  audience : String
  discovery : OidcDiscoveryClient
  keyResolver : JwksKeyResolver

/-- Verifies bearer tokens of one Entra tenant. -/
structure EntraTokenVerifier where
  tenantId : String
  applicationIdUri : String
  delegate : GenericOidcTokenVerifier

section Verifiers

variable [Clocks] [JsonGrammar] [UnicodeTables] [PyJwt] [PyRepr]

namespace GenericOidcTokenVerifier

/-- The body of the `try` of `verify_token`. -/
def decodeClaims (verifier : GenericOidcTokenVerifier) (token : String) : OidcAsync JsonObject := do
  let metadata ← verifier.discovery.resolve verifier.issuerUrl
  let signingKey ← verifier.keyResolver.resolve metadata.jwksUri token
  let now ← wallClock
  match PyJwt.decode now token signingKey acceptedAlgorithms verifier.audience metadata.issuer
      clockSkewLeewaySeconds requiredClaims with
  | some claims => pure claims
  | none => throw .invalidToken

/-- The `except` clauses of `verify_token`: a rejected token has no claims. -/
def rejected : Raised → OidcAsync (Option JsonObject)
  | .discovery _ | .signingKey _ | .invalidToken => pure none
  | error => throw error

/-- `verify_token`. -/
def verifyToken (verifier : GenericOidcTokenVerifier) (token : String) :
    OidcAsync (Option AccessToken) := do
  let decoded ← tryCatch (do
    let claims ← verifier.decodeClaims token
    pure (some claims)) rejected
  match decoded with
  | none => pure none
  | some claims => do
    let accessToken ← Async.ofExcept
      ((buildAccessToken verifier.audience token claims).mapError .claim)
    pure (some accessToken)

end GenericOidcTokenVerifier

/-- `verify_token`. -/
def EntraTokenVerifier.verifyToken (verifier : EntraTokenVerifier) (token : String) :
    OidcAsync (Option AccessToken) := do
  let accessToken ← verifier.delegate.verifyToken token
  pure (accessToken.bind (normalizeEntra verifier.tenantId verifier.applicationIdUri))

/-! ### Returning -/

/-- The claims an access token is built from are there. -/
def HasTokenClaims (claims : JsonObject) : Prop :=
  get claims "sub" ≠ .null ∧ ∃ expires, (get claims "exp").toInt = some expires

omit [Clocks] [JsonGrammar] [UnicodeTables] [PyJwt] [PyRepr] in
theorem claimItem_of_ne_null {claims : JsonObject} {name : String} (present : get claims name ≠ .null) :
    claimItem claims name = .ok (get claims name) := by
  unfold claimItem JsonText.get at *
  cases found : claims.lookup name with
  | none =>
    rw [found] at present
    exact absurd rfl present
  | some value => rfl

omit [Clocks] [JsonGrammar] [PyJwt] in
/-- **Claims that are there make an access token.** -/
theorem buildAccessToken_total {audience token : String} {claims : JsonObject}
    (has : HasTokenClaims claims) :
    ∃ accessToken, buildAccessToken audience token claims = .ok accessToken := by
  obtain ⟨subject, expires, expiry⟩ := has
  have expPresent : get claims "exp" ≠ .null := by
    intro absent
    rw [absent] at expiry
    cases expiry
  obtain ⟨client, isClient⟩ : ∃ client, clientIdClaim claims = .ok client := by
    unfold clientIdClaim
    split
    · exact ⟨_, rfl⟩
    · split
      · exact ⟨_, rfl⟩
      · exact ⟨_, claimItem_of_ne_null subject⟩
  have isExpiry : intClaim claims "exp" = .ok expires :=
    Fallible.bind_eq_ok.mpr ⟨_, claimItem_of_ne_null expPresent, by rw [expiry]⟩
  unfold buildAccessToken
  rw [isClient, isExpiry, claimItem_of_ne_null subject]
  exact ⟨_, rfl⟩

/-- The exceptions of the `try` body are accounted for, and its claims are complete. -/
theorem decodeClaims_accounted (documented : DecodeDocumented) (verifier : GenericOidcTokenVerifier)
    (token : String) :
    Accounted Raised.Uncaught (Poisoned verifier.discovery.policy.discoveryMaxBytes
      verifier.keyResolver.policy.jwksMaxBytes) HasTokenClaims (verifier.decodeClaims token) := by
  refine (resolve_accounted _ _).bind fun metadata _ => ?_
  refine (resolveKey_accounted _ _ _).bind fun signingKey _ => ?_
  refine (Accounted.lift (.access fun _ => .done _)).bind fun now _ => ?_
  cases decoded : PyJwt.decode now token signingKey acceptedAlgorithms verifier.audience
      metadata.issuer clockSkewLeewaySeconds requiredClaims with
  | none => exact .throw id
  | some claims =>
    have checked := documented _ _ _ _ _ _ _ _ _ decoded
    have expiry := checked.unexpired (checked.present "exp" (by decide))
    obtain ⟨expires, isExpiry, -⟩ := expiry
    exact .pure ⟨checked.present "sub" (by decide), expires, isExpiry⟩

/-- Every exception of a verification is a fault of an answer. -/
theorem verifyToken_accounted (documented : DecodeDocumented) (verifier : GenericOidcTokenVerifier)
    (token : String) :
    Accounted (fun _ => True) (Poisoned verifier.discovery.policy.discoveryMaxBytes
      verifier.keyResolver.policy.jwksMaxBytes) (fun _ => True) (verifier.verifyToken token) := by
  have attempted : Accounted Raised.Uncaught (Poisoned verifier.discovery.policy.discoveryMaxBytes
      verifier.keyResolver.policy.jwksMaxBytes) (fun decoded => ∀ claims ∈ decoded, HasTokenClaims claims)
      (verifier.decodeClaims token >>= fun claims => pure (some claims)) := by
    refine (decodeClaims_accounted documented verifier token).bind fun claims has => .pure ?_
    rintro _ ⟨⟩
    exact has
  refine (attempted.tryCatch ?_ ?_).bind fun decoded has => ?_
  · intro error caught
    cases error
    case discovery | signingKey | invalidToken => exact .pure fun _ none => by cases none
    all_goals exact absurd trivial caught
  · intro error uncaught
    refine ⟨trivial, ?_⟩
    cases error
    case discovery | signingKey | invalidToken => exact uncaught.elim
    all_goals rfl
  · cases decoded with
    | none => exact .pure trivial
    | some claims =>
      obtain ⟨accessToken, built⟩ := @buildAccessToken_total _ _ verifier.audience token claims
        (has claims rfl)
      dsimp only
      rw [built]
      exact (Accounted.ofExcept (fun _ _ => trivial) fun _ raised => by cases raised).bind
        fun _ _ => .pure trivial

/-- **A verification returns exactly when no document it read was poisoned**, whatever the caches hold
and the network answers. -/
theorem verifyToken_returns_iff (documented : DecodeDocumented)
    (verifier : GenericOidcTokenVerifier) (token : String)
    (turns : ℕ → Turn OidcState OidcWait OidcWait.Answer) (state : OidcState) :
    (∃ accessToken, ((verifier.verifyToken token).run.drive turns state).result = .ok accessToken) ↔
      ∀ answered ∈ ((verifier.verifyToken token).run.drive turns state).answers,
        ¬ Poisoned verifier.discovery.policy.discoveryMaxBytes
          verifier.keyResolver.policy.jwksMaxBytes answered := by
  have verdict := verifyToken_accounted documented verifier token turns state
  generalize (verifier.verifyToken token).run.drive turns state = ran at verdict
  obtain ⟨_ | accessToken, answers, shared, later⟩ := ran
  · refine iff_of_false (fun ⟨_, same⟩ => by cases same) fun clean => ?_
    obtain ⟨answered, member, poisoned⟩ := verdict.mp trivial
    exact clean answered member poisoned
  · exact iff_of_true ⟨accessToken, rfl⟩ verdict.2

end Verifiers

/-! ### One issuer -/

/-- A text of the issuer's discovery document. -/
def discoveryText (jwksUri : String) : String :=
  "\x7b\"issuer\": \"https://issuer.example\", \"jwks_uri\": \"" ++ jwksUri ++ "\"\x7d"

/-- A JWKS URI that `_parse_url` accepts and the HTTP client refuses. -/
def deleteJwksUri : String := "https://issuer.example/\x7f"

def keysText : String := "\x7b\"keys\": [\x7b\"kid\": \"k\", \"kty\": \"RSA\"\x7d]\x7d"

/-- The grammar on the issuer's documents. -/
abbrev issuerGrammar : JsonGrammar where
  scan text :=
    if text = discoveryText issuerJwksUri then
      ⟨.obj [("issuer", .leaf (.str "https://issuer.example")),
        ("jwks_uri", .leaf (.str issuerJwksUri))], false⟩
    else if text = discoveryText deleteJwksUri then
      ⟨.obj [("issuer", .leaf (.str "https://issuer.example")),
        ("jwks_uri", .leaf (.str deleteJwksUri))], false⟩
    else if text = keysText then
      ⟨.obj [("keys", .arr [.obj [("kid", .leaf (.str "k")), ("kty", .leaf (.str "RSA"))]])], false⟩
    else ⟨.grammarError, false⟩

/-- The issuer's token for the report server. -/
def issuerToken : String := "eyJhbGciOiJSUzI1NiIsImtpZCI6ImsifQ.e30.c2ln"

def reportAudience : String := "https://mcp.example.org/mcp"

def issuerClaims : JsonObject :=
  [("iss", .str "https://issuer.example"), ("aud", .str reportAudience), ("sub", .str "alice"),
    ("iat", .int 1000), ("exp", .int 2000), ("tid", .str "tenant")]

/-- PyJWT on the issuer's token. -/
abbrev issuerJwt : PyJwt where
  unverifiedHeader token :=
    if token = issuerToken then some [("alg", .str "RS256"), ("kid", .str "k")] else none
  keyAccepted _ _ := true
  verifies token key algorithm := token = issuerToken ∧ key.algorithm = algorithm
  decode now token key algorithms audience issuer leeway required :=
    if token = issuerToken ∧ key.algorithm = "RS256" ∧ "RS256" ∈ algorithms ∧
        audience = reportAudience ∧ issuer = "https://issuer.example" ∧ now < 2000 + leeway ∧
        required ⊆ ["iss", "aud", "sub", "iat", "exp", "tid"] then
      some issuerClaims
    else none

theorem issuerJwt_documented :
    let _ := plainRepr
    let _ := asciiTables
    let _ := issuerJwt
    DecodeDocumented := by
  intro _ _ _ now token key algorithms audience issuer leeway required claims decoded
  change (if token = issuerToken ∧ key.algorithm = "RS256" ∧ "RS256" ∈ algorithms ∧
    audience = reportAudience ∧ issuer = "https://issuer.example" ∧ now < 2000 + leeway ∧
    required ⊆ ["iss", "aud", "sub", "iat", "exp", "tid"] then some issuerClaims else none) = _
    at decoded
  split at decoded
  · rename_i checks
    obtain ⟨rfl, isRsa, listed, rfl, rfl, inTime, held⟩ := checks
    cases decoded
    have filled : ∀ name ∈ ["iss", "aud", "sub", "iat", "exp", "tid"],
        (get issuerClaims name).isNone = false := by decide
    have allPresent : ∀ name ∈ ["iss", "aud", "sub", "iat", "exp", "tid"],
        get issuerClaims name ≠ .null := fun name member absent =>
      Bool.eq_false_iff.mp (filled name member) (Json.isNone_iff.mpr absent)
    refine ⟨⟨[("alg", .str "RS256"), ("kid", .str "k")], "RS256", rfl, rfl, listed, ?_⟩, rfl,
      Or.inl rfl, fun _ => ⟨2000, rfl, inTime⟩, fun name member => allPresent name (held member)⟩
    exact decide_eq_true ⟨rfl, isRsa⟩
  · cases decoded

/-- A clock that stands still. -/
abbrev stoppedClocks : Clocks where
  monotonic _ := 0
  wall _ := 1500

def issuerVerifier : GenericOidcTokenVerifier where
  issuerUrl := "https://issuer.example"
  audience := reportAudience
  discovery := issuerDiscovery
  keyResolver := issuerKeyResolver

/-- The issuer's verifier alone with its network. -/
def issuerRun [Clocks] [JsonGrammar] [UnicodeTables] [PyJwt] [PyRepr] (discovery jwks : HttpOutcome) :
    Solo OidcState OidcWait OidcWait.Answer (Except Raised (Option AccessToken)) :=
  (issuerVerifier.verifyToken issuerToken).run.drive
    (fun _ => ⟨initialState, networkAnswer discovery jwks⟩) initialState

/-- The exception of an outcome. -/
def raisedBy {α : Type} : Except Raised α → Option Raised
  | .ok _ => none
  | .error error => some error

theorem raisedBy_eq_some {α : Type} {outcome : Except Raised α} {error : Raised}
    (raised : raisedBy outcome = some error) : outcome = .error error := by
  cases outcome with
  | ok result => cases raised
  | error other => exact congrArg Except.error (Option.some.inj raised)

theorem exists_of_isOk {ε α : Type} {outcome : Except ε α} (ok : outcome.isOk = true) :
    ∃ result, outcome = .ok result := by
  cases outcome with
  | error error => cases ok
  | ok result => exact ⟨result, rfl⟩

theorem verifyToken_returns_issuer :
    let _ := plainRepr
    let _ := asciiTables
    let _ := issuerJwt
    let _ := issuerGrammar
    let _ := stoppedClocks
    let run := issuerRun (jsonResponse (discoveryText issuerJwksUri)) (jsonResponse keysText)
    run.result.isOk = true ∧ ∀ answered ∈ run.answers, ¬ Poisoned 65536 524288 answered := by
  intro _ _ _ _ _ run
  have returned : run.result.isOk = true := by decide +kernel
  exact ⟨returned, (verifyToken_returns_iff issuerJwt_documented issuerVerifier issuerToken _ _).mp
    (exists_of_isOk returned)⟩

/-- **A trusted JWKS URI that the HTTP client refuses**: `InvalidURL` leaves `verify_token`. -/
theorem verifyToken_raises_invalidUrl :
    let _ := plainRepr
    let _ := asciiTables
    let _ := issuerJwt
    let _ := issuerGrammar
    let _ := stoppedClocks
    OidcNetworkSecurityPolicy.init "https://issuer.example" = .ok issuerPolicy ∧
      issuerPolicy.assertJwksUriTrusted deleteJwksUri = .ok () ∧
      (issuerRun (jsonResponse (discoveryText deleteJwksUri)) .invalidUrl).result =
        .error .invalidUrl := by
  intro _ _ _ _ _
  have trusted : issuerPolicy.assertJwksUriTrusted deleteJwksUri = .ok () := by decide +kernel
  have raised : raisedBy (issuerRun (jsonResponse (discoveryText deleteJwksUri)) .invalidUrl).result =
      some .invalidUrl := by decide +kernel
  exact ⟨issuerPolicy_init, trusted, raisedBy_eq_some raised⟩

end McpAuth
