/-
**The verifier of a server, and the trust chain behind every token it accepts.**

`buildTokenVerifier` picks the adapter of the configured provider and wires it to its discovery client
and key resolver under one network policy. `acceptedToken_trustChain`: in every run of the server's
verifications, each returned access token has a `TrustEvidence` — the metadata, the JWKS entry, the
header and the claims that made it acceptable, all read from responses the run received.
-/

import McpAuth.Adapters.TrustChain
import McpAuth.Entrypoints.Server
import McpAuth.Library.CallSpan

namespace McpAuth

open Cooperative JsonText PyText

/-! ### The verifier -/

/-- The two adapters. -/
inductive TokenVerifier
  | generic (verifier : GenericOidcTokenVerifier)
  | entra (verifier : EntraTokenVerifier)

/-- The verifier that checks signature, issuer, audience and expiry. -/
def TokenVerifier.base : TokenVerifier → GenericOidcTokenVerifier
  | .generic verifier => verifier
  | .entra verifier => verifier.delegate

/-- What the adapter makes of a built access token. -/
def TokenVerifier.mode : TokenVerifier → VerifierMode
  | .generic _ => .generic
  | .entra verifier => .entra verifier.tenantId verifier.applicationIdUri

/-- `verify_token`. -/
def TokenVerifier.verifyToken [Clocks] [JsonGrammar] [UnicodeTables] [PyJwt] [PyRepr]
    (verifier : TokenVerifier) (token : String) : OidcAsync (Option AccessToken) :=
  match verifier with
  | .generic verifier => verifier.verifyToken token
  | .entra verifier => verifier.verifyToken token

/-! ### Wiring -/

/-- The exceptions of building the verifier. -/
inductive StartupError
  | runtime (message : String)
  | policy (error : PolicyInitError)
  | value (message : String)

section Wiring

variable [UnicodeTables]

/-- `network_policy or _build_oidc_network_policy(settings, issuer_url)`. -/
def chooseNetworkPolicy (settings : Settings) (networkPolicy : Option OidcNetworkSecurityPolicy)
    (issuerUrl : String) : Except StartupError OidcNetworkSecurityPolicy :=
  match networkPolicy with
  | some policy => .ok policy
  | none => (buildOidcNetworkPolicy settings issuerUrl).mapError .policy

/-- The generic verifier over one policy. -/
def wireVerifier (policy : OidcNetworkSecurityPolicy) (issuerUrl audience : String) :
    Except StartupError GenericOidcTokenVerifier := do
  let discovery ← (OidcDiscoveryClient.init policy).mapError .value
  let keyResolver ← (JwksKeyResolver.init policy).mapError .value
  .ok ⟨issuerUrl, audience, discovery, keyResolver⟩

/-- `_build_token_verifier`. -/
def buildTokenVerifier (settings : Settings)
    (networkPolicy : Option OidcNetworkSecurityPolicy := none) : Except StartupError TokenVerifier :=
  match settings.authProvider with
  | .entra =>
    if isFilled settings.entraTenantId ∧ isFilled settings.entraAudience ∧
        isFilled settings.entraApplicationIdUri then do
      let tenantId := settings.entraTenantId.getD ""
      let issuerUrl := "https://login.microsoftonline.com/" ++ tenantId ++ "/v2.0"
      let policy ← chooseNetworkPolicy settings networkPolicy issuerUrl
      let delegate ← wireVerifier policy issuerUrl (settings.entraAudience.getD "")
      .ok (.entra ⟨tenantId, settings.entraApplicationIdUri.getD "", delegate⟩)
    else .error (.runtime ("auth_provider=entra requires entra_tenant_id, entra_audience, " ++
      "and entra_application_id_uri"))
  | .generic =>
    if isFilled settings.genericIssuerUrl ∧ isFilled settings.genericAudience then do
      let issuerUrl := settings.genericIssuerUrl.getD ""
      let policy ← chooseNetworkPolicy settings networkPolicy issuerUrl
      let verifier ← wireVerifier policy issuerUrl (settings.genericAudience.getD "")
      .ok (.generic verifier)
    else .error (.runtime "auth_provider=generic requires generic_issuer_url and generic_audience")

/-- The policy was constructed with this allowlist of JWKS origins. -/
def ConstructedFor (jwksAllowedOrigins : List String) (policy : OidcNetworkSecurityPolicy) : Prop :=
  ∃ (issuerUrl : String) (allowInsecureLoopback : Bool) (dnsTimeoutSeconds httpTimeoutSeconds : ℚ)
    (discoveryMaxBytes jwksMaxBytes : Int),
    OidcNetworkSecurityPolicy.init issuerUrl allowInsecureLoopback jwksAllowedOrigins
      dnsTimeoutSeconds httpTimeoutSeconds discoveryMaxBytes jwksMaxBytes = .ok policy

/-- The audience the settings configure for their provider. -/
def configuredAudience (settings : Settings) : Option String :=
  match settings.authProvider with
  | .generic => settings.genericAudience
  | .entra => settings.entraAudience

/-- The allowlist of the settings, which only the generic provider has. -/
def jwksAllowlist (settings : Settings) : List String :=
  match settings.authProvider with
  | .generic => settings.genericJwksAllowedOrigins
  | .entra => []

omit [UnicodeTables] in
theorem isFilled_eq_some {value : Option String} (filled : isFilled value = true) :
    value = some (value.getD "") := by
  cases value with
  | none => cases filled
  | some text => rfl

/-- A chosen policy was constructed for the allowlist. -/
theorem chooseNetworkPolicy_constructed {settings : Settings}
    {networkPolicy : Option OidcNetworkSecurityPolicy} {issuerUrl : String} {allowed : List String}
    (supplied : ∀ policy, networkPolicy = some policy → ConstructedFor allowed policy)
    (own : networkPolicy = none → allowed = jwksAllowlist settings)
    {policy : OidcNetworkSecurityPolicy}
    (chosen : chooseNetworkPolicy settings networkPolicy issuerUrl = .ok policy) :
    ConstructedFor allowed policy := by
  unfold chooseNetworkPolicy at chosen
  split at chosen
  · cases chosen
    exact supplied _ rfl
  · have built := Fallible.mapError_eq_ok.mp chosen
    rw [own rfl]
    exact ⟨issuerUrl, settings.oidcAllowInsecureLoopback, 2, 5, 65536, 524288, built⟩

omit [UnicodeTables] in
/-- Both clients of a wired verifier have the one policy. -/
theorem wireVerifier_ok {policy : OidcNetworkSecurityPolicy} {issuerUrl audience : String}
    {verifier : GenericOidcTokenVerifier} (wired : wireVerifier policy issuerUrl audience = .ok verifier) :
    verifier.issuerUrl = issuerUrl ∧ verifier.audience = audience ∧
      verifier.discovery.policy = policy ∧ verifier.keyResolver.policy = policy := by
  cases wired
  exact ⟨rfl, rfl, rfl, rfl⟩

/-- **What a built verifier is bound to**: the configured issuer and audience, one constructed policy and,
for Entra, the configured tenant. -/
theorem buildTokenVerifier_ok {settings : Settings}
    {networkPolicy : Option OidcNetworkSecurityPolicy} {allowed : List String}
    (supplied : ∀ policy, networkPolicy = some policy → ConstructedFor allowed policy)
    (own : networkPolicy = none → allowed = jwksAllowlist settings) {verifier : TokenVerifier}
    (built : buildTokenVerifier settings networkPolicy = .ok verifier) :
    resolveIssuerUrl settings = some verifier.base.issuerUrl ∧
      configuredAudience settings = some verifier.base.audience ∧
      ConstructedFor allowed verifier.base.discovery.policy ∧
      (settings.authProvider = .entra → ∃ tenantId applicationIdUri,
        verifier.mode = .entra tenantId applicationIdUri ∧ settings.entraTenantId = some tenantId) := by
  unfold buildTokenVerifier at built
  split at built
  · rename_i provider
    split at built
    · rename_i filled
      have tenant := isFilled_eq_some filled.1
      obtain ⟨policy, chosen, built⟩ := Fallible.bind_eq_ok.mp built
      obtain ⟨delegate, wired, built⟩ := Fallible.bind_eq_ok.mp built
      cases built
      obtain ⟨issuer, audience, samePolicy, -⟩ := wireVerifier_ok wired
      refine ⟨?_, ?_, ?_, ?_⟩
      · show resolveIssuerUrl settings = some delegate.issuerUrl
        rw [issuer, resolveIssuerUrl, provider]
        dsimp only
        rw [tenant]
        rfl
      · show configuredAudience settings = some delegate.audience
        rw [audience, configuredAudience, provider]
        exact isFilled_eq_some filled.2.1
      · show ConstructedFor allowed delegate.discovery.policy
        rw [samePolicy]
        exact chooseNetworkPolicy_constructed supplied own chosen
      · intro _
        exact ⟨_, _, rfl, tenant⟩
    · cases built
  · rename_i provider
    split at built
    · rename_i filled
      have issuerUrl := isFilled_eq_some filled.1
      obtain ⟨policy, chosen, built⟩ := Fallible.bind_eq_ok.mp built
      obtain ⟨base, wired, built⟩ := Fallible.bind_eq_ok.mp built
      cases built
      obtain ⟨issuer, audience, samePolicy, -⟩ := wireVerifier_ok wired
      refine ⟨?_, ?_, ?_, ?_⟩
      · show resolveIssuerUrl settings = some base.issuerUrl
        rw [issuer, resolveIssuerUrl, provider]
        exact issuerUrl
      · show configuredAudience settings = some base.audience
        rw [audience, configuredAudience, provider]
        exact isFilled_eq_some filled.2
      · show ConstructedFor allowed base.discovery.policy
        rw [samePolicy]
        exact chooseNetworkPolicy_constructed supplied own chosen
      · intro entra
        rw [provider] at entra
        cases entra
    · cases built

end Wiring

/-! ### The trust chain -/

/-- What one acceptance rests on. -/
structure TrustEvidence where
  metadata : OidcMetadata
  jwksOrigin : Origin
  rawKeys : List Json
  header : JsonObject
  kid : String
  algorithm : String
  entry : JsonObject
  reading : ℕ
  claims : JsonObject

variable [Clocks] [JsonGrammar] [UnicodeTables] [PyJwt] [PyRepr]

/-- **The chain is unbroken**, from the configuration and the responses in the log to the access token that
one call returns. The log is that of the state the call ended in, and the clock was read during the call. -/
structure TrustEvidence.Supports (evidence : TrustEvidence) (settings : Settings)
    (jwksAllowedOrigins : List String) (verifier : TokenVerifier) (called ended : OidcState)
    (token : String) (accessToken : AccessToken) : Prop where
  discovered : Discovered verifier.base.discovery ended.log evidence.metadata
  issuer : resolveIssuerUrl settings = some evidence.metadata.issuer
  origin : parseUrl evidence.metadata.jwksUri = .ok evidence.jwksOrigin
  originTrusted : parseUrl evidence.metadata.issuer = .ok evidence.jwksOrigin ∨
    ∃ rawOrigin ∈ jwksAllowedOrigins, parseUrl rawOrigin = .ok evidence.jwksOrigin
  fetched : ∃ outcome, .received .jwks evidence.metadata.jwksUri outcome ∈ ended.log ∧
    readRawKeys verifier.base.keyResolver.policy verifier.base.keyResolver.maxKeys.toNat outcome =
      .ok evidence.rawKeys
  header : PyJwt.unverifiedHeader token = some evidence.header
  headerKid : get evidence.header "kid" = .str evidence.kid
  headerAlgorithm : get evidence.header "alg" = .str evidence.algorithm
  unique : entriesWithKid evidence.kid evidence.rawKeys = [evidence.entry]
  fits : KeyFits evidence.entry evidence.algorithm
  verified : PyJwt.verifies token ⟨evidence.entry, evidence.algorithm⟩ evidence.algorithm = true
  claimIssuer : get evidence.claims "iss" = .str evidence.metadata.issuer
  claimAudience : ∃ audience, configuredAudience settings = some audience ∧
    NamesAudience (get evidence.claims "aud") audience
  readDuring : called.readings ≤ evidence.reading ∧ evidence.reading < ended.readings
  unexpired : ∃ expires, (get evidence.claims "exp").toInt = some expires ∧
    Clocks.wall evidence.reading < expires + clockSkewLeewaySeconds
  complete : ∀ name ∈ requiredClaims, get evidence.claims name ≠ .null
  tenant : settings.authProvider = .entra → ∃ tenantId, settings.entraTenantId = some tenantId ∧
    get evidence.claims "tid" = .str tenantId
  accepts : verifier.mode.Accepts verifier.base.audience token evidence.claims accessToken

/-- The verification calls of a server. -/
def verifierSystem (verifier : TokenVerifier) :
    System OidcState OidcWait OidcWait.Answer String (Except Raised (Option AccessToken)) :=
  oidcSystem verifier.verifyToken

/-- The state of a server before its first verification. -/
def TokenVerifier.initial (verifier : TokenVerifier) : OidcState :=
  .initial verifier.base.discovery verifier.base.keyResolver

/-- **A returned access token is accounted for**, with either adapter. -/
theorem tokenVerifier_trusted (verifier : TokenVerifier) (token : String) (started : ℕ) :
    Async.Meets (trustContract verifier.base.discovery verifier.base.keyResolver)
      (fun state => started ≤ state.readings)
      (fun accessToken state => ∀ accepted, accessToken = some accepted → ∃ claims,
        DecodedClaims verifier.base token started state claims ∧
          verifier.mode.Accepts verifier.base.audience token claims accepted)
      (verifier.verifyToken token) := by
  cases verifier with
  | generic verifier =>
    refine (verifyToken_trusted verifier token).weaken (fun _ => id) fun accessToken state known => ?_
    intro accepted isAccepted
    obtain ⟨claims, decoded, built⟩ := known accepted isAccepted
    exact ⟨claims, decoded, accepted, built, rfl⟩
  | entra verifier =>
    refine (verifyToken_trusted verifier.delegate token).bind fun accessToken => ?_
    refine .pure fun state _ known accepted isAccepted => ?_
    obtain ⟨built, isBuilt, normalizes⟩ := Option.bind_eq_some_iff.mp isAccepted
    obtain ⟨claims, decoded, builds⟩ := known built isBuilt
    exact ⟨claims, decoded, built, builds, normalizes⟩

/-- **A call of a run accounts for what it returns**, with the responses and a clock reading it can see. -/
theorem callSpan_trusted (verifier : TokenVerifier) {schedule : List (Action OidcWait OidcWait.Answer String)}
    {token : String} {accessToken : AccessToken}
    (call : CallSpan (verifierSystem verifier) ⟨verifier.initial, []⟩ schedule token (.ok (some accessToken))) :
    ∃ claims, DecodedClaims verifier.base token call.called.shared.readings call.ended.shared claims ∧
      verifier.mode.Accepts verifier.base.audience token claims accessToken := by
  have meets := @System.meets_of_calls _ _ OidcWait.Answer _ _ _
    (trustContract verifier.base.discovery verifier.base.keyResolver) verifier.verifyToken (fun _ _ _ => True)
    fun token => (tokenVerifier_trusted verifier token 0).weaken (fun _ _ => Nat.zero_le _) fun _ _ _ => trivial
  have start : Provenance verifier.base.discovery verifier.base.keyResolver verifier.initial := by
    refine ⟨fun entry member => ?_, fun entry member => ?_⟩ <;> cases member
  obtain ⟨state, grows, known⟩ := call.holds meets ⟨start, fun _ member => by cases member⟩
    (fun outcome state => ∀ result, outcome = Except.ok result → ∀ accepted, result = some accepted → ∃ claims,
      DecodedClaims verifier.base token call.called.shared.readings state claims ∧
        verifier.mode.Accepts verifier.base.audience token claims accepted)
    fun kept => (tokenVerifier_trusted verifier token call.called.shared.readings).program kept (le_refl _)
  obtain ⟨claims, decoded, accepts⟩ := known _ rfl accessToken rfl
  exact ⟨claims, decoded.mono grows, accepts⟩

/-- **Every accepted token has an unbroken trust chain**, whatever the schedule and the responses. -/
theorem acceptedToken_trustChain (documented : DecodeDocumented) {settings : Settings}
    {networkPolicy : Option OidcNetworkSecurityPolicy} {jwksAllowedOrigins : List String}
    (supplied : ∀ policy, networkPolicy = some policy → ConstructedFor jwksAllowedOrigins policy)
    (own : networkPolicy = none → jwksAllowedOrigins = jwksAllowlist settings)
    {verifier : TokenVerifier} (built : buildTokenVerifier settings networkPolicy = .ok verifier)
    {schedule : List (Action OidcWait OidcWait.Answer String)}
    {pool : Pool OidcState OidcWait OidcWait.Answer String (Except Raised (Option AccessToken))}
    (ran : (verifierSystem verifier).run ⟨verifier.initial, []⟩ schedule = some pool)
    {token : String} {accessToken : AccessToken}
    (returned : (token, .done (.ok (some accessToken))) ∈ pool.tasks) :
    ∃ (call : CallSpan (verifierSystem verifier) ⟨verifier.initial, []⟩ schedule token
        (.ok (some accessToken))) (evidence : TrustEvidence),
      evidence.Supports settings jwksAllowedOrigins verifier call.called.shared call.ended.shared token
        accessToken := by
  obtain ⟨issuer, audience, constructed, tenant⟩ := buildTokenVerifier_ok supplied own built
  obtain ⟨policyIssuer, insecure, dns, http, discoveryMax, jwksMax, init⟩ := constructed
  obtain ⟨samePolicyIssuer, issuerParses, origins⟩ := init_trusts init
  -- The call: it accounts for its result.
  obtain ⟨call⟩ := exists_callSpan ran rfl returned
  obtain ⟨claims, decoded, accepts⟩ := callSpan_trusted verifier call
  obtain ⟨metadata, key, reading, ⟨discovered, sameIssuer⟩, resolved, from', read, decodes⟩ := decoded
  -- The key: the one entry with the header's `kid`.
  obtain ⟨header, kid, algorithm, keys, isHeader, isKid, isAlgorithm, fetched, compatible⟩ := resolved
  obtain ⟨headerAlgorithm, accepted⟩ := acceptedAlgorithm_eq_some isAlgorithm
  obtain ⟨entry, found, rfl, fits⟩ := compatibleKey_eq_some accepted compatible
  obtain ⟨outcome, recorded, reads⟩ := fetched
  obtain ⟨rawKeys, readsRaw, indexed⟩ := Fallible.bind_eq_ok.mp reads
  -- The claims: what `jwt.decode` checked.
  have checked := documented _ _ _ _ _ _ _ _ _ decodes
  obtain ⟨header', algorithm', isHeader', headerAlgorithm', -, verified⟩ := checked.signed
  rw [isHeader, Option.some.injEq] at isHeader'
  subst isHeader'
  rw [headerAlgorithm, Json.str.injEq] at headerAlgorithm'
  subst headerAlgorithm'
  -- The metadata: bound to the policy.
  obtain ⟨metadataIssuer, trusted⟩ : metadata.issuer = verifier.base.discovery.policy.issuerUrl ∧
      verifier.base.discovery.policy.assertJwksUriTrusted metadata.jwksUri = .ok () := by
    obtain ⟨_, -, readsMetadata⟩ := discovered
    exact readMetadata_trusted readsMetadata
  obtain ⟨origin, parses, member⟩ := assertJwksUriTrusted_origin trusted
  refine ⟨call, ⟨metadata, origin, rawKeys, header, kid, algorithm, entry, reading, claims⟩, ?_⟩
  exact
    { discovered := discovered
      issuer := by rw [issuer, sameIssuer, metadataIssuer]
      origin := parses
      originTrusted := by
        rcases origins origin member with rfl | allowlisted
        · refine Or.inl ?_
          show parseUrl metadata.issuer = _
          rw [metadataIssuer, samePolicyIssuer]
          exact issuerParses
        · exact Or.inr allowlisted
      fetched := ⟨outcome, recorded, readsRaw⟩
      header := isHeader
      headerKid := (usableKid_eq_some.mp isKid).1
      headerAlgorithm := headerAlgorithm
      unique := (indexKeys_lookup indexed found).1
      fits := fits
      verified := verified
      claimIssuer := checked.sameIssuer
      claimAudience := ⟨_, audience, checked.sameAudience⟩
      readDuring := ⟨from', read⟩
      unexpired := checked.unexpired (checked.present "exp" (by decide))
      complete := checked.present
      tenant := by
        intro entra
        obtain ⟨tenantId, applicationIdUri, mode, isTenant⟩ := tenant entra
        rw [mode] at accepts
        exact ⟨tenantId, isTenant, accepts.tenant⟩
      accepts := accepts }

/-- One verification with the issuer's documents. -/
def issuerSchedule : List (Action OidcWait OidcWait.Answer String) :=
  let network := networkAnswer (jsonResponse (discoveryText issuerJwksUri)) (jsonResponse keysText)
  [.spawn issuerToken, .resume 0 network, .resume 0 network]

/-- The task returned an access token. -/
def returnedToken (task : String × Process OidcState OidcWait OidcWait.Answer
    (Except Raised (Option AccessToken))) : Bool :=
  match task.2 with
  | .done (.ok (some _)) => task.1 == issuerToken
  | _ => false

omit [Clocks] [JsonGrammar] [UnicodeTables] [PyJwt] [PyRepr] in
theorem exists_of_returnedToken {tasks : List (String × Process OidcState OidcWait OidcWait.Answer
    (Except Raised (Option AccessToken)))} (returned : tasks.any returnedToken = true) :
    ∃ accessToken, (issuerToken, .done (.ok (some accessToken))) ∈ tasks := by
  obtain ⟨⟨token, task⟩, member, isReturned⟩ := List.any_eq_true.mp returned
  unfold returnedToken at isReturned
  split at isReturned
  · rename_i accessToken isTask
    have same : token = issuerToken := beq_iff_eq.mp isReturned
    cases isTask
    exact ⟨accessToken, same ▸ member⟩
  · cases isReturned

omit [Clocks] [JsonGrammar] [UnicodeTables] [PyJwt] [PyRepr] in
theorem issuerVerifier_built :
    let _ := asciiTables
    buildTokenVerifier (genericSettings []) = .ok (.generic issuerVerifier) := by
  intro _
  have policy : chooseNetworkPolicy (genericSettings []) none "https://issuer.example" =
      .ok issuerPolicy := Fallible.mapError_eq_ok.mpr issuerPolicy_init
  have filled : isFilled (genericSettings []).genericIssuerUrl = true ∧
      isFilled (genericSettings []).genericAudience = true := by decide
  have provider : (genericSettings []).authProvider = .generic := rfl
  unfold buildTokenVerifier
  rw [provider]
  dsimp only
  rw [if_pos filled]
  refine Fallible.bind_eq_ok.mpr ⟨issuerPolicy, policy, ?_⟩
  exact Fallible.bind_eq_ok.mpr ⟨issuerVerifier, rfl, rfl⟩

omit [Clocks] [JsonGrammar] [UnicodeTables] [PyJwt] [PyRepr] in
theorem acceptedToken_trustChain_issuer :
    let _ := plainRepr
    let _ := asciiTables
    let _ := issuerJwt
    let _ := issuerGrammar
    let _ := stoppedClocks
    ∃ pool accessToken,
      (verifierSystem (.generic issuerVerifier)).run ⟨(TokenVerifier.generic issuerVerifier).initial, []⟩
        issuerSchedule = some pool ∧
      (issuerToken, .done (.ok (some accessToken))) ∈ pool.tasks ∧
      ∃ (call : CallSpan (verifierSystem (.generic issuerVerifier))
          ⟨(TokenVerifier.generic issuerVerifier).initial, []⟩ issuerSchedule issuerToken
          (.ok (some accessToken))) (evidence : TrustEvidence),
        evidence.Supports (genericSettings []) [] (.generic issuerVerifier) call.called.shared
          call.ended.shared issuerToken accessToken := by
  intro _ _ _ _ _
  have evaluated : ((verifierSystem (.generic issuerVerifier)).run
      ⟨(TokenVerifier.generic issuerVerifier).initial, []⟩ issuerSchedule).any
        (fun pool => pool.tasks.any returnedToken) = true := by decide +kernel
  obtain ⟨pool, ran, returned⟩ := (Option.any_eq_true _ _).mp evaluated
  obtain ⟨accessToken, member⟩ := exists_of_returnedToken returned
  exact ⟨pool, accessToken, ran, member, @acceptedToken_trustChain _ _ _ _ _ issuerJwt_documented _ none []
    (fun _ none => by cases none) (fun _ => rfl) _ issuerVerifier_built _ _ ran _ _ member⟩

end McpAuth
