/-
**The startup constructors on accepted settings.**

The validator of the settings and the constructors that `build_server` and `_build_streamable_http_app`
call at startup read the same URLs and identifiers by different rules. `StartsUp` says that the constructors
return; `Servable` is what they ask of the free-text fields beyond the production profile: no backslash, no
control character and an encodable hostname in the URLs of the generic provider, scope-token characters in
the application id URI of Entra.

`startupConstructors_iff`: on settings accepted for production each constructor returns exactly when what it reads
is servable. `production_startsUp_iff`: they start up exactly when they are servable.
-/

import McpAuth.Adapters.DiscoveryUrl
import McpAuth.Entrypoints.Server

namespace McpAuth

open PyText PyNumbers UrlSplit UrlText

section Startup

variable [UnicodeTables]

/-! ### Transport security -/

/-- The fields of the SDK's `TransportSecuritySettings`. -/
structure TransportSecuritySettings where
  enableDnsRebindingProtection : Bool
  allowedHosts : List String
  allowedOrigins : List String

/-- The exceptions of `_transport_authority`. -/
inductive TransportAuthorityError
  | value (message : String)
  | runtime (message : String)

/-- `_deduplicate`. -/
def deduplicate (values : List String) : List String := values.eraseDups

/-- The hosts and the origins of one authority. -/
def authorityValues (scheme wireHost : String) (port : Option Nat) : List String × List String :=
  let defaultPort := if scheme = "https" then 443 else 80
  match port with
  | none =>
    ([wireHost, wireHost ++ ":" ++ toString defaultPort], [scheme ++ "://" ++ wireHost])
  | some port =>
    let authority := wireHost ++ ":" ++ toString port
    if port = defaultPort then
      ([wireHost, authority], [scheme ++ "://" ++ wireHost, scheme ++ "://" ++ authority])
    else ([authority], [scheme ++ "://" ++ authority])

/-- `_transport_authority`. -/
def transportAuthority (settings : Settings) :
    Except TransportAuthorityError (List String × List String) :=
  match urlsplit settings.resourceServerUrl.text with
  | none => .error (.value "Invalid URL")
  | some parsed => match parsed.hostname with
    | none => .error (.runtime "resource_server_url has no host")
    | some host =>
      let wireHost := if ':' ∈ host.toList then "[" ++ host ++ "]" else host
      match parsed.port with
      | none => .error (.value "Port out of range 0-65535")
      | some port => .ok (authorityValues parsed.scheme wireHost port)

/-- `_build_transport_security`. -/
def buildTransportSecurity (settings : Settings) :
    Except TransportAuthorityError TransportSecuritySettings := do
  let (defaultHosts, defaultOrigins) ← transportAuthority settings
  .ok
    { enableDnsRebindingProtection := true
      allowedHosts := deduplicate (defaultHosts ++ settings.transportAllowedHosts)
      allowedOrigins := deduplicate (defaultOrigins ++ settings.transportAllowedOrigins) }

/-- The port of a URL that pydantic has read is a number below 65536. -/
def PortReads (url : AnyHttpUrl) : Prop :=
  ∀ parsed, urlsplit url.text = some parsed → parsed.port.isSome

/-! ### What the startup needs -/

/-- **The startup constructors return.** -/
structure StartsUp (settings : Settings) : Prop where
  networkPolicy : ∃ issuerUrl policy, resolveIssuerUrl settings = some issuerUrl ∧
    buildOidcNetworkPolicy settings issuerUrl = .ok policy
  toolAuthorizer : ∃ authorizer, buildToolAuthorizer settings none = .ok authorizer
  transportSecurity : ∃ security, buildTransportSecurity settings = .ok security

/-- A hostname without a zone that the codec encodes, and whose encoding it encodes again. -/
structure ServableHost (hostname : String) : Prop where
  nonempty : hostname ≠ ""
  noZone : '%' ∉ hostname.toList
  encodes : ∃ encoded, idnaEncode hostname = some encoded ∧
    '%' ∉ (rstripChar '.' (lower encoded)).toList ∧
    (idnaEncode (rstripChar '.' (lower encoded))).isSome

/-- A URL of visible characters with a servable host. -/
structure ServableUrl (url : String) : Prop where
  printable : ∀ char ∈ url.toList, char ≠ '\\' ∧ 0x20 ≤ char.toNat
  host : ∀ parsed hostname, urlsplit url = some parsed → parsed.hostname = some hostname →
    ServableHost hostname

/-- **What the constructors ask of the free-text fields** beyond the production profile. -/
def Servable (settings : Settings) : Prop :=
  match settings.authProvider with
  | .generic => ∀ url ∈ settings.genericIssuerUrl.toList ++ settings.genericJwksAllowedOrigins,
    ServableUrl url
  | .entra => ∀ applicationIdUri ∈ settings.entraApplicationIdUri,
    isValidOauthScopeToken applicationIdUri = true

/-- The free-text URLs that the network policy is built from. -/
def Settings.trustedUrls (settings : Settings) : List String :=
  match settings.authProvider with
  | .generic => settings.genericIssuerUrl.toList ++ settings.genericJwksAllowedOrigins
  | .entra => []

/-- The URI that the tool authorizer puts in front of scopes. -/
def Settings.qualifyingUri (settings : Settings) : Option String :=
  match settings.authProvider with
  | .generic => none
  | .entra => settings.entraApplicationIdUri

/-- What is asked of the free-text fields, by the constructor that reads them. -/
theorem servable_iff {settings : Settings} :
    Servable settings ↔ (∀ url ∈ settings.trustedUrls, ServableUrl url) ∧
      ∀ applicationIdUri ∈ settings.qualifyingUri, isValidOauthScopeToken applicationIdUri = true := by
  unfold Servable Settings.trustedUrls Settings.qualifyingUri
  cases settings.authProvider with
  | generic => simp
  | entra => simp

/-! ### The policy registry -/

omit [UnicodeTables] in
/-- One scope makes a policy exactly when it is a scope-token. -/
theorem scopePolicy_ok_iff {kind : ToolPolicyKind} (byScopes : kind ≠ .authenticated) {scope : String}
    (nonempty : scope ≠ "") :
    (∃ policy, (scopePermissions [scope] >>= ToolPolicy.init kind) = .ok policy) ↔
      isValidOauthScopeToken scope = true := by
  have permissions : permissionsOf [scope] = .ok {scope} := by
    simp [permissionsOf, nonempty]
  unfold scopePermissions
  rw [permissions]
  cases valid : isValidOauthScopeToken scope with
  | false => simp [bind, Except.bind, sorted_singleton, valid]
  | true => simp [bind, Except.bind, sorted_singleton, valid, ToolPolicy.init, byScopes]

omit [UnicodeTables] in
theorem delegatedScopes_ok_iff {scope : String} (nonempty : scope ≠ "") :
    (∃ policy, ToolPolicy.delegatedScopes [scope] = .ok policy) ↔ isValidOauthScopeToken scope = true :=
  scopePolicy_ok_iff (by decide) nonempty

omit [UnicodeTables] in
theorem qualifyScope_healthScope (applicationIdUri : String) :
    qualifyScope applicationIdUri healthScope = rstripChar '/' applicationIdUri ++ "/" ++ healthScope :=
  if_neg (by decide)

omit [UnicodeTables] in
/-- **The health scope under a resource URI** is a scope-token exactly when the URI is. -/
theorem qualified_isValid_iff {applicationIdUri : String} :
    isValidOauthScopeToken (qualifyScope applicationIdUri healthScope) = true ↔
      isValidOauthScopeToken applicationIdUri = true := by
  have scopeChars : ∀ char ∈ healthScope.toList, isScopeTokenChar char = true := by decide
  simp only [qualifyScope_healthScope, isValidOauthScopeToken, List.all_eq_true, String.toList_append,
    rstripChar, String.toList_ofList]
  constructor
  · intro tokens char member
    rw [← List.rdropWhile_append_rtakeWhile (p := fun other => other == '/') (l := applicationIdUri.toList)]
      at member
    rcases List.mem_append.mp member with kept | stripped
    · exact tokens char (List.mem_append_left _ (List.mem_append_left _ kept))
    · have slash : char = '/' := by simpa using List.mem_rtakeWhile_imp stripped
      rw [slash]
      decide
  · intro tokens char member
    rcases List.mem_append.mp member with prefixed | scope
    · rcases List.mem_append.mp prefixed with kept | slash
      · exact tokens char ((List.rdropWhile_prefix _ _).subset kept)
      · have isSlash : char = '/' := by simpa using slash
        rw [isSlash]
        decide
    · exact scopeChars char scope

omit [UnicodeTables] in
/-- Qualifying the health scope gives that one scope. -/
theorem qualifyScopes_healthScope (applicationIdUri : String) :
    qualifyScopes [healthScope] applicationIdUri = [qualifyScope applicationIdUri healthScope] := by
  have nonempty : (healthScope ≠ "") = True := eq_true (by decide)
  simp [qualifyScopes, nonempty]

omit [UnicodeTables] in
/-- **The registry of the template under Entra** is built exactly under a URI of scope-token characters. -/
theorem buildToolAuthorizer_entra_iff {settings : Settings} {applicationIdUri : String}
    (entra : settings.authProvider = .entra) (filled : settings.entraApplicationIdUri = some applicationIdUri) :
    (∃ authorizer, buildToolAuthorizer settings none = .ok authorizer) ↔
      isValidOauthScopeToken applicationIdUri = true := by
  obtain ⟨health, isHealth⟩ := (delegatedScopes_ok_iff (by decide : healthScope ≠ "")).mpr (by decide)
  have kind : health.kind = .delegatedScopes ∧ health.permissions = {healthScope} := by
    obtain ⟨permissions, collected, built⟩ := Fallible.bind_eq_ok.mp isHealth
    obtain ⟨kind, same⟩ := init_permissions built
    refine ⟨kind, ?_⟩
    rw [same]
    have collected' : scopePermissions [healthScope] = .ok {healthScope} := by decide +kernel
    rw [collected'] at collected
    cases collected
    rfl
  have registry : defaultPolicies .entra =
      .ok [("whoami", ToolPolicy.authenticated), ("health", health)] := by
    simp only [defaultPolicies, isHealth]
    rfl
  have effective : effectivePolicy applicationIdUri health =
      ToolPolicy.delegatedScopes [qualifyScope applicationIdUri healthScope] := by
    simp only [effectivePolicy, kind.1, kind.2, sorted_singleton, qualifyScopes_healthScope]
  have nonempty : qualifyScope applicationIdUri healthScope ≠ "" := by
    intro empty
    have chars := congrArg String.toList empty
    rw [qualifyScope_healthScope, String.toList_append, String.toList_append] at chars
    simp at chars
  rw [← qualified_isValid_iff, ← delegatedScopes_ok_iff nonempty, ← effective]
  simp only [buildToolAuthorizer, entra, filled, registry]
  constructor
  · rintro ⟨authorizer, built⟩
    obtain ⟨registry, same, built⟩ := Fallible.bind_eq_ok.mp built
    cases same
    obtain ⟨entries, collected, -⟩ := Fallible.bind_eq_ok.mp built
    obtain ⟨entry, converted⟩ := Fallible.exists_mapM_eq_ok.mp ⟨entries, collected⟩ ("health", health) (by simp)
    obtain ⟨policy, built, -⟩ := Fallible.bind_eq_ok.mp converted
    exact ⟨policy, built⟩
  · rintro ⟨policy, built⟩
    have converts : ∀ entry ∈ [("whoami", ToolPolicy.authenticated), ("health", health)],
        ∃ result, effectiveEntry applicationIdUri entry = .ok result := by
      intro entry member
      rcases List.mem_cons.mp member with rfl | later
      · exact ⟨_, rfl⟩
      · rw [List.mem_singleton] at later
        subst later
        exact ⟨("health", policy), Fallible.bind_eq_ok.mpr ⟨policy, built, rfl⟩⟩
    obtain ⟨entries, collected⟩ := Fallible.exists_mapM_eq_ok.mpr converts
    exact ⟨⟨entries⟩, Fallible.bind_eq_ok.mpr ⟨_, rfl, Fallible.bind_eq_ok.mpr ⟨entries, collected, rfl⟩⟩⟩

/-! ### The URLs of the generic provider -/

theorem normalizeHost_ok_iff {host normalized : String} :
    normalizeHost host = .ok normalized ↔
      '%' ∉ host.toList ∧ ∃ encoded, idnaEncode host = some encoded ∧
        rstripChar '.' (lower encoded) = normalized := by
  unfold normalizeHost
  by_cases zone : '%' ∈ host.toList
  · simp [zone]
  · cases idnaEncode host with
    | none => simp [zone]
    | some encoded => simp [zone]

/-- What the production profile has read off a URL. -/
structure CheckedUrl (url : String) (parsed : SplitResult) : Prop where
  split : urlsplit url = some parsed
  port : parsed.port.isSome
  scheme : parsed.scheme = "https"
  host : parsed.hostname.isSome
  noUserinfo : hasNoUserinfo parsed = true
  noQuery : parsed.query = ""
  noFragment : parsed.fragment = ""

theorem lower_https : lower "https" = "https" := by
  have ascii : IsAsciiText "https" := by decide
  rw [lower, if_pos ascii]
  decide

/-- **Checked URLs are parsed, and their origin is built again, exactly when they are servable.** -/
theorem CheckedUrl.parses_iff {url : String} {parsed : SplitResult} (checked : CheckedUrl url parsed) :
    (∃ origin normalized, parseUrl url = .ok origin ∧ origin.scheme = "https" ∧
      originForInit origin = .ok normalized) ↔ ServableUrl url := by
  obtain ⟨hostname, isHostname⟩ := Option.isSome_iff_exists.mp checked.host
  constructor
  · rintro ⟨origin, normalized, parses, -, builds⟩
    obtain ⟨parsed', facts⟩ := parseUrl_ok_iff.mp parses
    obtain ⟨_, isHost, nonempty, once⟩ := facts.host
    have same := facts.split
    rw [checked.split, Option.some.injEq] at same
    subst same
    rw [isHostname, Option.some.injEq] at isHost
    subst isHost
    obtain ⟨noZone, encoded, encodes, isStripped⟩ := normalizeHost_ok_iff.mp once
    obtain ⟨again, twice, -⟩ := Fallible.bind_eq_ok.mp (Fallible.mapError_eq_ok.mp builds)
    obtain ⟨noZone', encoded', encodes', -⟩ := normalizeHost_ok_iff.mp twice
    rw [← isStripped] at noZone' encodes'
    constructor
    · intro char member
      obtain ⟨noBackslash, noControl⟩ := not_or.mp facts.printable
      refine ⟨fun backslash => noBackslash (backslash ▸ member), ?_⟩
      by_contra control
      exact noControl (List.any_eq_true.mpr ⟨char, member, by simpa using control⟩)
    · intro other hostname' split hasHost
      rw [checked.split, Option.some.injEq] at split
      subst split
      rw [isHostname, Option.some.injEq] at hasHost
      subst hasHost
      exact ⟨nonempty, noZone, encoded, encodes, noZone', Option.isSome_iff_exists.mpr ⟨_, encodes'⟩⟩
  · intro servable
    obtain ⟨nonempty, noZone, encoded, encodes, noZone', encodes'⟩ := servable.host parsed hostname checked.split isHostname
    obtain ⟨encoded', encodes'⟩ := Option.isSome_iff_exists.mp encodes'
    obtain ⟨explicitPort, hasPort⟩ := Option.isSome_iff_exists.mp checked.port
    obtain ⟨port, isPort⟩ : ∃ port, portOrDefault explicitPort "https" = .ok port := by
      cases explicitPort with
      | none => exact ⟨443, rfl⟩
      | some port =>
        by_cases zero : port = 0
        · exact ⟨443, by rw [portOrDefault, if_pos zero]; rfl⟩
        · exact ⟨port, by rw [portOrDefault, if_neg zero]⟩
    have once : normalizeHost hostname = .ok (rstripChar '.' (lower encoded)) :=
      normalizeHost_ok_iff.mpr ⟨noZone, encoded, encodes, rfl⟩
    have twice : normalizeHost (rstripChar '.' (lower encoded)) = .ok (rstripChar '.' (lower encoded')) :=
      normalizeHost_ok_iff.mpr ⟨noZone', encoded', encodes', rfl⟩
    obtain ⟨noUsername, noPassword⟩ := Bool.and_eq_true_iff.mp checked.noUserinfo
    refine ⟨⟨"https", rstripChar '.' (lower encoded), port⟩, ⟨"https", rstripChar '.' (lower encoded'), port⟩,
      parseUrl_ok_iff.mpr ⟨parsed, ?_⟩, rfl, ?_⟩
    · refine ⟨?_, checked.split, ?_, Or.inr rfl, ⟨explicitPort, hasPort, isPort⟩,
        ⟨hostname, isHostname, nonempty, once⟩, ?_, checked.noFragment⟩
      · rintro (backslash | control)
        · exact (servable.printable _ backslash).1 rfl
        · obtain ⟨char, member, isControl⟩ := List.any_eq_true.mp control
          have printable := (servable.printable char member).2
          have below : char.toNat < 0x20 := by simpa using isControl
          omega
      · rw [checked.scheme, lower_https]
      · simp only [Option.isNone_iff_eq_none] at noUsername noPassword
        simp [noUsername, noPassword]
    · exact Fallible.mapError_eq_ok.mpr (Fallible.bind_eq_ok.mpr ⟨_, twice, rfl⟩)

/-! ### The production profile -/

/-- What the production profile guarantees of the settings. -/
structure ProductionFacts (settings : Settings) : Prop where
  strict : settings.oidcAllowInsecureLoopback = false
  host : ∃ resource hostname, urlsplit settings.resourceServerUrl.text = some resource ∧
    resource.hostname = some hostname
  generic : settings.authProvider = .generic →
    (∃ issuer, CheckedUrl (settings.genericIssuerUrl.getD "") issuer) ∧
      ∀ origin ∈ settings.genericJwksAllowedOrigins, ∃ parsed, CheckedUrl origin parsed ∧ parsed.path = ""

theorem validateProductionJwksOrigin_ok {origin : String}
    (accepted : validateProductionJwksOrigin origin = .ok ()) :
    ∃ parsed, CheckedUrl origin parsed ∧ parsed.path = "" := by
  unfold validateProductionJwksOrigin at accepted
  obtain ⟨parsed, split, accepted⟩ := Fallible.bind_eq_ok.mp accepted
  obtain ⟨_, port, accepted⟩ := Fallible.bind_eq_ok.mp accepted
  obtain ⟨_, exact', -⟩ := Fallible.bind_eq_ok.mp accepted
  rw [splitOrRaise_eq_ok] at split
  rw [ensure_eq_ok] at port exact'
  simp only [isBareAuthority, Bool.and_eq_true, beq_iff_eq] at exact'
  obtain ⟨⟨scheme, host⟩, ⟨⟨noUserinfo, path⟩, noQuery⟩, noFragment⟩ := exact'
  exact ⟨parsed, ⟨split, port, scheme, host, noUserinfo, noQuery, noFragment⟩, path⟩

theorem validateProductionGeneric_ok {settings : Settings}
    (accepted : validateProductionGeneric settings = .ok ()) :
    (∃ issuer, CheckedUrl (settings.genericIssuerUrl.getD "") issuer) ∧
      ∀ origin ∈ settings.genericJwksAllowedOrigins, ∃ parsed, CheckedUrl origin parsed ∧ parsed.path = "" := by
  unfold validateProductionGeneric at accepted
  obtain ⟨issuer, split, accepted⟩ := Fallible.bind_eq_ok.mp accepted
  obtain ⟨_, port, accepted⟩ := Fallible.bind_eq_ok.mp accepted
  obtain ⟨_, absolute, accepted⟩ := Fallible.bind_eq_ok.mp accepted
  obtain ⟨_, -, accepted⟩ := Fallible.bind_eq_ok.mp accepted
  obtain ⟨_, -, accepted⟩ := Fallible.bind_eq_ok.mp accepted
  obtain ⟨_, -, accepted⟩ := Fallible.bind_eq_ok.mp accepted
  rw [splitOrRaise_eq_ok] at split
  rw [ensure_eq_ok] at port absolute
  simp only [Bool.and_eq_true, beq_iff_eq] at absolute
  obtain ⟨⟨⟨⟨scheme, host⟩, noUserinfo⟩, noQuery⟩, noFragment⟩ := absolute
  refine ⟨⟨issuer, split, port, scheme, host, noUserinfo, noQuery, noFragment⟩, fun origin member => ?_⟩
  exact validateProductionJwksOrigin_ok (Fallible.forM_eq_ok.mp accepted origin member)

/-- **Accepted production settings** have these facts behind them. -/
theorem productionFacts {settings : Settings} (production : settings.appEnv = .production)
    (accepted : validateProductionProfile settings = .ok ()) : ProductionFacts settings := by
  unfold validateProductionProfile at accepted
  rw [if_neg (not_not.mpr production)] at accepted
  obtain ⟨resource, split, accepted⟩ := Fallible.bind_eq_ok.mp accepted
  obtain ⟨_, -, accepted⟩ := Fallible.bind_eq_ok.mp accepted
  obtain ⟨_, named, accepted⟩ := Fallible.bind_eq_ok.mp accepted
  obtain ⟨_, strict, accepted⟩ := Fallible.bind_eq_ok.mp accepted
  obtain ⟨_, -, accepted⟩ := Fallible.bind_eq_ok.mp accepted
  rw [splitOrRaise_eq_ok] at split
  rw [ensure_eq_ok] at named strict
  refine ⟨by simpa using strict, ?_, fun generic => ?_⟩
  · cases isHostname : resource.hostname with
    | none =>
      rw [isHostname] at named
      cases named
    | some hostname => exact ⟨resource, hostname, split, isHostname⟩
  · rw [generic] at accepted
    exact validateProductionGeneric_ok accepted

/-- **The transport allowlists are built** for a resource URL with a host and a port that reads. -/
theorem exists_transportSecurity {settings : Settings} (facts : ProductionFacts settings)
    (port : PortReads settings.resourceServerUrl) :
    ∃ security, buildTransportSecurity settings = .ok security := by
  obtain ⟨resource, hostname, split, isHostname⟩ := facts.host
  obtain ⟨explicitPort, hasPort⟩ := Option.isSome_iff_exists.mp (port resource split)
  have authority : ∃ values, transportAuthority settings = .ok values := by
    simp only [transportAuthority, split, isHostname, hasPort]
    exact ⟨_, rfl⟩
  obtain ⟨values, built⟩ := authority
  exact ⟨_, Fallible.bind_eq_ok.mpr ⟨values, built, rfl⟩⟩

/-! ### The network policy -/

theorem init_https_iff {issuerUrl : String} {issuer : SplitResult} {jwksAllowedOrigins : List String}
    (checked : CheckedUrl issuerUrl issuer)
    (origins : ∀ origin ∈ jwksAllowedOrigins, ∃ parsed, CheckedUrl origin parsed ∧ parsed.path = "") :
    (∃ policy, OidcNetworkSecurityPolicy.init issuerUrl false jwksAllowedOrigins = .ok policy) ↔
      ∀ url ∈ issuerUrl :: jwksAllowedOrigins, ServableUrl url := by
  have allows : ∀ origin ∈ jwksAllowedOrigins,
      (∃ allowed, allowedOrigin false origin = .ok allowed) ↔ ServableUrl origin := by
    intro origin member
    obtain ⟨parsed, isChecked, path⟩ := origins origin member
    rw [← isChecked.parses_iff]
    constructor
    · rintro ⟨allowed, built⟩
      obtain ⟨parsedOrigin, parses, built⟩ := Fallible.bind_eq_ok.mp built
      have parses' := Fallible.mapError_eq_ok.mp parses
      obtain ⟨_, facts⟩ := parseUrl_ok_iff.mp parses'
      have same := facts.split
      rw [isChecked.split, Option.some.injEq] at same
      subst same
      have scheme : parsedOrigin.scheme = "https" := by
        rw [facts.scheme, isChecked.scheme, lower_https]
      simp only [isChecked.split, path, isChecked.noQuery, scheme] at built
      simp only [ne_eq, not_true_eq_false, false_and, or_self, if_false] at built
      exact ⟨parsedOrigin, allowed, parses', scheme, built⟩
    · rintro ⟨parsedOrigin, normalized, parses, scheme, builds⟩
      refine ⟨normalized, Fallible.bind_eq_ok.mpr ⟨parsedOrigin, Fallible.mapError_eq_ok.mpr parses, ?_⟩⟩
      simp only [isChecked.split, path, isChecked.noQuery, scheme]
      simpa using builds
  rw [List.forall_mem_cons, ← checked.parses_iff]
  constructor
  · rintro ⟨policy, built⟩
    obtain ⟨issuerOrigin, normalized, parsed, allowed, facts, -⟩ := init_ok_iff.mp built
    refine ⟨⟨issuerOrigin, normalized, facts.parsed, ?_, facts.isOrigin⟩, fun origin member => ?_⟩
    · exact facts.secure.resolve_right Bool.false_ne_true
    · exact (allows origin member).mp (Fallible.exists_mapM_eq_ok.mp ⟨allowed, facts.allows⟩ origin member)
  · rintro ⟨⟨issuerOrigin, normalized, parses, scheme, builds⟩, servable⟩
    obtain ⟨allowed, collected⟩ := Fallible.exists_mapM_eq_ok.mpr fun origin member =>
      (allows origin member).mpr (servable origin member)
    exact ⟨_, init_ok_iff.mpr ⟨issuerOrigin, normalized, issuer, allowed,
      ⟨by decide +kernel, by decide, parses, Or.inl scheme, checked.split, checked.noQuery, builds, collected⟩, rfl⟩⟩

/-! ### The issuer of an Entra tenant -/

/-- The parts of the issuer URL of a tenant. -/
def entraIssuerParts (tenantId : String) : UrlParts where
  scheme := "https".toList
  netloc := "login.microsoftonline.com".toList
  tail := '/' :: (tenantId.toList ++ "/v2.0".toList)
  scheme_free := by decide
  netloc_free := by decide
  tail_starts := by
    intro char isHead
    cases isHead
    rfl

/-- What a parser reads off the authority of Entra. -/
structure EntraAuthority (parsed : SplitResult) : Prop where
  hostinfo : parsed.hostinfo = ("login.microsoftonline.com".toList, [])
  noUserinfo : hasNoUserinfo parsed = true

omit [UnicodeTables] in
theorem entraAuthority {parsed : SplitResult} (netloc : parsed.netloc = "login.microsoftonline.com") :
    EntraAuthority parsed := by
  constructor
  · rw [SplitResult.hostinfo, netloc]
    decide +kernel
  · rw [hasNoUserinfo, SplitResult.username, SplitResult.password, netloc]
    decide +kernel

theorem EntraAuthority.hostname {parsed : SplitResult} (authority : EntraAuthority parsed) :
    parsed.hostname = some "login.microsoftonline.com" := by
  have ascii : IsAsciiText (String.ofList (before '%' "login.microsoftonline.com".toList)) := by decide +kernel
  simp only [SplitResult.hostname, authority.hostinfo]
  rw [if_neg (by decide), lower, if_pos ascii]
  decide +kernel

/-- The host of Entra is its own encoding. -/
theorem servableHost_entra : ServableHost "login.microsoftonline.com" := by
  have ascii : IsAsciiText "login.microsoftonline.com" := by decide +kernel
  have encodes : idnaEncode "login.microsoftonline.com" = some "login.microsoftonline.com" := by
    rw [idnaEncode, if_neg (by decide), if_pos ascii]
    decide +kernel
  have stripped : rstripChar '.' (lower "login.microsoftonline.com") = "login.microsoftonline.com" := by
    rw [lower, if_pos ascii]
    decide +kernel
  refine ⟨by decide, by decide, _, encodes, ?_, ?_⟩
  · rw [stripped]
    decide
  · rw [stripped, encodes]
    rfl

omit [UnicodeTables] in
theorem entraIssuerParts_text (tenantId : String) :
    ("https://login.microsoftonline.com/" ++ tenantId ++ "/v2.0").toList = (entraIssuerParts tenantId).text := by
  simp [entraIssuerParts, UrlParts.text]

omit [UnicodeTables] in
/-- What holds of hexadecimal digits, hyphens and the rest of the URL holds of every character. -/
theorem forall_entraIssuer (holds : Char → Prop) {tenantId : String}
    (tenant : ∀ char ∈ tenantId.toList, char = '-' ∨ ∃ digit < 16, char = Nat.digitChar digit)
    (hyphen : holds '-') (digits : ∀ digit < 16, holds (Nat.digitChar digit))
    (before : ∀ char ∈ "https://login.microsoftonline.com/".toList, holds char)
    (after : ∀ char ∈ "/v2.0".toList, holds char) :
    ∀ char ∈ ("https://login.microsoftonline.com/" ++ tenantId ++ "/v2.0").toList, holds char := by
  intro char member
  rw [String.toList_append, String.toList_append, List.mem_append, List.mem_append] at member
  rcases member with (first | inside) | last
  · exact before char first
  · rcases tenant char inside with rfl | ⟨digit, below, rfl⟩
    · exact hyphen
    · exact digits digit below
  · exact after char last

omit [UnicodeTables] in
theorem entraScheme : IsScheme "https".toList := ⟨by decide, by decide⟩

theorem netlocOk_entra : netlocOk "login.microsoftonline.com".toList = true := if_pos (by decide)

omit [UnicodeTables] in
theorem unbracketed_entra :
    '[' ∉ "login.microsoftonline.com".toList ∧ ']' ∉ "login.microsoftonline.com".toList := by decide

/-- The issuer URL of a tenant is split where its parts meet. -/
theorem urlsplit_entraIssuer {tenantId : String}
    (clean : ∀ char ∈ (entraIssuerParts tenantId).text, ¬ char.toNat < 0x20) :
    urlsplit ("https://login.microsoftonline.com/" ++ tenantId ++ "/v2.0") =
      some (entraIssuerParts tenantId).split := by
  have ok : netlocOk (entraIssuerParts tenantId).netloc = true := netlocOk_entra
  have unbracketed : '[' ∉ (entraIssuerParts tenantId).netloc ∧ ']' ∉ (entraIssuerParts tenantId).netloc :=
    unbracketed_entra
  rw [urlsplit_text (entraIssuerParts_text tenantId) clean entraScheme, ok]
  simp [unbracketed]

/-- **The issuer URL of a tenant is checked and servable.** -/
theorem entraIssuer_servable {tenantId : String}
    (tenant : ∀ char ∈ tenantId.toList, char = '-' ∨ ∃ digit < 16, char = Nat.digitChar digit) :
    (∃ parsed, CheckedUrl ("https://login.microsoftonline.com/" ++ tenantId ++ "/v2.0") parsed) ∧
      ServableUrl ("https://login.microsoftonline.com/" ++ tenantId ++ "/v2.0") := by
  have isText := entraIssuerParts_text tenantId
  have printable := forall_entraIssuer (fun char => char ≠ '\\' ∧ 0x20 ≤ char.toNat) tenant
    (by decide) (by decide) (by decide) (by decide)
  have clean : ∀ char ∈ (entraIssuerParts tenantId).text, ¬ char.toNat < 0x20 := by
    intro char member
    rw [← isText] at member
    exact Nat.not_lt.mpr (printable char member).2
  have delimiter : ∀ stop ∈ ['?', '#'], stop ∉ (entraIssuerParts tenantId).tail := by
    intro stop isStop member
    have other := forall_entraIssuer (fun char => char ∉ ['?', '#']) tenant
      (by decide) (by decide) (by decide) (by decide)
    rw [isText] at other
    exact other stop (List.mem_append_right _ member) isStop
  obtain ⟨sameHash, nothingHash⟩ := after_eq_nil_of_not_mem (delimiter '#' (by decide))
  obtain ⟨-, nothingMark⟩ := after_eq_nil_of_not_mem (delimiter '?' (by decide))
  have split := urlsplit_entraIssuer clean
  have authority : EntraAuthority (entraIssuerParts tenantId).split := entraAuthority String.ofList_toList
  have port : (entraIssuerParts tenantId).split.port = some none := by
    rw [SplitResult.port, authority.hostinfo]
    rfl
  have scheme : (entraIssuerParts tenantId).split.scheme = "https" := by
    show String.ofList (schemeName "https".toList) = "https"
    decide +kernel
  constructor
  · refine ⟨_, split, by rw [port]; rfl, scheme, by rw [authority.hostname]; rfl,
      authority.noUserinfo, ?_, ?_⟩
    · rw [UrlParts.split, sameHash, nothingMark]
    · rw [UrlParts.split, nothingHash]
  · refine ⟨printable, fun parsed hostname isSplit isHostname => ?_⟩
    rw [split, Option.some.injEq] at isSplit
    subst isSplit
    rw [authority.hostname, Option.some.injEq] at isHostname
    subst isHostname
    exact servableHost_entra

/-! ### Startup -/

/-- **Settings accepted for Entra** have a tenant id of hexadecimal digits and hyphens and a filled URI. -/
theorem entra_of_validate {raw settings : Settings} (accepted : raw.validate = .ok settings)
    (entra : settings.authProvider = .entra) :
    (∃ tenantId, settings.entraTenantId = some tenantId ∧
      ∀ char ∈ tenantId.toList, char = '-' ∨ ∃ digit < 16, char = Nat.digitChar digit) ∧
    ∃ applicationIdUri, settings.entraApplicationIdUri = some applicationIdUri := by
  obtain ⟨⟨tenantId, normalized, rfl⟩, complete, -⟩ := validate_ok accepted
  have isEntra : raw.authProvider = .entra := entra
  have filled : isFilled tenantId = true ∧ isFilled raw.entraApplicationIdUri = true := by
    rw [missingFields, entra] at complete
    cases tenant : isFilled tenantId <;> cases uri : isFilled raw.entraApplicationIdUri <;>
      simp [tenant, uri] at complete ⊢
  constructor
  · cases tenantId with
    | none => exact absurd filled.1 Bool.false_ne_true
    | some tenantId =>
      refine ⟨tenantId, rfl, ?_⟩
      unfold normalizeTenantId at normalized
      rw [isEntra] at normalized
      cases given : raw.entraTenantId with
      | none =>
        rw [given] at normalized
        cases normalized
      | some text =>
        rw [given] at normalized
        dsimp only at normalized
        split at normalized
        · cases normalized
          exact absurd filled.1 (by decide)
        · cases reads : uuidText text with
          | none =>
            rw [reads] at normalized
            cases normalized
          | some uuid =>
            rw [reads] at normalized
            cases normalized
            exact mem_uuidText reads
  · exact Option.isSome_iff_exists.mp (Option.isSome_of_any filled.2)

theorem generic_of_validate {raw settings : Settings} (accepted : raw.validate = .ok settings)
    (generic : settings.authProvider = .generic) :
    ∃ issuerUrl, settings.genericIssuerUrl = some issuerUrl := by
  obtain ⟨⟨tenantId, normalized, rfl⟩, complete, -⟩ := validate_ok accepted
  have filled : isFilled raw.genericIssuerUrl = true := by
    rw [missingFields, generic] at complete
    cases issuer : isFilled raw.genericIssuerUrl <;> simp [issuer] at complete ⊢
  exact Option.isSome_iff_exists.mp (Option.isSome_of_any filled)

/-- **The network policy returns exactly when its URLs are servable.** -/
theorem networkPolicy_returns_iff {raw settings : Settings} (accepted : raw.validate = .ok settings)
    (production : settings.appEnv = .production) :
    (∃ issuerUrl policy, resolveIssuerUrl settings = some issuerUrl ∧
      buildOidcNetworkPolicy settings issuerUrl = .ok policy) ↔ ∀ url ∈ settings.trustedUrls, ServableUrl url := by
  have facts := productionFacts production (validate_ok accepted).2.2
  cases provider : settings.authProvider with
  | generic =>
    obtain ⟨issuerUrl, isIssuer⟩ := generic_of_validate accepted provider
    obtain ⟨⟨issuer, checked⟩, origins⟩ := facts.generic provider
    rw [isIssuer, Option.getD_some] at checked
    have network := init_https_iff checked origins
    simp only [Settings.trustedUrls, provider, isIssuer, Option.toList_some, List.singleton_append]
    rw [← network]
    constructor
    · rintro ⟨_, policy, resolved, built⟩
      rw [resolveIssuerUrl, provider, isIssuer, Option.some.injEq] at resolved
      subst resolved
      rw [buildOidcNetworkPolicy, facts.strict, provider] at built
      exact ⟨policy, built⟩
    · rintro ⟨policy, built⟩
      refine ⟨issuerUrl, policy, ?_, ?_⟩
      · rw [resolveIssuerUrl, provider]
        exact isIssuer
      · rw [buildOidcNetworkPolicy, facts.strict, provider]
        exact built
  | entra =>
    obtain ⟨⟨tenantId, isTenant, tenant⟩, -⟩ := entra_of_validate accepted provider
    obtain ⟨⟨issuer, checked⟩, servable⟩ := entraIssuer_servable tenant
    have noOrigins : ∀ origin ∈ ([] : List String), ∃ parsed, CheckedUrl origin parsed ∧ parsed.path = "" := by
      intro origin member
      cases member
    obtain ⟨policy, built⟩ := (init_https_iff checked noOrigins).mpr (by simpa using servable)
    refine iff_of_true ⟨_, policy, by rw [resolveIssuerUrl, provider, isTenant], ?_⟩ ?_
    · rw [buildOidcNetworkPolicy, facts.strict, provider]
      exact built
    · simp [Settings.trustedUrls, provider]

/-- **The tool authorizer returns exactly when the URI that qualifies its scopes is one of scope-tokens.** -/
theorem toolAuthorizer_returns_iff {raw settings : Settings} (accepted : raw.validate = .ok settings) :
    (∃ authorizer, buildToolAuthorizer settings none = .ok authorizer) ↔
      ∀ applicationIdUri ∈ settings.qualifyingUri, isValidOauthScopeToken applicationIdUri = true := by
  cases provider : settings.authProvider with
  | generic =>
    obtain ⟨policy, built⟩ : ∃ policy, ToolPolicy.oauthScopes [healthScope] = .ok policy :=
      (scopePolicy_ok_iff (by decide) (by decide)).mpr (by decide)
    refine iff_of_true ?_ (by simp [Settings.qualifyingUri, provider])
    simp only [buildToolAuthorizer, defaultPolicies, provider, built]
    exact ⟨_, rfl⟩
  | entra =>
    obtain ⟨-, applicationIdUri, isUri⟩ := entra_of_validate accepted provider
    simp only [Settings.qualifyingUri, provider, isUri, Option.mem_some_iff, forall_eq']
    exact buildToolAuthorizer_entra_iff provider isUri

/-- **Which startup constructor returns on settings accepted for production**: each one by the free-text
fields that it reads, and the transport security always. -/
theorem startupConstructors_iff {raw settings : Settings} (accepted : raw.validate = .ok settings)
    (production : settings.appEnv = .production) (port : PortReads settings.resourceServerUrl) :
    ((∃ issuerUrl policy, resolveIssuerUrl settings = some issuerUrl ∧
        buildOidcNetworkPolicy settings issuerUrl = .ok policy) ↔
      ∀ url ∈ settings.trustedUrls, ServableUrl url) ∧
    ((∃ authorizer, buildToolAuthorizer settings none = .ok authorizer) ↔
      ∀ applicationIdUri ∈ settings.qualifyingUri, isValidOauthScopeToken applicationIdUri = true) ∧
    ∃ security, buildTransportSecurity settings = .ok security :=
  ⟨networkPolicy_returns_iff accepted production, toolAuthorizer_returns_iff accepted,
    exists_transportSecurity (productionFacts production (validate_ok accepted).2.2) port⟩

/-- **Settings accepted for production start up exactly when they are servable.** -/
theorem production_startsUp_iff {raw settings : Settings} (accepted : raw.validate = .ok settings)
    (production : settings.appEnv = .production) (port : PortReads settings.resourceServerUrl) :
    StartsUp settings ↔ Servable settings := by
  have network := networkPolicy_returns_iff accepted production
  have authorizer := toolAuthorizer_returns_iff accepted
  have transport := exists_transportSecurity (productionFacts production (validate_ok accepted).2.2) port
  rw [servable_iff, ← network, ← authorizer]
  exact ⟨fun starts => ⟨starts.networkPolicy, starts.toolAuthorizer⟩,
    fun returns => ⟨returns.1, returns.2, transport⟩⟩

end Startup

/-- The resource of a production deployment. -/
def productionResource : AnyHttpUrl := ⟨"https://mcp.acme.corp/mcp", by decide⟩

/-- Production settings of a generic provider with the given issuer. -/
def productionSettings (issuerUrl : String) : Settings where
  appEnv := .production
  runtimeHostLength := runtimeHostLength_default
  resourceServerUrl := productionResource
  authProvider := .generic
  genericIssuerUrl := some issuerUrl
  genericAudience := some "mcp-production-audience"

theorem productionResource_portReads :
    let _ := asciiTables
    PortReads productionResource := by
  intro _ parsed split
  have reads : urlsplit productionResource.text = some ⟨"https", "mcp.acme.corp", "/mcp", "", ""⟩ := by
    decide +kernel
  rw [reads, Option.some.injEq] at split
  subst split
  decide +kernel

theorem productionSettings_accepted :
    let _ := asciiTables
    (productionSettings "https://identity.acme.corp").validate =
        .ok (productionSettings "https://identity.acme.corp") ∧
      (productionSettings "https://identity.acme.corp\n").validate =
        .ok (productionSettings "https://identity.acme.corp\n") := by
  exact ⟨rfl, rfl⟩

theorem servableUrl_acme :
    let _ := asciiTables
    ServableUrl "https://identity.acme.corp" := by
  intro _
  refine ⟨by decide, fun parsed hostname split isHostname => ?_⟩
  have reads : urlsplit "https://identity.acme.corp" = some ⟨"https", "identity.acme.corp", "", "", ""⟩ := by
    decide +kernel
  rw [reads, Option.some.injEq] at split
  subst split
  have host : (⟨"https", "identity.acme.corp", "", "", ""⟩ : SplitResult).hostname =
      some "identity.acme.corp" := by decide +kernel
  rw [host, Option.some.injEq] at isHostname
  subst isHostname
  exact ⟨by decide, by decide, "identity.acme.corp", by decide +kernel, by decide +kernel, by decide +kernel⟩

theorem servable_productionSettings [UnicodeTables] (issuerUrl : String) :
    Servable (productionSettings issuerUrl) ↔ ServableUrl issuerUrl := by
  show (∀ url ∈ [issuerUrl], ServableUrl url) ↔ _
  rw [List.forall_mem_singleton]

/-- An issuer that is served. -/
theorem production_startsUp_acme :
    let _ := asciiTables
    StartsUp (productionSettings "https://identity.acme.corp") := by
  intro _
  exact (production_startsUp_iff productionSettings_accepted.1 rfl productionResource_portReads).mpr
    ((servable_productionSettings _).mpr servableUrl_acme)

theorem not_servableUrl_newline :
    let _ := asciiTables
    ¬ ServableUrl "https://identity.acme.corp\n" := by
  intro _ servable
  exact absurd (servable.printable '\n' (by decide)).2 (by decide)

/-- **An issuer with a newline at its end is accepted for production and does not start up.** -/
theorem production_newline_fails :
    ¬ ∀ [UnicodeTables] (raw settings : Settings), raw.validate = .ok settings →
      settings.appEnv = .production → PortReads settings.resourceServerUrl → StartsUp settings := by
  intro always
  let _ := asciiTables
  have starts := always _ _ productionSettings_accepted.2 rfl productionResource_portReads
  have servable := (networkPolicy_returns_iff productionSettings_accepted.2 rfl).mp starts.networkPolicy
  exact not_servableUrl_newline (servable _ (by decide))

/-- That issuer stops the network policy, and the other constructors return. -/
theorem startupConstructors_newline :
    let _ := asciiTables
    let settings := productionSettings "https://identity.acme.corp\n"
    settings.validate = .ok settings ∧
      (¬ ∃ issuerUrl policy, resolveIssuerUrl settings = some issuerUrl ∧
        buildOidcNetworkPolicy settings issuerUrl = .ok policy) ∧
      (∃ authorizer, buildToolAuthorizer settings none = .ok authorizer) ∧
      ∃ security, buildTransportSecurity settings = .ok security := by
  intro _ settings
  obtain ⟨network, authorizer, transport⟩ :=
    startupConstructors_iff productionSettings_accepted.2 rfl productionResource_portReads
  refine ⟨productionSettings_accepted.2, fun returns => ?_, authorizer.mpr ?_, transport⟩
  · exact not_servableUrl_newline (network.mp returns _ (by decide))
  · intro applicationIdUri member
    cases member

end McpAuth
