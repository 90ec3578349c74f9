/-
**Process configuration and its validation.**

`Settings` holds the fields the server is built from, after pydantic has read them by type.
`Settings.validate` is the `mode="after"` validator: it returns the settings with a normalized Entra
tenant id, or raises the first `ValueError` of its checks.

`validate_ok`: accepted settings are the raw ones up to the tenant id, name every field their provider
needs and pass the production profile.
-/

import McpAuth.Adapters.Principal
import McpAuth.Library.Fallible
import McpAuth.Library.UrlSplit

namespace McpAuth

open PyText PyNumbers UrlSplit IpAddress

/-! ### Fields -/

inductive AppEnv
  | development
  | test
  | staging
  | production
  deriving DecidableEq, Repr

/-- The fields of `Settings` that the builders and the validator read. -/
structure Settings where
  appEnv : AppEnv := .development
  runtimeHost : String := "0.0.0.0"
  runtimeHostLength : 1 ≤ runtimeHost.length ∧ runtimeHost.length ≤ 253 := by decide
  resourceServerUrl : AnyHttpUrl
  requiredScopes : List String := []
  oidcAllowInsecureLoopback : Bool := false
  transportAllowedHosts : List String := []
  transportAllowedOrigins : List String := []
  authProvider : AuthProvider
  entraTenantId : Option String := none
  entraAudience : Option String := none
  entraApplicationIdUri : Option String := none
  genericIssuerUrl : Option String := none
  genericAudience : Option String := none
  genericJwksAllowedOrigins : List String := []

theorem runtimeHostLength_default : 1 ≤ "0.0.0.0".length ∧ "0.0.0.0".length ≤ 253 := by decide

/-- A resource to configure. -/
def exampleResource : AnyHttpUrl := ⟨"https://mcp.example.org/mcp", by decide⟩

/-- A `ValueError` of the validator. -/
structure SettingsError where
  message : String
  deriving DecidableEq

/-- `value` is neither `None` nor empty. -/
def isFilled (value : Option String) : Bool := value.any (· ≠ "")

/-- `effective_required_scopes`. -/
def Settings.effectiveRequiredScopes (settings : Settings) : List String :=
  match settings.authProvider, settings.entraApplicationIdUri with
  | .entra, some applicationIdUri =>
    if applicationIdUri ≠ "" then qualifyScopes settings.requiredScopes applicationIdUri
    else settings.requiredScopes
  | _, _ => settings.requiredScopes

/-! ### Checks -/

/-- `if not condition: raise ValueError(message)`. -/
def ensure (condition : Bool) (message : String) : Except SettingsError Unit :=
  if condition then .ok () else .error ⟨message⟩

theorem ensure_eq_ok {condition : Bool} {message : String} {done : Unit} :
    ensure condition message = .ok done ↔ condition = true := by
  cases condition with
  | false =>
    constructor
    · intro passes
      cases passes
    · intro holds
      cases holds
  | true =>
    constructor
    · intro _
      rfl
    · intro _
      rfl

/-- The text has no surrounding whitespace and no character below `!`. -/
def isVisibleText (text : String) : Bool :=
  strip text == text && !text.toList.any fun char => char.toNat < 0x21

section Checks

variable [UnicodeTables]

/-- `urlsplit` inside the validator. -/
def splitOrRaise (url : String) : Except SettingsError SplitResult :=
  match urlsplit url with
  | some parsed => .ok parsed
  | none => .error ⟨"Invalid URL"⟩

theorem splitOrRaise_eq_ok {url : String} {parsed : SplitResult} :
    splitOrRaise url = .ok parsed ↔ urlsplit url = some parsed := by
  unfold splitOrRaise
  cases urlsplit url with
  | none => constructor <;> intro reads <;> cases reads
  | some other => rw [Except.ok.injEq, Option.some.injEq]

/-- No credentials. -/
def hasNoUserinfo (parsed : SplitResult) : Bool :=
  parsed.username.isNone && parsed.password.isNone

/-- Neither credentials nor anything after the authority. -/
def isBareAuthority (parsed : SplitResult) : Bool :=
  hasNoUserinfo parsed && parsed.path == "" && parsed.query == "" && parsed.fragment == ""

/-- `_validate_runtime_settings`. -/
def validateRuntimeSettings (settings : Settings) : Except SettingsError Unit :=
  ensure (isVisibleText settings.runtimeHost)
    "runtime_host must be a non-empty visible string without whitespace"

/-- `_validate_resource_server_transport_url`. -/
def validateResourceServerTransportUrl (settings : Settings) : Except SettingsError Unit := do
  let parsed ← splitOrRaise settings.resourceServerUrl.text
  ensure (hasNoUserinfo parsed && parsed.query == "" && parsed.fragment == "")
    "resource_server_url must not contain credentials, query, or fragment"
  if parsed.scheme = "https" then .ok ()
  else match parsed.hostname with
    | none => .error ⟨"resource_server_url must use https"⟩
    | some host => do
      ensure (parsed.scheme == "http") "resource_server_url must use https"
      ensure ((ipAddress host).any IPAddress.isLoopback)
        "HTTP resource_server_url is allowed only for an IP-literal loopback host"

/-- One entry of `transport_allowed_hosts`. -/
def validateAllowedHost (host : String) : Except SettingsError Unit := do
  let parsed ← splitOrRaise ("//" ++ host)
  ensure parsed.port.isSome "transport_allowed_hosts contains an invalid port"
  ensure (parsed.hostname.isSome && isBareAuthority parsed && !decide ([':'] <:+ host.toList))
    "transport_allowed_hosts entries must be host[:port] values"

/-- One entry of `transport_allowed_origins`. -/
def validateAllowedOrigin (origin : String) : Except SettingsError Unit := do
  let parsed ← splitOrRaise origin
  ensure parsed.port.isSome "transport_allowed_origins contains an invalid port"
  ensure ((parsed.scheme == "http" || parsed.scheme == "https") && parsed.hostname.isSome &&
      isBareAuthority parsed)
    "transport_allowed_origins entries must be exact http(s) origins"

/-- The entries of one allowlist are exact visible strings. -/
def validateVisibleEntries (fieldName : String) (values : List String) :
    Except SettingsError Unit :=
  ensure (values.all fun value => value ≠ "" && isVisibleText value && !value.toList.contains '*')
    (fieldName ++ " entries must be non-empty exact visible strings")

/-- `_validate_transport_allowlists`. -/
def validateTransportAllowlists (settings : Settings) : Except SettingsError Unit := do
  validateVisibleEntries "transport_allowed_hosts" settings.transportAllowedHosts
  validateVisibleEntries "transport_allowed_origins" settings.transportAllowedOrigins
  settings.transportAllowedHosts.forM validateAllowedHost
  settings.transportAllowedOrigins.forM validateAllowedOrigin

/-- `_is_placeholder_hostname`. -/
def isPlaceholderHostname (hostname : Option String) : Bool :=
  match hostname with
  | none => true
  | some hostname =>
    let normalized := (lower (rstripChar '.' hostname)).toList
    let endsWith := fun (suffix : String) => decide (suffix.toList <:+ normalized)
    normalized == "localhost".toList || endsWith ".localhost" || endsWith ".invalid" ||
      endsWith ".test" ||
      ["example.com", "example.net", "example.org"].any fun suffix =>
        normalized == suffix.toList || endsWith ("." ++ suffix)

def zeroUuid : String := "00000000-0000-0000-0000-000000000000"

/-- One transport origin of the production profile. -/
def validateProductionOrigin (origin : String) : Except SettingsError Unit := do
  let parsed ← splitOrRaise origin
  ensure (parsed.scheme == "https") "production transport_allowed_origins must use HTTPS"
  ensure (!isPlaceholderHostname parsed.hostname)
    "production transport_allowed_origins must not use placeholder hostnames"

/-- One JWKS origin of the production profile. -/
def validateProductionJwksOrigin (origin : String) : Except SettingsError Unit := do
  let parsed ← splitOrRaise origin
  ensure parsed.port.isSome "production generic_jwks_allowed_origins contains an invalid port"
  ensure (parsed.scheme == "https" && parsed.hostname.isSome && isBareAuthority parsed)
    "production generic_jwks_allowed_origins entries must be exact HTTPS origins"
  ensure (!isPlaceholderHostname parsed.hostname)
    "production generic_jwks_allowed_origins must not use placeholder hostnames"

/-- The Entra part of the production profile. -/
def validateProductionEntra (settings : Settings) : Except SettingsError Unit := do
  ensure (settings.entraTenantId ≠ some zeroUuid)
    "production entra_tenant_id must not use the all-zero placeholder"
  ensure ([settings.entraAudience, settings.entraApplicationIdUri].all fun value =>
      !value.any fun text => contains zeroUuid (lower text))
    "production Entra identifiers must not use all-zero placeholders"

/-- The generic part of the production profile. -/
def validateProductionGeneric (settings : Settings) : Except SettingsError Unit := do
  let issuer ← splitOrRaise (settings.genericIssuerUrl.getD "")
  ensure issuer.port.isSome "production generic_issuer_url contains an invalid port"
  ensure (issuer.scheme == "https" && issuer.hostname.isSome && hasNoUserinfo issuer &&
      issuer.query == "" && issuer.fragment == "")
    ("production generic_issuer_url must be an absolute HTTPS issuer " ++
      "without credentials, query, or fragment")
  ensure (!isPlaceholderHostname issuer.hostname)
    "production generic_issuer_url must not use a placeholder hostname"
  let audience ← splitOrRaise (settings.genericAudience.getD "")
  ensure (audience.hostname.isNone || !isPlaceholderHostname audience.hostname)
    "production generic_audience must not use a placeholder hostname"
  settings.genericJwksAllowedOrigins.forM validateProductionJwksOrigin

/-- `_validate_production_profile`. -/
def validateProductionProfile (settings : Settings) : Except SettingsError Unit :=
  if settings.appEnv ≠ .production then .ok ()
  else do
    let resource ← splitOrRaise settings.resourceServerUrl.text
    ensure (resource.scheme == "https") "production requires an HTTPS resource_server_url"
    ensure (!isPlaceholderHostname resource.hostname)
      "production resource_server_url must not use a placeholder hostname"
    ensure (!settings.oidcAllowInsecureLoopback)
      "production forbids oidc_allow_insecure_loopback=true"
    settings.transportAllowedOrigins.forM validateProductionOrigin
    match settings.authProvider with
    | .entra => validateProductionEntra settings
    | .generic => validateProductionGeneric settings

/-! ### The validator -/

/-- The tenant id of the Entra provider, normalized. -/
def normalizeTenantId (settings : Settings) : Except SettingsError (Option String) :=
  match settings.authProvider, settings.entraTenantId with
  | .entra, some tenantId =>
    if tenantId = "" then .ok (some "")
    else match uuidText tenantId with
      | some normalized => .ok (some normalized)
      | none => .error ⟨"entra_tenant_id must be a tenant-specific UUID, not an alias or path"⟩
  | _, tenantId => .ok tenantId

/-- The names of the provider fields that are missing. -/
def missingFields (settings : Settings) : List String :=
  let fields := match settings.authProvider with
    | .entra =>
      [("entra_tenant_id", settings.entraTenantId), ("entra_audience", settings.entraAudience),
        ("entra_application_id_uri", settings.entraApplicationIdUri)]
    | .generic =>
      [("generic_issuer_url", settings.genericIssuerUrl),
        ("generic_audience", settings.genericAudience)]
  (fields.filter fun field => !isFilled field.2).map Prod.fst

def providerName : AuthProvider → String
  | .entra => "'entra'"
  | .generic => "'generic'"

/-- `_require_matching_provider_fields`. -/
def Settings.validate (settings : Settings) : Except SettingsError Settings := do
  validateRuntimeSettings settings
  validateResourceServerTransportUrl settings
  validateTransportAllowlists settings
  ensure (!settings.requiredScopes.contains "offline_access")
    ("required_scopes must not include offline_access; refresh-token consent belongs " ++
      "to the OAuth client and authorization server")
  let tenantId ← normalizeTenantId settings
  let settings := { settings with entraTenantId := tenantId }
  let missing := missingFields settings
  ensure missing.isEmpty ("auth_provider=" ++ providerName settings.authProvider ++ " requires: " ++
    ", ".intercalate missing)
  validateProductionProfile settings
  .ok settings

/-- What an accepted configuration has behind it. -/
theorem validate_ok {raw settings : Settings} (accepted : raw.validate = .ok settings) :
    (∃ tenantId, normalizeTenantId raw = .ok tenantId ∧
      settings = { raw with entraTenantId := tenantId }) ∧
    missingFields settings = [] ∧ validateProductionProfile settings = .ok () := by
  unfold Settings.validate at accepted
  obtain ⟨_, -, accepted⟩ := Fallible.bind_eq_ok.mp accepted
  obtain ⟨_, -, accepted⟩ := Fallible.bind_eq_ok.mp accepted
  obtain ⟨_, -, accepted⟩ := Fallible.bind_eq_ok.mp accepted
  obtain ⟨_, -, accepted⟩ := Fallible.bind_eq_ok.mp accepted
  obtain ⟨tenantId, normalized, accepted⟩ := Fallible.bind_eq_ok.mp accepted
  obtain ⟨_, complete, accepted⟩ := Fallible.bind_eq_ok.mp accepted
  obtain ⟨_, production, accepted⟩ := Fallible.bind_eq_ok.mp accepted
  cases accepted
  exact ⟨⟨tenantId, normalized, rfl⟩, List.isEmpty_iff.mp (ensure_eq_ok.mp complete), production⟩

end Checks

end McpAuth
