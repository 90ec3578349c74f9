/-
**The network trust boundary of OIDC discovery and JWKS retrieval.**

`OidcNetworkSecurityPolicy` anchors all traffic to one configured issuer: `parseUrl` reads the origin of
a URL, `assertJwksUriTrusted` compares it with the issuer's and the allowlisted origins, `requestKind`
classifies a request, and `resolve` turns it into one address to connect to after looking at every
answer of the resolver.

`normalizeHost_idem`: normalizing a normalized host changes nothing, so that the origins compared are
those `parseUrl` computes (`assertJwksUriTrusted_origin`, `init_trusts`). `egress_public_iff`: the
accepted answers are public exactly when no global answer is multicast or reserved.
-/

import McpAuth.Library.Fallible
import McpAuth.Library.UrlSplit

namespace McpAuth

open PyText UrlSplit IpAddress

/-! ### Origins -/

/-- Raised when an outbound OIDC request violates the trust policy. -/
structure OidcNetworkSecurityError where
  message : String
  deriving DecidableEq

/-- The triple `(scheme, host, port)`. -/
structure Origin where
  scheme : String
  host : String
  port : Nat
  deriving DecidableEq

def defaultPort (scheme : String) : Except OidcNetworkSecurityError Nat :=
  if scheme = "https" then .ok 443
  else if scheme = "http" then .ok 80
  else .error ⟨"OIDC URLs must use HTTP or HTTPS"⟩

/-- `parsed.port or _default_port(scheme)`. -/
def portOrDefault (port : Option Nat) (scheme : String) : Except OidcNetworkSecurityError Nat :=
  match port with
  | some port => if port = 0 then defaultPort scheme else .ok port
  | none => defaultPort scheme

/-- `_effective_address`. -/
def effectiveAddress (address : IPAddress) : IPAddress :=
  match address.ipv4Mapped with
  | some mapped => mapped
  | none => address

section Urls

variable [UnicodeTables]

/-- `_normalize_host`. -/
def normalizeHost (host : String) : Except OidcNetworkSecurityError String :=
  if '%' ∈ host.toList then
    .error ⟨"IPv6 zone identifiers are not permitted in OIDC URLs"⟩
  else match idnaEncode host with
    | some encoded => .ok (rstripChar '.' (lower encoded))
    | none => .error ⟨"OIDC URL contains an invalid hostname"⟩

/-- `_origin`. -/
def originOf (scheme host : String) (port : Nat) : Except OidcNetworkSecurityError Origin := do
  let normalized ← normalizeHost host
  .ok ⟨scheme, normalized, port⟩

/-- `_parse_url`. -/
def parseUrl (url : String) : Except OidcNetworkSecurityError Origin :=
  if '\\' ∈ url.toList ∨ url.toList.any fun character => character.toNat < 0x20 then
    .error ⟨"OIDC URL contains invalid characters"⟩
  else match urlsplit url with
    | none => .error ⟨"OIDC URL is malformed"⟩
    | some parsed => match parsed.port with
      | none => .error ⟨"OIDC URL is malformed"⟩
      | some explicitPort => do
        let scheme := lower parsed.scheme
        let port ← portOrDefault explicitPort scheme
        if scheme ≠ "http" ∧ scheme ≠ "https" then
          .error ⟨"OIDC URLs must use HTTP or HTTPS"⟩
        else match parsed.hostname with
          | none => .error ⟨"OIDC URL must contain a hostname"⟩
          | some hostname =>
            if hostname = "" then .error ⟨"OIDC URL must contain a hostname"⟩
            else if parsed.username.isSome ∨ parsed.password.isSome then
              .error ⟨"userinfo is not permitted in OIDC URLs"⟩
            else if parsed.fragment ≠ "" then
              .error ⟨"fragments are not permitted in OIDC URLs"⟩
            else do
              let host ← normalizeHost hostname
              .ok ⟨scheme, host, port⟩

end Urls

/-! ### The policy -/

/-- Which document a request asks for. -/
inductive RequestKind
  | discovery
  | jwks
  deriving DecidableEq, Repr

/-- One validated target and the address to connect to. -/
structure ResolvedTarget where
  scheme : String
  host : String
  port : Nat
  ip : IPAddress
  kind : RequestKind
  deriving DecidableEq

/-- The trust boundary of one issuer. -/
structure OidcNetworkSecurityPolicy where
  issuerUrl : String
  issuerOrigin : Origin
  discoveryUrl : String
  allowInsecureLoopback : Bool
  dnsTimeoutSeconds : Rat
  httpTimeoutSeconds : Rat
  discoveryMaxBytes : Int
  jwksMaxBytes : Int
  trustedJwksOrigins : List Origin

/-- What the resolver of a policy does with a host, a port and a timeout. -/
abbrev Resolver := String → Nat → Rat → Except OidcNetworkSecurityError (List IPAddress)

/-- The exceptions of the constructor. -/
inductive PolicyInitError
  | value (message : String)
  | security (error : OidcNetworkSecurityError)
  deriving DecidableEq

def discoverySuffix : String := "/.well-known/openid-configuration"

section Policy

variable [UnicodeTables]

/-- `_parse_url` inside the constructor. -/
def parseUrlForInit (url : String) : Except PolicyInitError Origin :=
  (parseUrl url).mapError PolicyInitError.security

/-- `_origin` inside the constructor. -/
def originForInit (origin : Origin) : Except PolicyInitError Origin :=
  (originOf origin.scheme origin.host origin.port).mapError PolicyInitError.security

/-- One entry of `jwks_allowed_origins`. -/
def allowedOrigin (allowInsecureLoopback : Bool) (rawOrigin : String) :
    Except PolicyInitError Origin := do
  let origin ← parseUrlForInit rawOrigin
  match urlsplit rawOrigin with
  | none => .error (.value "Invalid URL")
  | some parsed =>
    if (parsed.path ≠ "" ∧ parsed.path ≠ "/") ∨ parsed.query ≠ "" then
      .error (.security ⟨"JWKS allowlist entries must be origins without path or query"⟩)
    else if origin.scheme ≠ "https" ∧ allowInsecureLoopback = false then
      .error (.security ⟨"JWKS allowlist origins must use HTTPS"⟩)
    else originForInit origin

/-- `OidcNetworkSecurityPolicy.__init__`. -/
def OidcNetworkSecurityPolicy.init (issuerUrl : String) (allowInsecureLoopback : Bool := false)
    (jwksAllowedOrigins : List String := []) (dnsTimeoutSeconds : Rat := 2)
    (httpTimeoutSeconds : Rat := 5) (discoveryMaxBytes : Int := 65536)
    (jwksMaxBytes : Int := 524288) : Except PolicyInitError OidcNetworkSecurityPolicy :=
  if dnsTimeoutSeconds ≤ 0 ∨ httpTimeoutSeconds ≤ 0 then
    .error (.value "OIDC DNS and HTTP timeouts must be positive")
  else if discoveryMaxBytes ≤ 0 ∨ jwksMaxBytes ≤ 0 then
    .error (.value "OIDC response-size limits must be positive")
  else do
    let issuer ← parseUrlForInit issuerUrl
    if issuer.scheme ≠ "https" ∧ allowInsecureLoopback = false then
      .error (.security ⟨"OIDC issuer must use HTTPS"⟩)
    else match urlsplit issuerUrl with
      | none => .error (.value "Invalid URL")
      | some parsedIssuer =>
        if parsedIssuer.query ≠ "" then
          .error (.security ⟨"OIDC issuer URL must not contain a query"⟩)
        else do
          let issuerOrigin ← originForInit issuer
          let allowed ← jwksAllowedOrigins.mapM (allowedOrigin allowInsecureLoopback)
          .ok
            { issuerUrl := issuerUrl
              issuerOrigin := issuerOrigin
              discoveryUrl := rstripChar '/' issuerUrl ++ discoverySuffix
              allowInsecureLoopback := allowInsecureLoopback
              dnsTimeoutSeconds := dnsTimeoutSeconds
              httpTimeoutSeconds := httpTimeoutSeconds
              discoveryMaxBytes := discoveryMaxBytes
              jwksMaxBytes := jwksMaxBytes
              trustedJwksOrigins := issuerOrigin :: allowed }

/-- `assert_jwks_uri_trusted`. -/
def OidcNetworkSecurityPolicy.assertJwksUriTrusted (policy : OidcNetworkSecurityPolicy)
    (jwksUri : String) : Except OidcNetworkSecurityError Unit := do
  let parsed ← parseUrl jwksUri
  let origin ← originOf parsed.scheme parsed.host parsed.port
  if origin ∈ policy.trustedJwksOrigins then .ok ()
  else .error ⟨"OIDC JWKS origin is not trusted"⟩

/-- `assert_metadata_trusted`. -/
def OidcNetworkSecurityPolicy.assertMetadataTrusted (policy : OidcNetworkSecurityPolicy)
    (issuer jwksUri : String) : Except OidcNetworkSecurityError Unit :=
  if issuer ≠ policy.issuerUrl then
    .error ⟨"OIDC discovery issuer does not match configuration"⟩
  else policy.assertJwksUriTrusted jwksUri

/-- `request_kind`. -/
def OidcNetworkSecurityPolicy.requestKind (policy : OidcNetworkSecurityPolicy) (url : String) :
    Except OidcNetworkSecurityError RequestKind :=
  if url = policy.discoveryUrl then .ok .discovery
  else do
    policy.assertJwksUriTrusted url
    .ok .jwks

/-- The addresses `resolve` looks at: the literal of the host, or every answer of the resolver. -/
def OidcNetworkSecurityPolicy.addressesFor (policy : OidcNetworkSecurityPolicy)
    (resolver : Resolver) (origin : Origin) : Except OidcNetworkSecurityError (List IPAddress) :=
  match ipAddress origin.host with
  | some literal => .ok [literal]
  | none => resolver origin.host origin.port policy.dnsTimeoutSeconds

/-- The part of `resolve` after the addresses are known. -/
def OidcNetworkSecurityPolicy.selectTarget (policy : OidcNetworkSecurityPolicy) (kind : RequestKind)
    (origin : Origin) (addresses : List IPAddress) :
    Except OidcNetworkSecurityError ResolvedTarget :=
  match addresses with
  | [] => .error ⟨"OIDC DNS resolution returned no usable addresses"⟩
  | first :: _ =>
    let effective := addresses.map effectiveAddress
    if effective.all IPAddress.isLoopback ∧ policy.allowInsecureLoopback then
      .ok ⟨origin.scheme, origin.host, origin.port, first, kind⟩
    else if origin.scheme ≠ "https" then
      .error ⟨"HTTPS is required for OIDC discovery and JWKS"⟩
    else if effective.any (!·.isGlobal) then
      .error ⟨"OIDC DNS resolution included a private, loopback, link-local, reserved, " ++
        "or otherwise non-global address"⟩
    else .ok ⟨origin.scheme, origin.host, origin.port, first, kind⟩

/-- `resolve`. -/
def OidcNetworkSecurityPolicy.resolve (policy : OidcNetworkSecurityPolicy) (resolver : Resolver)
    (url : String) : Except OidcNetworkSecurityError ResolvedTarget := do
  let kind ← policy.requestKind url
  let origin ← parseUrl url
  let addresses ← policy.addressesFor resolver origin
  policy.selectTarget kind origin addresses

/-! ### Trusted origins -/

/-- **Normalizing a normalized host changes nothing.** -/
theorem normalizeHost_idem {host normalized again : String}
    (once : normalizeHost host = .ok normalized) (twice : normalizeHost normalized = .ok again) :
    again = normalized := by
  unfold normalizeHost at once
  split at once
  · cases once
  · cases encodes : idnaEncode host with
    | none =>
      rw [encodes] at once
      cases once
    | some encoded =>
      rw [encodes, Except.ok.injEq] at once
      subst once
      obtain ⟨ascii, fixed⟩ := rstrip_lower_fixed (isAsciiText_of_idnaEncode encodes)
      unfold normalizeHost at twice
      split at twice
      · cases twice
      · cases encodesAgain : idnaEncode (rstripChar '.' (lower encoded)) with
        | none =>
          rw [encodesAgain] at twice
          cases twice
        | some other =>
          rw [encodesAgain, Except.ok.injEq, idnaEncode_ascii ascii encodesAgain, fixed] at twice
          exact twice.symm

/-- What `_parse_url` reads off a URL that it accepts. -/
structure ParseFacts (url : String) (parsed : SplitResult) (origin : Origin) : Prop where
  printable : ¬ ('\\' ∈ url.toList ∨ url.toList.any fun character => character.toNat < 0x20)
  split : urlsplit url = some parsed
  scheme : origin.scheme = lower parsed.scheme
  isHttp : origin.scheme = "http" ∨ origin.scheme = "https"
  port : ∃ explicitPort, parsed.port = some explicitPort ∧
    portOrDefault explicitPort origin.scheme = .ok origin.port
  host : ∃ hostname, parsed.hostname = some hostname ∧ hostname ≠ "" ∧
    normalizeHost hostname = .ok origin.host
  noUserinfo : ¬ (parsed.username.isSome ∨ parsed.password.isSome)
  noFragment : parsed.fragment = ""

/-- **Which URLs are parsed, and to which origin.** -/
theorem parseUrl_ok_iff {url : String} {origin : Origin} :
    parseUrl url = .ok origin ↔ ∃ parsed, ParseFacts url parsed origin := by
  constructor
  · intro parses
    unfold parseUrl at parses
    split at parses
    · cases parses
    rename_i printable
    split at parses
    · cases parses
    rename_i parsed split'
    split at parses
    · cases parses
    rename_i explicitPort port
    dsimp only at parses
    obtain ⟨portNumber, isPort, parses⟩ := Fallible.bind_eq_ok.mp parses
    split at parses
    · cases parses
    rename_i isHttp
    split at parses
    · cases parses
    rename_i hostname isHostname
    split at parses
    · cases parses
    rename_i nonempty
    split at parses
    · cases parses
    rename_i noUserinfo
    split at parses
    · cases parses
    rename_i noFragment
    obtain ⟨host, normalized, built⟩ := Fallible.bind_eq_ok.mp parses
    cases built
    have known : lower parsed.scheme = "http" ∨ lower parsed.scheme = "https" := by
      by_contra neither
      exact isHttp (not_or.mp neither)
    exact ⟨parsed, printable, split', rfl, known, ⟨explicitPort, port, isPort⟩,
      ⟨hostname, isHostname, nonempty, normalized⟩, noUserinfo, not_not.mp noFragment⟩
  · rintro ⟨parsed, facts⟩
    obtain ⟨scheme, host, port⟩ := origin
    obtain rfl : scheme = lower parsed.scheme := facts.scheme
    obtain ⟨explicitPort, hasPort, isPort⟩ := facts.port
    obtain ⟨hostname, isHostname, nonempty, normalized⟩ := facts.host
    dsimp only at isPort normalized
    have isHttp : ¬ (lower parsed.scheme ≠ "http" ∧ lower parsed.scheme ≠ "https") := by
      rcases facts.isHttp with http | https
      · exact fun neither => neither.1 http
      · exact fun neither => neither.2 https
    rw [parseUrl, if_neg facts.printable]
    simp only [facts.split, hasPort, isPort, isHostname]
    show (if _ then _ else _) = _
    rw [if_neg isHttp, if_neg nonempty, if_neg facts.noUserinfo, if_neg (not_not.mpr facts.noFragment),
      normalized]
    rfl

/-- The host of a parsed URL is a normalized host. -/
theorem parseUrl_host {url : String} {origin : Origin} (parsed : parseUrl url = .ok origin) :
    ∃ hostname, normalizeHost hostname = .ok origin.host := by
  obtain ⟨_, facts⟩ := parseUrl_ok_iff.mp parsed
  obtain ⟨hostname, -, -, normalized⟩ := facts.host
  exact ⟨hostname, normalized⟩

/-- `_origin` of a parsed URL is the parsed origin, or it raises. -/
theorem originOf_parsed {url : String} {parsed origin : Origin} (parses : parseUrl url = .ok parsed)
    (built : originOf parsed.scheme parsed.host parsed.port = .ok origin) : origin = parsed := by
  obtain ⟨hostname, normalized⟩ := parseUrl_host parses
  obtain ⟨host, again, rebuilt⟩ := Fallible.bind_eq_ok.mp built
  cases rebuilt
  rw [normalizeHost_idem normalized again]

/-- **A trusted JWKS URI has a trusted origin**, as `parseUrl` computes it. -/
theorem assertJwksUriTrusted_origin {policy : OidcNetworkSecurityPolicy} {jwksUri : String}
    (trusted : policy.assertJwksUriTrusted jwksUri = .ok ()) :
    ∃ origin, parseUrl jwksUri = .ok origin ∧ origin ∈ policy.trustedJwksOrigins := by
  obtain ⟨parsed, parses, built⟩ := Fallible.bind_eq_ok.mp trusted
  obtain ⟨origin, isOrigin, listed⟩ := Fallible.bind_eq_ok.mp built
  split at listed
  · rename_i member
    exact ⟨parsed, parses, originOf_parsed parses isOrigin ▸ member⟩
  · cases listed

theorem originForInit_parsed {url : String} {parsed origin : Origin}
    (parses : parseUrlForInit url = .ok parsed) (built : originForInit parsed = .ok origin) :
    parseUrl url = .ok origin := by
  have parses' := Fallible.mapError_eq_ok.mp parses
  rw [originOf_parsed parses' (Fallible.mapError_eq_ok.mp built)]
  exact parses'

theorem allowedOrigin_parsed {allowInsecureLoopback : Bool} {rawOrigin : String} {origin : Origin}
    (allowed : allowedOrigin allowInsecureLoopback rawOrigin = .ok origin) :
    parseUrl rawOrigin = .ok origin := by
  obtain ⟨parsed, parses, rest⟩ := Fallible.bind_eq_ok.mp allowed
  split at rest
  · cases rest
  · split at rest
    · cases rest
    · split at rest
      · cases rest
      · exact originForInit_parsed parses rest

/-- What the constructor checks and reads before it builds the policy. -/
structure InitFacts (issuerUrl : String) (allowInsecureLoopback : Bool) (jwksAllowedOrigins : List String)
    (dnsTimeoutSeconds httpTimeoutSeconds : Rat) (discoveryMaxBytes jwksMaxBytes : Int)
    (issuer issuerOrigin : Origin) (parsedIssuer : SplitResult) (allowed : List Origin) : Prop where
  timeouts : 0 < dnsTimeoutSeconds ∧ 0 < httpTimeoutSeconds
  sizes : 0 < discoveryMaxBytes ∧ 0 < jwksMaxBytes
  parsed : parseUrl issuerUrl = .ok issuer
  secure : issuer.scheme = "https" ∨ allowInsecureLoopback = true
  split : urlsplit issuerUrl = some parsedIssuer
  noQuery : parsedIssuer.query = ""
  isOrigin : originForInit issuer = .ok issuerOrigin
  allows : jwksAllowedOrigins.mapM (allowedOrigin allowInsecureLoopback) = .ok allowed

/-- **Which policies are constructed.** -/
theorem init_ok_iff {issuerUrl : String} {allowInsecureLoopback : Bool} {jwksAllowedOrigins : List String}
    {dnsTimeoutSeconds httpTimeoutSeconds : Rat} {discoveryMaxBytes jwksMaxBytes : Int}
    {policy : OidcNetworkSecurityPolicy} :
    OidcNetworkSecurityPolicy.init issuerUrl allowInsecureLoopback jwksAllowedOrigins dnsTimeoutSeconds
        httpTimeoutSeconds discoveryMaxBytes jwksMaxBytes = .ok policy ↔
      ∃ issuer issuerOrigin parsedIssuer allowed,
        InitFacts issuerUrl allowInsecureLoopback jwksAllowedOrigins dnsTimeoutSeconds httpTimeoutSeconds
          discoveryMaxBytes jwksMaxBytes issuer issuerOrigin parsedIssuer allowed ∧
        policy =
          { issuerUrl := issuerUrl
            issuerOrigin := issuerOrigin
            discoveryUrl := rstripChar '/' issuerUrl ++ discoverySuffix
            allowInsecureLoopback := allowInsecureLoopback
            dnsTimeoutSeconds := dnsTimeoutSeconds
            httpTimeoutSeconds := httpTimeoutSeconds
            discoveryMaxBytes := discoveryMaxBytes
            jwksMaxBytes := jwksMaxBytes
            trustedJwksOrigins := issuerOrigin :: allowed } := by
  constructor
  · intro built
    unfold OidcNetworkSecurityPolicy.init at built
    split at built
    · cases built
    rename_i timeouts
    split at built
    · cases built
    rename_i sizes
    obtain ⟨issuer, parses, built⟩ := Fallible.bind_eq_ok.mp built
    split at built
    · cases built
    rename_i secure
    split at built
    · cases built
    rename_i parsedIssuer split'
    split at built
    · cases built
    rename_i noQuery
    obtain ⟨issuerOrigin, isOrigin, built⟩ := Fallible.bind_eq_ok.mp built
    obtain ⟨allowed, collected, built⟩ := Fallible.bind_eq_ok.mp built
    cases built
    have isSecure : issuer.scheme = "https" ∨ allowInsecureLoopback = true := by
      by_cases https : issuer.scheme = "https"
      · exact Or.inl https
      · exact Or.inr (by simpa [https] using secure)
    refine ⟨issuer, issuerOrigin, parsedIssuer, allowed, ⟨?_, ?_, ?_, isSecure, split', not_not.mp noQuery,
      isOrigin, collected⟩, rfl⟩
    · obtain ⟨dns, http⟩ := not_or.mp timeouts
      exact ⟨Rat.not_le.mp dns, Rat.not_le.mp http⟩
    · simpa [not_or] using sizes
    · exact Fallible.mapError_eq_ok.mp parses
  · rintro ⟨issuer, issuerOrigin, parsedIssuer, allowed, facts, rfl⟩
    have parses : parseUrlForInit issuerUrl = .ok issuer := Fallible.mapError_eq_ok.mpr facts.parsed
    have secure : ¬ (issuer.scheme ≠ "https" ∧ allowInsecureLoopback = false) := by
      rintro ⟨http, strict⟩
      exact facts.secure.elim http fun open' => by rw [strict] at open'; cases open'
    have timeouts : ¬ (dnsTimeoutSeconds ≤ 0 ∨ httpTimeoutSeconds ≤ 0) := by
      exact not_or.mpr ⟨Rat.not_le.mpr facts.timeouts.1, Rat.not_le.mpr facts.timeouts.2⟩
    have sizes : ¬ (discoveryMaxBytes ≤ 0 ∨ jwksMaxBytes ≤ 0) := by
      simpa [not_or] using facts.sizes
    rw [OidcNetworkSecurityPolicy.init, if_neg timeouts, if_neg sizes, parses]
    show (if _ then _ else _) = _
    rw [if_neg secure]
    simp only [facts.split]
    rw [if_neg (not_not.mpr facts.noQuery), facts.isOrigin]
    show (_ >>= _) = _
    rw [facts.allows]
    rfl

/-- **What a constructed policy trusts**: the issuer's origin and the allowlisted ones. -/
theorem init_trusts {issuerUrl : String} {allowInsecureLoopback : Bool}
    {jwksAllowedOrigins : List String} {dnsTimeoutSeconds httpTimeoutSeconds : Rat}
    {discoveryMaxBytes jwksMaxBytes : Int} {policy : OidcNetworkSecurityPolicy}
    (built : OidcNetworkSecurityPolicy.init issuerUrl allowInsecureLoopback jwksAllowedOrigins
      dnsTimeoutSeconds httpTimeoutSeconds discoveryMaxBytes jwksMaxBytes = .ok policy) :
    policy.issuerUrl = issuerUrl ∧ parseUrl issuerUrl = .ok policy.issuerOrigin ∧
      ∀ origin ∈ policy.trustedJwksOrigins, origin = policy.issuerOrigin ∨
        ∃ rawOrigin ∈ jwksAllowedOrigins, parseUrl rawOrigin = .ok origin := by
  obtain ⟨issuer, issuerOrigin, parsedIssuer, allowed, facts, rfl⟩ := init_ok_iff.mp built
  have parses : parseUrlForInit issuerUrl = .ok issuer := Fallible.mapError_eq_ok.mpr facts.parsed
  refine ⟨rfl, originForInit_parsed parses facts.isOrigin, ?_⟩
  intro origin member
  rcases List.mem_cons.mp member with isIssuer | inAllowed
  · exact Or.inl isIssuer
  · obtain ⟨rawOrigin, listed, parsed⟩ := Fallible.mem_of_mapM_eq_ok facts.allows inAllowed
    exact Or.inr ⟨rawOrigin, listed, allowedOrigin_parsed parsed⟩

/-! ### Which answers are accepted -/

/-- An address of none of the classes the policy promises to refuse. -/
structure IsPublic (address : IPAddress) : Prop where
  notPrivate : address.isPrivate = false
  notLoopback : address.isLoopback = false
  notLinkLocal : address.isLinkLocal = false
  notMulticast : address.isMulticast = false
  notUnspecified : address.isUnspecified = false
  notReserved : address.isReserved = false

omit [UnicodeTables] in
theorem isPublic_iff_of_isGlobal {address : IPAddress} (isGlobal : address.isGlobal = true) :
    IsPublic address ↔ address.isMulticast = false ∧ address.isReserved = false := by
  obtain ⟨notPrivate, notLoopback, notLinkLocal, notUnspecified⟩ := isGlobal_excludes isGlobal
  constructor
  · intro isPublic
    exact ⟨isPublic.notMulticast, isPublic.notReserved⟩
  · rintro ⟨notMulticast, notReserved⟩
    exact ⟨notPrivate, notLoopback, notLinkLocal, notMulticast, notUnspecified, notReserved⟩

omit [UnicodeTables] in
theorem selectTarget_ok_iff {policy : OidcNetworkSecurityPolicy} {kind : RequestKind}
    {origin : Origin} {addresses : List IPAddress} {target : ResolvedTarget} :
    policy.selectTarget kind origin addresses = .ok target ↔
      ∃ first rest, addresses = first :: rest ∧
        target = ⟨origin.scheme, origin.host, origin.port, first, kind⟩ ∧
        ((policy.allowInsecureLoopback = true ∧
            ∀ address ∈ addresses, (effectiveAddress address).isLoopback = true) ∨
          (origin.scheme = "https" ∧
            ∀ address ∈ addresses, (effectiveAddress address).isGlobal = true)) := by
  cases addresses with
  | nil => simp [OidcNetworkSecurityPolicy.selectTarget]
  | cons first rest =>
    unfold OidcNetworkSecurityPolicy.selectTarget
    dsimp only
    have loopback_iff : ((first :: rest).map effectiveAddress).all IPAddress.isLoopback = true ↔
        ∀ address ∈ first :: rest, (effectiveAddress address).isLoopback = true := by
      rw [List.all_map, List.all_eq_true]
      rfl
    have global_iff : ((first :: rest).map effectiveAddress).any (!·.isGlobal) = false ↔
        ∀ address ∈ first :: rest, (effectiveAddress address).isGlobal = true := by
      rw [List.any_map, List.any_eq_false]
      simp
    rw [← loopback_iff, ← global_iff]
    generalize ((first :: rest).map effectiveAddress).all IPAddress.isLoopback = loopback
    generalize ((first :: rest).map effectiveAddress).any (!·.isGlobal) = nonGlobal
    by_cases admitted : loopback = true ∧ policy.allowInsecureLoopback = true
    · rw [if_pos admitted, Except.ok.injEq]
      constructor
      · rintro rfl
        exact ⟨first, rest, rfl, rfl, Or.inl admitted.symm⟩
      · rintro ⟨_, _, same, rfl, -⟩
        cases same
        rfl
    · rw [if_neg admitted]
      have notAdmitted : ¬ (policy.allowInsecureLoopback = true ∧ loopback = true) :=
        fun both => admitted both.symm
      by_cases secure : origin.scheme = "https"
      · rw [if_neg (not_not.mpr secure)]
        cases nonGlobal with
        | true => simp [notAdmitted]
        | false =>
          rw [if_neg Bool.false_ne_true, Except.ok.injEq]
          constructor
          · rintro rfl
            exact ⟨first, rest, rfl, rfl, Or.inr ⟨secure, rfl⟩⟩
          · rintro ⟨_, _, same, rfl, -⟩
            cases same
            rfl
      · rw [if_pos secure]
        simp [secure, notAdmitted]

/-- **What a resolved target has behind it.** -/
theorem resolve_ok_iff {policy : OidcNetworkSecurityPolicy} {resolver : Resolver} {url : String}
    {target : ResolvedTarget} :
    policy.resolve resolver url = .ok target ↔
      ∃ kind origin addresses, policy.requestKind url = .ok kind ∧ parseUrl url = .ok origin ∧
        policy.addressesFor resolver origin = .ok addresses ∧
        policy.selectTarget kind origin addresses = .ok target := by
  unfold OidcNetworkSecurityPolicy.resolve
  simp only [Fallible.bind_eq_ok]
  constructor
  · rintro ⟨kind, kinded, origin, parsed, addresses, answered, selected⟩
    exact ⟨kind, origin, addresses, kinded, parsed, answered, selected⟩
  · rintro ⟨kind, origin, addresses, kinded, parsed, answered, selected⟩
    exact ⟨kind, kinded, origin, parsed, addresses, answered, selected⟩

/-- **OIDC egress reaches public addresses only, exactly when no accepted answer is multicast or
reserved.** A resolved URL is HTTPS with public answers, or an allowed loopback, if and only if a trusted
HTTPS URL whose answers are all global never has an answer that is multicast or reserved. -/
theorem egress_public_iff (policy : OidcNetworkSecurityPolicy) (resolver : Resolver) (url : String) :
    (∀ target, policy.resolve resolver url = .ok target →
      ∃ origin addresses, parseUrl url = .ok origin ∧
        policy.addressesFor resolver origin = .ok addresses ∧
        ((policy.allowInsecureLoopback = true ∧
            ∀ address ∈ addresses, (effectiveAddress address).isLoopback = true) ∨
          (origin.scheme = "https" ∧ ∀ address ∈ addresses, IsPublic (effectiveAddress address)))) ↔
    ∀ kind origin addresses, policy.requestKind url = .ok kind → parseUrl url = .ok origin →
      policy.addressesFor resolver origin = .ok addresses → origin.scheme = "https" →
      (∀ address ∈ addresses, (effectiveAddress address).isGlobal = true) →
      ∀ address ∈ addresses, (effectiveAddress address).isMulticast = false ∧
        (effectiveAddress address).isReserved = false := by
  constructor
  · intro sound kind origin addresses kinded parsed answered secure allGlobal address member
    cases addresses with
    | nil => cases member
    | cons first rest =>
      have selected : policy.selectTarget kind origin (first :: rest) =
          .ok ⟨origin.scheme, origin.host, origin.port, first, kind⟩ :=
        selectTarget_ok_iff.mpr ⟨first, rest, rfl, rfl, Or.inr ⟨secure, allGlobal⟩⟩
      obtain ⟨origin', addresses', parsed', answered', outcome⟩ := sound _
        (resolve_ok_iff.mpr ⟨kind, origin, first :: rest, kinded, parsed, answered, selected⟩)
      rw [parsed] at parsed'
      cases parsed'
      rw [answered] at answered'
      cases answered'
      rcases outcome with ⟨-, allLoopback⟩ | ⟨-, allPublic⟩
      · have isLoopback := allLoopback address member
        rw [(isGlobal_excludes (allGlobal address member)).2.1] at isLoopback
        cases isLoopback
      · exact (isPublic_iff_of_isGlobal (allGlobal address member)).mp (allPublic address member)
  · intro clean target resolved
    obtain ⟨kind, origin, addresses, kinded, parsed, answered, selected⟩ := resolve_ok_iff.mp resolved
    obtain ⟨first, rest, -, -, outcome⟩ := selectTarget_ok_iff.mp selected
    refine ⟨origin, addresses, parsed, answered, Or.imp_right ?_ outcome⟩
    rintro ⟨secure, allGlobal⟩
    refine ⟨secure, fun address member => ?_⟩
    exact (isPublic_iff_of_isGlobal (allGlobal address member)).mpr
      (clean kind origin addresses kinded parsed answered secure allGlobal address member)

end Policy

/-- The trust boundary of `https://issuer.example`. -/
def issuerPolicy : OidcNetworkSecurityPolicy where
  issuerUrl := "https://issuer.example"
  issuerOrigin := ⟨"https", "issuer.example", 443⟩
  discoveryUrl := "https://issuer.example/.well-known/openid-configuration"
  allowInsecureLoopback := false
  dnsTimeoutSeconds := 2
  httpTimeoutSeconds := 5
  discoveryMaxBytes := 65536
  jwksMaxBytes := 524288
  trustedJwksOrigins := [⟨"https", "issuer.example", 443⟩]

theorem issuerPolicy_init :
    let _ := asciiTables
    OidcNetworkSecurityPolicy.init "https://issuer.example" = .ok issuerPolicy := by
  rfl

/-- A multicast answer is accepted. -/
theorem egress_multicast_resolved :
    let _ := asciiTables
    OidcNetworkSecurityPolicy.init "https://issuer.example" = .ok issuerPolicy ∧
      issuerPolicy.allowInsecureLoopback = false ∧
      issuerPolicy.resolve (fun _ _ _ => .ok [.v4 0xE0000001]) issuerPolicy.discoveryUrl =
        .ok ⟨"https", "issuer.example", 443, .v4 0xE0000001, .discovery⟩ ∧
      (effectiveAddress (.v4 0xE0000001)).isMulticast = true := by
  exact ⟨issuerPolicy_init, rfl, rfl, rfl⟩

end McpAuth
