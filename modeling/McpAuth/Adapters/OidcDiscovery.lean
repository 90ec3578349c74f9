/-
**`OidcDiscoveryClient`: discovery metadata, cached only after trust validation.**

`resolve` looks in the cache, then again under the lock, and fetches. `resolve_accounted`: whatever the
caches hold and the network answers, it raises an exception the verifier does not catch exactly when
the one document it read was poisoned.
-/

import McpAuth.Adapters.OidcRuntime

namespace McpAuth

open Cooperative JsonText PyText

/-- Resolves one configured issuer's discovery document. -/
structure OidcDiscoveryClient where
  policy : OidcNetworkSecurityPolicy
  cacheTtlSeconds : Int
  cacheSize : Int
  positive : 0 < cacheTtlSeconds ∧ 0 < cacheSize

/-- `OidcDiscoveryClient.__init__`, with the message of its `ValueError`. -/
def OidcDiscoveryClient.init (policy : OidcNetworkSecurityPolicy) (cacheTtlSeconds : Int := 3600)
    (cacheSize : Int := 8) : Except String OidcDiscoveryClient :=
  if positive : 0 < cacheTtlSeconds ∧ 0 < cacheSize then
    .ok ⟨policy, cacheTtlSeconds, cacheSize, positive⟩
  else .error "discovery cache TTL and size must be positive"

/-- The empty cache of a new client. -/
def OidcDiscoveryClient.cache (client : OidcDiscoveryClient) :
    TtlCache.Cache String OidcMetadata ℚ where
  maxsize := client.cacheSize.toNat
  ttl := client.cacheTtlSeconds

/-- `except (HTTPError, OidcDocumentError, OidcNetworkSecurityError)` of `_fetch`. -/
def Raised.inDiscovery : Raised → Raised
  | .httpError | .document _ | .networkSecurity _ =>
    .discovery "could not resolve trusted OIDC metadata"
  | error => error

theorem inDiscovery_uncaught (error : Raised) : error.inDiscovery.Uncaught ↔ error.Escapes := by
  cases error <;> rfl

variable [Clocks] [JsonGrammar] [UnicodeTables]

namespace OidcDiscoveryClient

/-- `_fetch`. -/
def fetch (client : OidcDiscoveryClient) : OidcAsync OidcMetadata :=
  (httpGet .discovery client.policy.discoveryUrl (readMetadata client.policy)).adapt
    Raised.inDiscovery

/-- The body of `async with self._fetch_lock` in `resolve`. -/
def refresh (client : OidcDiscoveryClient) (issuerBaseUrl : String) : OidcAsync OidcMetadata := do
  match ← discoveryCache.lookup issuerBaseUrl with
  | some cached => pure cached
  | none => do
    startFetch .discovery client.policy.discoveryUrl false false
    let metadata ← client.fetch
    discoveryCache.store issuerBaseUrl metadata
    pure metadata

/-- `resolve`. -/
def resolve (client : OidcDiscoveryClient) (issuerBaseUrl : String) : OidcAsync OidcMetadata :=
  if issuerBaseUrl ≠ client.policy.issuerUrl then
    throw (.discovery "OIDC discovery requested for an untrusted issuer")
  else do
    match ← discoveryCache.lookup issuerBaseUrl with
    | some cached => pure cached
    | none => discoveryLock.locked (client.refresh issuerBaseUrl)

end OidcDiscoveryClient

/-! ### Exceptions -/

variable {jwksMaxBytes : Int}

omit [Clocks] in
theorem fetchMetadata_accounted (client : OidcDiscoveryClient) :
    Accounted Raised.Uncaught (Poisoned client.policy.discoveryMaxBytes jwksMaxBytes)
      (fun _ => True) client.fetch :=
  (httpGet_accounted fun _ => readMetadata_escapes).adapt inDiscovery_uncaught

/-- **Discovery leaves an exception uncaught exactly when it read a poisoned document.** -/
theorem resolve_accounted (client : OidcDiscoveryClient) (issuerBaseUrl : String) :
    Accounted Raised.Uncaught (Poisoned client.policy.discoveryMaxBytes jwksMaxBytes)
      (fun _ => True) (client.resolve issuerBaseUrl) := by
  unfold OidcDiscoveryClient.resolve
  split
  · exact .throw id
  · refine (lookup_accounted _ _).bind fun found _ => ?_
    cases found with
    | some cached => exact .pure trivial
    | none =>
      refine .locked (fun _ _ => id) ?_
      refine (lookup_accounted _ _).bind fun found _ => ?_
      cases found with
      | some cached => exact .pure trivial
      | none =>
        refine (startFetch_accounted _ _ _ _).bind fun _ _ => ?_
        refine (fetchMetadata_accounted client).bind fun metadata _ => ?_
        exact (store_accounted _ _ _).bind fun _ _ => .pure trivial

end McpAuth
