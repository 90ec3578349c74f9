/-
**Admission and probes in front of the MCP app.**

* `validateEnvelope` — header count, header bytes, singleton headers and framing;
* `HttpTransportAdmissionMiddleware.call` — envelope, the SDK's Host/Origin/content-type check, POST only
  on the MCP path, and one slot for each request inside the app;
* `OperationalProbeMiddleware.call` — the liveness and readiness paths.

Both wrap an app and suspend where the source awaits: at the SDK's check, while a response is sent, and
in the wrapped app. Each of these may also raise or be cancelled (`Interrupt`).

`validateEnvelopeWithin_none_iff`: what an envelope without rejection satisfies.
-/

import Mathlib.Algebra.GroupWithZero.Nat
import Mathlib.Data.List.Nodup
import McpAuth.Adapters.ProgressiveAuth
import McpAuth.Library.Cooperative

namespace McpAuth

open PyText Cooperative

/-! ### State and suspensions -/

/-- What the middlewares of one process share: the slots in use, `RuntimeStatus`, and the audit trail. -/
structure TransportState where
  inFlight : ℤ := 0
  ready : Bool := false
  audits : List SecurityAudit := []

/-- A Starlette response. -/
structure TransportResponse where
  content : String := ""
  statusCode : ℕ := 200
  headers : List (String × String) := []
  deriving DecidableEq

/-- Why an awaited call did not return. -/
inductive Interrupt
  | raised
  | cancelled
  deriving DecidableEq

/-- What a request waits for. -/
inductive TransportWait
  | validateRequest (scope : HttpScope) (isPost : Bool)
  | respond (rejection : TransportResponse)
  | respondProbe (response : TransportResponse)
  | app (scope : HttpScope)

/-- The SDK's check answers with a rejection or `None`; the other calls return nothing. -/
abbrev TransportWait.Answer : TransportWait → Type
  | .validateRequest _ _ => Except Interrupt (Option TransportResponse)
  | _ => Except Interrupt Unit

abbrev TransportAsync (α : Type) := Async TransportState TransportWait TransportWait.Answer Interrupt α

/-- An ASGI app. -/
abbrev AsgiApp := HttpScope → TransportAsync Unit

/-! ### The envelope -/

/-- `_CRITICAL_SINGLETON_HEADERS`. -/
def criticalSingletonHeaders : List Bytes :=
  ["authorization", "content-length", "content-type", "host", "mcp-method", "mcp-name",
    "mcp-protocol-version", "mcp-session-id", "origin", "transfer-encoding"].map asciiBytes

/-- The bounds of the admission middleware, as `Settings` accepts them. -/
structure TransportLimits where
  maxHeaderCount : ℕ := 64
  maxHeaderBytes : ℕ := 32 * 1024
  maxConcurrentRequests : ℕ := 64
  headerCount : 8 ≤ maxHeaderCount ∧ maxHeaderCount ≤ 256 := by decide
  headerBytes : 1024 ≤ maxHeaderBytes ∧ maxHeaderBytes ≤ 128 * 1024 := by decide
  concurrentRequests : 1 ≤ maxConcurrentRequests ∧ maxConcurrentRequests ≤ 1024 := by decide

/-- A rejection with the reason of its audit record. -/
structure TransportRejection where
  reason : String
  response : TransportResponse
  deriving DecidableEq

/-- The loop over the header names: `seen` are the singletons so far. -/
def scanHeaders (seen : List Bytes) (hasContentLength hasTransferEncoding : Bool) :
    List Bytes → Option TransportRejection
  | [] =>
    if hasContentLength && hasTransferEncoding then
      some ⟨"ambiguous_request_framing", ⟨"Ambiguous request framing", 400, []⟩⟩
    else none
  | rawName :: names =>
    let name := lowerBytes rawName
    let hasContentLength := hasContentLength || name == asciiBytes "content-length"
    let hasTransferEncoding := hasTransferEncoding || name == asciiBytes "transfer-encoding"
    if !criticalSingletonHeaders.contains name then
      scanHeaders seen hasContentLength hasTransferEncoding names
    else if seen.contains name then
      some ⟨"duplicate_security_header", ⟨"Duplicate security-critical header", 400, []⟩⟩
    else scanHeaders (name :: seen) hasContentLength hasTransferEncoding names

/-- The bytes the headers take on the wire. -/
def headerBytes (headers : List (Bytes × Bytes)) : ℕ :=
  (headers.map fun header => header.1.length + header.2.length + 4).sum

/-- `_validate_envelope` under any two budgets. -/
def validateEnvelopeWithin (maxHeaderCount maxHeaderBytes : ℤ) (scope : HttpScope) : Option TransportRejection :=
  if scope.headers.length > maxHeaderCount then
    some ⟨"header_count_limit", ⟨"Too many request headers", 431, []⟩⟩
  else if headerBytes scope.headers > maxHeaderBytes then
    some ⟨"header_bytes_limit", ⟨"Request headers too large", 431, []⟩⟩
  else scanHeaders [] false false (scope.headers.map Prod.fst)

/-- `_validate_envelope` under the accepted budgets. -/
def validateEnvelope (limits : TransportLimits) (scope : HttpScope) : Option TransportRejection :=
  validateEnvelopeWithin limits.maxHeaderCount limits.maxHeaderBytes scope

/-- The critical names of a header list, lower-cased. -/
def criticalNames (names : List Bytes) : List Bytes :=
  (names.map lowerBytes).filter criticalSingletonHeaders.contains

theorem scanHeaders_none_iff {names seen : List Bytes} {hasContentLength hasTransferEncoding : Bool} :
    scanHeaders seen hasContentLength hasTransferEncoding names = none ↔
      (criticalNames names).Nodup ∧ (∀ name ∈ criticalNames names, name ∉ seen) ∧
        ¬ ((hasContentLength = true ∨ asciiBytes "content-length" ∈ names.map lowerBytes) ∧
          (hasTransferEncoding = true ∨ asciiBytes "transfer-encoding" ∈ names.map lowerBytes)) := by
  induction names generalizing seen hasContentLength hasTransferEncoding with
  | nil => simp [scanHeaders, criticalNames]
  | cons rawName names ih =>
    have framing : ∀ (flag : Bool) (name : Bytes),
        ((flag || lowerBytes rawName == name) = true ∨ name ∈ names.map lowerBytes) ↔
          (flag = true ∨ name ∈ (rawName :: names).map lowerBytes) := by
      intro flag name
      rw [Bool.or_eq_true, beq_iff_eq, or_assoc, List.map_cons, List.mem_cons, @eq_comm _ name]
    by_cases critical : lowerBytes rawName ∈ criticalSingletonHeaders
    · have names_cons : criticalNames (rawName :: names) = lowerBytes rawName :: criticalNames names := by
        simp [criticalNames, critical]
      by_cases again : lowerBytes rawName ∈ seen
      · simp [scanHeaders, critical, again, names_cons]
      · have taken : scanHeaders seen hasContentLength hasTransferEncoding (rawName :: names) =
            scanHeaders (lowerBytes rawName :: seen)
              (hasContentLength || lowerBytes rawName == asciiBytes "content-length")
              (hasTransferEncoding || lowerBytes rawName == asciiBytes "transfer-encoding") names := by
          simp [scanHeaders, critical, again]
        rw [taken, ih, framing, framing, names_cons, List.nodup_cons]
        simp only [List.mem_cons, not_or, forall_eq_or_imp]
        grind
    · have names_cons : criticalNames (rawName :: names) = criticalNames names := by
        simp [criticalNames, critical]
      have skipped : scanHeaders seen hasContentLength hasTransferEncoding (rawName :: names) =
          scanHeaders seen (hasContentLength || lowerBytes rawName == asciiBytes "content-length")
            (hasTransferEncoding || lowerBytes rawName == asciiBytes "transfer-encoding") names := by
        simp [scanHeaders, critical]
      rw [skipped, ih, framing, framing, names_cons]

/-- The envelope keeps within the bounds, repeats no critical header and frames its body in one way. -/
structure EnvelopeAccepted (limits : TransportLimits) (scope : HttpScope) : Prop where
  count : scope.headers.length ≤ limits.maxHeaderCount
  bytes : headerBytes scope.headers ≤ limits.maxHeaderBytes
  singletons : (criticalNames (scope.headers.map Prod.fst)).Nodup
  framing : ¬ (asciiBytes "content-length" ∈ (scope.headers.map Prod.fst).map lowerBytes ∧
    asciiBytes "transfer-encoding" ∈ (scope.headers.map Prod.fst).map lowerBytes)

/-- **What an envelope without rejection satisfies**, and nothing more. -/
theorem validateEnvelopeWithin_none_iff {maxHeaderCount maxHeaderBytes : ℤ} {scope : HttpScope} :
    validateEnvelopeWithin maxHeaderCount maxHeaderBytes scope = none ↔
      scope.headers.length ≤ maxHeaderCount ∧ headerBytes scope.headers ≤ maxHeaderBytes ∧
        (criticalNames (scope.headers.map Prod.fst)).Nodup ∧
        ¬ (asciiBytes "content-length" ∈ (scope.headers.map Prod.fst).map lowerBytes ∧
          asciiBytes "transfer-encoding" ∈ (scope.headers.map Prod.fst).map lowerBytes) := by
  unfold validateEnvelopeWithin
  by_cases count : scope.headers.length > maxHeaderCount
  · rw [if_pos count]
    exact iff_of_false (by simp) fun accepted => absurd accepted.1 (by omega)
  by_cases bytes : headerBytes scope.headers > maxHeaderBytes
  · rw [if_neg count, if_pos bytes]
    exact iff_of_false (by simp) fun accepted => absurd accepted.2.1 (by omega)
  rw [if_neg count, if_neg bytes, scanHeaders_none_iff]
  constructor
  · rintro ⟨singletons, -, framing⟩
    exact ⟨by omega, by omega, singletons, by simpa using framing⟩
  · rintro ⟨-, -, singletons, framing⟩
    exact ⟨singletons, by simp, by simpa using framing⟩

theorem validateEnvelope_none_iff {limits : TransportLimits} {scope : HttpScope} :
    validateEnvelope limits scope = none ↔ EnvelopeAccepted limits scope := by
  rw [validateEnvelope, validateEnvelopeWithin_none_iff]
  constructor
  · rintro ⟨count, bytes, singletons, framing⟩
    exact ⟨by omega, by omega, singletons, framing⟩
  · rintro ⟨count, bytes, singletons, framing⟩
    exact ⟨by omega, by omega, singletons, framing⟩

/-! ### Admission -/

/-- An awaited call that may raise. -/
def TransportAsync.call {want : TransportWait} {α : Type}
    (answer : TransportWait.Answer want → Except Interrupt α) : TransportAsync α :=
  ExceptT.mk (.wait want fun outcome => .done (answer outcome))

/-- `await rejection(scope, receive, send)`. -/
def respond (rejection : TransportResponse) : TransportAsync Unit :=
  @TransportAsync.call (.respond rejection) Unit id

/-- `_audit_transport_rejection`. -/
def auditTransportRejection (reason : String) (statusCode : ℕ) : TransportAsync Unit :=
  Async.lift (.write fun state => { state with
    audits := emitSecurityAudit .transportRejected .denied reason none none (some statusCode) ::
      state.audits })

/-- The rejection of other methods on the MCP path. -/
def methodNotAllowed : TransportResponse := { statusCode := 405, headers := [("Allow", "POST")] }

/-- The rejection of a request without a slot. -/
def concurrencyLimit : TransportResponse :=
  ⟨"Server is at its request concurrency limit", 503, [("Retry-After", "1")]⟩

/-- The admission middleware around an app. -/
structure HttpTransportAdmissionMiddleware where
  app : AsgiApp
  mcpPath : String
  limits : TransportLimits
  operationalPaths : List String

/-- `_try_admit`. -/
def tryAdmit (limits : TransportLimits) : Process TransportState TransportWait TransportWait.Answer Bool :=
  do
    let state ← .read
    if state.inFlight ≥ limits.maxConcurrentRequests then return false
    .write fun state => { state with inFlight := state.inFlight + 1 }
    return true

/-- `_release`. -/
def release : Process TransportState TransportWait TransportWait.Answer Unit :=
  .write fun state => { state with inFlight := state.inFlight - 1 }

/-- `HttpTransportAdmissionMiddleware.__call__`. -/
def HttpTransportAdmissionMiddleware.call (middleware : HttpTransportAdmissionMiddleware)
    (scope : HttpScope) : TransportAsync Unit :=
  if scope.scopeType ≠ "http" then middleware.app scope
  else match validateEnvelope middleware.limits scope with
    | some rejection => do
      auditTransportRejection rejection.reason rejection.response.statusCode
      respond rejection.response
    | none =>
      -- Probes keep the envelope budgets and nothing else.
      if scope.path ∈ middleware.operationalPaths then middleware.app scope
      else do
        let transportRejection ←
          @TransportAsync.call (.validateRequest scope (scope.method == "POST")) _ id
        match transportRejection with
        | some rejection =>
          auditTransportRejection "host_or_origin_rejected" rejection.statusCode
          respond rejection
        | none =>
          if scope.path = middleware.mcpPath ∧ scope.method ≠ "POST" then
            auditTransportRejection "method_not_allowed" 405
            respond methodNotAllowed
          else if !(← Async.lift (tryAdmit middleware.limits)) then
            auditTransportRejection "concurrency_limit" 503
            respond concurrencyLimit
          else (middleware.app scope).ensuring release

/-! ### Probes -/

def livePath : String := "/livez"

def readyPath : String := "/readyz"

/-- `_PROBE_HEADERS`. -/
def probeHeaders : List (String × String) :=
  [("Cache-Control", "no-store"), ("X-Content-Type-Options", "nosniff")]

/-- `await response(scope, receive, send)` of a probe. -/
def respondProbe (response : TransportResponse) : TransportAsync Unit :=
  @TransportAsync.call (.respondProbe response) Unit id

/-- The JSON body of a probe. -/
def probeBody (status : String) : String := "\x7b\"status\":\"" ++ status ++ "\"\x7d"

/-- The response to a probe: only readiness asks the runtime status. -/
def probeResponse (isReady : Bool) (scope : HttpScope) : TransportResponse :=
  if scope.method ≠ "GET" then
    { statusCode := 405, headers := probeHeaders ++ [("Allow", "GET")] }
  else if scope.path = livePath then { content := probeBody "ok", headers := probeHeaders }
  else if isReady then { content := probeBody "ready", headers := probeHeaders }
  else ⟨probeBody "not_ready", 503, probeHeaders⟩

/-- The answer to a probe, without the app. -/
def answerProbe (scope : HttpScope) : TransportAsync Unit := do
  let state ← Async.lift .read
  respondProbe (probeResponse state.ready scope)

/-- The probe middleware around an app. -/
structure OperationalProbeMiddleware where
  app : AsgiApp

/-- `OperationalProbeMiddleware.__call__`. -/
def OperationalProbeMiddleware.call (middleware : OperationalProbeMiddleware) (scope : HttpScope) :
    TransportAsync Unit :=
  if scope.scopeType ≠ "http" ∨ scope.path ∉ [livePath, readyPath] then middleware.app scope
  else answerProbe scope

end McpAuth
