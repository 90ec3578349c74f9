/-
**The outbound transport of OIDC requests.**

`PinnedOidcAsyncTransport.handleAsyncRequest` resolves and validates the target of a request, takes the
child transport of its origin, and sends the child a request whose URL names the validated address while
`Host` and SNI keep the original host. It suspends where the source awaits: at the resolver, at the lock
of the children, in a child, and while something is closed. The resolver, the child and the closing may
answer anything, and may raise.
-/

import McpAuth.Adapters.OidcNetworkPolicy
import McpAuth.Adapters.Principal
import McpAuth.Library.Multidict
import McpAuth.Library.Visits

namespace McpAuth

open PyText UrlSplit IpAddress PyNumbers Cooperative

/-! ### httpx -/

/-- The parts of an `httpx.URL`. -/
structure HttpxUrl where
  scheme : String
  userinfo : String := ""
  host : String
  port : Option ℕ := none
  path : String
  query : Option String := none
  fragment : Option String := none
  deriving DecidableEq

/-- `url.copy_with(host=host)`. -/
def HttpxUrl.copyWith (url : HttpxUrl) (host : String) : HttpxUrl := { url with host := host }

/-- The URL that httpx reads from a text, and the text of a URL. -/
class Httpx where
  url : String → HttpxUrl
  text : HttpxUrl → String

/-- `httpx.Headers`: names and values, the names compared without case. -/
abbrev HttpxHeaders := List (String × String)

namespace HttpxHeaders

/-- The key of a header. -/
def key (header : String × String) : String := asciiLower header.1

/-- `name in headers`. -/
def contains (headers : HttpxHeaders) (name : String) : Bool :=
  headers.any fun header => key header == asciiLower name

/-- `headers.get(name)`: the values under a name, joined. -/
def get (headers : HttpxHeaders) (name : String) : Option String :=
  match Multidict.under key (asciiLower name) headers with
  | [] => none
  | found => some (", ".intercalate (found.map Prod.snd))

/-- `headers[name] = value`. -/
def set (headers : HttpxHeaders) (name value : String) : HttpxHeaders :=
  Multidict.put key (name, value) headers

end HttpxHeaders

/-- The value of a request extension. -/
inductive Extension
  | timeout (connect read write pool : ℚ)
  | text (value : String)
  | other (shown : String)
  deriving DecidableEq

abbrev Extensions := List (String × Extension)

/-- Why an awaited call did not return. -/
inductive PinnedError
  | security (error : OidcNetworkSecurityError)
  | outside (shown : String)
  deriving DecidableEq

/-- How the iteration of a stream ends after its last chunk. -/
inductive StreamEnd
  | exhausted
  | raised (error : PinnedError)
  deriving DecidableEq

/-- An asynchronous byte stream: the chunks it yields, and how it ends. -/
structure ByteStream where
  chunks : List Bytes
  ending : StreamEnd := .exhausted
  deriving DecidableEq

structure HttpxRequest where
  method : String
  url : HttpxUrl
  headers : HttpxHeaders
  stream : ByteStream
  extensions : Extensions
  deriving DecidableEq

structure HttpxResponse where
  statusCode : ℕ
  headers : HttpxHeaders
  stream : ByteStream
  extensions : Extensions
  request : Option HttpxRequest := none
  deriving DecidableEq

/-! ### State and suspensions -/

/-- The children by origin, numbered in the order in which the factory made them, and the audit trail. -/
structure PinnedState where
  transports : List (Origin × ℕ) := []
  created : ℕ := 0
  lock : AsyncLock := {}
  audits : List SecurityAudit := []

/-- What a call waits for. -/
inductive PinnedWait
  | resolver (host : String) (port : ℕ) (timeout : ℚ)
  | turn (ticket : ℕ)
  | child (transport : ℕ) (request : HttpxRequest)
  | closeResponse (response : HttpxResponse)
  | closeChild (transport : ℕ)

/-- The answers to a wait. -/
abbrev PinnedWait.Answer : PinnedWait → Type
  | .resolver _ _ _ => Except PinnedError (List IPAddress)
  | .turn _ => Unit
  | .child _ _ => Except PinnedError HttpxResponse
  | .closeResponse _ | .closeChild _ => Except PinnedError Unit

abbrev PinnedAsync (α : Type) := Async PinnedState PinnedWait PinnedWait.Answer PinnedError α

/-- `self._lock`. -/
def transportsLock : LockField PinnedState PinnedWait where
  get := PinnedState.lock
  set lock state := { state with lock := lock }
  turn := .turn

/-- The child under an origin. -/
def PinnedState.child (state : PinnedState) (origin : Origin) : Option ℕ :=
  (Multidict.find Prod.fst origin state.transports).map Prod.snd

/-- `child = self._transport_factory(); self._transports[key] = child`. -/
def PinnedState.mint (origin : Origin) (state : PinnedState) : PinnedState :=
  { state with
    transports := Multidict.put Prod.fst (origin, state.created) state.transports
    created := state.created + 1 }

namespace PinnedAsync

/-- A step of the network policy. -/
def check {α : Type} (outcome : Except OidcNetworkSecurityError α) : PinnedAsync α :=
  Async.ofExcept (outcome.mapError .security)

/-- `raise OidcNetworkSecurityError(message)`. -/
def raise {α : Type} (message : String) : PinnedAsync α :=
  Async.ofExcept (.error (.security ⟨message⟩))

/-- An awaited call that may raise. -/
def call {α : Type} (want : PinnedWait) (answer : PinnedWait.Answer want → Except PinnedError α) :
    PinnedAsync α :=
  ExceptT.mk (.wait want fun outcome => .done (answer outcome))

/-- `await response.aclose()`, then `raise OidcNetworkSecurityError(message)`. -/
def refuse {α : Type} (response : HttpxResponse) (message : String) : PinnedAsync α := do
  call (.closeResponse response) id
  raise message

end PinnedAsync

/-! ### Bounded streams -/

/-- The message of a response over its limit. -/
def sizeLimitExceeded : String := "OIDC response exceeded the configured size limit"

/-- The chunks that `_BoundedAsyncByteStream.__aiter__` yields after a total, and how it ends. -/
def boundedFrom (limit : ℤ) (ending : StreamEnd) : ℕ → List Bytes → ByteStream
  | _, [] => ⟨[], ending⟩
  | total, chunk :: later =>
    let total := total + chunk.length
    if (total : ℤ) > limit then ⟨[], .raised (.security ⟨sizeLimitExceeded⟩)⟩
    else
      let rest := boundedFrom limit ending total later
      { rest with chunks := chunk :: rest.chunks }

/-- `_BoundedAsyncByteStream`. -/
def boundedStream (limit : ℤ) (stream : ByteStream) : ByteStream :=
  boundedFrom limit stream.ending 0 stream.chunks

/-! ### The transport -/

/-- A transport of a policy; the factory makes the children. -/
structure PinnedOidcAsyncTransport where
  policy : OidcNetworkSecurityPolicy
  maxHosts : ℤ := 8

/-- `_render_host_header`. -/
def renderHostHeader (host : String) (port : ℕ) (scheme : String) : Except OidcNetworkSecurityError String :=
  do
    let rendered := match ipAddress host with
      | some (.v6 _ _) => "[" ++ host ++ "]"
      | _ => host
    let standard ← defaultPort scheme
    .ok (if port ≠ standard then rendered ++ ":" ++ toString port else rendered)

section Transport

variable [UnicodeTables] [Httpx]

/-- `response_limit_for`. -/
def OidcNetworkSecurityPolicy.responseLimitFor (policy : OidcNetworkSecurityPolicy) (url : String) :
    Except OidcNetworkSecurityError ℤ := do
  let kind ← policy.requestKind url
  .ok (if kind = .discovery then policy.discoveryMaxBytes else policy.jwksMaxBytes)

namespace PinnedOidcAsyncTransport

/-- The addresses of an origin: the host itself, or what the resolver answers. -/
def addressesFor (transport : PinnedOidcAsyncTransport) (origin : Origin) : PinnedAsync (List IPAddress) :=
  match ipAddress origin.host with
  | some literal => Async.ofExcept (.ok [literal])
  | none => PinnedAsync.call (.resolver origin.host origin.port transport.policy.dnsTimeoutSeconds) id

/-- `self._policy.resolve(url)`. -/
def resolve (transport : PinnedOidcAsyncTransport) (url : String) : PinnedAsync ResolvedTarget := do
  let kind ← PinnedAsync.check (transport.policy.requestKind url)
  let origin ← PinnedAsync.check (parseUrl url)
  let addresses ← transport.addressesFor origin
  PinnedAsync.check (transport.policy.selectTarget kind origin addresses)

/-- `_transport_for`. -/
def transportFor (transport : PinnedOidcAsyncTransport) (target : ResolvedTarget) : PinnedAsync ℕ := do
  let key ← PinnedAsync.check (originOf target.scheme target.host target.port)
  let existing ← Async.lift (.access id fun state => .done (state.child key))
  match existing with
  | some child => Async.ofExcept (.ok child)
  | none => transportsLock.locked do
    let state ← Async.lift .read
    match state.child key with
    | some child => Async.ofExcept (.ok child)
    | none =>
      if (state.transports.length : ℤ) ≥ transport.maxHosts then
        PinnedAsync.raise "OIDC outbound host budget exhausted"
      else Async.lift (.access (PinnedState.mint key) fun state => .done state.created)

/-- The request for the child: the address in the URL, the original host in `Host` and SNI. -/
def networkRequest (transport : PinnedOidcAsyncTransport) (request : HttpxRequest) (target : ResolvedTarget) :
    Except OidcNetworkSecurityError HttpxRequest := do
  let hostHeader ← renderHostHeader target.host target.port target.scheme
  let headers := (HttpxHeaders.set request.headers "Host" hostHeader).set "Accept-Encoding" "identity"
  let timeout := transport.policy.httpTimeoutSeconds
  let extensions := Multidict.put Prod.fst ("timeout", .timeout timeout timeout timeout timeout)
    request.extensions
  let extensions := if target.scheme = "https" then
      Multidict.put Prod.fst ("sni_hostname", .text target.host) extensions
    else extensions
  .ok ⟨request.method, request.url.copyWith target.ip.compressed, headers, request.stream, extensions⟩

/-- What becomes of a child's response. -/
def receive (transport : PinnedOidcAsyncTransport) (originalUrl : String) (request : HttpxRequest)
    (response : HttpxResponse) : PinnedAsync HttpxResponse :=
  if 300 ≤ response.statusCode ∧ response.statusCode < 400 then
    PinnedAsync.refuse response "OIDC redirects are not permitted"
  else
    let contentEncoding := strip (lower ((response.headers.get "Content-Encoding").getD "identity"))
    if contentEncoding ≠ "" ∧ contentEncoding ≠ "identity" then
      PinnedAsync.refuse response "compressed OIDC responses are not accepted"
    else do
      let limit ← PinnedAsync.check (transport.policy.responseLimitFor originalUrl)
      let bounded : HttpxResponse :=
        ⟨response.statusCode, response.headers, boundedStream limit response.stream, response.extensions,
          some request⟩
      match response.headers.get "Content-Length" with
      | none => Async.ofExcept (.ok bounded)
      | some contentLength => match parseInt 10 contentLength with
        | none => PinnedAsync.refuse response "OIDC response has invalid Content-Length"
        | some length =>
          if length < 0 ∨ length > limit then PinnedAsync.refuse response sizeLimitExceeded
          else Async.ofExcept (.ok bounded)

/-- `handle_async_request`. -/
def handleAsyncRequest (transport : PinnedOidcAsyncTransport) (request : HttpxRequest) :
    PinnedAsync HttpxResponse :=
  if request.method ≠ "GET" then PinnedAsync.raise "OIDC control-plane requests must use GET"
  else if ["Authorization", "Proxy-Authorization"].any request.headers.contains then do
    Async.lift (.write fun state => { state with
      audits := emitSecurityAudit .outboundCredentialBlocked .denied
        "credential_header_on_oidc_control_plane" none none none none (some "oidc_control_plane") ::
        state.audits })
    PinnedAsync.raise "OIDC control-plane requests must not carry authorization credentials"
  else do
    let originalUrl := Httpx.text request.url
    let target ← transport.resolve originalUrl
    let child ← transport.transportFor target
    let sent ← PinnedAsync.check (transport.networkRequest request target)
    let response ← PinnedAsync.call (.child child sent) id
    transport.receive originalUrl request response

/-- The children are closed one after the other. -/
def closeAll : List (Origin × ℕ) → PinnedAsync Unit
  | [] => Async.ofExcept (.ok ())
  | (_, child) :: later => do
    PinnedAsync.call (.closeChild child) id
    closeAll later

/-- `aclose`. -/
def aclose : PinnedAsync Unit := do
  let transports ← Async.lift (.access (fun state => { state with transports := [] })
    fun state => .done state.transports)
  closeAll transports

end PinnedOidcAsyncTransport

/-- What a transport is asked to do. -/
inductive PinnedCall
  | handle (request : HttpxRequest)
  | close

/-- The result of a call; closing has none. -/
def PinnedOidcAsyncTransport.call (transport : PinnedOidcAsyncTransport) :
    PinnedCall → PinnedAsync (Option HttpxResponse)
  | .handle request => do
    let response ← transport.handleAsyncRequest request
    Async.ofExcept (.ok (some response))
  | .close => do
    PinnedOidcAsyncTransport.aclose
    Async.ofExcept (.ok none)

/-- Only the turn at the lock depends on the state. -/
def PinnedWait.ready : PinnedWait → PinnedState → Bool
  | .turn ticket, state => state.lock.isTurn ticket
  | _, _ => true

/-- What became of a call so far. -/
abbrev PinnedProcess : Type :=
  Process PinnedState PinnedWait PinnedWait.Answer (Except PinnedError (Option HttpxResponse))

abbrev PinnedPool : Type :=
  Pool PinnedState PinnedWait PinnedWait.Answer PinnedCall (Except PinnedError (Option HttpxResponse))

abbrev PinnedAction : Type := Action PinnedWait PinnedWait.Answer PinnedCall

/-- The calls of one transport as tasks over its state. -/
def pinnedSystem (transport : PinnedOidcAsyncTransport) :
    System PinnedState PinnedWait PinnedWait.Answer PinnedCall
      (Except PinnedError (Option HttpxResponse)) where
  program call := (transport.call call).run
  ready := PinnedWait.ready

end Transport

end McpAuth
