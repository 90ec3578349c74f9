/-
**One HTTP request through the HTTP middleware, the verifier decorator and the message middleware.**

`build_server` and `_build_streamable_http_app` wire three layers of this repository around the MCP SDK:

* `contextOf` / `forward` — the outer HTTP middleware: the request context and the 403 replacement;
* `verifyToken` — the verifier decorator, which the SDK calls with the bearer of the request;
* `ToolAuthorizationMiddleware.call` — the message middleware, inside the SDK's dispatch.

Of the SDK (`McpSdk`) this is assumed and nothing else: a `None` from `verify_token` stops the request
before dispatch, and the token it returns is the one attached to the request's user. Whether an
authenticated request is dispatched, what a handler returns and what is sent back are parameters.

`toolCall_sound`: a handler runs only under an allowed decision on a verified token, and the `mcp-*`
headers grant nothing. `stepUp_agrees`: the decision before dispatch and the decision on the message
agree, and the challenge reaches the client exactly when its scopes can be encoded.
-/

import McpAuth.Adapters.ProgressiveAuth
import McpAuth.Adapters.ToolMiddleware
import McpAuth.Library.UrlSplit

namespace McpAuth

open PyText JsonText UrlSplit

/-! ### Requests, the SDK and the server -/

/-- One HTTP request: its ASGI scope, its bearer token and the message its body holds. -/
structure McpRequest where
  scope : HttpScope
  bearer : String
  method : String
  params : Option JsonObject

/-- An HTTP response: a start message and the chunks of its body. -/
structure HttpResponse where
  status : Nat
  headers : List (Bytes × Bytes)
  chunks : List (Bytes × Bool)

/-- The ASGI messages of a response. -/
def HttpResponse.messages (response : HttpResponse) : List Message :=
  .start response.status response.headers ::
    response.chunks.map fun chunk => .body chunk.1 chunk.2

/-- The MCP SDK between the middleware layers. -/
structure McpSdk where
  unauthorized : McpRequest → HttpResponse
  admits : McpRequest → AccessToken → Bool
  refused : McpRequest → AccessToken → HttpResponse
  handler : ServerRequestContext → HandlerResult
  answered : McpRequest → HandlerResult → HttpResponse

/-- The layers one server wires around the SDK. -/
structure McpServer where
  verifier : ProgressiveAuthorizationTokenVerifier
  resourceMetadataUrl : AnyHttpUrl
  mcpPath : String := "/mcp"

/-- The message middleware: it shares registry and provider with the verifier decorator. -/
def McpServer.toolAuthorization (server : McpServer) : ToolAuthorizationMiddleware :=
  ⟨server.verifier.authorizer, server.verifier.authProvider⟩

/-- What one request did: the dispatched message, if it was dispatched, and what was sent. -/
structure Served where
  dispatched : Option MiddlewareOutcome
  sent : Sent

/-- The rest of the chain was run: for `tools/call`, the tool's handler. -/
def Served.invoked (served : Served) : Bool :=
  match served.dispatched with
  | some outcome => outcome.calledNext
  | none => false

theorem invoked_iff {served : Served} :
    served.invoked = true ↔ ∃ outcome, served.dispatched = some outcome ∧
      outcome.calledNext = true := by
  unfold Served.invoked
  cases served.dispatched <;> simp

/-- The context the request starts with: only HTTP requests get one. -/
def McpServer.requestContext (server : McpServer) (request : McpRequest) :
    Option ProgressiveAuthorizationContext :=
  if request.scope.scopeType ≠ "http" then none
  else some (contextOf server.mcpPath request.scope)

/-- The inner app's messages through the outer middleware's `send`. -/
def McpServer.send (server : McpServer) (context : Option ProgressiveAuthorizationContext)
    (response : HttpResponse) : Sent :=
  match context with
  | none => ⟨response.messages, false, false, []⟩
  | some context =>
    forward server.resourceMetadataUrl.text false (response.messages.map fun message =>
      (context, message))

/-- The message context the SDK builds for the authenticated user. -/
def McpRequest.messageContext (request : McpRequest) (accessToken : AccessToken) :
    ServerRequestContext :=
  ⟨request.method, request.params, some (.authenticated accessToken)⟩

/-! ### Kinds of requests -/

/-- An HTTP POST on the MCP path. -/
structure McpRequest.IsMcpPost (request : McpRequest) (server : McpServer) : Prop where
  http : request.scope.scopeType = "http"
  post : request.scope.method = "POST"
  path : request.scope.path = server.mcpPath

/-- A `tools/call` message whose `params.name` is the given non-empty string. -/
structure McpRequest.CallsTool (request : McpRequest) (toolName : String) : Prop where
  method : request.method = "tools/call"
  name : toolNameOf request.params = some toolName

/-- The two requests differ in their routing headers at most. -/
structure McpRequest.RoutingVariant (request variant : McpRequest) : Prop where
  scopeType : variant.scope.scopeType = request.scope.scopeType
  scopeMethod : variant.scope.method = request.scope.method
  scopePath : variant.scope.path = request.scope.path
  headers : variant.scope.headers.filter (!isRoutingHeader ·) =
    request.scope.headers.filter (!isRoutingHeader ·)
  bearer : variant.bearer = request.bearer
  method : variant.method = request.method
  params : variant.params = request.params

theorem McpRequest.RoutingVariant.isMcpPost {server : McpServer} {request variant : McpRequest}
    (varies : request.RoutingVariant variant) (post : request.IsMcpPost server) :
    variant.IsMcpPost server :=
  ⟨varies.scopeType.trans post.http, varies.scopeMethod.trans post.post,
    varies.scopePath.trans post.path⟩

theorem McpRequest.RoutingVariant.messageContext {request variant : McpRequest}
    (varies : request.RoutingVariant variant) (accessToken : AccessToken) :
    variant.messageContext accessToken = request.messageContext accessToken := by
  unfold McpRequest.messageContext
  rw [varies.method, varies.params]

/-- The context of an MCP POST. -/
theorem requestContext_of_isMcpPost {server : McpServer} {request : McpRequest}
    (post : request.IsMcpPost server) :
    server.requestContext request = some ⟨true, targetFromScope request.scope, []⟩ := by
  unfold McpServer.requestContext contextOf
  rw [if_neg (not_not.mpr post.http)]
  simp [post.post, post.path]

/-! ### The replacement of a response -/

/-- After a replacement, the chunks of the replaced response are dropped. -/
theorem forward_replaced (resourceMetadataUrl : String) (context : ProgressiveAuthorizationContext)
    (chunks : List (Bytes × Bool)) :
    forward resourceMetadataUrl true
      ((chunks.map fun chunk => Message.body chunk.1 chunk.2).map fun message =>
        (context, message)) = ⟨[], true, false, []⟩ :=
  @forward_bodies resourceMetadataUrl true _ chunks (by simp [Function.comp_def])

/-- The client of a challenged request receives the 403 challenge instead of the response. -/
theorem send_challenged (server : McpServer) {context : ProgressiveAuthorizationContext}
    (challenged : context.requiredScopes ≠ []) {messages : List Message}
    (encoded : sendInsufficientScopeResponse context.requiredScopes
      server.resourceMetadataUrl.text = some messages) (response : HttpResponse) :
    (server.send (some context) response).messages = messages ∧
      (server.send (some context) response).raised = false := by
  have nonempty : context.requiredScopes.isEmpty = false := by simpa using challenged
  show (forward server.resourceMetadataUrl.text false ((response.messages).map _)).messages = _ ∧
    (forward server.resourceMetadataUrl.text false ((response.messages).map _)).raised = _
  rw [HttpResponse.messages, List.map_cons, forward]
  simp only [sendWithScopeChallenge, nonempty, encoded]
  simp [-List.map_map, forward_replaced]

/-- Where the challenge cannot be encoded, `send` raises and nothing is sent. -/
theorem send_unencodable (server : McpServer) {context : ProgressiveAuthorizationContext}
    (challenged : context.requiredScopes ≠ [])
    (unencodable : sendInsufficientScopeResponse context.requiredScopes
      server.resourceMetadataUrl.text = none) (response : HttpResponse) :
    (server.send (some context) response).raised = true := by
  have nonempty : context.requiredScopes.isEmpty = false := by simpa using challenged
  show (forward server.resourceMetadataUrl.text false ((response.messages).map _)).raised = _
  rw [HttpResponse.messages, List.map_cons, forward]
  simp [sendWithScopeChallenge, nonempty, unencodable]

/-! ### What one request does -/

section RequestPath

variable [PyRepr]

/-- One request through all layers. -/
def McpServer.serve (server : McpServer) (sdk : McpSdk) (request : McpRequest) : Served :=
  let verification := server.verifier.verifyToken (server.requestContext request) request.bearer
  match verification.accessToken with
  | none => ⟨none, server.send verification.context (sdk.unauthorized request)⟩
  | some accessToken =>
    if sdk.admits request accessToken then
      let outcome := server.toolAuthorization.call (request.messageContext accessToken) sdk.handler
      ⟨some outcome, server.send verification.context (sdk.answered request outcome.result)⟩
    else ⟨none, server.send verification.context (sdk.refused request accessToken)⟩

/-- **What a dispatched request has behind it.** -/
theorem serve_dispatched {server : McpServer} {sdk : McpSdk} {request : McpRequest}
    {outcome : MiddlewareOutcome} (dispatched : (server.serve sdk request).dispatched = some outcome) :
    ∃ accessToken,
      (server.verifier.verifyToken (server.requestContext request) request.bearer).accessToken
        = some accessToken ∧
      sdk.admits request accessToken = true ∧
      outcome = server.toolAuthorization.call (request.messageContext accessToken) sdk.handler := by
  unfold McpServer.serve at dispatched
  dsimp only at dispatched
  split at dispatched
  · cases dispatched
  · rename_i accessToken returned
    split at dispatched
    · rename_i admitted
      exact ⟨accessToken, returned, admitted, (Option.some.inj dispatched).symm⟩
    · cases dispatched

/-- A verified and admitted request is dispatched. -/
theorem serve_of_admitted {server : McpServer} {sdk : McpSdk} {request : McpRequest}
    {accessToken : AccessToken}
    (returned : (server.verifier.verifyToken (server.requestContext request)
      request.bearer).accessToken = some accessToken)
    (admitted : sdk.admits request accessToken = true) :
    (server.serve sdk request).dispatched =
      some (server.toolAuthorization.call (request.messageContext accessToken) sdk.handler) := by
  unfold McpServer.serve
  dsimp only
  rw [returned]
  dsimp only
  rw [if_pos admitted]

/-- A token passes an MCP POST exactly when it meets every requirement of the routed target. -/
theorem verifyToken_post_iff {server : McpServer} {request : McpRequest}
    (post : request.IsMcpPost server) {accessToken : AccessToken}
    (verified : server.verifier.delegate request.bearer = some accessToken) :
    (server.verifier.verifyToken (server.requestContext request) request.bearer).accessToken
        = some accessToken ↔
      server.verifier.challengeScopes ⟨true, targetFromScope request.scope, []⟩ accessToken = ∅ := by
  rw [requestContext_of_isMcpPost post, verifyToken_verified verified]
  by_cases asked :
    server.verifier.challengeScopes ⟨true, targetFromScope request.scope, []⟩ accessToken = ∅
  · simp [asked]
  · simp [asked]

/-- An unchallenged token holds the global scopes. -/
theorem globalScopes_held {verifier : ProgressiveAuthorizationTokenVerifier}
    {context : ProgressiveAuthorizationContext} {accessToken : AccessToken}
    (unchallenged : verifier.challengeScopes context accessToken = ∅) :
    verifier.globalRequiredScopes ⊆ accessToken.scopes := by
  rw [challengeScopes_eq, StepUp.challenge_eq_empty_iff] at unchallenged
  have held := unchallenged verifier.globalRequiredScopes.toFinset List.mem_cons_self
  intro scope member
  exact List.mem_toFinset.mp (held (List.mem_toFinset.mpr member))

/-- With no target, only the global scopes are asked for. -/
theorem challengeScopes_untargeted {verifier : ProgressiveAuthorizationTokenVerifier}
    {context : ProgressiveAuthorizationContext} {accessToken : AccessToken}
    (untargeted : context.target = none)
    (baseline : verifier.globalRequiredScopes ⊆ accessToken.scopes) :
    verifier.challengeScopes context accessToken = ∅ := by
  refine challengeScopes_eq_empty ?_ ?_
  · intro scope member
    exact List.mem_toFinset.mpr (baseline (List.mem_toFinset.mp member))
  · intro target aimed
    rw [untargeted] at aimed
    cases aimed

/-- **What the handler of a tool call has behind it.** -/
theorem serve_invoked {server : McpServer} {sdk : McpSdk} {request : McpRequest} {toolName : String}
    (post : request.IsMcpPost server) (calls : request.CallsTool toolName) :
    (server.serve sdk request).invoked = true ↔
      ∃ accessToken, server.verifier.delegate request.bearer = some accessToken ∧
        server.verifier.challengeScopes ⟨true, targetFromScope request.scope, []⟩ accessToken = ∅ ∧
        sdk.admits request accessToken = true ∧
        (server.verifier.authorizer.authorize toolName
          (some (principalFromAccessToken accessToken server.verifier.authProvider))).allowed
            = true := by
  rw [invoked_iff]
  constructor
  · rintro ⟨outcome, dispatched, calledNext⟩
    obtain ⟨accessToken, returned, admitted, rfl⟩ := serve_dispatched dispatched
    have verified := verifyToken_some returned
    exact ⟨accessToken, verified, (verifyToken_post_iff post verified).mp returned, admitted,
      (call_calledNext_iff server.toolAuthorization calls.method calls.name _).mp calledNext⟩
  · rintro ⟨accessToken, verified, unchallenged, admitted, allowed⟩
    have returned := (verifyToken_post_iff post verified).mpr unchallenged
    refine ⟨_, serve_of_admitted returned admitted, ?_⟩
    exact (call_calledNext_iff server.toolAuthorization calls.method calls.name _).mpr allowed

/-- A request whose token is challenged gets the challenge for the answer. -/
theorem serve_challenged {server : McpServer} {request : McpRequest}
    (post : request.IsMcpPost server) {accessToken : AccessToken}
    (verified : server.verifier.delegate request.bearer = some accessToken)
    (asked : server.verifier.challengeScopes ⟨true, targetFromScope request.scope, []⟩ accessToken
      ≠ ∅) (sdk : McpSdk) :
    server.serve sdk request =
      ⟨none, server.send (some ⟨true, targetFromScope request.scope,
        sorted (server.verifier.challengeScopes ⟨true, targetFromScope request.scope, []⟩
          accessToken)⟩) (sdk.unauthorized request)⟩ := by
  have challenged := verifyToken_verified verified ⟨true, targetFromScope request.scope, []⟩
  rw [if_pos ⟨rfl, asked⟩] at challenged
  unfold McpServer.serve
  rw [requestContext_of_isMcpPost post, challenged]

/-- **Tool authorization is sound, and the routing headers grant nothing.** A handler runs only for a
verified token with every global scope and an allowed decision. Of two requests that differ in their
routing headers: dispatched ones get the same outcome; where one runs the handler and the other does
not, the other was challenged or refused by the SDK; and a request without a routed target runs the
handler whenever a routed one does. -/
theorem toolCall_sound (server : McpServer) (sdk : McpSdk) {request : McpRequest} {toolName : String}
    (post : request.IsMcpPost server) (calls : request.CallsTool toolName) :
    ((server.serve sdk request).invoked = true →
      ∃ accessToken, server.verifier.delegate request.bearer = some accessToken ∧
        server.verifier.globalRequiredScopes ⊆ accessToken.scopes ∧
        (server.verifier.authorizer.authorize toolName
          (some (principalFromAccessToken accessToken server.verifier.authProvider))).allowed
            = true) ∧
    ∀ variant : McpRequest, request.RoutingVariant variant →
      (∀ outcome outcome', (server.serve sdk request).dispatched = some outcome →
        (server.serve sdk variant).dispatched = some outcome' → outcome' = outcome) ∧
      ((server.serve sdk request).invoked = true → (server.serve sdk variant).invoked = false →
        (server.serve sdk variant).dispatched = none ∧
        ∃ accessToken, server.verifier.delegate request.bearer = some accessToken ∧
          (server.verifier.challengeScopes ⟨true, targetFromScope variant.scope, []⟩ accessToken ≠ ∅ ∨
            sdk.admits variant accessToken = false)) ∧
      (targetFromScope variant.scope = none → (server.serve sdk request).invoked = true →
        (∀ accessToken, sdk.admits variant accessToken = sdk.admits request accessToken) →
        (server.serve sdk variant).invoked = true) := by
  have sameOutcome : ∀ variant : McpRequest, request.RoutingVariant variant → ∀ outcome outcome',
      (server.serve sdk request).dispatched = some outcome →
      (server.serve sdk variant).dispatched = some outcome' → outcome' = outcome := by
    intro variant varies outcome outcome' dispatched dispatched'
    obtain ⟨accessToken, returned, -, rfl⟩ := serve_dispatched dispatched
    obtain ⟨accessToken', returned', -, rfl⟩ := serve_dispatched dispatched'
    have verified := verifyToken_some returned
    have verified' := verifyToken_some returned'
    rw [varies.bearer, verified] at verified'
    cases verified'
    rw [varies.messageContext]
  refine ⟨?sound, fun variant varies => ⟨sameOutcome variant varies, ?onlyTaken, ?neverNeeded⟩⟩
  case sound =>
    intro invoked
    obtain ⟨accessToken, verified, unchallenged, -, allowed⟩ := (serve_invoked post calls).mp invoked
    exact ⟨accessToken, verified, globalScopes_held unchallenged, allowed⟩
  case onlyTaken =>
    intro invoked notInvoked
    obtain ⟨outcome, dispatched, calledNext⟩ := invoked_iff.mp invoked
    have notDispatched : (server.serve sdk variant).dispatched = none := by
      cases dispatched' : (server.serve sdk variant).dispatched with
      | none => rfl
      | some outcome' =>
        have same := sameOutcome variant varies outcome outcome' dispatched dispatched'
        have variantInvoked := invoked_iff.mpr ⟨outcome', dispatched', same ▸ calledNext⟩
        rw [variantInvoked] at notInvoked
        cases notInvoked
    obtain ⟨accessToken, verified, -, -, -⟩ := (serve_invoked post calls).mp invoked
    refine ⟨notDispatched, accessToken, verified, ?_⟩
    by_contra neither
    rw [not_or, not_not, Bool.not_eq_false] at neither
    have returned := (verifyToken_post_iff (varies.isMcpPost post)
      (varies.bearer ▸ verified)).mpr neither.1
    rw [serve_of_admitted returned neither.2] at notDispatched
    cases notDispatched
  case neverNeeded =>
    intro untargeted invoked sameAdmission
    obtain ⟨accessToken, verified, unchallenged, admitted, allowed⟩ :=
      (serve_invoked post calls).mp invoked
    have variantCalls : variant.CallsTool toolName :=
      ⟨varies.method.trans calls.method, varies.params ▸ calls.name⟩
    exact (serve_invoked (varies.isMcpPost post) variantCalls).mpr
      ⟨accessToken, varies.bearer ▸ verified,
        challengeScopes_untargeted untargeted (globalScopes_held unchallenged),
        (sameAdmission accessToken).trans admitted, allowed⟩

end RequestPath

/-! ### One server and its requests -/

/-- An SDK that dispatches every authenticated request. -/
def openSdk : McpSdk :=
  ⟨fun _ => ⟨401, [], []⟩, fun _ _ => true, fun _ _ => ⟨400, [], []⟩, fun _ => .callTool "ok" false,
    fun _ _ => ⟨200, [], []⟩⟩

/-- One bearer without scopes, the tool `report` under one scope, and a global baseline. -/
def reportServer (policy : ToolPolicy) (globalRequiredScopes : List String) : McpServer where
  verifier := .init (fun token => if token = "bearer" then some (scopedToken token []) else none)
    ⟨[("report", policy)]⟩ .generic globalRequiredScopes
  resourceMetadataUrl := ⟨"https://mcp.example.org/.well-known/oauth-protected-resource", by decide⟩

/-- A modern call of `report`. -/
def reportRequest : McpRequest where
  scope := ⟨"http", "POST", "/mcp",
    [(asciiBytes "MCP-Protocol-Version", asciiBytes "2026-07-28"),
      (asciiBytes "mcp-method", asciiBytes "tools/call"), (asciiBytes "mcp-name", asciiBytes "report")]⟩
  bearer := "bearer"
  method := "tools/call"
  params := some [("name", .str "report")]

theorem report_isMcpPost (policy : ToolPolicy) (globalRequiredScopes : List String) :
    reportRequest.IsMcpPost (reportServer policy globalRequiredScopes) := ⟨rfl, rfl, rfl⟩

theorem report_callsTool : reportRequest.CallsTool "report" := ⟨rfl, rfl⟩

theorem report_routed : targetFromScope reportRequest.scope = some ⟨"tools/call", "report"⟩ := by
  decide

theorem report_verified (policy : ToolPolicy) (globalRequiredScopes : List String) :
    (reportServer policy globalRequiredScopes).verifier.delegate reportRequest.bearer =
      some (scopedToken "bearer" []) := rfl

/-- A bearer with the global scope, the tool `report` for everyone, and `admin` under a scope. -/
def baseServer : McpServer where
  verifier := .init (fun token => if token = "bearer" then some (scopedToken token ["mcp:base"]) else none)
    ⟨[("report", .authenticated), ("admin", ⟨.oauthScopes, {"mcp:admin"}, by simp⟩)]⟩ .generic ["mcp:base"]
  resourceMetadataUrl := ⟨"https://mcp.example.org/.well-known/oauth-protected-resource", by decide⟩

/-- The call of `report` under other headers. -/
def reroutedRequest (headers : List (Bytes × Bytes)) : McpRequest :=
  { reportRequest with scope := { reportRequest.scope with headers := headers } }

/-- Headers that route to `admin`. -/
def adminHeaders : List (Bytes × Bytes) :=
  [(asciiBytes "MCP-Protocol-Version", asciiBytes "2026-07-28"),
    (asciiBytes "mcp-method", asciiBytes "tools/call"), (asciiBytes "mcp-name", asciiBytes "admin")]

theorem admin_routed : targetFromScope (reroutedRequest adminHeaders).scope = some ⟨"tools/call", "admin"⟩ := by
  decide

theorem rerouted_variant {headers : List (Bytes × Bytes)}
    (routing : headers.filter (!isRoutingHeader ·) = []) :
    reportRequest.RoutingVariant (reroutedRequest headers) :=
  ⟨rfl, rfl, rfl, routing.trans (by decide), rfl, rfl, rfl⟩

theorem admin_challenged [PyRepr] : baseServer.verifier.challengeScopes
    ⟨true, targetFromScope (reroutedRequest adminHeaders).scope, []⟩ (scopedToken "bearer" ["mcp:base"]) ≠ ∅ := by
  have asked : "mcp:admin" ∈ baseServer.verifier.challengeScopes
      ⟨true, targetFromScope (reroutedRequest adminHeaders).scope, []⟩ (scopedToken "bearer" ["mcp:base"]) := by
    rw [challengeScopes_eq, StepUp.mem_challenge, admin_routed]
    exact ⟨{"mcp:admin"}, List.mem_cons_of_mem _ List.mem_cons_self, by simp [scopedToken], by simp⟩
  exact Finset.ne_empty_of_mem asked

/-- The call runs, without routing headers too; routed to `admin` it is challenged instead. -/
theorem toolCall_sound_report :
    let _ := plainRepr
    (baseServer.serve openSdk reportRequest).invoked = true ∧
      (∃ accessToken, baseServer.verifier.delegate reportRequest.bearer = some accessToken ∧
        baseServer.verifier.globalRequiredScopes ⊆ accessToken.scopes ∧
        (baseServer.verifier.authorizer.authorize "report"
          (some (principalFromAccessToken accessToken baseServer.verifier.authProvider))).allowed
            = true) ∧
      (baseServer.serve openSdk (reroutedRequest [])).invoked = true ∧
      (baseServer.serve openSdk (reroutedRequest adminHeaders)).dispatched = none := by
  intro _
  have calls : reportRequest.CallsTool "report" := report_callsTool
  have post : reportRequest.IsMcpPost baseServer := ⟨rfl, rfl, rfl⟩
  have unchallenged : baseServer.verifier.challengeScopes
      ⟨true, targetFromScope reportRequest.scope, []⟩ (scopedToken "bearer" ["mcp:base"]) = ∅ := by
    refine challengeScopes_eq_empty ?_ ?_
    · simp [baseServer, ProgressiveAuthorizationTokenVerifier.init, scopedToken]
    · intro target aimed
      rw [report_routed] at aimed
      cases aimed
      rfl
  have invoked : (baseServer.serve openSdk reportRequest).invoked = true :=
    (serve_invoked post calls).mpr ⟨scopedToken "bearer" ["mcp:base"], rfl, unchallenged, rfl, rfl⟩
  have notInvoked : (baseServer.serve openSdk (reroutedRequest adminHeaders)).invoked = false := by
    have verified : baseServer.verifier.delegate (reroutedRequest adminHeaders).bearer =
        some (scopedToken "bearer" ["mcp:base"]) := rfl
    rw [serve_challenged ⟨rfl, rfl, rfl⟩ verified admin_challenged]
    rfl
  obtain ⟨sound, variants⟩ := toolCall_sound baseServer openSdk post calls
  exact ⟨invoked, sound invoked,
    (variants _ (rerouted_variant rfl)).2.2 rfl invoked fun _ => rfl,
    ((variants _ (rerouted_variant (by decide))).2.1 invoked notInvoked).1⟩

/-! ### The two decisions agree -/

section Agreement

variable [PyRepr]

/-- **The client receives the 403 challenge, and its scope list holds the given scopes.** -/
def McpServer.Challenges (server : McpServer) (served : Served) (scopes : List String) : Prop :=
  served.sent.raised = false ∧ ∃ requiredScopes messages listed,
    sendInsufficientScopeResponse requiredScopes server.resourceMetadataUrl.text = some messages ∧
      served.sent.messages = messages ∧ scopeListOf messages = some listed ∧ scopes ⊆ listed

/-- A scope is read back from the sorted list of these scopes: it is a word of one of them, before a
quotation mark, and no quotation mark is in those before. -/
def Spelled (scopes : Finset String) (scope : String) : Prop :=
  ∃ spelling ∈ scopes, (∀ earlier ∈ scopes, earlier < spelling → '"' ∉ earlier.toList) ∧
    scope ∈ splitOnChar ' ' (upTo '"' spelling)

omit [PyRepr] in
/-- Among scope-tokens every scope is read back. -/
theorem spelled_of_tokens {scopes : Finset String} (tokens : ∀ scope ∈ scopes, IsScopeToken scope)
    {scope : String} (member : scope ∈ scopes) : Spelled scopes scope := by
  have noQuote : ∀ token ∈ scopes, '"' ∉ token.toList := fun token isToken quote =>
    ((tokens token isToken).chars '"' quote).2.1 rfl
  refine ⟨scope, member, fun earlier isEarlier _ => noQuote earlier isEarlier, ?_⟩
  have single := splitOnChar_joinWith ' ' [scope] (List.cons_ne_nil _ _) fun part isPart space =>
    ((tokens scope member).chars ' ' (List.mem_singleton.mp isPart ▸ space)).1 rfl
  rw [joinWith, List.map_singleton, List.intercalate_singleton, String.ofList_toList] at single
  rw [upTo_of_notMem (noQuote scope member), single]
  exact List.mem_cons_self

/-- **What a challenged request receives**: the 403 challenge when all that is asked for is ASCII, and
in its list the scopes that the quotation marks among them leave. -/
theorem challenges_iff {server : McpServer} {request : McpRequest}
    (post : request.IsMcpPost server) {accessToken : AccessToken}
    (verified : server.verifier.delegate request.bearer = some accessToken) {scopes : List String}
    (asked : server.verifier.challengeScopes ⟨true, targetFromScope request.scope, []⟩ accessToken
      ≠ ∅) (sdk : McpSdk) :
    server.Challenges (server.serve sdk request) scopes ↔
      (∀ scope ∈ server.verifier.challengeScopes ⟨true, targetFromScope request.scope, []⟩ accessToken,
        IsAsciiText scope) ∧
      ∀ scope ∈ scopes, Spelled
        (server.verifier.challengeScopes ⟨true, targetFromScope request.scope, []⟩ accessToken) scope := by
  rw [serve_challenged post verified asked]
  generalize server.verifier.challengeScopes ⟨true, targetFromScope request.scope, []⟩ accessToken
    = challenge at asked
  have nonempty : sorted challenge ≠ [] := fun empty => asked (sorted_eq_nil_iff.mp empty)
  have sendable := @sendInsufficientScopeResponse_isSome_iff (sorted challenge) _
    server.resourceMetadataUrl.ascii
  simp only [mem_sorted] at sendable
  rw [← sendable]
  cases encoded : sendInsufficientScopeResponse (sorted challenge)
      server.resourceMetadataUrl.text with
  | none =>
    have raises := send_unencodable server
      (show ProgressiveAuthorizationContext.requiredScopes
        ⟨true, targetFromScope request.scope, sorted challenge⟩ ≠ [] from nonempty) encoded
      (sdk.unauthorized request)
    constructor
    · rintro ⟨quiet, -⟩
      exact absurd (raises.symm.trans quiet) (by decide)
    · rintro ⟨impossible, -⟩
      cases impossible
  | some messages =>
    have received := send_challenged server
      (show ProgressiveAuthorizationContext.requiredScopes
        ⟨true, targetFromScope request.scope, sorted challenge⟩ ≠ [] from nonempty) encoded
      (sdk.unauthorized request)
    have spelled : ∀ scope, scope ∈ splitOnChar ' ' (upTo '"' (joinWith ' ' (sorted challenge))) ↔
        Spelled challenge scope := fun scope => by
      rw [mem_splitOnChar_upTo (by decide) nonempty, exists_sorted_split]
      rfl
    rw [and_iff_right (show (some messages).isSome = true from rfl)]
    constructor
    · rintro ⟨-, _, others, listed, -, isSent, reads, held⟩ scope member
      have same : messages = others := received.1.symm.trans isSent
      rw [← same, scopeListOf_eq encoded, Option.some.injEq] at reads
      rw [← spelled, reads]
      exact held member
    · intro each
      exact ⟨received.2, _, messages, _, encoded, received.1, scopeListOf_eq encoded,
        fun scope member => (spelled scope).mpr (each scope member)⟩

/-- The scopes a token lacks for a tool: those of the tool and, unless it holds them all, the global ones. -/
def ProgressiveAuthorizationTokenVerifier.unmetScopes (verifier : ProgressiveAuthorizationTokenVerifier)
    (accessToken : AccessToken) (required : Finset String) : Finset String :=
  required ∪ if verifier.globalRequiredScopes ⊆ accessToken.scopes then ∅
    else verifier.globalRequiredScopes.toFinset

/-- A token without the scopes of the routed tool is asked for what it lacks. -/
theorem challengeScopes_unmet {verifier : ProgressiveAuthorizationTokenVerifier} {toolName : String}
    {context : ProgressiveAuthorizationContext} {accessToken : AccessToken}
    (routed : context.target = some ⟨"tools/call", toolName⟩) {policy : ToolPolicy}
    {required : Finset String} (found : verifier.authorizer.policyFor toolName = some policy)
    (requires : policy.scopeRequirement
      (principalFromAccessToken accessToken verifier.authProvider).kind = some required)
    (unmet : ¬ required ⊆ (principalFromAccessToken accessToken verifier.authProvider).scopes) :
    verifier.challengeScopes context accessToken = verifier.unmetScopes accessToken required := by
  obtain ⟨repairs, named⟩ := authorize_repairable_iff.mpr ⟨policy, required, found, requires, unmet, rfl⟩
  have held : verifier.globalRequiredScopes.toFinset ⊆ accessToken.scopes.toFinset ↔
      verifier.globalRequiredScopes ⊆ accessToken.scopes := by
    constructor
    · exact fun inside scope member => List.mem_toFinset.mp (inside (List.mem_toFinset.mpr member))
    · exact fun inside scope member => List.mem_toFinset.mpr (inside (List.mem_toFinset.mp member))
  unfold ProgressiveAuthorizationTokenVerifier.challengeScopes
    ProgressiveAuthorizationTokenVerifier.unmetScopes
  rw [routed]
  dsimp only
  rw [if_pos repairs, named, sorted_toFinset, Finset.union_comm]
  simp only [held]

/-- **The decision before dispatch and the decision on the message agree.** Where the routed target is
the tool the message calls: a token that passes never gets a repairable denial on the message; and a
repairable denial stops the request and reaches the client as a challenge that lists the scopes of the
tool exactly when what the token lacks is ASCII and spells these scopes before a quotation mark. -/
theorem stepUp_agrees (server : McpServer) (sdk : McpSdk) {request : McpRequest} {toolName : String}
    {accessToken : AccessToken} (post : request.IsMcpPost server)
    (calls : request.CallsTool toolName)
    (routed : targetFromScope request.scope = some ⟨"tools/call", toolName⟩)
    (verified : server.verifier.delegate request.bearer = some accessToken) :
    let principal := principalFromAccessToken accessToken server.verifier.authProvider
    let decision := server.verifier.authorizer.authorize toolName (some principal)
    ((server.verifier.verifyToken (server.requestContext request) request.bearer).accessToken
        = some accessToken → decision.repairable = false ∧
          ∀ outcome, (server.serve sdk request).dispatched = some outcome →
            outcome.calledNext = decision.allowed) ∧
    ((decision.repairable = true → (server.serve sdk request).invoked = false ∧
        server.Challenges (server.serve sdk request) decision.requiredScopes) ↔
      ∀ policy required, server.verifier.authorizer.policyFor toolName = some policy →
        policy.scopeRequirement principal.kind = some required → ¬ required ⊆ principal.scopes →
        (∀ scope ∈ server.verifier.unmetScopes accessToken required, IsAsciiText scope) ∧
          ∀ scope ∈ required, Spelled (server.verifier.unmetScopes accessToken required) scope) := by
  intro principal decision
  have settled := verifyToken_post_iff post verified
  have notInvoked : server.verifier.challengeScopes ⟨true, targetFromScope request.scope, []⟩
      accessToken ≠ ∅ → (server.serve sdk request).invoked = false := by
    intro asked
    rw [serve_challenged post verified asked]
    rfl
  -- a repairable denial, as its policy and as what is asked for
  have repairable_iff := fun scopes =>
    @authorize_repairable_iff server.verifier.authorizer toolName principal scopes
  have asks : ∀ policy required, server.verifier.authorizer.policyFor toolName = some policy →
      policy.scopeRequirement principal.kind = some required → ¬ required ⊆ principal.scopes →
      server.verifier.challengeScopes ⟨true, targetFromScope request.scope, []⟩ accessToken =
          server.verifier.unmetScopes accessToken required ∧
        server.verifier.challengeScopes ⟨true, targetFromScope request.scope, []⟩ accessToken ≠ ∅ := by
    intro policy required found requires unmet
    have asked : server.verifier.challengeScopes ⟨true, targetFromScope request.scope, []⟩ accessToken =
        server.verifier.unmetScopes accessToken required := challengeScopes_unmet routed found requires unmet
    refine ⟨asked, fun empty => ToolPolicy.scopeRequirement_nonempty requires ?_⟩
    exact Finset.subset_empty.mp (empty ▸ asked ▸ Finset.subset_union_left)
  constructor
  · intro returned
    refine ⟨?_, fun outcome dispatched => ?_⟩
    · by_contra repairable
      rw [Bool.not_eq_false] at repairable
      obtain ⟨policy, required, found, requires, unmet, -⟩ := (repairable_iff _).mp ⟨repairable, rfl⟩
      exact (asks policy required found requires unmet).2 (settled.mp returned)
    · obtain ⟨other, returned', -, rfl⟩ := serve_dispatched dispatched
      rw [returned] at returned'
      cases returned'
      rw [Bool.eq_iff_iff]
      exact call_calledNext_iff server.toolAuthorization calls.method calls.name _
  · constructor
    · intro reported policy required found requires unmet
      obtain ⟨repairable, named⟩ := (repairable_iff _).mpr
        ⟨policy, required, found, requires, unmet, rfl⟩
      obtain ⟨asked, nonempty⟩ := asks policy required found requires unmet
      obtain ⟨ascii, spelled⟩ := (challenges_iff post verified nonempty sdk).mp (reported repairable).2
      rw [asked] at ascii spelled
      refine ⟨ascii, fun scope member => spelled scope ?_⟩
      exact named ▸ mem_sorted.mpr member
    · intro spelled repairable
      obtain ⟨policy, required, found, requires, unmet, named⟩ := (repairable_iff _).mp ⟨repairable, rfl⟩
      obtain ⟨asked, nonempty⟩ := asks policy required found requires unmet
      refine ⟨notInvoked nonempty, (challenges_iff post verified nonempty sdk).mpr ?_⟩
      rw [asked]
      obtain ⟨ascii, each⟩ := spelled policy required found requires unmet
      refine ⟨ascii, fun scope member => each scope (mem_sorted.mp ?_)⟩
      exact named ▸ member

end Agreement

theorem report_repairable [PyRepr] (globalRequiredScopes : List String) :
    ((reportServer readPolicy globalRequiredScopes).verifier.authorizer.authorize "report"
      (some (principalFromAccessToken (scopedToken "bearer" []) .generic))).repairable = true :=
  (authorize_repairable_iff.mpr
    ⟨readPolicy, {"mcp:read"}, rfl, rfl, by simp [scopedToken], rfl⟩).1

/-- What the token without scopes lacks. -/
theorem report_unmetScopes (scope : String) :
    (reportServer readPolicy [scope]).verifier.unmetScopes (scopedToken "bearer" []) {"mcp:read"} =
      {"mcp:read", scope} := by
  have baseline : (reportServer readPolicy [scope]).verifier.globalRequiredScopes = [scope] :=
    sorted_singleton scope
  unfold ProgressiveAuthorizationTokenVerifier.unmetScopes
  rw [baseline, if_neg (by simp [scopedToken])]
  rfl

theorem stepUp_agrees_report :
    let _ := plainRepr
    let server := reportServer readPolicy ["mcp:base"]
    (server.serve openSdk reportRequest).invoked = false ∧
      server.Challenges (server.serve openSdk reportRequest) ["mcp:read"] := by
  intro _ server
  have agrees := (stepUp_agrees server openSdk (report_isMcpPost _ _) report_callsTool report_routed
    (report_verified _ _)).2.mpr
  have required : (server.verifier.authorizer.authorize "report" (some (principalFromAccessToken
      (scopedToken "bearer" []) server.verifier.authProvider))).requiredScopes = ["mcp:read"] :=
    sorted_singleton _
  rw [required] at agrees
  refine agrees ?_ (report_repairable _)
  intro policy required found requires unmet
  cases found
  cases requires
  have tokens : ∀ scope ∈ server.verifier.unmetScopes (scopedToken "bearer" []) readPolicy.permissions,
      IsScopeToken scope := by
    intro scope member
    have lacks : server.verifier.unmetScopes (scopedToken "bearer" []) readPolicy.permissions =
        {"mcp:read", "mcp:base"} := report_unmetScopes "mcp:base"
    have isEither : scope = "mcp:read" ∨ scope = "mcp:base" := by
      rw [lacks] at member
      simpa using member
    rcases isEither with rfl | rfl <;> decide
  exact ⟨fun scope member => (tokens scope member).isAsciiText,
    fun scope member => spelled_of_tokens tokens (Finset.mem_union_left _ member)⟩

/-- Baseline scopes that are no scope-tokens: outside ASCII no challenge is received, and with a quotation
mark its list ends before the scope of the tool. -/
theorem stepUp_unsent_report :
    let _ := plainRepr
    let unsent := reportServer readPolicy ["é"]
    let cut := reportServer readPolicy ["a\"b"]
    (∀ server ∈ [unsent, cut], reportRequest.IsMcpPost server ∧
      server.verifier.delegate reportRequest.bearer = some (scopedToken "bearer" []) ∧
      (server.verifier.authorizer.authorize "report" (some (principalFromAccessToken
        (scopedToken "bearer" []) server.verifier.authProvider))).repairable = true) ∧
      reportRequest.CallsTool "report" ∧
      targetFromScope reportRequest.scope = some ⟨"tools/call", "report"⟩ ∧
      (¬ ∃ scopes, unsent.Challenges (unsent.serve openSdk reportRequest) scopes) ∧
      ¬ cut.Challenges (cut.serve openSdk reportRequest) ["mcp:read"] := by
  intro _ unsent cut
  have asked : ∀ scope, (reportServer readPolicy [scope]).verifier.challengeScopes
      ⟨true, targetFromScope reportRequest.scope, []⟩ (scopedToken "bearer" []) = {"mcp:read", scope} := by
    intro scope
    have unmet : ¬ readPolicy.permissions ⊆
        (principalFromAccessToken (scopedToken "bearer" []) .generic).scopes := by
      simp [readPolicy, principal_scopes, scopedToken]
    rw [challengeScopes_unmet report_routed rfl rfl unmet]
    exact report_unmetScopes scope
  refine ⟨?_, report_callsTool, report_routed, ?_, ?_⟩
  · simp only [List.mem_cons, List.not_mem_nil, or_false, forall_eq_or_imp, forall_eq]
    exact ⟨⟨report_isMcpPost _ _, report_verified _ _, report_repairable _⟩,
      report_isMcpPost _ _, report_verified _ _, report_repairable _⟩
  · rintro ⟨scopes, received⟩
    have ascii := ((challenges_iff (report_isMcpPost readPolicy ["é"]) (report_verified _ _)
      (by rw [asked]; exact Finset.insert_ne_empty _ _) openSdk).mp received).1
    rw [asked] at ascii
    exact absurd (ascii "é" (by simp)) (by decide)
  · intro received
    have spelled := ((challenges_iff (report_isMcpPost readPolicy ["a\"b"]) (report_verified _ _)
      (by rw [asked]; exact Finset.insert_ne_empty _ _) openSdk).mp received).2 "mcp:read" (by simp)
    rw [asked] at spelled
    obtain ⟨spelling, member, free, listed⟩ := spelled
    rw [Finset.mem_insert, Finset.mem_singleton] at member
    rcases member with rfl | rfl
    · exact absurd (free "a\"b" (by simp) (by decide)) (by decide)
    · exact absurd listed (by decide)

end McpAuth
