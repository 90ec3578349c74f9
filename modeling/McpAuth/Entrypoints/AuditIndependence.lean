/-
**What the audit records of a request depend on.**

The decisions of a request are a list (`McpServer.decisions`), and its audit records are read off them, the
request, and of the principal its kind and client id (`auditRecords_eq`). So two verified claim sets under
which the same decisions are made leave the same records, except for the principal of a denied tool call.
`audit_independent_iff`: they leave the same records exactly when no call was denied, or both claim sets show
the same principal — which they do not when the client id falls back to `sub`.
-/

import McpAuth.Adapters.VerifiedClaims
import McpAuth.Entrypoints.RequestPath
import McpAuth.Library.Fallible

namespace McpAuth

open PyText JsonText

/-! ### Decisions of a request -/

/-- A decision on the way of a request: which scopes to ask for, whether the SDK dispatches it, and whether
the tool may be called. -/
inductive RequestDecision
  | challenge (scopes : Finset String)
  | admission (admitted : Bool)
  | toolCall (decision : AuthorizationDecision)

/-- The tool that a message calls. -/
def McpRequest.calledTool (request : McpRequest) : Option String :=
  if request.method = "tools/call" then toolNameOf request.params else none

/-! ### Records of a response -/

/-- Chunks of a body leave no record. -/
theorem forward_body_audit (resourceMetadataUrl : String) (context : ProgressiveAuthorizationContext)
    (replaced : Bool) (chunks : List (Bytes × Bool)) :
    (forward resourceMetadataUrl replaced
      ((chunks.map fun chunk => Message.body chunk.1 chunk.2).map fun message => (context, message))).audit = [] := by
  rw [@forward_bodies resourceMetadataUrl replaced _ chunks (by simp [Function.comp_def])]

/-- **What sending a response records**: the challenge, when there is one. -/
theorem send_audit (server : McpServer) (context : Option ProgressiveAuthorizationContext)
    (response : HttpResponse) :
    (server.send context response).audit =
      match context with
      | none => []
      | some context =>
        if context.requiredScopes.isEmpty then []
        else [emitSecurityAudit .oauthScopeStepUp .challenged "missing_permission" none
          (context.target.map McpRequestTarget.name) (some 403) (some context.requiredScopes.length)] := by
  cases context with
  | none => rfl
  | some context =>
    show (forward _ false ((response.messages).map _)).audit = _
    rw [HttpResponse.messages, List.map_cons, forward]
    by_cases quiet : context.requiredScopes.isEmpty = true
    · have rest := forward_body_audit server.resourceMetadataUrl.text context false response.chunks
      simp only [sendWithScopeChallenge, quiet, if_true, Bool.false_eq_true, if_false, List.nil_append]
      exact rest
    · cases encoded : sendInsufficientScopeResponse context.requiredScopes server.resourceMetadataUrl.text with
      | none => simp [sendWithScopeChallenge, quiet, encoded]
      | some messages =>
        have rest := forward_body_audit server.resourceMetadataUrl.text context true response.chunks
        simp only [sendWithScopeChallenge, quiet, encoded, Bool.false_eq_true, if_false]
        rw [rest, List.append_nil]

/-! ### Decisions of a verified request -/

section Decisions

variable [PyRepr]

/-- The scopes that `verify_token` asks for. -/
def McpServer.challenged (server : McpServer) (request : McpRequest) (accessToken : AccessToken) :
    Finset String :=
  match server.requestContext request with
  | some context =>
    if context.isMcpRequest then server.verifier.challengeScopes context accessToken else ∅
  | none => ∅

/-- The principal of a request. -/
def McpServer.principal (server : McpServer) (accessToken : AccessToken) : Principal :=
  principalFromAccessToken accessToken server.verifier.authProvider

/-- **The sequence of decisions of a request** with a verified token. -/
def McpServer.decisions (server : McpServer) (sdk : McpSdk) (request : McpRequest)
    (accessToken : AccessToken) : List RequestDecision :=
  let challenged := server.challenged request accessToken
  .challenge challenged ::
    if challenged ≠ ∅ then []
    else .admission (sdk.admits request accessToken) ::
      if sdk.admits request accessToken then
        (request.calledTool.map fun toolName => RequestDecision.toolCall
          (server.verifier.authorizer.authorize toolName (some (server.principal accessToken)))).toList
      else []

/-- The records that the three layers emit for a request, in this order. -/
def McpServer.auditRecords (server : McpServer) (sdk : McpSdk) (request : McpRequest) : List SecurityAudit :=
  let served := server.serve sdk request
  (server.verifier.verifyToken (server.requestContext request) request.bearer).audit ++
    (served.dispatched.map MiddlewareOutcome.audit).getD [] ++ served.sent.audit

/-! ### Records of decisions -/

/-- The record that a decision leaves. -/
def recordOf (request : McpRequest) (target : Option McpRequestTarget) (principal : Principal) :
    RequestDecision → List SecurityAudit
  | .challenge scopes =>
    if scopes = ∅ then []
    else [emitSecurityAudit .oauthScopeStepUp .challenged "missing_permission" none
      (target.map McpRequestTarget.name) (some 403) (some (sorted scopes).length)]
  | .admission _ => []
  | .toolCall decision =>
    if decision.allowed then []
    else [emitSecurityAudit .authorizationDenied .denied decision.reason.value (some principal)
      request.calledTool]

/-- The record of the message middleware. -/
theorem call_audit (server : McpServer) (request : McpRequest) (target : Option McpRequestTarget)
    (accessToken : AccessToken) (callNext : ServerRequestContext → HandlerResult) :
    (server.toolAuthorization.call (request.messageContext accessToken) callNext).audit =
      (request.calledTool.map fun toolName => RequestDecision.toolCall
        (server.verifier.authorizer.authorize toolName (some (server.principal accessToken)))).toList.flatMap
        (recordOf request target (server.principal accessToken)) := by
  by_cases calls : request.method = "tools/call"
  · cases named : toolNameOf request.params with
    | none =>
      have notList : ¬ request.method = "tools/list" := by simp [calls]
      simp [McpRequest.calledTool, calls, named, ToolAuthorizationMiddleware.call, McpRequest.messageContext]
    | some toolName =>
      have named' : toolNameOf (request.messageContext accessToken).params = some toolName := named
      rw [call_tool server.toolAuthorization (show (request.messageContext accessToken).method = _ from calls)
        named' callNext]
      have called : request.calledTool = some toolName := by rw [McpRequest.calledTool, if_pos calls, named]
      rw [called]
      simp only [Option.map_some, Option.toList_some, List.flatMap_cons, List.flatMap_nil, List.append_nil,
        recordOf, called]
      by_cases allowed : (server.verifier.authorizer.authorize toolName
          (some (server.principal accessToken))).allowed = true
      · rw [if_pos allowed]
        exact congrArg MiddlewareOutcome.audit (if_pos allowed)
      · rw [if_neg allowed]
        exact congrArg MiddlewareOutcome.audit (if_neg allowed)
  · have other : request.calledTool = none := if_neg calls
    rw [other]
    by_cases lists : request.method = "tools/list"
    · simp [ToolAuthorizationMiddleware.call, McpRequest.messageContext, lists]
    · simp [ToolAuthorizationMiddleware.call, McpRequest.messageContext, lists, calls]

/-- The target that the HTTP middleware routed. -/
def McpServer.target (server : McpServer) (request : McpRequest) : Option McpRequestTarget :=
  (server.requestContext request).bind ProgressiveAuthorizationContext.target

theorem challenged_of_context {server : McpServer} {request : McpRequest} {accessToken : AccessToken}
    {context : ProgressiveAuthorizationContext} (starts : server.requestContext request = some context) :
    server.challenged request accessToken =
      if context.isMcpRequest then server.verifier.challengeScopes context accessToken else ∅ := by
  rw [McpServer.challenged, starts]

omit [PyRepr] in
/-- The context a request starts with asks for nothing. -/
theorem requestContext_requiredScopes {server : McpServer} {request : McpRequest}
    {context : ProgressiveAuthorizationContext} (starts : server.requestContext request = some context) :
    context.requiredScopes = [] := by
  unfold McpServer.requestContext at starts
  split at starts
  · cases starts
  · cases starts
    rfl

/-- **A verified request that is asked for nothing** goes on with its token. -/
theorem verifyToken_unchallenged {server : McpServer} {request : McpRequest} {accessToken : AccessToken}
    (verified : server.verifier.delegate request.bearer = some accessToken)
    (unchallenged : server.challenged request accessToken = ∅) :
    server.verifier.verifyToken (server.requestContext request) request.bearer =
      ⟨some accessToken, server.requestContext request, []⟩ := by
  cases starts : server.requestContext request with
  | none => simp [ProgressiveAuthorizationTokenVerifier.verifyToken, verified]
  | some context =>
    rw [challenged_of_context starts] at unchallenged
    rw [verifyToken_verified verified, if_neg]
    rintro ⟨isMcp, asked⟩
    rw [if_pos isMcp] at unchallenged
    exact asked unchallenged

/-- **A verified request that is asked for scopes** goes on without a token. -/
theorem verifyToken_challenged {server : McpServer} {request : McpRequest} {accessToken : AccessToken}
    (verified : server.verifier.delegate request.bearer = some accessToken)
    (asked : server.challenged request accessToken ≠ ∅) :
    ∃ context, server.requestContext request = some context ∧
      server.verifier.verifyToken (server.requestContext request) request.bearer =
        ⟨none, some { context with requiredScopes := sorted (server.challenged request accessToken) }, []⟩ := by
  cases starts : server.requestContext request with
  | none => simp [McpServer.challenged, starts] at asked
  | some context =>
    refine ⟨context, rfl, ?_⟩
    rw [challenged_of_context starts] at asked ⊢
    by_cases isMcp : context.isMcpRequest = true
    · rw [if_pos isMcp] at asked ⊢
      rw [verifyToken_verified verified, if_pos ⟨isMcp, asked⟩]
    · exact absurd (if_neg isMcp) asked

/-- **The audit records of a verified request are those of its decisions.** -/
theorem auditRecords_eq {server : McpServer} {request : McpRequest} {accessToken : AccessToken} (sdk : McpSdk)
    (verified : server.verifier.delegate request.bearer = some accessToken) :
    server.auditRecords sdk request = (server.decisions sdk request accessToken).flatMap
      (recordOf request (server.target request) (server.principal accessToken)) := by
  by_cases unchallenged : server.challenged request accessToken = ∅
  · have goesOn := verifyToken_unchallenged verified unchallenged
    have quiet : ∀ response, (server.send (server.requestContext request) response).audit = [] := by
      intro response
      rw [send_audit]
      cases starts : server.requestContext request with
      | none => rfl
      | some context => simp [requestContext_requiredScopes starts]
    by_cases admitted : sdk.admits request accessToken = true
    · simp [McpServer.auditRecords, McpServer.serve, McpServer.decisions, goesOn, quiet, unchallenged, admitted,
        recordOf, call_audit server request (server.target request)]
    · simp [McpServer.auditRecords, McpServer.serve, McpServer.decisions, goesOn, quiet, unchallenged, admitted,
        recordOf]
  · obtain ⟨context, starts, asks⟩ := verifyToken_challenged verified unchallenged
    have nonempty : (sorted (server.challenged request accessToken)).isEmpty = false := by
      simpa [sorted_eq_nil_iff] using unchallenged
    rw [starts] at asks
    simp only [McpServer.auditRecords, McpServer.serve, asks, send_audit, nonempty, Bool.false_eq_true, if_false,
      McpServer.decisions, ne_eq, unchallenged, not_false_eq_true, if_true, List.flatMap_cons, List.flatMap_nil,
      recordOf, McpServer.target, starts, Option.bind_some, Option.map_none, Option.getD_none, List.nil_append,
      List.append_nil]

end Decisions

/-! ### Two runs -/

/-- Records of one list of decisions agree exactly when each decision leaves the same. -/
theorem flatMap_eq_iff {α β : Type} {first second : α → List β} {values : List α}
    (lengths : ∀ value, (first value).length = (second value).length) :
    values.flatMap first = values.flatMap second ↔ ∀ value ∈ values, first value = second value := by
  induction values with
  | nil => simp
  | cons value values ih =>
    rw [List.flatMap_cons, List.flatMap_cons, List.forall_mem_cons, ← ih]
    constructor
    · intro same
      exact List.append_inj same (lengths value)
    · rintro ⟨same, rest⟩
      rw [same, rest]

section TwoRuns

variable [PyRepr]

/-- The audited facts of a principal. -/
def Principal.audited (principal : Principal) : PrincipalKind × String :=
  (principal.kind, boundedText principal.clientId 256)

omit [PyRepr] in
theorem recordOf_length (request : McpRequest) (target : Option McpRequestTarget) (first second : Principal)
    (decision : RequestDecision) :
    (recordOf request target first decision).length = (recordOf request target second decision).length := by
  cases decision with
  | challenge scopes => rfl
  | admission admitted => rfl
  | toolCall decision => cases allowed : decision.allowed <;> simp [recordOf, allowed]

omit [PyRepr] in
/-- **A decision leaves the same record of two principals** unless it denies a tool call and they are audited
differently. -/
theorem recordOf_eq_iff {request : McpRequest} {target : Option McpRequestTarget} {first second : Principal}
    {decision : RequestDecision} :
    recordOf request target first decision = recordOf request target second decision ↔
      ∀ denied, decision = .toolCall denied → denied.allowed = false → first.audited = second.audited := by
  cases decision with
  | challenge scopes => simp [recordOf]
  | admission admitted => simp [recordOf]
  | toolCall decision =>
    cases allowed : decision.allowed with
    | true => simp [recordOf, allowed]
    | false => simp [recordOf, allowed, emitSecurityAudit, Principal.audited]

/-- A tool call was denied. -/
def DeniesTool (decisions : List RequestDecision) : Prop :=
  ∃ decision, .toolCall decision ∈ decisions ∧ decision.allowed = false

/-- The principal kind that a verifier reads off a claim set. -/
def VerifierMode.kindOf (mode : VerifierMode) (claims : JsonObject) : PrincipalKind :=
  match mode with
  | .generic => .unknown
  | .entra _ _ => entraPrincipalKind claims

/-- **Two claim sets show the same principal in an audit record**: they have the same kind, and a client id of
their own, or the same bounded `sub` in its place. -/
structure SameAudited (mode : VerifierMode) (claims claims' : JsonObject) : Prop where
  kind : mode.kindOf claims = mode.kindOf claims'
  client : (get claims "azp").truthy = true ∨ (get claims "client_id").truthy = true ∨
    boundedText (get claims "sub").toStr 256 = boundedText (get claims' "sub").toStr 256

variable [UnicodeTables]

omit [PyRepr] [UnicodeTables] in
theorem claimItem_get {claims : JsonObject} {name : String} {value : Json}
    (found : claimItem claims name = .ok value) : get claims name = value := by
  unfold claimItem at found
  unfold JsonText.get
  split at found
  · rename_i present
    cases found
    rw [present]
    rfl
  · cases found

/-- The client id of an accepted token. -/
theorem accepted_clientId {mode : VerifierMode} {audience token : String} {claims : JsonObject}
    {accessToken : AccessToken} (accepted : mode.Accepts audience token claims accessToken) :
    accessToken.clientId = if (get claims "azp").truthy then (get claims "azp").toStr
      else if (get claims "client_id").truthy then (get claims "client_id").toStr
      else (get claims "sub").toStr := by
  obtain ⟨built, builds, normalizes⟩ := accepted
  obtain ⟨clientId, isClient, builds⟩ := Fallible.bind_eq_ok.mp builds
  obtain ⟨expiresAt, -, builds⟩ := Fallible.bind_eq_ok.mp builds
  obtain ⟨subject, -, builds⟩ := Fallible.bind_eq_ok.mp builds
  cases builds
  have kept : accessToken.clientId = clientId.toStr := by
    cases mode with
    | generic =>
      cases normalizes
      rfl
    | entra tenantId applicationIdUri =>
      simp only [VerifierMode.normalize, normalizeEntra] at normalizes
      split at normalizes
      · cases normalizes
        rfl
      · cases normalizes
  rw [kept]
  unfold clientIdClaim at isClient
  by_cases azp : (get claims "azp").truthy = true
  · rw [if_pos azp] at isClient ⊢
    cases isClient
    rfl
  · rw [if_neg azp] at isClient ⊢
    by_cases clientIdPresent : (get claims "client_id").truthy = true
    · rw [if_pos clientIdPresent] at isClient ⊢
      cases isClient
      rfl
    · rw [if_neg clientIdPresent] at isClient ⊢
      rw [claimItem_get isClient]

/-- **The audited principals of two accepted tokens** are those of their claim sets. -/
theorem audited_eq_iff {mode : VerifierMode} {audience token token' : String} {claims claims' : JsonObject}
    {accessToken accessToken' : AccessToken}
    (agree : AgreeOff ["sub", "scope", "scp", "roles"] claims claims')
    (accepted : mode.Accepts audience token claims accessToken)
    (accepted' : mode.Accepts audience token' claims' accessToken') :
    (principalFromAccessToken accessToken mode.authProvider).audited =
      (principalFromAccessToken accessToken' mode.authProvider).audited ↔ SameAudited mode claims claims' := by
  have kind : ∀ {audience token claims accessToken}, mode.Accepts audience token claims accessToken →
      (principalFromAccessToken accessToken mode.authProvider).kind = mode.kindOf claims := by
    intro audience token claims accessToken accepted
    rw [accepted.facts.2.1]
    cases mode <;> rfl
  have sameAzp : get claims' "azp" = get claims "azp" := (agree "azp" (by decide)).symm
  have sameClientId : get claims' "client_id" = get claims "client_id" := (agree "client_id" (by decide)).symm
  have client : boundedText accessToken.clientId 256 = boundedText accessToken'.clientId 256 ↔
      ((get claims "azp").truthy = true ∨ (get claims "client_id").truthy = true ∨
        boundedText (get claims "sub").toStr 256 = boundedText (get claims' "sub").toStr 256) := by
    rw [accepted_clientId accepted, accepted_clientId accepted', sameAzp, sameClientId]
    by_cases azp : (get claims "azp").truthy = true
    · simp [azp]
    · by_cases clientId : (get claims "client_id").truthy = true
      · simp [azp, clientId]
      · simp [azp, clientId]
  have clientIds : ∀ accessToken : AccessToken,
      (principalFromAccessToken accessToken mode.authProvider).clientId = accessToken.clientId := fun _ => rfl
  rw [Principal.audited, Principal.audited, Prod.mk.injEq, kind accepted, kind accepted', clientIds, clientIds,
    client]
  exact ⟨fun ⟨sameKind, sameClient⟩ => ⟨sameKind, sameClient⟩, fun same => ⟨same.kind, same.client⟩⟩

/-- **What two runs of a request leave in the audit log.** The claim sets of the two tokens differ in `sub`,
scopes and roles only, and the same decisions are made: the records are the same exactly when no tool call was
denied, or the claim sets show the same principal. -/
theorem audit_independent_iff (server : McpServer) (sdk : McpSdk) {mode : VerifierMode}
    (provider : server.verifier.authProvider = mode.authProvider) {request : McpRequest}
    {audience bearer' : String} {claims claims' : JsonObject} {accessToken accessToken' : AccessToken}
    (agree : AgreeOff ["sub", "scope", "scp", "roles"] claims claims')
    (accepted : mode.Accepts audience request.bearer claims accessToken)
    (accepted' : mode.Accepts audience bearer' claims' accessToken')
    (verified : server.verifier.delegate request.bearer = some accessToken)
    (verified' : server.verifier.delegate bearer' = some accessToken')
    (decided : server.decisions sdk { request with bearer := bearer' } accessToken' =
      server.decisions sdk request accessToken) :
    server.auditRecords sdk { request with bearer := bearer' } = server.auditRecords sdk request ↔
      (DeniesTool (server.decisions sdk request accessToken) → SameAudited mode claims claims') := by
  rw [auditRecords_eq sdk verified, @auditRecords_eq _ server { request with bearer := bearer' } _ sdk verified',
    decided, eq_comm]
  show (server.decisions sdk request accessToken).flatMap
      (recordOf request (server.target request) (server.principal accessToken)) =
    (server.decisions sdk request accessToken).flatMap
      (recordOf request (server.target request) (server.principal accessToken')) ↔ _
  rw [flatMap_eq_iff (recordOf_length request (server.target request) _ _)]
  simp only [recordOf_eq_iff, McpServer.principal, provider]
  rw [← audited_eq_iff agree accepted accepted']
  constructor
  · rintro same ⟨denied, member, isDenied⟩
    exact same _ member denied rfl isDenied
  · rintro same decision member denied rfl isDenied
    exact same ⟨denied, member, isDenied⟩

end TwoRuns

/-! ### A denied call of two subjects -/

/-- The claims of a subject, with the claims that name a client. -/
def subjectClaims (client : JsonObject) (subject : String) : JsonObject :=
  client ++ [("sub", .str subject), ("exp", .int 2000000000)]

/-- The token that the generic verifier makes of them. -/
def subjectToken (client : JsonObject) (clientId subject : String) : AccessToken :=
  ⟨subject, clientId, scopesFromClaims (subjectClaims client subject), some 2000000000, some "audience",
    some subject, some (subjectClaims client subject)⟩

/-- A server without policies, whose bearers are the names of two subjects. -/
def subjectServer (client : JsonObject) (clientId : String → String) : McpServer where
  verifier := .init (fun token =>
      if token = "alice" ∨ token = "bob" then some (subjectToken client (clientId token) token) else none)
    ⟨[]⟩ .generic []
  resourceMetadataUrl := (reportServer .authenticated []).resourceMetadataUrl

/-- A call of a tool that has no policy. -/
def aliceRequest : McpRequest := { reportRequest with bearer := "alice" }

/-- The call is dispatched and denied, whoever makes it. -/
theorem subject_decisions [PyRepr] (client : JsonObject) (clientId : String → String) (bearer : String)
    (accessToken : AccessToken) :
    (subjectServer client clientId).decisions openSdk { aliceRequest with bearer := bearer } accessToken =
      [.challenge ∅, .admission true, .toolCall ⟨false, .policyMissing, []⟩] := by
  have unchallenged : (subjectServer client clientId).challenged { aliceRequest with bearer := bearer }
      accessToken = ∅ := by
    rw [challenged_of_context (requestContext_of_isMcpPost ⟨rfl, rfl, rfl⟩), if_pos rfl, challengeScopes_eq]
    simp [ProgressiveAuthorizationTokenVerifier.requirements, subjectServer,
      ProgressiveAuthorizationTokenVerifier.init, ToolAuthorizationService.policyFor, StepUp.supplement]
  have denied : (subjectServer client clientId).verifier.authorizer.authorize "report"
      (some ((subjectServer client clientId).principal accessToken)) = ⟨false, .policyMissing, []⟩ := rfl
  have called : ({ aliceRequest with bearer := bearer } : McpRequest).calledTool = some "report" := rfl
  simp [McpServer.decisions, unchallenged, called, denied, openSdk]

theorem subject_agree (client : JsonObject) :
    AgreeOff ["sub", "scope", "scp", "roles"] (subjectClaims client "alice") (subjectClaims client "bob") := by
  intro name outside
  have notSub : ¬ (name == "sub") = true := by
    intro isSub
    exact outside (by simp [beq_iff_eq.mp isSub])
  simp [subjectClaims, JsonText.get, List.lookup_append, List.lookup_cons, notSub]

/-- The client ids in the records of the call. -/
theorem subject_clientIds [PyRepr] {client : JsonObject} {clientId : String → String} {bearer : String}
    {accessToken : AccessToken}
    (verified : (subjectServer client clientId).verifier.delegate bearer = some accessToken) :
    ((subjectServer client clientId).auditRecords openSdk { aliceRequest with bearer := bearer }).map
      SecurityAudit.clientId = [some (boundedText accessToken.clientId 256)] := by
  have records := @auditRecords_eq _ _ { aliceRequest with bearer := bearer } _ openSdk verified
  rw [records, subject_decisions]
  rfl

theorem audit_independent_client :
    let _ := plainRepr
    let _ := asciiTables
    let server := subjectServer [("azp", .str "client")] fun _ => "client"
    server.auditRecords openSdk { aliceRequest with bearer := "bob" } = server.auditRecords openSdk aliceRequest := by
  intro _ _ server
  let client : JsonObject := [("azp", .str "client")]
  have alice : VerifierMode.generic.Accepts "audience" "alice" (subjectClaims client "alice")
      (subjectToken client "client" "alice") := ⟨_, rfl, rfl⟩
  have bob : VerifierMode.generic.Accepts "audience" "bob" (subjectClaims client "bob")
      (subjectToken client "client" "bob") := ⟨_, rfl, rfl⟩
  have decided : server.decisions openSdk { aliceRequest with bearer := "bob" } (subjectToken client "client" "bob") =
      server.decisions openSdk aliceRequest (subjectToken client "client" "alice") := by
    rw [subject_decisions]
    exact (subject_decisions client (fun _ => "client") "alice" _).symm
  have same : SameAudited .generic (subjectClaims client "alice") (subjectClaims client "bob") := ⟨rfl, Or.inl rfl⟩
  exact (@audit_independent_iff _ _ server openSdk .generic rfl aliceRequest "audience" "bob" _ _ _ _
    (subject_agree client) alice bob rfl rfl decided).mpr fun _ => same

/-- Claims without `azp` and `client_id`: the record of a denied call shows the subject. -/
theorem audit_shows_subject :
    let _ := plainRepr
    let _ := asciiTables
    let server := subjectServer [] id
    VerifierMode.generic.Accepts "audience" "alice" (subjectClaims [] "alice") (subjectToken [] "alice" "alice") ∧
      VerifierMode.generic.Accepts "audience" "bob" (subjectClaims [] "bob") (subjectToken [] "bob" "bob") ∧
      AgreeOff ["sub", "scope", "scp", "roles"] (subjectClaims [] "alice") (subjectClaims [] "bob") ∧
      server.decisions openSdk { aliceRequest with bearer := "bob" } (subjectToken [] "bob" "bob") =
        server.decisions openSdk aliceRequest (subjectToken [] "alice" "alice") ∧
      (server.auditRecords openSdk aliceRequest).map SecurityAudit.clientId = [some "alice"] ∧
      (server.auditRecords openSdk { aliceRequest with bearer := "bob" }).map SecurityAudit.clientId = [some "bob"] := by
  intro _ _ server
  have decisions := fun bearer => subject_decisions [] id bearer
  refine ⟨⟨_, rfl, rfl⟩, ⟨_, rfl, rfl⟩, subject_agree [], ?_, ?_, ?_⟩
  · rw [decisions]
    exact (decisions "alice" _).symm
  · have shown := @subject_clientIds _ [] id "alice" (subjectToken [] "alice" "alice") rfl
    rw [show boundedText (subjectToken [] "alice" "alice").clientId 256 = "alice" from if_pos (by decide)] at shown
    exact shown
  · have shown := @subject_clientIds _ [] id "bob" (subjectToken [] "bob" "bob") rfl
    rw [show boundedText (subjectToken [] "bob" "bob").clientId 256 = "bob" from if_pos (by decide)] at shown
    exact shown

end McpAuth
