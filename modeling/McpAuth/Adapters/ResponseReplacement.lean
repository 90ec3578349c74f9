/-
**The 403 replacement over whole runs of the inner app.**

The inner app sends one response while other components may set `context.required_scopes` at any moment
(`InnerEvent`). `ProgressiveAuthorizationMiddleware.serve` passes each message through
`send_with_scope_challenge` with the context of that moment.

`response_complete_iff`: the client receives the inner response unchanged, or one 403 with one body and
nothing after it, exactly as the required scopes at the moment of the start say; this holds whenever the
challenge for these scopes can be encoded.
-/

import McpAuth.Adapters.ProgressiveAuth

namespace McpAuth

open PyText

/-! ### Runs of the inner app -/

/-- One moment of the inner app's run: another component sets the required scopes, or the app sends. -/
inductive InnerEvent
  | requireScopes (scopes : List String)
  | send (message : Message)

/-- The messages that the inner app sends. -/
def messagesOf : List InnerEvent → List Message
  | [] => []
  | .requireScopes _ :: events => messagesOf events
  | .send message :: events => message :: messagesOf events

/-- The sends of a run, each with the context at that moment. -/
def attend (context : ProgressiveAuthorizationContext) :
    List InnerEvent → List (ProgressiveAuthorizationContext × Message)
  | [] => []
  | .requireScopes scopes :: events => attend { context with requiredScopes := scopes } events
  | .send message :: events => (context, message) :: attend context events

/-- The required scopes when the first message is sent, from those at the beginning of the run. -/
def scopesAtStart (scopes : List String) : List InnerEvent → List String
  | [] => scopes
  | .requireScopes scopes :: events => scopesAtStart scopes events
  | .send _ :: _ => scopes

@[simp] theorem attend_messages (context : ProgressiveAuthorizationContext) (events : List InnerEvent) :
    (attend context events).map Prod.snd = messagesOf events := by
  induction events generalizing context with
  | nil => rfl
  | cons event events ih => cases event <;> simp [attend, messagesOf, ih]

/-- The first send sees the scopes of that moment, whatever is set afterwards. -/
theorem attend_cons {context : ProgressiveAuthorizationContext} {events : List InnerEvent} {first : Message}
    {later : List Message} (sends : messagesOf events = first :: later) :
    ∃ rest, attend context events =
        ({ context with requiredScopes := scopesAtStart context.requiredScopes events }, first) :: rest ∧
      rest.map Prod.snd = later := by
  induction events generalizing context with
  | nil => cases sends
  | cons event events ih =>
    cases event with
    | requireScopes scopes => exact @ih { context with requiredScopes := scopes } sends
    | send message =>
      injection sends with isFirst isLater
      subst isFirst
      exact ⟨attend context events, rfl, by rw [attend_messages, isLater]⟩

/-! ### The middleware -/

/-- The wrapper of one MCP app. -/
structure ProgressiveAuthorizationMiddleware where
  resourceMetadataUrl : String
  mcpPath : String := "/mcp"

/-- `ProgressiveAuthorizationMiddleware.__call__` over a run of the inner app. -/
def ProgressiveAuthorizationMiddleware.serve (middleware : ProgressiveAuthorizationMiddleware)
    (scope : HttpScope) (events : List InnerEvent) : Sent :=
  if scope.scopeType ≠ "http" then ⟨messagesOf events, false, false, []⟩
  else forward middleware.resourceMetadataUrl false (attend (contextOf middleware.mcpPath scope) events)

/-- One response: its start, then chunks of its body. -/
def IsResponse (messages : List Message) : Prop :=
  ∃ status headers, ∃ chunks : List (Bytes × Bool),
    messages = .start status headers :: chunks.map fun chunk => .body chunk.1 chunk.2

/-- The client receives the inner messages, unchanged. -/
structure Sent.Kept (sent : Sent) (messages : List Message) : Prop where
  returned : sent.raised = false
  flag : sent.responseReplaced = false
  unchanged : sent.messages = messages

/-- The client receives the challenge for the scopes and nothing else: a 403 whose only content length is
that of the one body behind it. The challenge is made of the scopes and the metadata URL alone. -/
structure Sent.Replaced (sent : Sent) (resourceMetadataUrl : String) (scopes : List String) : Prop where
  returned : sent.raised = false
  flag : sent.responseReplaced = true
  challenge : some sent.messages = sendInsufficientScopeResponse scopes resourceMetadataUrl
  framed : ∃ headers body, sent.messages = [.start 403 headers, .body body false] ∧
    headers.filter (fun header => lowerBytes header.1 == asciiBytes "content-length") =
      [(asciiBytes "content-length", asciiBytes (toString body.length))]

/-- Exactly one whole response: the challenge when scopes were required at the start, else the inner one. -/
def Sent.OneResponse (sent : Sent) (resourceMetadataUrl : String) (scopes : List String)
    (messages : List Message) : Prop :=
  scopes = [] ∧ sent.Kept messages ∨ scopes ≠ [] ∧ sent.Replaced resourceMetadataUrl scopes

/-- The two messages of a challenge that can be encoded. -/
theorem sendInsufficientScopeResponse_framed {scopes : List String} {resourceMetadataUrl : String}
    {messages : List Message} (sent : sendInsufficientScopeResponse scopes resourceMetadataUrl = some messages) :
    ∃ headers body, messages = [.start 403 headers, .body body false] ∧
      headers.filter (fun header => lowerBytes header.1 == asciiBytes "content-length") =
        [(asciiBytes "content-length", asciiBytes (toString body.length))] := by
  unfold sendInsufficientScopeResponse at sent
  obtain ⟨challenge, -, built⟩ := Option.bind_eq_some_iff.mp sent
  cases built
  have isLength : (lowerBytes (asciiBytes "content-length") == asciiBytes "content-length") = true := by decide
  have otherNames : ∀ name ∈ ["content-type", "cache-control", "www-authenticate"],
      (lowerBytes (asciiBytes name) == asciiBytes "content-length") = false := by decide
  refine ⟨_, _, rfl, ?_⟩
  simp [isLength, otherNames]

/-- **Every chunk position and every moment of a challenge**: what the client receives is decided at the
start of the inner response. -/
theorem serve_response (middleware : ProgressiveAuthorizationMiddleware) {scope : HttpScope}
    (http : scope.scopeType = "http") {events : List InnerEvent} (one : IsResponse (messagesOf events)) :
    let sent := middleware.serve scope events
    let scopes := scopesAtStart [] events
    if scopes = [] then sent.Kept (messagesOf events)
    else match sendInsufficientScopeResponse scopes middleware.resourceMetadataUrl with
      | some messages => sent.messages = messages ∧ sent.responseReplaced = true ∧ sent.raised = false
      | none => sent.raised = true := by
  obtain ⟨status, headers, chunks, shape⟩ := one
  obtain ⟨rest, attended, later⟩ := @attend_cons (contextOf middleware.mcpPath scope) _ _ _ shape
  dsimp only
  rw [ProgressiveAuthorizationMiddleware.serve, if_neg (not_not.mpr http), attended, contextOf_requiredScopes,
    forward]
  by_cases quiet : scopesAtStart [] events = []
  · rw [if_pos quiet]
    have passed := forward_bodies middleware.resourceMetadataUrl false later
    constructor <;> simp [sendWithScopeChallenge, quiet, passed, later, shape]
  · rw [if_neg quiet]
    have asked : (scopesAtStart [] events).isEmpty = false := by simpa using quiet
    have dropped := forward_bodies middleware.resourceMetadataUrl true later
    cases encoded : sendInsufficientScopeResponse (scopesAtStart [] events) middleware.resourceMetadataUrl with
    | none => simp [sendWithScopeChallenge, asked, encoded]
    | some messages => simp [sendWithScopeChallenge, asked, encoded, dropped]

/-- **One complete, unmixed response**: for every run of the inner app that sends one response, with the
required scopes set at any moments, the client receives the inner response as it is or the challenge as
its start decides, exactly when no scope is required there or the challenge is ASCII. -/
theorem response_complete_iff (middleware : ProgressiveAuthorizationMiddleware) {scope : HttpScope}
    (http : scope.scopeType = "http") {events : List InnerEvent} (one : IsResponse (messagesOf events)) :
    (middleware.serve scope events).OneResponse middleware.resourceMetadataUrl (scopesAtStart [] events)
        (messagesOf events) ↔
      scopesAtStart [] events = [] ∨
        IsAsciiText middleware.resourceMetadataUrl ∧ ∀ scope ∈ scopesAtStart [] events, IsAsciiText scope := by
  have served := serve_response middleware http one
  dsimp only at served
  rw [← sendInsufficientScopeResponse_isSome]
  by_cases quiet : scopesAtStart [] events = []
  · rw [if_pos quiet] at served
    exact iff_of_true (Or.inl ⟨quiet, served⟩) (Or.inl quiet)
  rw [if_neg quiet] at served
  cases encoded : sendInsufficientScopeResponse (scopesAtStart [] events) middleware.resourceMetadataUrl with
  | none =>
    rw [encoded] at served
    refine iff_of_false ?_ (by simp [quiet])
    rintro (⟨empty, -⟩ | ⟨-, replaced⟩)
    · exact quiet empty
    · exact absurd served (by simp [replaced.returned])
  | some messages =>
    rw [encoded] at served
    obtain ⟨same, flag, returned⟩ := served
    refine iff_of_true (Or.inr ⟨quiet, returned, flag, ?_, ?_⟩) (Or.inr rfl)
    · rw [encoded, same]
    · rw [same]
      exact sendInsufficientScopeResponse_framed encoded

/-- An MCP POST. -/
def mcpPost : HttpScope := ⟨"http", "POST", "/mcp", []⟩

/-- The SDK's 401 in two chunks, with a scope required before it. -/
def challengedRun (scope : String) : List InnerEvent :=
  [.requireScopes [scope], .send (.start 401 []), .send (.body [1] true), .send (.body [2] false)]

theorem challengedRun_isResponse (scope : String) : IsResponse (messagesOf (challengedRun scope)) :=
  ⟨401, [], [([1], true), ([2], false)], rfl⟩

theorem response_complete_read :
    (ProgressiveAuthorizationMiddleware.serve ⟨"https://mcp.example/meta", "/mcp"⟩ mcpPost
        (challengedRun "mcp:read")).OneResponse "https://mcp.example/meta" ["mcp:read"]
      [.start 401 [], .body [1] true, .body [2] false] :=
  (response_complete_iff ⟨"https://mcp.example/meta", "/mcp"⟩ rfl (challengedRun_isResponse "mcp:read")).mpr
    (Or.inr ⟨by decide, by simp only [challengedRun, scopesAtStart, List.forall_mem_singleton]; decide⟩)

/-- A scope outside ASCII: neither the inner response nor the challenge is sent. -/
theorem response_missing_nonascii :
    ¬ (ProgressiveAuthorizationMiddleware.serve ⟨"https://mcp.example/meta", "/mcp"⟩ mcpPost
        (challengedRun "é")).OneResponse "https://mcp.example/meta" ["é"]
      [.start 401 [], .body [1] true, .body [2] false] := by
  have raised : (ProgressiveAuthorizationMiddleware.serve ⟨"https://mcp.example/meta", "/mcp"⟩ mcpPost
      (challengedRun "é")).raised = true := by decide +kernel
  rintro (⟨empty, -⟩ | ⟨-, replaced⟩)
  · cases empty
  · exact absurd raised (by simp [replaced.returned])

end McpAuth
