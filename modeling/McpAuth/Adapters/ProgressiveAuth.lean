/-
**Progressive authorization: routing headers, the 403 challenge and the verifier decorator.**

The HTTP side reads the request target off the three `mcp-*` headers (`targetFromScope`), keeps it in
the request-local `ProgressiveAuthorizationContext`, and replaces the SDK's answer by the 403
challenge when the context names required scopes (`sendWithScopeChallenge`, `forward`). The verifier
side (`verifyToken`) calls its delegate once and, on a valid token, either returns it or records the
scopes to ask for and returns `None`.

The abstract side is `StepUp`: the verifier's requirements are the global baseline and the scope
requirement of the target's policy (`requirements`), and the recorded scopes are their challenge
(`challengeScopes_eq`).

`stepUp_settles` is the result: a client that obtains what it was challenged for is not challenged
again, more scopes never lose access, and a denial that no scope repairs is never challenged.
-/

import McpAuth.Adapters.Principal
import McpAuth.Library.StepUp

namespace McpAuth

open PyText JsonText

/-! ### Routing headers -/

/-- The fields of an ASGI scope that the middleware reads. -/
structure HttpScope where
  scopeType : String
  method : String
  path : String
  headers : List (Bytes × Bytes)

/-- Routing metadata of a modern MCP request. -/
structure McpRequestTarget where
  method : String
  name : String
  deriving DecidableEq

/-- The request-local state shared with the verifier decorator. -/
structure ProgressiveAuthorizationContext where
  isMcpRequest : Bool
  target : Option McpRequestTarget
  requiredScopes : List String := []
  deriving DecidableEq

def modernProtocolVersion : String := "2026-07-28"

def base64Prefix : String := "=?base64?"

def base64Suffix : String := "?="

/-- `_single_header`: the value of a header that occurs exactly once and is ASCII. -/
def singleHeader (scope : HttpScope) (expectedName : Bytes) : Option String :=
  match (scope.headers.filter fun header => lowerBytes header.1 == expectedName).map Prod.snd with
  | [value] => decodeAscii value
  | _ => none

/-- The header is one of the three routing headers. -/
def isRoutingHeader (header : Bytes × Bytes) : Bool :=
  lowerBytes header.1 == asciiBytes "mcp-protocol-version" ||
    lowerBytes header.1 == asciiBytes "mcp-method" || lowerBytes header.1 == asciiBytes "mcp-name"

/-- `_decode_header_value`. -/
def decodeHeaderValue (value : String) : Option String :=
  let chars := value.toList
  if base64Prefix.toList <+: chars ∧ base64Suffix.toList <:+ chars then
    let encoded := (chars.take (chars.length - base64Suffix.length)).drop base64Prefix.length
    (b64decodeChars encoded).bind decodeUtf8
  else if strip value ≠ value then none
  else some value

/-- `_target_from_scope`. -/
def targetFromScope (scope : HttpScope) : Option McpRequestTarget :=
  if scope.method ≠ "POST" then none
  else
    let protocolVersion := singleHeader scope (asciiBytes "mcp-protocol-version")
    let method := singleHeader scope (asciiBytes "mcp-method")
    match singleHeader scope (asciiBytes "mcp-name") with
    | none => none
    | some name =>
      if protocolVersion ≠ some modernProtocolVersion ∨ method ≠ some "tools/call" then none
      else match decodeHeaderValue name with
        | none => none
        | some decodedName =>
          if decodedName = "" then none else some ⟨"tools/call", decodedName⟩

/-- The context that `ProgressiveAuthorizationMiddleware.__call__` sets for one request. -/
def contextOf (mcpPath : String) (scope : HttpScope) : ProgressiveAuthorizationContext :=
  let isMcpRequest := scope.method == "POST" && scope.path == mcpPath
  { isMcpRequest := isMcpRequest
    target := if isMcpRequest then targetFromScope scope else none }

@[simp] theorem contextOf_requiredScopes (mcpPath : String) (scope : HttpScope) :
    (contextOf mcpPath scope).requiredScopes = [] := rfl

/-! ### The 403 challenge -/

/-- The ASGI messages of one HTTP response. -/
inductive Message
  | start (status : Nat) (headers : List (Bytes × Bytes))
  | body (content : Bytes) (moreBody : Bool)
  deriving DecidableEq

/-- The value of the `WWW-Authenticate` header before it is encoded. -/
def challengeText (requiredScopes : List String) (resourceMetadataUrl : String) : String :=
  "Bearer error=\"insufficient_scope\", scope=\"" ++ joinWith ' ' requiredScopes ++
    "\", resource_metadata=\"" ++ resourceMetadataUrl ++ "\""

/-- The JSON body of the challenge. -/
def challengeBody : Bytes :=
  asciiBytes ("\x7b\"error\":\"insufficient_scope\",\"error_description\":" ++
    "\"Additional authorization is required for this operation.\"\x7d")

/-- `_send_insufficient_scope_response`: the two messages it sends, `none` where encoding the
challenge raises `UnicodeEncodeError`, which is before the first of them. -/
def sendInsufficientScopeResponse (requiredScopes : List String) (resourceMetadataUrl : String) :
    Option (List Message) := do
  let challenge ← encodeAscii (challengeText requiredScopes resourceMetadataUrl)
  some [.start 403
      [(asciiBytes "content-type", asciiBytes "application/json"),
        (asciiBytes "content-length", asciiBytes (toString challengeBody.length)),
        (asciiBytes "cache-control", asciiBytes "no-store"),
        (asciiBytes "www-authenticate", challenge)],
    .body challengeBody false]

/-- **The challenge can be sent exactly when its scopes and the metadata URL are ASCII.** -/
theorem sendInsufficientScopeResponse_isSome {requiredScopes : List String} {resourceMetadataUrl : String} :
    (sendInsufficientScopeResponse requiredScopes resourceMetadataUrl).isSome ↔
      IsAsciiText resourceMetadataUrl ∧ ∀ scope ∈ requiredScopes, IsAsciiText scope := by
  have encodes : (sendInsufficientScopeResponse requiredScopes resourceMetadataUrl).isSome =
      (encodeAscii (challengeText requiredScopes resourceMetadataUrl)).isSome := by
    unfold sendInsufficientScopeResponse
    cases encodeAscii (challengeText requiredScopes resourceMetadataUrl) <;> rfl
  have opening : IsAsciiText "Bearer error=\"insufficient_scope\", scope=\"" := by decide
  have middle : IsAsciiText "\", resource_metadata=\"" := by decide
  have closing : IsAsciiText "\"" := by decide
  have joined : IsAsciiText (joinWith ' ' requiredScopes) ↔
      ∀ scope ∈ requiredScopes, IsAsciiText scope := isAsciiText_joinWith (by decide)
  rw [encodes, encodeAscii_isSome_iff, ← joined]
  unfold challengeText
  constructor
  · intro ascii
    obtain ⟨uptoUrl, -⟩ := isAsciiText_append.mp ascii
    obtain ⟨uptoMiddle, url⟩ := isAsciiText_append.mp uptoUrl
    have uptoScopes := (isAsciiText_append.mp uptoMiddle).1
    exact ⟨url, (isAsciiText_append.mp uptoScopes).2⟩
  · rintro ⟨url, ascii⟩
    have uptoScopes := isAsciiText_append.mpr ⟨opening, ascii⟩
    have uptoMiddle := isAsciiText_append.mpr ⟨uptoScopes, middle⟩
    have uptoUrl := isAsciiText_append.mpr ⟨uptoMiddle, url⟩
    exact isAsciiText_append.mpr ⟨uptoUrl, closing⟩

theorem sendInsufficientScopeResponse_isSome_iff {requiredScopes : List String}
    {resourceMetadataUrl : String} (asciiUrl : IsAsciiText resourceMetadataUrl) :
    (sendInsufficientScopeResponse requiredScopes resourceMetadataUrl).isSome ↔
      ∀ scope ∈ requiredScopes, IsAsciiText scope := by
  rw [sendInsufficientScopeResponse_isSome]
  exact and_iff_right asciiUrl

/-! ### Reading a challenge -/

/-- The text behind the first occurrence of `pattern`. -/
def afterInfix (pattern : List Char) : List Char → Option (List Char)
  | [] => none
  | char :: rest =>
    if pattern.isPrefixOf (char :: rest) then some ((char :: rest).drop pattern.length)
    else afterInfix pattern rest

/-- The `scope="..."` attribute of a challenge, up to its closing quote and split on spaces. -/
def scopeAttribute (challenge : String) : Option (List String) := do
  let rest ← afterInfix "scope=\"".toList challenge.toList
  some (splitOnChar ' ' (String.ofList (rest.takeWhile (· ≠ '"'))))

/-- The scope attribute of the `WWW-Authenticate` header of a response. -/
def scopeListOf (messages : List Message) : Option (List String) :=
  match messages with
  | .start _ headers :: _ => do
    let value ← headers.lookup (asciiBytes "www-authenticate")
    let challenge ← decodeAscii value
    scopeAttribute challenge
  | _ => none

theorem length_le_of_afterInfix {pattern text found : List Char}
    (finds : afterInfix pattern text = some found) : pattern.length ≤ text.length := by
  induction text with
  | nil => cases finds
  | cons char rest ih =>
    unfold afterInfix at finds
    split at finds
    · rename_i here
      exact (List.isPrefixOf_iff_prefix.mp here).length_le
    · exact Nat.le_succ_of_le (ih finds)

/-- What is found in a text is found in every continuation of it. -/
theorem afterInfix_append {pattern text found : List Char}
    (finds : afterInfix pattern text = some found) (rest : List Char) :
    afterInfix pattern (text ++ rest) = some (found ++ rest) := by
  induction text with
  | nil => cases finds
  | cons char tail ih =>
    have fits := length_le_of_afterInfix finds
    have samePrefix : pattern.isPrefixOf (char :: (tail ++ rest)) = pattern.isPrefixOf (char :: tail) := by
      rw [Bool.eq_iff_iff, List.isPrefixOf_iff_prefix, List.isPrefixOf_iff_prefix]
      constructor
      · intro here
        exact List.prefix_of_prefix_length_le here (List.prefix_append (char :: tail) rest) fits
      · intro here
        exact here.trans (List.prefix_append (char :: tail) rest)
    rw [List.cons_append]
    unfold afterInfix at finds ⊢
    rw [samePrefix]
    split at finds
    · rename_i here
      rw [if_pos here, ← List.cons_append, List.drop_append_of_le_length fits]
      rw [Option.some.injEq] at finds
      rw [finds]
    · rename_i elsewhere
      rw [if_neg elsewhere]
      exact ih finds

/-- What is found behind a text whose own end is the pattern. -/
theorem afterInfix_five {pattern : List Char} {opening joined middle behind url closing : String}
    (ends : afterInfix pattern opening.toList = some []) {quote : Char}
    (quoted : middle.toList = quote :: behind.toList) :
    afterInfix pattern (opening ++ joined ++ middle ++ url ++ closing).toList =
      some (joined.toList ++ quote :: (behind ++ url ++ closing).toList) := by
  have found := afterInfix_append ends
    (joined.toList ++ quote :: (behind ++ url ++ closing).toList)
  rw [List.nil_append] at found
  rw [← found]
  congr 1
  simp [quoted]

theorem afterInfix_challengeText (requiredScopes : List String) (resourceMetadataUrl : String) :
    afterInfix "scope=\"".toList (challengeText requiredScopes resourceMetadataUrl).toList =
      some ((joinWith ' ' requiredScopes).toList ++
        '"' :: (", resource_metadata=\"" ++ resourceMetadataUrl ++ "\"").toList) :=
  afterInfix_five (by decide) (by decide)

/-- **What is read from a challenge**: its joined scopes up to a quotation mark, split on spaces. -/
theorem scopeListOf_eq {requiredScopes : List String} {resourceMetadataUrl : String}
    {messages : List Message}
    (sent : sendInsufficientScopeResponse requiredScopes resourceMetadataUrl = some messages) :
    scopeListOf messages = some (splitOnChar ' ' (upTo '"' (joinWith ' ' requiredScopes))) := by
  unfold sendInsufficientScopeResponse at sent
  obtain ⟨value, encoded, built⟩ := Option.bind_eq_some_iff.mp sent
  cases built
  have decoded := decodeAscii_encodeAscii encoded
  have upToQuote : ∀ text rest : List Char,
      (text ++ '"' :: rest).takeWhile (· ≠ '"') = text.takeWhile (· ≠ '"') := by
    intro text rest
    rw [List.takeWhile_append]
    split
    · rename_i whole
      rw [(List.takeWhile_prefix _).eq_of_length whole]
      simp
    · rfl
  show (do
    let challenge ← decodeAscii value
    scopeAttribute challenge) = _
  rw [decoded]
  show scopeAttribute _ = _
  unfold scopeAttribute
  rw [afterInfix_challengeText]
  show some (splitOnChar ' ' (String.ofList (List.takeWhile _ _))) = _
  rw [upToQuote]
  rfl

/-- **Reading a challenge for scope-tokens gives the scopes back.** -/
theorem scopeListOf_sent {requiredScopes : List String} {resourceMetadataUrl : String}
    {messages : List Message} (nonempty : requiredScopes ≠ [])
    (tokens : ∀ scope ∈ requiredScopes, IsScopeToken scope)
    (sent : sendInsufficientScopeResponse requiredScopes resourceMetadataUrl = some messages) :
    scopeListOf messages = some requiredScopes := by
  have noQuote : '"' ∉ (joinWith ' ' requiredScopes).toList := by
    intro member
    rw [joinWith, String.toList_ofList] at member
    rcases mem_intercalate member with isSpace | ⟨chars, inside, here⟩
    · exact absurd isSpace (by decide)
    · obtain ⟨scope, isScope, rfl⟩ := List.mem_map.mp inside
      exact ((tokens scope isScope).chars '"' here).2.1 rfl
  rw [scopeListOf_eq sent, upTo_of_notMem noQuote, splitOnChar_joinWith _ _ nonempty]
  intro scope isScope inside
  exact ((tokens scope isScope).chars ' ' inside).1 rfl

/-- What one `send` of the inner app does: the messages passed on, whether the response is now
replaced, whether `send` raised, and the audit records. -/
structure Sent where
  messages : List Message
  responseReplaced : Bool
  raised : Bool := false
  audit : List SecurityAudit := []

/-- `send_with_scope_challenge`. -/
def sendWithScopeChallenge (resourceMetadataUrl : String) (context : ProgressiveAuthorizationContext)
    (responseReplaced : Bool) (message : Message) : Sent :=
  match message with
  | .start _ _ =>
    if context.requiredScopes.isEmpty then ⟨[message], responseReplaced, false, []⟩
    else
      let audit := [emitSecurityAudit .oauthScopeStepUp .challenged "missing_permission" none
        (context.target.map McpRequestTarget.name) (some 403) (some context.requiredScopes.length)]
      match sendInsufficientScopeResponse context.requiredScopes resourceMetadataUrl with
      | some messages => ⟨messages, true, false, audit⟩
      | none => ⟨[], responseReplaced, true, audit⟩
  | .body _ _ =>
    if responseReplaced then ⟨[], responseReplaced, false, []⟩
    else ⟨[message], responseReplaced, false, []⟩

/-- The inner app's sends, each with the context at that moment, through the wrapper. A `send` that
raises ends the run. -/
def forward (resourceMetadataUrl : String) :
    Bool → List (ProgressiveAuthorizationContext × Message) → Sent
  | replaced, [] => ⟨[], replaced, false, []⟩
  | replaced, (context, message) :: rest =>
    let first := sendWithScopeChallenge resourceMetadataUrl context replaced message
    if first.raised then first
    else
      let later := forward resourceMetadataUrl first.responseReplaced rest
      ⟨first.messages ++ later.messages, later.responseReplaced, later.raised,
        first.audit ++ later.audit⟩

/-- **Chunks of a body are all passed on or, after a replacement, all dropped**, whatever happens to the
context meanwhile. -/
theorem forward_bodies (resourceMetadataUrl : String) (replaced : Bool)
    {sends : List (ProgressiveAuthorizationContext × Message)} {chunks : List (Bytes × Bool)}
    (bodies : sends.map Prod.snd = chunks.map fun chunk => .body chunk.1 chunk.2) :
    forward resourceMetadataUrl replaced sends =
      ⟨if replaced then [] else sends.map Prod.snd, replaced, false, []⟩ := by
  induction sends generalizing chunks with
  | nil => cases replaced <;> rfl
  | cons send rest ih =>
    obtain ⟨context, message⟩ := send
    cases chunks with
    | nil => cases bodies
    | cons chunk chunks =>
      injection bodies with isBody restBodies
      have body : message = .body chunk.1 chunk.2 := isBody
      subst body
      cases replaced <;> simp [forward, sendWithScopeChallenge, ih restBodies]

/-! ### The verifier decorator -/

/-- The decorator around one verifier and one policy registry. -/
structure ProgressiveAuthorizationTokenVerifier where
  delegate : String → Option AccessToken
  authorizer : ToolAuthorizationService
  authProvider : AuthProvider
  globalRequiredScopes : List String

/-- `ProgressiveAuthorizationTokenVerifier.__init__`. -/
def ProgressiveAuthorizationTokenVerifier.init (delegate : String → Option AccessToken)
    (authorizer : ToolAuthorizationService) (authProvider : AuthProvider)
    (globalRequiredScopes : List String) : ProgressiveAuthorizationTokenVerifier :=
  ⟨delegate, authorizer, authProvider, sorted globalRequiredScopes.toFinset⟩

/-- The outcome of `verify_token`: its result, the context afterwards and the audit records. -/
structure Verification where
  accessToken : Option AccessToken
  context : Option ProgressiveAuthorizationContext
  audit : List SecurityAudit := []

section Verifier

variable [PyRepr]

/-- The local `challenge_scopes` set of `verify_token`. -/
def ProgressiveAuthorizationTokenVerifier.challengeScopes
    (verifier : ProgressiveAuthorizationTokenVerifier) (context : ProgressiveAuthorizationContext)
    (accessToken : AccessToken) : Finset String :=
  let globalScopes :=
    if verifier.globalRequiredScopes.toFinset ⊆ accessToken.scopes.toFinset then ∅
    else verifier.globalRequiredScopes.toFinset
  match context.target with
  | none => globalScopes
  | some target =>
    let decision := verifier.authorizer.authorize target.name
      (some (principalFromAccessToken accessToken verifier.authProvider))
    if decision.repairable then globalScopes ∪ decision.requiredScopes.toFinset else globalScopes

/-- `verify_token`. -/
def ProgressiveAuthorizationTokenVerifier.verifyToken
    (verifier : ProgressiveAuthorizationTokenVerifier)
    (context : Option ProgressiveAuthorizationContext) (token : String) : Verification :=
  match verifier.delegate token with
  | none =>
    ⟨none, context,
      [emitSecurityAudit .authenticationRejected .denied "token_verification_failed"]⟩
  | some accessToken =>
    match context with
    | none => ⟨some accessToken, none, []⟩
    | some context =>
      if !context.isMcpRequest then ⟨some accessToken, some context, []⟩
      else
        let challengeScopes := verifier.challengeScopes context accessToken
        if challengeScopes ≠ ∅ then
          ⟨none, some { context with requiredScopes := sorted challengeScopes }, []⟩
        else ⟨some accessToken, some context, []⟩

/-- The scope requirements of one request: the baseline, and the target's policy for this kind of
principal. -/
def ProgressiveAuthorizationTokenVerifier.requirements
    (verifier : ProgressiveAuthorizationTokenVerifier) (target : Option McpRequestTarget)
    (kind : PrincipalKind) : List (Finset String) :=
  let toolRequirement := target.bind fun target =>
    (verifier.authorizer.policyFor target.name).bind fun policy => policy.scopeRequirement kind
  verifier.globalRequiredScopes.toFinset :: toolRequirement.toList

/-- **The verifier asks for the challenge of its requirements.** -/
theorem challengeScopes_eq (verifier : ProgressiveAuthorizationTokenVerifier)
    (context : ProgressiveAuthorizationContext) (accessToken : AccessToken) :
    verifier.challengeScopes context accessToken =
      StepUp.challenge
        (verifier.requirements context.target
          (principalFromAccessToken accessToken verifier.authProvider).kind)
        accessToken.scopes.toFinset := by
  unfold ProgressiveAuthorizationTokenVerifier.challengeScopes
    ProgressiveAuthorizationTokenVerifier.requirements
  dsimp only
  cases context.target with
  | none => simp [StepUp.supplement]
  | some target =>
    dsimp only [Option.bind_some]
    have described := fun scopes => @authorize_repairable_iff verifier.authorizer target.name
      (principalFromAccessToken accessToken verifier.authProvider) scopes
    by_cases repairs : (verifier.authorizer.authorize target.name
        (some (principalFromAccessToken accessToken verifier.authProvider))).repairable = true
    · obtain ⟨policy, required, found, requires, unmet, named⟩ := (described _).mp ⟨repairs, rfl⟩
      rw [principal_scopes] at unmet
      rw [if_pos repairs, ← named, sorted_toFinset]
      simp [found, requires, StepUp.supplement, unmet]
    · rw [if_neg repairs]
      cases found : verifier.authorizer.policyFor target.name with
      | none => simp [StepUp.supplement]
      | some policy =>
        cases requires : policy.scopeRequirement
            (principalFromAccessToken accessToken verifier.authProvider).kind with
        | none => simp [requires, StepUp.supplement]
        | some required =>
          have met : required ⊆ accessToken.scopes.toFinset := by
            by_contra unmet
            exact repairs ((described _).mpr ⟨policy, required, found, requires, unmet, rfl⟩).1
          simp [requires, StepUp.supplement, met]

/-- What `verify_token` does with a token its delegate verified. -/
theorem verifyToken_verified {verifier : ProgressiveAuthorizationTokenVerifier} {token : String}
    {accessToken : AccessToken} (verified : verifier.delegate token = some accessToken)
    (context : ProgressiveAuthorizationContext) :
    verifier.verifyToken (some context) token =
      if context.isMcpRequest = true ∧ verifier.challengeScopes context accessToken ≠ ∅ then
        ⟨none, some { context with
          requiredScopes := sorted (verifier.challengeScopes context accessToken) }, []⟩
      else ⟨some accessToken, some context, []⟩ := by
  unfold ProgressiveAuthorizationTokenVerifier.verifyToken
  rw [verified]
  cases mcp : context.isMcpRequest with
  | false => simp [mcp]
  | true => by_cases asked : verifier.challengeScopes context accessToken = ∅ <;> simp [mcp, asked]

/-- `verify_token` never returns a token its delegate did not return. -/
theorem verifyToken_some {verifier : ProgressiveAuthorizationTokenVerifier} {token : String}
    {context : Option ProgressiveAuthorizationContext} {accessToken : AccessToken}
    (returned : (verifier.verifyToken context token).accessToken = some accessToken) :
    verifier.delegate token = some accessToken := by
  cases verified : verifier.delegate token with
  | none => simp [ProgressiveAuthorizationTokenVerifier.verifyToken, verified] at returned
  | some other =>
    cases context with
    | none => simpa [ProgressiveAuthorizationTokenVerifier.verifyToken, verified] using returned
    | some context =>
      rw [verifyToken_verified verified] at returned
      split at returned
      · cases returned
      · exact returned

/-- **More scopes are never asked for more.** -/
theorem challengeScopes_anti {verifier : ProgressiveAuthorizationTokenVerifier}
    {smaller larger : AccessToken}
    (grown : (principalFromAccessToken larger verifier.authProvider).Extends
      (principalFromAccessToken smaller verifier.authProvider))
    (context : ProgressiveAuthorizationContext) :
    verifier.challengeScopes context larger ⊆ verifier.challengeScopes context smaller := by
  rw [challengeScopes_eq, challengeScopes_eq, grown.kind]
  exact StepUp.challenge_anti grown.scopes

/-- The challenge reads the kind and the scopes of a token, and nothing else. -/
theorem challengeScopes_congr (verifier : ProgressiveAuthorizationTokenVerifier)
    (context : ProgressiveAuthorizationContext) {first second : AccessToken}
    (sameKind : (principalFromAccessToken first verifier.authProvider).kind =
      (principalFromAccessToken second verifier.authProvider).kind)
    (sameScopes : first.scopes = second.scopes) :
    verifier.challengeScopes context first = verifier.challengeScopes context second := by
  rw [challengeScopes_eq, challengeScopes_eq, sameKind, sameScopes]

/-- A token that adds what was asked for is asked for nothing more. -/
theorem challengeScopes_settled {verifier : ProgressiveAuthorizationTokenVerifier}
    {smaller larger : AccessToken} {context : ProgressiveAuthorizationContext}
    (grown : (principalFromAccessToken larger verifier.authProvider).Extends
      (principalFromAccessToken smaller verifier.authProvider))
    (obtained : verifier.challengeScopes context smaller ⊆ larger.scopes.toFinset) :
    verifier.challengeScopes context larger = ∅ := by
  rw [challengeScopes_eq] at obtained
  rw [challengeScopes_eq, grown.kind]
  exact StepUp.challenge_settled grown.scopes obtained

/-- With the global scopes held, only a repairable tool decision is challenged. -/
theorem challengeScopes_eq_empty {verifier : ProgressiveAuthorizationTokenVerifier}
    {accessToken : AccessToken} {context : ProgressiveAuthorizationContext}
    (baseline : verifier.globalRequiredScopes.toFinset ⊆ accessToken.scopes.toFinset)
    (unrepairable : ∀ target, context.target = some target →
      (verifier.authorizer.authorize target.name
        (some (principalFromAccessToken accessToken verifier.authProvider))).repairable = false) :
    verifier.challengeScopes context accessToken = ∅ := by
  unfold ProgressiveAuthorizationTokenVerifier.challengeScopes
  rw [if_pos baseline]
  cases aimed : context.target with
  | none => rfl
  | some target => simp [unrepairable target aimed]

/-- `verify_token` returns the delegate's token and leaves the context as it is. -/
def ProgressiveAuthorizationTokenVerifier.Passes (verifier : ProgressiveAuthorizationTokenVerifier)
    (context : ProgressiveAuthorizationContext) (token : String) (accessToken : AccessToken) : Prop :=
  verifier.verifyToken (some context) token = ⟨some accessToken, some context, []⟩

theorem passes_iff {verifier : ProgressiveAuthorizationTokenVerifier} {token : String}
    {accessToken : AccessToken} (verified : verifier.delegate token = some accessToken)
    (context : ProgressiveAuthorizationContext) :
    verifier.Passes context token accessToken ↔
      context.isMcpRequest = false ∨ verifier.challengeScopes context accessToken = ∅ := by
  unfold ProgressiveAuthorizationTokenVerifier.Passes
  rw [verifyToken_verified verified]
  cases mcp : context.isMcpRequest with
  | false => simp
  | true => by_cases asked : verifier.challengeScopes context accessToken = ∅ <;> simp [asked]

/-- What a challenge on a verified token records. -/
theorem challenged_iff {verifier : ProgressiveAuthorizationTokenVerifier} {token : String}
    {accessToken : AccessToken} (verified : verifier.delegate token = some accessToken)
    {context challenged : ProgressiveAuthorizationContext} :
    verifier.verifyToken (some context) token = ⟨none, some challenged, []⟩ ↔
      context.isMcpRequest = true ∧ verifier.challengeScopes context accessToken ≠ ∅ ∧
        challenged = { context with
          requiredScopes := sorted (verifier.challengeScopes context accessToken) } := by
  rw [verifyToken_verified verified]
  split
  · rename_i asked
    simp [asked.1, asked.2, eq_comm]
  · rename_i asked
    rw [not_and] at asked
    constructor
    · intro same
      cases same
    · rintro ⟨mcp, nonempty, -⟩
      exact absurd nonempty (asked mcp)

/-- **Step-up finishes in one round trip and is monotone.** For verified tokens of one principal kind
and one role set: the token that adds the challenged scopes passes, and its tool decision is allowed
where the first was repairable; a token with more scopes passes and is allowed wherever the smaller
one was; and with the global scopes held, a denial that no OAuth scope repairs is not challenged. -/
theorem stepUp_settles (verifier : ProgressiveAuthorizationTokenVerifier)
    (context : ProgressiveAuthorizationContext) {token token' : String} {first second : AccessToken}
    (verifiedFirst : verifier.delegate token = some first)
    (verifiedSecond : verifier.delegate token' = some second)
    (sameKind : (principalFromAccessToken second verifier.authProvider).kind =
      (principalFromAccessToken first verifier.authProvider).kind)
    (sameRoles : (principalFromAccessToken second verifier.authProvider).roles =
      (principalFromAccessToken first verifier.authProvider).roles)
    (grows : first.scopes ⊆ second.scopes) :
    (∀ challenged, verifier.verifyToken (some context) token = ⟨none, some challenged, []⟩ →
      challenged.requiredScopes ⊆ second.scopes →
      verifier.Passes context token' second ∧
        ∀ target, context.target = some target →
          (verifier.authorizer.authorize target.name
            (some (principalFromAccessToken first verifier.authProvider))).repairable = true →
          (verifier.authorizer.authorize target.name
            (some (principalFromAccessToken second verifier.authProvider))).allowed = true) ∧
    (verifier.Passes context token first → verifier.Passes context token' second) ∧
    (∀ toolName,
      (verifier.authorizer.authorize toolName
        (some (principalFromAccessToken first verifier.authProvider))).allowed = true →
      (verifier.authorizer.authorize toolName
        (some (principalFromAccessToken second verifier.authProvider))).allowed = true) ∧
    (verifier.globalRequiredScopes ⊆ first.scopes →
      (∀ target, context.target = some target →
        let decision := verifier.authorizer.authorize target.name
          (some (principalFromAccessToken first verifier.authProvider))
        decision.reason = .policyMissing ∨ decision.reason = .wrongPrincipalKind ∨
          decision.reason = .missingPermission ∧
            ∃ policy, verifier.authorizer.policyFor target.name = some policy ∧
              policy.kind = .applicationRoles) →
      verifier.Passes context token first) := by
  have grown : (principalFromAccessToken second verifier.authProvider).Extends
      (principalFromAccessToken first verifier.authProvider) :=
    ⟨sameKind, sameRoles, fun scope => by simpa using @grows scope⟩
  refine ⟨?oneRoundTrip, ?unchallenged, ?allowed, ?unrepairable⟩
  case oneRoundTrip =>
    intro challenged asked obtained
    obtain ⟨mcp, -, rfl⟩ := (challenged_iff verifiedFirst).mp asked
    have held : verifier.challengeScopes context first ⊆ second.scopes.toFinset := by
      intro scope member
      exact List.mem_toFinset.mpr (obtained (mem_sorted.mpr member))
    refine ⟨(passes_iff verifiedSecond context).mpr (Or.inr (challengeScopes_settled grown held)),
      fun target aimed repairable => allowed_of_repairable grown repairable ?_⟩
    refine Finset.Subset.trans ?_ held
    unfold ProgressiveAuthorizationTokenVerifier.challengeScopes
    rw [aimed]
    dsimp only
    rw [if_pos repairable]
    exact Finset.subset_union_right
  case unchallenged =>
    rw [passes_iff verifiedFirst, passes_iff verifiedSecond]
    refine Or.imp_right fun empty => ?_
    have fewer := challengeScopes_anti grown context
    rw [empty] at fewer
    exact Finset.subset_empty.mp fewer
  case allowed =>
    intro toolName allowed
    obtain ⟨policy, found, grants⟩ := authorize_allowed_iff.mp allowed
    exact authorize_allowed_iff.mpr ⟨policy, found, grants.mono grown⟩
  case unrepairable =>
    intro baseline denied
    refine (passes_iff verifiedFirst context).mpr (Or.inr (challengeScopes_eq_empty ?_ ?_))
    · intro scope member
      exact List.mem_toFinset.mpr (baseline (List.mem_toFinset.mp member))
    · intro target aimed
      rcases denied target aimed with missing | wrong | ⟨-, policy, found, roles⟩
      · simp [AuthorizationDecision.repairable, missing]
      · simp [AuthorizationDecision.repairable, wrong]
      · simp [AuthorizationDecision.repairable, requiredScopes_applicationRoles found roles]

end Verifier

/-- A token that carries only scopes, and a verifier whose baseline is one of them. -/
def scopedToken (token : String) (scopes : List String) : AccessToken :=
  ⟨token, "client", scopes, none, none, some "subject", none⟩

def readPolicy : ToolPolicy := ⟨.oauthScopes, {"mcp:read"}, by simp⟩

def baselineVerifier : ProgressiveAuthorizationTokenVerifier :=
  .init (fun token => if token = "narrow" then some (scopedToken token [])
    else if token = "wide" then some (scopedToken token ["mcp:base", "mcp:read"]) else none)
    ⟨[("report", readPolicy)]⟩ .generic ["mcp:base"]

/-- A call of `report`. -/
def reportContext : ProgressiveAuthorizationContext := ⟨true, some ⟨"tools/call", "report"⟩, []⟩

/-- The token with the challenged scopes, of the baseline and of the tool, passes and is allowed. -/
theorem stepUp_settles_baseline :
    letI := plainRepr
    baselineVerifier.verifyToken (some reportContext) "narrow" = ⟨none, some { reportContext with
        requiredScopes := sorted {"mcp:base", "mcp:read"} }, []⟩ ∧
      baselineVerifier.Passes reportContext "wide" (scopedToken "wide" ["mcp:base", "mcp:read"]) ∧
      (baselineVerifier.authorizer.authorize "report" (some (principalFromAccessToken
        (scopedToken "narrow" []) .generic))).repairable = true ∧
      (baselineVerifier.authorizer.authorize "report" (some (principalFromAccessToken
        (scopedToken "wide" ["mcp:base", "mcp:read"]) .generic))).allowed = true := by
  let _ := plainRepr
  have narrow : baselineVerifier.delegate "narrow" = some (scopedToken "narrow" []) := rfl
  have wide : baselineVerifier.delegate "wide" = some (scopedToken "wide" ["mcp:base", "mcp:read"]) := rfl
  have asked : baselineVerifier.challengeScopes reportContext (scopedToken "narrow" []) =
      {"mcp:base", "mcp:read"} := by
    rw [challengeScopes_eq]
    simp [ProgressiveAuthorizationTokenVerifier.requirements, baselineVerifier, readPolicy, reportContext,
      ProgressiveAuthorizationTokenVerifier.init, ToolAuthorizationService.policyFor,
      ToolPolicy.scopeRequirement, StepUp.supplement, scopedToken]
  have challenged := verifyToken_verified narrow reportContext
  rw [asked, if_pos ⟨rfl, Finset.insert_ne_empty _ _⟩] at challenged
  have repairable := (authorize_repairable_iff.mpr ⟨_, {"mcp:read"}, rfl, rfl, by simp [scopedToken], rfl⟩ :
    (baselineVerifier.authorizer.authorize "report" (some (principalFromAccessToken
      (scopedToken "narrow" []) .generic))).repairable = true ∧ _).1
  have obtained : sorted {"mcp:base", "mcp:read"} ⊆ (scopedToken "wide" ["mcp:base", "mcp:read"]).scopes :=
    fun scope member => by simpa [scopedToken] using mem_sorted.mp member
  have settles := (stepUp_settles baselineVerifier reportContext narrow wide rfl rfl (List.nil_subset _)).1 _
    challenged obtained
  exact ⟨challenged, settles.1, repairable, settles.2 _ rfl repairable⟩

end McpAuth
