/-
**Wiring: what the entrypoint builds from the settings.**

* `buildToolAuthorizer` — the effective policy registry, with Entra scopes qualified;
* `buildOidcNetworkPolicy`, `resolveIssuerUrl` — the trust boundary and its issuer;
* `buildMcpServer` — the request path of `build_server`.

`buildToolAuthorizer_constructed`: the effective policies of a constructed registry were built by the
same constructors. `challenge_wellFormed_iff`: a challenge is sent, names scope-tokens and reads back as
what was required exactly when the challenged token holds every global scope or these are scope-tokens.
-/

import McpAuth.Adapters.OidcNetworkPolicy
import McpAuth.Entrypoints.RequestPath
import McpAuth.Entrypoints.Settings

namespace McpAuth

open PyText JsonText UrlSplit

/-! ### The policy registry -/

def healthScope : String := "mcp:tools:health"

/-- The registry of the template's own tools. -/
def defaultPolicies (authProvider : AuthProvider) : Except PolicyError PolicyRegistry := do
  let healthPolicy ← match authProvider with
    | .entra => ToolPolicy.delegatedScopes [healthScope]
    | .generic => ToolPolicy.oauthScopes [healthScope]
  .ok [("whoami", ToolPolicy.authenticated), ("health", healthPolicy)]

/-- One policy under the Entra provider: scopes are qualified and constructed again. -/
def effectivePolicy (applicationIdUri : String) (policy : ToolPolicy) :
    Except PolicyError ToolPolicy :=
  match policy.kind with
  | .delegatedScopes =>
    ToolPolicy.delegatedScopes (qualifyScopes (sorted policy.permissions) applicationIdUri)
  | .oauthScopes =>
    ToolPolicy.oauthScopes (qualifyScopes (sorted policy.permissions) applicationIdUri)
  | .authenticated | .applicationRoles => .ok policy

/-- One entry of the effective registry. -/
def effectiveEntry (applicationIdUri : String) (entry : String × ToolPolicy) :
    Except PolicyError (String × ToolPolicy) := do
  let policy ← effectivePolicy applicationIdUri entry.2
  .ok (entry.1, policy)

/-- `_build_tool_authorizer`. -/
def buildToolAuthorizer (settings : Settings) (policies : Option PolicyRegistry) :
    Except PolicyError ToolAuthorizationService := do
  let registry ← match policies with
    | some registry => .ok registry
    | none => defaultPolicies settings.authProvider
  match settings.authProvider, settings.entraApplicationIdUri with
  | .entra, some applicationIdUri => do
    let effective ← registry.mapM (effectiveEntry applicationIdUri)
    .ok ⟨effective⟩
  | _, _ => .ok ⟨registry⟩

/-- Every policy of the registry was returned by a class-method constructor. -/
def PolicyRegistry.Constructed (registry : PolicyRegistry) : Prop :=
  ∀ entry ∈ registry, entry.2.Constructed

theorem effectivePolicy_constructed {applicationIdUri : String} {policy effective : ToolPolicy}
    (built : policy.Constructed) (qualified : effectivePolicy applicationIdUri policy = .ok effective) :
    effective.Constructed := by
  unfold effectivePolicy at qualified
  split at qualified
  · exact .delegatedScopes qualified
  · exact .oauthScopes qualified
  · cases qualified
    exact built
  · cases qualified
    exact built

/-- **The effective policies of a constructed registry are constructed.** -/
theorem buildToolAuthorizer_constructed {settings : Settings} {registry : PolicyRegistry}
    {authorizer : ToolAuthorizationService} (constructed : registry.Constructed)
    (built : buildToolAuthorizer settings (some registry) = .ok authorizer) :
    PolicyRegistry.Constructed authorizer.policies := by
  unfold buildToolAuthorizer at built
  obtain ⟨chosen, same, built⟩ := Fallible.bind_eq_ok.mp built
  cases same
  split at built
  · obtain ⟨effective, collected, built⟩ := Fallible.bind_eq_ok.mp built
    cases built
    intro entry member
    obtain ⟨source, listed, converted⟩ := Fallible.mem_of_mapM_eq_ok collected member
    obtain ⟨policy, qualified, paired⟩ := Fallible.bind_eq_ok.mp converted
    cases paired
    exact effectivePolicy_constructed (constructed source listed) qualified
  · cases built
    exact constructed

/-- The policy found for a tool is one of the registry. -/
theorem policyFor_constructed {authorizer : ToolAuthorizationService}
    (constructed : PolicyRegistry.Constructed authorizer.policies) {toolName : String}
    {policy : ToolPolicy} (found : authorizer.policyFor toolName = some policy) :
    policy.Constructed := by
  have looked : authorizer.policies.lookup toolName = some policy := found
  obtain ⟨before, after, split, -⟩ := List.lookup_eq_some_iff.mp looked
  exact constructed (toolName, policy) (by rw [split]; simp)

/-! ### The issuer and the trust boundary -/

/-- `_resolve_issuer_url`, `none` where it raises `RuntimeError`. -/
def resolveIssuerUrl (settings : Settings) : Option String :=
  match settings.authProvider with
  | .entra =>
    some ("https://login.microsoftonline.com/" ++ settings.entraTenantId.getD "None" ++ "/v2.0")
  | .generic => settings.genericIssuerUrl

/-- `_build_oidc_network_policy`. -/
def buildOidcNetworkPolicy [UnicodeTables] (settings : Settings) (issuerUrl : String) :
    Except PolicyInitError OidcNetworkSecurityPolicy :=
  OidcNetworkSecurityPolicy.init issuerUrl settings.oidcAllowInsecureLoopback
    (match settings.authProvider with
      | .generic => settings.genericJwksAllowedOrigins
      | .entra => [])

/-! ### The request path -/

/-- The layers `build_server` and `_build_streamable_http_app` wire around the SDK. -/
def buildMcpServer (settings : Settings) (delegate : String → Option AccessToken)
    (authorizer : ToolAuthorizationService) (resourceMetadataUrl : AnyHttpUrl) : McpServer where
  verifier := .init delegate authorizer settings.authProvider settings.effectiveRequiredScopes
  resourceMetadataUrl := resourceMetadataUrl

/-- **The challenge for a list of scopes is well formed**: it is sent, every scope is a scope-token, and
the scope attribute reads back as the list. -/
def ChallengeWellFormed (requiredScopes : List String) (resourceMetadataUrl : AnyHttpUrl) : Prop :=
  ∃ messages, sendInsufficientScopeResponse requiredScopes resourceMetadataUrl.text = some messages ∧
    (∀ scope ∈ requiredScopes, IsScopeToken scope) ∧ scopeListOf messages = some requiredScopes

/-- A challenge for scope-tokens is well formed. -/
theorem challengeWellFormed_iff {requiredScopes : List String} (nonempty : requiredScopes ≠ [])
    (resourceMetadataUrl : AnyHttpUrl) :
    ChallengeWellFormed requiredScopes resourceMetadataUrl ↔
      ∀ scope ∈ requiredScopes, IsScopeToken scope := by
  constructor
  · rintro ⟨_, _, tokens, _⟩
    exact tokens
  · intro tokens
    have sendable := (sendInsufficientScopeResponse_isSome_iff resourceMetadataUrl.ascii).mpr
      fun scope member => (tokens scope member).isAsciiText
    obtain ⟨messages, sent⟩ := Option.isSome_iff_exists.mp sendable
    exact ⟨messages, sent, tokens, scopeListOf_sent nonempty tokens sent⟩

/-- The scopes a constructed policy requires are scope-tokens. -/
theorem scopeRequirement_tokens {policy : ToolPolicy} (built : policy.Constructed)
    {kind : PrincipalKind} {required : Finset String}
    (requires : policy.scopeRequirement kind = some required) :
    ∀ scope ∈ required, IsScopeToken scope := by
  unfold ToolPolicy.scopeRequirement at requires
  split at requires
  · rename_i shape
    split at requires
    · cases requires
      exact built.isScopeToken (Or.inl shape)
    · cases requires
  · rename_i shape
    cases requires
    exact built.isScopeToken (Or.inr shape)
  · cases requires
  · cases requires

/-- **Every challenge is well formed exactly when the global scopes it names are scope-tokens.** The
settings may be any, validated or not. -/
theorem challenge_wellFormed_iff [PyRepr] {settings : Settings} {registry : PolicyRegistry}
    (constructed : registry.Constructed) {authorizer : ToolAuthorizationService}
    (built : buildToolAuthorizer settings (some registry) = .ok authorizer)
    (delegate : String → Option AccessToken) (resourceMetadataUrl : AnyHttpUrl)
    {request : McpRequest} {accessToken : AccessToken} {context : ProgressiveAuthorizationContext}
    (post : request.IsMcpPost (buildMcpServer settings delegate authorizer resourceMetadataUrl))
    (verified : delegate request.bearer = some accessToken)
    (challenged :
      (buildMcpServer settings delegate authorizer resourceMetadataUrl).verifier.verifyToken
        ((buildMcpServer settings delegate authorizer resourceMetadataUrl).requestContext request)
        request.bearer = ⟨none, some context, []⟩) :
    ChallengeWellFormed context.requiredScopes resourceMetadataUrl ↔
      (settings.effectiveRequiredScopes ⊆ accessToken.scopes ∨
        ∀ scope ∈ settings.effectiveRequiredScopes, IsScopeToken scope) := by
  rw [requestContext_of_isMcpPost post] at challenged
  have verified' : (buildMcpServer settings delegate authorizer
    resourceMetadataUrl).verifier.delegate request.bearer = some accessToken := verified
  obtain ⟨-, nonempty, recorded⟩ := (challenged_iff verified').mp challenged
  have scopes : context.requiredScopes = sorted ((buildMcpServer settings delegate authorizer
      resourceMetadataUrl).verifier.challengeScopes ⟨true, targetFromScope request.scope, []⟩
        accessToken) := by
    rw [recorded]
  have asked : context.requiredScopes ≠ [] := by
    rw [scopes]
    exact fun empty => nonempty (sorted_eq_nil_iff.mp empty)
  rw [challengeWellFormed_iff asked, scopes]
  simp only [mem_sorted, challengeScopes_eq, StepUp.mem_challenge]
  have baseline : (buildMcpServer settings delegate authorizer
      resourceMetadataUrl).verifier.globalRequiredScopes.toFinset =
        settings.effectiveRequiredScopes.toFinset := by
    rw [buildMcpServer, ProgressiveAuthorizationTokenVerifier.init, sorted_toFinset]
  constructor
  · intro tokens
    by_cases held : settings.effectiveRequiredScopes ⊆ accessToken.scopes
    · exact Or.inl held
    · refine Or.inr fun scope member => tokens scope ⟨_, List.mem_cons_self, ?_, ?_⟩
      · rw [baseline]
        intro inside
        exact held fun scope member => List.mem_toFinset.mp (inside (List.mem_toFinset.mpr member))
      · rw [baseline]
        exact List.mem_toFinset.mpr member
  · rintro covered scope ⟨required, isRequirement, unmet, member⟩
    rcases List.mem_cons.mp isRequirement with rfl | isTool
    · rw [baseline] at unmet member
      rcases covered with held | tokens
      · refine absurd ?_ unmet
        intro scope inside
        exact List.mem_toFinset.mpr (held (List.mem_toFinset.mp inside))
      · exact tokens scope (List.mem_toFinset.mp member)
    · rw [Option.mem_toList] at isTool
      obtain ⟨target, -, isTool⟩ := Option.bind_eq_some_iff.mp isTool
      obtain ⟨policy, found, requires⟩ := Option.bind_eq_some_iff.mp isTool
      exact scopeRequirement_tokens (policyFor_constructed
        (buildToolAuthorizer_constructed constructed built) found) requires scope member

/-- Settings of a generic provider with the given global scopes. -/
def genericSettings (requiredScopes : List String) : Settings where
  runtimeHostLength := runtimeHostLength_default
  resourceServerUrl := exampleResource
  requiredScopes := requiredScopes
  authProvider := .generic
  genericIssuerUrl := some "https://issuer.example"
  genericAudience := some "https://mcp.example.org/mcp"

def metadataUrl : AnyHttpUrl :=
  ⟨"https://mcp.example.org/.well-known/oauth-protected-resource/mcp", by decide⟩

/-- A server whose only bearer has no scopes. -/
def genericServer (requiredScopes : List String) : McpServer :=
  buildMcpServer (genericSettings requiredScopes) (fun token => some (scopedToken token [])) ⟨[]⟩
    metadataUrl

theorem generic_isMcpPost (requiredScopes : List String) :
    reportRequest.IsMcpPost (genericServer requiredScopes) := ⟨rfl, rfl, rfl⟩

/-- A missing global scope is challenged. -/
theorem generic_challenged [PyRepr] (scope : String) :
    (genericServer [scope]).verifier.verifyToken
      ((genericServer [scope]).requestContext reportRequest) reportRequest.bearer =
        ⟨none, some ⟨true, some ⟨"tools/call", "report"⟩, [scope]⟩, []⟩ := by
  rw [requestContext_of_isMcpPost (generic_isMcpPost [scope]), report_routed]
  have verified : (genericServer [scope]).verifier.delegate reportRequest.bearer =
      some (scopedToken "bearer" []) := rfl
  rw [verifyToken_verified verified]
  have asked : (genericServer [scope]).verifier.challengeScopes
      ⟨true, some ⟨"tools/call", "report"⟩, []⟩ (scopedToken "bearer" []) = {scope} := by
    rw [challengeScopes_eq]
    simp [ProgressiveAuthorizationTokenVerifier.requirements, genericServer, buildMcpServer,
      genericSettings, Settings.effectiveRequiredScopes, ProgressiveAuthorizationTokenVerifier.init,
      ToolAuthorizationService.policyFor, StepUp.supplement, scopedToken]
  rw [asked, if_pos ⟨rfl, Finset.singleton_ne_empty scope⟩, sorted_singleton]

theorem challenge_wellFormed_generic :
    let _ := plainRepr
    ChallengeWellFormed ["mcp:base"] metadataUrl := by
  intro _
  have constructed : PolicyRegistry.Constructed [] := by
    intro entry member
    cases member
  have built : buildToolAuthorizer (genericSettings ["mcp:base"]) (some []) = .ok ⟨[]⟩ := rfl
  refine (challenge_wellFormed_iff constructed built (fun token => some (scopedToken token []))
    metadataUrl (generic_isMcpPost ["mcp:base"]) rfl (generic_challenged "mcp:base")).mpr (Or.inr ?_)
  decide

/-- Validated settings with a global scope outside ASCII: the challenge cannot be sent. -/
theorem challenge_malformed_generic :
    let _ := plainRepr
    let _ := asciiTables
    (genericSettings ["é"]).validate = .ok (genericSettings ["é"]) ∧
      buildToolAuthorizer (genericSettings ["é"]) (some []) = .ok ⟨[]⟩ ∧
      reportRequest.IsMcpPost (genericServer ["é"]) ∧
      (genericServer ["é"]).verifier.verifyToken
        ((genericServer ["é"]).requestContext reportRequest) reportRequest.bearer =
          ⟨none, some ⟨true, some ⟨"tools/call", "report"⟩, ["é"]⟩, []⟩ ∧
      sendInsufficientScopeResponse ["é"] metadataUrl.text = none ∧
      ¬ ChallengeWellFormed ["é"] metadataUrl := by
  intro _ _
  have notAscii : ¬ ∀ scope ∈ ["é"], IsAsciiText scope := by decide
  have unsent : sendInsufficientScopeResponse ["é"] metadataUrl.text = none := by
    rw [← sendInsufficientScopeResponse_isSome_iff metadataUrl.ascii] at notAscii
    simpa using notAscii
  refine ⟨rfl, rfl, generic_isMcpPost _, generic_challenged "é", unsent, ?_⟩
  rintro ⟨messages, sent, -⟩
  rw [unsent] at sent
  cases sent

end McpAuth
