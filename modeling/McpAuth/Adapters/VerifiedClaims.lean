/-
**From a decoded claim set to an access token, and what each claim may decide.**

* `buildAccessToken` — the record `GenericOidcTokenVerifier.verify_token` returns for decoded claims;
* `normalizeEntra` — what `EntraTokenVerifier.verify_token` makes of it: tenant binding and qualified
  scopes;
* `VerifierMode` — the two verifiers of the server as functions of a claim set.

A run of a verifier on two claim sets that agree off some claims (`AgreeOff`) is compared:
`claimNamespaces_separate` keeps `roles` and `scope`/`scp` apart, and `entraScopes_scpOnly_iff` says when
Entra scopes come from `scp` alone.
-/

import McpAuth.Adapters.ProgressiveAuth

namespace McpAuth

open PyText JsonText

/-! ### Building the access token -/

/-- The exceptions of building an access token: a missing claim, or `int` of a claim. -/
inductive ClaimError
  | keyError (name : String)
  | notInteger (name : String)
  deriving DecidableEq, Repr

/-- `claims[name]`. -/
def claimItem (claims : JsonObject) (name : String) : Except ClaimError Json :=
  match claims.lookup name with
  | some value => .ok value
  | none => .error (.keyError name)

/-- `claims.get("azp") or claims.get("client_id") or claims["sub"]`. -/
def clientIdClaim (claims : JsonObject) : Except ClaimError Json :=
  if (get claims "azp").truthy then .ok (get claims "azp")
  else if (get claims "client_id").truthy then .ok (get claims "client_id")
  else claimItem claims "sub"

section Conversions

variable [PyRepr] [UnicodeTables]

/-- `int(claims[name])`. -/
def intClaim (claims : JsonObject) (name : String) : Except ClaimError Int := do
  let value ← claimItem claims name
  match value.toInt with
  | some number => .ok number
  | none => .error (.notInteger name)

/-- The `AccessToken(...)` of `GenericOidcTokenVerifier.verify_token`. -/
def buildAccessToken (audience token : String) (claims : JsonObject) :
    Except ClaimError AccessToken := do
  let clientId ← clientIdClaim claims
  let expiresAt ← intClaim claims "exp"
  let subject ← claimItem claims "sub"
  .ok
    { token := token
      clientId := clientId.toStr
      scopes := scopesFromClaims claims
      expiresAt := some expiresAt
      resource := some audience
      subject := some subject.toStr
      claims := some claims }

/-- What a built access token holds of its claims. -/
theorem buildAccessToken_ok {audience token : String} {claims : JsonObject} {accessToken : AccessToken}
    (built : buildAccessToken audience token claims = .ok accessToken) :
    accessToken.token = token ∧ accessToken.scopes = scopesFromClaims claims ∧
      accessToken.resource = some audience ∧ accessToken.claims = some claims ∧
      intClaim claims "exp" = .ok (accessToken.expiresAt.getD 0) := by
  unfold buildAccessToken at built
  cases clientId : clientIdClaim claims with
  | error error =>
    rw [clientId] at built
    cases built
  | ok client =>
    cases expires : intClaim claims "exp" with
    | error error =>
      rw [clientId, expires] at built
      cases built
    | ok expiresAt =>
      cases subject : claimItem claims "sub" with
      | error error =>
        rw [clientId, expires, subject] at built
        cases built
      | ok subject' =>
        rw [clientId, expires, subject] at built
        cases built
        exact ⟨rfl, rfl, rfl, rfl, rfl⟩

end Conversions

/-! ### The Entra wrapper -/

/-- The tail of `EntraTokenVerifier.verify_token`: the tenant check and the qualified scopes. -/
def normalizeEntra (tenantId applicationIdUri : String) (accessToken : AccessToken) :
    Option AccessToken :=
  if (get accessToken.claimSet "tid").isText tenantId then
    some { accessToken with scopes := qualifyScopes accessToken.scopes applicationIdUri }
  else none

/-! ### The two verifiers on a claim set -/

/-- The token verifier of one server. -/
inductive VerifierMode
  | generic
  | entra (tenantId applicationIdUri : String)

def VerifierMode.authProvider : VerifierMode → AuthProvider
  | .generic => .generic
  | .entra _ _ => .entra

/-- The scopes a verifier reads off a claim set. -/
def VerifierMode.scopesOf (mode : VerifierMode) (claims : JsonObject) : List String :=
  match mode with
  | .generic => scopesFromClaims claims
  | .entra _ applicationIdUri => qualifyScopes (scopesFromClaims claims) applicationIdUri

/-- What a verifier does with a built access token. -/
def VerifierMode.normalize (mode : VerifierMode) (accessToken : AccessToken) : Option AccessToken :=
  match mode with
  | .generic => some accessToken
  | .entra tenantId applicationIdUri => normalizeEntra tenantId applicationIdUri accessToken

/-- The scopes a verifier reads do not depend on other claims. -/
theorem VerifierMode.scopesOf_congr (mode : VerifierMode) {first second : JsonObject}
    (sameScope : get first "scope" = get second "scope")
    (sameScp : get first "scp" = get second "scp") : mode.scopesOf first = mode.scopesOf second := by
  cases mode with
  | generic => exact scopesFromClaims_congr sameScope sameScp
  | entra tenantId applicationIdUri =>
    show qualifyScopes _ applicationIdUri = qualifyScopes _ applicationIdUri
    rw [scopesFromClaims_congr sameScope sameScp]

section Verified

variable [PyRepr] [UnicodeTables]

/-- The verifier returns `accessToken` for a token with these decoded claims. -/
def VerifierMode.Accepts (mode : VerifierMode) (audience token : String) (claims : JsonObject)
    (accessToken : AccessToken) : Prop :=
  ∃ built, buildAccessToken audience token claims = .ok built ∧
    mode.normalize built = some accessToken

theorem VerifierMode.Accepts.contents {mode : VerifierMode} {audience token : String}
    {claims : JsonObject} {accessToken : AccessToken}
    (accepted : mode.Accepts audience token claims accessToken) :
    accessToken.scopes = mode.scopesOf claims ∧ accessToken.claims = some claims := by
  obtain ⟨built, builds, normalizes⟩ := accepted
  obtain ⟨-, scopes, -, holds, -⟩ := buildAccessToken_ok builds
  cases mode with
  | generic =>
    cases normalizes
    exact ⟨scopes, holds⟩
  | entra tenantId applicationIdUri =>
    simp only [VerifierMode.normalize, normalizeEntra] at normalizes
    split at normalizes
    · cases normalizes
      exact ⟨congrArg (qualifyScopes · applicationIdUri) scopes, holds⟩
    · cases normalizes

/-- An accepted Entra token names the tenant. -/
theorem VerifierMode.Accepts.tenant {tenantId applicationIdUri audience token : String}
    {claims : JsonObject} {accessToken : AccessToken}
    (accepted : (VerifierMode.entra tenantId applicationIdUri).Accepts audience token claims
      accessToken) : get claims "tid" = .str tenantId := by
  obtain ⟨built, builds, normalizes⟩ := accepted
  obtain ⟨-, -, -, holds, -⟩ := buildAccessToken_ok builds
  have claimSet : built.claimSet = claims := by
    rw [AccessToken.claimSet, holds]
    rfl
  simp only [VerifierMode.normalize, normalizeEntra] at normalizes
  split at normalizes
  · rename_i bound
    rw [claimSet] at bound
    exact Json.isText_iff.mp bound
  · cases normalizes

/-- The authorization facts of an accepted token, in terms of its claims. -/
theorem VerifierMode.Accepts.facts {mode : VerifierMode} {audience token : String}
    {claims : JsonObject} {accessToken : AccessToken}
    (accepted : mode.Accepts audience token claims accessToken) :
    let principal := principalFromAccessToken accessToken mode.authProvider
    principal.scopes = (mode.scopesOf claims).toFinset ∧
      principal.kind = (match mode.authProvider with
        | .entra => entraPrincipalKind claims
        | .generic => .unknown) ∧
      principal.roles = (match mode.authProvider with
        | .entra => (rolesFromClaims claims).toFinset
        | .generic => ∅) := by
  obtain ⟨scopes, holds⟩ := accepted.contents
  have claimSet : accessToken.claimSet = claims := by
    rw [AccessToken.claimSet, holds]
    rfl
  refine ⟨?_, ?_, ?_⟩
  · rw [principal_scopes, scopes]
  · cases mode with
    | generic => rfl
    | entra tenantId applicationIdUri =>
      show entraPrincipalKind accessToken.claimSet = entraPrincipalKind claims
      rw [claimSet]
  · cases mode with
    | generic => rfl
    | entra tenantId applicationIdUri =>
      show (rolesFromClaims accessToken.claimSet).toFinset = (rolesFromClaims claims).toFinset
      rw [claimSet]

/-! ### Scopes and roles are separate -/

/-- **Scopes and roles are separate namespaces.** Of two accepted tokens whose claims differ in `roles`
only, scopes, challenges and all decisions outside application-role policies are the same; of two whose
claims differ in `scope` and `scp` only and that have one kind, the decisions of application-role
policies are. No token is allowed by a delegated-scope policy and by an application-role policy, and
the generic provider allows neither. -/
theorem claimNamespaces_separate (mode : VerifierMode) (audience : String) :
    (∀ claims claims' token token' accessToken accessToken', AgreeOff ["roles"] claims claims' →
      mode.Accepts audience token claims accessToken →
      mode.Accepts audience token' claims' accessToken' →
      accessToken'.scopes = accessToken.scopes ∧
      (∀ globalRequiredScopes : List String,
        globalRequiredScopes ⊆ accessToken'.scopes ↔ globalRequiredScopes ⊆ accessToken.scopes) ∧
      (∀ verifier : ProgressiveAuthorizationTokenVerifier,
        verifier.authProvider = mode.authProvider → ∀ context,
        verifier.challengeScopes context accessToken' =
          verifier.challengeScopes context accessToken) ∧
      ∀ (service : ToolAuthorizationService) (toolName : String),
        (∀ policy, service.policyFor toolName = some policy → policy.kind ≠ .applicationRoles) →
        service.authorize toolName (some (principalFromAccessToken accessToken' mode.authProvider)) =
          service.authorize toolName (some (principalFromAccessToken accessToken mode.authProvider))) ∧
    (∀ claims claims' token token' accessToken accessToken', AgreeOff ["scope", "scp"] claims claims' →
      mode.Accepts audience token claims accessToken →
      mode.Accepts audience token' claims' accessToken' →
      (principalFromAccessToken accessToken' mode.authProvider).kind =
        (principalFromAccessToken accessToken mode.authProvider).kind →
      ∀ (service : ToolAuthorizationService) (toolName : String) (policy : ToolPolicy),
        service.policyFor toolName = some policy → policy.kind = .applicationRoles →
        service.authorize toolName (some (principalFromAccessToken accessToken' mode.authProvider)) =
          service.authorize toolName (some (principalFromAccessToken accessToken mode.authProvider))) ∧
    (∀ (authProvider : AuthProvider) (accessToken : AccessToken)
        (service service' : ToolAuthorizationService) (toolName toolName' : String)
        (delegated application : ToolPolicy),
      service.policyFor toolName = some delegated → delegated.kind = .delegatedScopes →
      service'.policyFor toolName' = some application → application.kind = .applicationRoles →
      (service.authorize toolName (some (principalFromAccessToken accessToken authProvider))).allowed
        = true →
      (service'.authorize toolName' (some (principalFromAccessToken accessToken authProvider))).allowed
        = false) ∧
    (∀ (accessToken : AccessToken) (service : ToolAuthorizationService) (toolName : String)
        (policy : ToolPolicy), service.policyFor toolName = some policy →
      (policy.kind = .delegatedScopes ∨ policy.kind = .applicationRoles) →
      (service.authorize toolName (some (principalFromAccessToken accessToken .generic))).allowed
        = false) := by
  refine ⟨?rolesOnly, ?scopesOnly, ?notBoth, ?generic⟩
  case rolesOnly =>
    intro claims claims' token token' accessToken accessToken' agree accepted accepted'
    have same : ∀ name, name ≠ "roles" → get claims' name = get claims name :=
      fun name other => agree.symm name (by simpa using other)
    have sameScopes : accessToken'.scopes = accessToken.scopes := by
      rw [accepted'.contents.1, accepted.contents.1]
      exact mode.scopesOf_congr (same "scope" (by decide)) (same "scp" (by decide))
    have sameKind : (principalFromAccessToken accessToken' mode.authProvider).kind =
        (principalFromAccessToken accessToken mode.authProvider).kind := by
      rw [accepted'.facts.2.1, accepted.facts.2.1,
        entraPrincipalKind_congr (same "scp" (by decide)) (same "idtyp" (by decide))]
    refine ⟨sameScopes, fun _ => by rw [sameScopes], ?_, ?_⟩
    · intro verifier sameProvider context
      exact challengeScopes_congr verifier context (by rw [sameProvider, sameKind]) sameScopes
    · intro service toolName noRoles
      exact authorize_congr_scopes noRoles sameKind (by rw [principal_scopes, principal_scopes,
        sameScopes])
  case scopesOnly =>
    intro claims claims' token token' accessToken accessToken' agree accepted accepted' sameKind
      service toolName policy found roles
    refine authorize_congr_roles found roles sameKind ?_
    rw [accepted'.facts.2.2, accepted.facts.2.2,
      rolesFromClaims_congr (agree.symm "roles" (by decide))]
  case notBoth =>
    intro authProvider accessToken service service' toolName toolName' delegated application found
      isDelegated found' isApplication allowed
    obtain ⟨policy, isPolicy, grants⟩ := authorize_allowed_iff.mp allowed
    rw [found] at isPolicy
    cases isPolicy
    rw [← Bool.not_eq_true]
    intro allowed'
    obtain ⟨policy', isPolicy', grants'⟩ := authorize_allowed_iff.mp allowed'
    rw [found'] at isPolicy'
    cases isPolicy'
    exact delegated_application_disjoint isDelegated isApplication grants grants'
  case generic =>
    intro accessToken service toolName policy found kinded
    rw [← Bool.not_eq_true]
    intro allowed
    obtain ⟨policy', isPolicy, grants⟩ := authorize_allowed_iff.mp allowed
    rw [found] at isPolicy
    cases isPolicy
    unfold ToolPolicy.Grants at grants
    rcases kinded with shape | shape <;> rw [shape] at grants
    · exact absurd grants.1 (by rw [generic_kind]; decide)
    · exact absurd grants.1 (by rw [generic_kind]; decide)

end Verified

/-! ### Tokens of one tenant -/

/-- The claims of an application token of one tenant, with a `scope` claim of its own. -/
def applicationClaims (scope : List (String × Json)) : JsonObject :=
  scope ++ [("sub", .str "app"), ("exp", .int 2000000000), ("tid", .str "tenant"),
    ("idtyp", .str "app")]

/-- The token the Entra verifier makes of them. -/
def applicationToken (scope : List (String × Json)) : AccessToken :=
  ⟨"bearer", "app", qualifyScopes (scopesFromClaims (applicationClaims scope)) "api://report",
    some 2000000000, some "audience", some "app", some (applicationClaims scope)⟩

/-- The claims of a user's token with two scopes, and other claims. -/
def delegatedClaims (others : List (String × Json)) : JsonObject :=
  others ++ [("sub", .str "user"), ("exp", .int 2000000000), ("tid", .str "tenant"),
    ("scp", .str "read write")]

def delegatedToken (others : List (String × Json)) : AccessToken :=
  ⟨"bearer", "user", qualifyScopes (scopesFromClaims (delegatedClaims others)) "api://report",
    some 2000000000, some "audience", some "user", some (delegatedClaims others)⟩

/-- Roles of a user leave the scopes, and a scope of an application leaves its role decisions. -/
theorem claimNamespaces_separate_tenant :
    let _ := plainRepr
    let _ := asciiTables
    let mode := VerifierMode.entra "tenant" "api://report"
    let roles := ("roles", Json.arr [.str "Report.Read"])
    let scope := ("scope", Json.str "read")
    let service : ToolAuthorizationService := ⟨[("report", ⟨.applicationRoles, {"Report.Read"}, by simp⟩)]⟩
    (mode.Accepts "audience" "bearer" (delegatedClaims []) (delegatedToken []) ∧
      mode.Accepts "audience" "bearer" (delegatedClaims [roles]) (delegatedToken [roles]) ∧
      (delegatedToken [roles]).scopes = (delegatedToken []).scopes) ∧
    mode.Accepts "audience" "bearer" (applicationClaims [roles]) (applicationToken [roles]) ∧
      mode.Accepts "audience" "bearer" (applicationClaims [scope, roles]) (applicationToken [scope, roles]) ∧
      service.authorize "report" (some (principalFromAccessToken (applicationToken [scope, roles]) .entra)) =
        service.authorize "report" (some (principalFromAccessToken (applicationToken [roles]) .entra)) := by
  intro _ _ mode roles scope service
  have user : mode.Accepts "audience" "bearer" (delegatedClaims []) (delegatedToken []) := ⟨_, rfl, rfl⟩
  have user' : mode.Accepts "audience" "bearer" (delegatedClaims [roles]) (delegatedToken [roles]) :=
    ⟨_, rfl, rfl⟩
  have application : mode.Accepts "audience" "bearer" (applicationClaims [roles]) (applicationToken [roles]) :=
    ⟨_, rfl, rfl⟩
  have application' : mode.Accepts "audience" "bearer" (applicationClaims [scope, roles])
      (applicationToken [scope, roles]) := ⟨_, rfl, rfl⟩
  have agree : AgreeOff ["scope", "scp"] (applicationClaims [roles]) (applicationClaims [scope, roles]) :=
    fun name outside => agreeOff_cons _ _ _ name fun isScope => outside (by simp [List.mem_singleton.mp isScope])
  obtain ⟨rolesOnly, scopesOnly, -, -⟩ := claimNamespaces_separate mode "audience"
  have sameScopes := (rolesOnly _ _ _ _ _ _ (agreeOff_cons _ _ _) user user').1
  have sameDecision := scopesOnly _ _ _ _ _ _ agree application application' rfl service "report" _ rfl rfl
  exact ⟨⟨user, user', sameScopes⟩, application, application', sameDecision⟩

/-! ### Entra scopes and `scp` -/

/-- Every scope is the qualification of a word of `scp`. -/
def ScopesFromScp (applicationIdUri : String) (claims : JsonObject) (scopes : List String) : Prop :=
  ∀ scope ∈ scopes, ∃ word ∈ claimWords claims "scp", qualifyScope applicationIdUri word = scope

/-- Every word of `scope` is, qualified, a word of `scp`. -/
def ScopeWithinScp (applicationIdUri : String) (claims : JsonObject) : Prop :=
  ∀ word ∈ claimWords claims "scope", ∃ short ∈ claimWords claims "scp",
    qualifyScope applicationIdUri short = qualifyScope applicationIdUri word

theorem mem_entraScopes {tenantId applicationIdUri scope : String} {claims : JsonObject} :
    scope ∈ (VerifierMode.entra tenantId applicationIdUri).scopesOf claims ↔
      ∃ word, (word ∈ claimWords claims "scope" ∨ word ∈ claimWords claims "scp") ∧
        qualifyScope applicationIdUri word = scope := by
  show scope ∈ qualifyScopes (scopesFromClaims claims) applicationIdUri ↔ _
  rw [mem_qualifyScopes]
  constructor
  · rintro ⟨word, member, -, qualified⟩
    exact ⟨word, mem_scopesFromClaims.mp member, qualified⟩
  · rintro ⟨word, member, qualified⟩
    refine ⟨word, mem_scopesFromClaims.mpr member, ?_, qualified⟩
    exact member.elim ne_empty_of_mem_claimWords ne_empty_of_mem_claimWords

/-- The scopes come from `scp` exactly when `scope` adds nothing to it. -/
theorem scopesFromScp_iff {tenantId applicationIdUri : String} {claims : JsonObject} :
    ScopesFromScp applicationIdUri claims
        ((VerifierMode.entra tenantId applicationIdUri).scopesOf claims) ↔
      ScopeWithinScp applicationIdUri claims := by
  constructor
  · intro fromScp word member
    exact fromScp _ (mem_entraScopes.mpr ⟨word, Or.inl member, rfl⟩)
  · intro within scope member
    obtain ⟨word, inScope | inScp, rfl⟩ := mem_entraScopes.mp member
    · exact within word inScope
    · exact ⟨word, inScp, rfl⟩

/-- Where `scope` adds nothing, the scopes are the qualified words of `scp`. -/
theorem entraScopes_congr {tenantId applicationIdUri : String} {first second : JsonObject}
    (sameScp : get first "scp" = get second "scp") (within : ScopeWithinScp applicationIdUri first)
    (within' : ScopeWithinScp applicationIdUri second) :
    (VerifierMode.entra tenantId applicationIdUri).scopesOf first =
      (VerifierMode.entra tenantId applicationIdUri).scopesOf second := by
  have words := claimWords_congr sameScp
  have onlyScp : ∀ claims, ScopeWithinScp applicationIdUri claims → ∀ scope,
      (scope ∈ (VerifierMode.entra tenantId applicationIdUri).scopesOf claims ↔
        ∃ word ∈ claimWords claims "scp", qualifyScope applicationIdUri word = scope) := by
    intro claims inside scope
    exact ⟨(@scopesFromScp_iff tenantId _ _).mpr inside scope,
      fun ⟨word, member, qualified⟩ => mem_entraScopes.mpr ⟨word, Or.inr member, qualified⟩⟩
  refine qualifyScopes_congr fun scope => ?_
  show scope ∈ (VerifierMode.entra tenantId applicationIdUri).scopesOf first ↔
    scope ∈ (VerifierMode.entra tenantId applicationIdUri).scopesOf second
  rw [onlyScp first within, onlyScp second within', words]

/-- **Entra scopes come from `scp` alone exactly when `scope` adds nothing.** For two accepted tokens
whose claims differ in `scope` only. -/
theorem entraScopes_scpOnly_iff [PyRepr] [UnicodeTables] {tenantId applicationIdUri audience token token' : String}
    {claims claims' : JsonObject} {accessToken accessToken' : AccessToken}
    (agree : AgreeOff ["scope"] claims claims')
    (accepted : (VerifierMode.entra tenantId applicationIdUri).Accepts audience token claims
      accessToken)
    (accepted' : (VerifierMode.entra tenantId applicationIdUri).Accepts audience token' claims'
      accessToken') :
    (accessToken'.scopes = accessToken.scopes ∧
      (∀ (service : ToolAuthorizationService) (toolName : String),
        service.authorize toolName (some (principalFromAccessToken accessToken' .entra)) =
            service.authorize toolName (some (principalFromAccessToken accessToken .entra)) ∧
          service.isVisible toolName (some (principalFromAccessToken accessToken' .entra)) =
            service.isVisible toolName (some (principalFromAccessToken accessToken .entra))) ∧
      (∀ verifier : ProgressiveAuthorizationTokenVerifier, verifier.authProvider = .entra → ∀ context,
        verifier.challengeScopes context accessToken' =
          verifier.challengeScopes context accessToken) ∧
      ScopesFromScp applicationIdUri claims accessToken.scopes ∧
      ScopesFromScp applicationIdUri claims' accessToken'.scopes) ↔
    ScopeWithinScp applicationIdUri claims ∧ ScopeWithinScp applicationIdUri claims' := by
  have same : ∀ name, name ≠ "scope" → get claims' name = get claims name :=
    fun name other => agree.symm name (by simpa using other)
  have scopes := accepted.contents.1
  have scopes' := accepted'.contents.1
  constructor
  · rintro ⟨-, -, -, fromScp, fromScp'⟩
    rw [scopes] at fromScp
    rw [scopes'] at fromScp'
    exact ⟨scopesFromScp_iff.mp fromScp, scopesFromScp_iff.mp fromScp'⟩
  · rintro ⟨within, within'⟩
    have sameScopes : accessToken'.scopes = accessToken.scopes := by
      rw [scopes, scopes']
      exact entraScopes_congr (same "scp" (by decide)) within' within
    have sameKind : (principalFromAccessToken accessToken' .entra).kind =
        (principalFromAccessToken accessToken .entra).kind := by
      have kind := accepted.facts.2.1
      have kind' := accepted'.facts.2.1
      simp only [VerifierMode.authProvider] at kind kind'
      rw [kind, kind', entraPrincipalKind_congr (same "scp" (by decide)) (same "idtyp" (by decide))]
    have sameRoles : (principalFromAccessToken accessToken' .entra).roles =
        (principalFromAccessToken accessToken .entra).roles := by
      have roles := accepted.facts.2.2
      have roles' := accepted'.facts.2.2
      simp only [VerifierMode.authProvider] at roles roles'
      rw [roles, roles', rolesFromClaims_congr (same "roles" (by decide))]
    have sameDecision : ∀ (service : ToolAuthorizationService) (toolName : String),
        service.authorize toolName (some (principalFromAccessToken accessToken' .entra)) =
          service.authorize toolName (some (principalFromAccessToken accessToken .entra)) := by
      intro service toolName
      exact authorize_congr service toolName sameKind (by rw [principal_scopes, principal_scopes,
        sameScopes]) sameRoles
    refine ⟨sameScopes, fun service toolName => ⟨sameDecision service toolName, ?_⟩, ?_, ?_, ?_⟩
    · rw [ToolAuthorizationService.isVisible, sameDecision, ToolAuthorizationService.isVisible]
    · intro verifier entra context
      exact challengeScopes_congr verifier context (by rw [entra, sameKind]) sameScopes
    · rw [scopes]
      exact scopesFromScp_iff.mpr within
    · rw [scopes']
      exact scopesFromScp_iff.mpr within'

/-- A `scope` claim within `scp` changes nothing. -/
theorem entraScopes_scpOnly_plain :
    let _ := plainRepr
    let _ := asciiTables
    let mode := VerifierMode.entra "tenant" "api://report"
    let scope := [("scope", Json.str "read")]
    AgreeOff ["scope"] (delegatedClaims []) (delegatedClaims scope) ∧
      mode.Accepts "audience" "bearer" (delegatedClaims []) (delegatedToken []) ∧
      mode.Accepts "audience" "bearer" (delegatedClaims scope) (delegatedToken scope) ∧
      "api://report/read" ∈ (delegatedToken scope).scopes ∧
      (delegatedToken scope).scopes = (delegatedToken []).scopes ∧
      ScopesFromScp "api://report" (delegatedClaims scope) (delegatedToken scope).scopes := by
  intro _ _ mode scope
  have agree : AgreeOff ["scope"] (delegatedClaims []) (delegatedClaims scope) := agreeOff_cons _ _ _
  have accepted : mode.Accepts "audience" "bearer" (delegatedClaims []) (delegatedToken []) := ⟨_, rfl, rfl⟩
  have accepted' : mode.Accepts "audience" "bearer" (delegatedClaims scope) (delegatedToken scope) :=
    ⟨_, rfl, rfl⟩
  have within : ScopeWithinScp "api://report" (delegatedClaims []) := by
    intro word member
    exact absurd member (Finset.notMem_empty _)
  have within' : ScopeWithinScp "api://report" (delegatedClaims scope) := by
    intro word member
    have isRead : word = "read" := by
      have words : claimWords (delegatedClaims scope) "scope" = {"read"} := by decide
      rw [words] at member
      exact Finset.mem_singleton.mp member
    subst isRead
    exact ⟨"read", by decide, rfl⟩
  obtain ⟨same, -, -, -, fromScp⟩ := (entraScopes_scpOnly_iff agree accepted accepted').mpr ⟨within, within'⟩
  refine ⟨agree, accepted, accepted', ?_, same, fromScp⟩
  exact mem_qualifyScopes.mpr ⟨"read", mem_scopesFromClaims.mpr (Or.inl (by decide)), by decide, by decide⟩

/-- A `scope` claim on an Entra application token grants a scope that `scp` does not hold. -/
theorem entraScopes_scope_grants :
    let _ := plainRepr
    let _ := asciiTables
    let mode := VerifierMode.entra "tenant" "api://report"
    let service : ToolAuthorizationService :=
      ⟨[("report", ⟨.oauthScopes, {"api://report/read"}, by simp⟩)]⟩
    AgreeOff ["scope"] (applicationClaims []) (applicationClaims [("scope", .str "read")]) ∧
      mode.Accepts "audience" "bearer" (applicationClaims []) (applicationToken []) ∧
      mode.Accepts "audience" "bearer" (applicationClaims [("scope", .str "read")])
        (applicationToken [("scope", .str "read")]) ∧
      (applicationToken [("scope", .str "read")]).scopes ≠ (applicationToken []).scopes ∧
      (service.authorize "report"
        (some (principalFromAccessToken (applicationToken []) .entra))).allowed = false ∧
      (service.authorize "report" (some (principalFromAccessToken
        (applicationToken [("scope", .str "read")]) .entra))).allowed = true := by
  intro _ _ mode service
  have granted : "api://report/read" ∈ (applicationToken [("scope", .str "read")]).scopes :=
    mem_qualifyScopes.mpr ⟨"read", mem_scopesFromClaims.mpr (Or.inl (by decide)), by decide, by decide⟩
  have withheld : (applicationToken []).scopes = [] := by
    rw [List.eq_nil_iff_forall_not_mem]
    intro scope member
    obtain ⟨word, inside, -⟩ := mem_qualifyScopes.mp member
    rcases mem_scopesFromClaims.mp inside with inScope | inScp
    · exact absurd inScope (Finset.notMem_empty _)
    · exact absurd inScp (Finset.notMem_empty _)
  refine ⟨agreeOff_cons _ _ _, ⟨_, rfl, rfl⟩, ⟨_, rfl, rfl⟩, ?_, ?_, ?_⟩
  · intro same
    rw [same, withheld] at granted
    cases granted
  · rw [← Bool.not_eq_true, authorize_allowed_iff]
    rintro ⟨policy, found, grants⟩
    cases found
    have lacking : ({"api://report/read"} : Finset String) ⊆ (applicationToken []).scopes.toFinset :=
      grants
    rw [withheld] at lacking
    simp at lacking
  · refine authorize_allowed_iff.mpr ⟨_, rfl, ?_⟩
    show ({"api://report/read"} : Finset String) ⊆
      (applicationToken [("scope", .str "read")]).scopes.toFinset
    rw [Finset.singleton_subset_iff, List.mem_toFinset]
    exact granted

end McpAuth
