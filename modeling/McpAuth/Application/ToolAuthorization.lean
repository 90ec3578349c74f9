/-
**Declarative, default-deny authorization of MCP tools.**

The code's layer: `ToolPolicy` (a kind and a permission set that can only be built consistent), its
class-method constructors, `ToolAuthorizationService.authorize`, `isVisible` and `requiredScopesFor`.

The abstract layer says what a policy is for, without order of checks, reasons or lists:

* `Grants policy principal` — the policy admits the principal;
* `scopeRequirement policy kind` — the OAuth scopes a principal of this kind could still obtain to be
  admitted, absent where no scope helps.

`authorize_allowed_iff`: a tool call is allowed exactly when the tool has a policy and the policy
grants. `authorize_repairable_iff`: the decision `MISSING_PERMISSION` with OAuth scopes is exactly an
unmet scope requirement, and it names that requirement. `Grants.mono`: granting is monotone in the
scopes.
-/

import McpAuth.Domain.ScopeClaims

namespace McpAuth

open PyText

/-! ### Principals -/

/-- The identity modes of `PrincipalKind`. -/
inductive PrincipalKind
  | delegated
  | application
  | unknown
  deriving DecidableEq, Repr

/-- The authorization facts of one validated token. -/
structure Principal where
  clientId : String
  subject : Option String
  issuer : Option String
  kind : PrincipalKind
  scopes : Finset String
  roles : Finset String
  deriving DecidableEq

/-! ### Policies -/

/-- The authorization signals of `ToolPolicyKind`. -/
inductive ToolPolicyKind
  | authenticated
  | delegatedScopes
  | applicationRoles
  | oauthScopes
  deriving DecidableEq, Repr

/-- One explicit policy for one tool. `consistent` is what `__post_init__` enforces. -/
structure ToolPolicy where
  kind : ToolPolicyKind
  permissions : Finset String
  consistent : kind = .authenticated ↔ permissions = ∅
  deriving DecidableEq

/-- The `ValueError`s of the policy constructors. -/
inductive PolicyError
  | authenticatedWithPermissions
  | missingPermissions (kind : ToolPolicyKind)
  | noPermissions
  | invalidScopeToken (scope : String)
  deriving DecidableEq, Repr

/-- `ToolPolicy(kind, permissions)` with its `__post_init__`. -/
def ToolPolicy.init (kind : ToolPolicyKind) (permissions : Finset String) :
    Except PolicyError ToolPolicy :=
  if consistent : kind = .authenticated ↔ permissions = ∅ then .ok ⟨kind, permissions, consistent⟩
  else if kind = .authenticated then .error .authenticatedWithPermissions
  else .error (.missingPermissions kind)

/-- One character of an RFC 6749 scope-token. -/
def isScopeTokenChar (char : Char) : Bool :=
  let code := char.toNat
  code == 0x21 || (0x23 ≤ code && code ≤ 0x5B) || (0x5D ≤ code && code ≤ 0x7E)

/-- `_is_valid_oauth_scope_token`. -/
def isValidOauthScopeToken (value : String) : Bool := value.toList.all isScopeTokenChar

/-- `_permissions`: the non-empty values, of which there must be one. -/
def permissionsOf (values : List String) : Except PolicyError (Finset String) :=
  let permissions := (values.filter (· ≠ "")).toFinset
  if permissions = ∅ then .error .noPermissions else .ok permissions

/-- `_scope_permissions`: the permissions, all of which must be scope-tokens. A `frozenset` has no
order; among several invalid scopes the error here names the least. -/
def scopePermissions (values : List String) : Except PolicyError (Finset String) := do
  let permissions ← permissionsOf values
  match (sorted permissions).find? fun scope => !isValidOauthScopeToken scope with
  | some scope => .error (.invalidScopeToken scope)
  | none => .ok permissions

/-- `ToolPolicy.authenticated()`. -/
def ToolPolicy.authenticated : ToolPolicy := ⟨.authenticated, ∅, by simp⟩

/-- `ToolPolicy.delegated_scopes(*scopes)`. -/
def ToolPolicy.delegatedScopes (scopes : List String) : Except PolicyError ToolPolicy := do
  let permissions ← scopePermissions scopes
  ToolPolicy.init .delegatedScopes permissions

/-- `ToolPolicy.application_roles(*roles)`. -/
def ToolPolicy.applicationRoles (roles : List String) : Except PolicyError ToolPolicy := do
  let permissions ← permissionsOf roles
  ToolPolicy.init .applicationRoles permissions

/-- `ToolPolicy.oauth_scopes(*scopes)`. -/
def ToolPolicy.oauthScopes (scopes : List String) : Except PolicyError ToolPolicy := do
  let permissions ← scopePermissions scopes
  ToolPolicy.init .oauthScopes permissions

/-- The policy was returned by one of the class-method constructors. -/
inductive ToolPolicy.Constructed : ToolPolicy → Prop
  | authenticated : Constructed ToolPolicy.authenticated
  | delegatedScopes {scopes : List String} {policy : ToolPolicy} :
      ToolPolicy.delegatedScopes scopes = .ok policy → Constructed policy
  | applicationRoles {roles : List String} {policy : ToolPolicy} :
      ToolPolicy.applicationRoles roles = .ok policy → Constructed policy
  | oauthScopes {scopes : List String} {policy : ToolPolicy} :
      ToolPolicy.oauthScopes scopes = .ok policy → Constructed policy

/-- A non-empty RFC 6749 scope-token. -/
def IsScopeToken (scope : String) : Prop := scope ≠ "" ∧ isValidOauthScopeToken scope = true

instance (scope : String) : Decidable (IsScopeToken scope) :=
  inferInstanceAs (Decidable (scope ≠ "" ∧ isValidOauthScopeToken scope = true))

theorem init_permissions {kind : ToolPolicyKind} {permissions : Finset String} {policy : ToolPolicy}
    (built : ToolPolicy.init kind permissions = .ok policy) :
    policy.kind = kind ∧ policy.permissions = permissions := by
  unfold ToolPolicy.init at built
  split at built
  · rw [Except.ok.injEq] at built
    subst built
    exact ⟨rfl, rfl⟩
  · split at built <;> cases built

theorem permissionsOf_ok {values : List String} {permissions : Finset String}
    (built : permissionsOf values = .ok permissions) :
    permissions = (values.filter (· ≠ "")).toFinset := by
  unfold permissionsOf at built
  dsimp only at built
  split at built
  · cases built
  · exact (Except.ok.inj built).symm

/-- **Every permission a scope constructor lets through is a scope-token.** -/
theorem isScopeToken_of_scopePermissions {values : List String} {permissions : Finset String}
    (built : scopePermissions values = .ok permissions) : ∀ scope ∈ permissions, IsScopeToken scope := by
  intro scope member
  unfold scopePermissions at built
  cases collected : permissionsOf values with
  | error error =>
    rw [collected] at built
    cases built
  | ok collectedPermissions =>
    rw [collected] at built
    dsimp only [bind, Except.bind] at built
    split at built
    · cases built
    · rename_i noneBad
      rw [Except.ok.injEq] at built
      subst built
      have valid := List.find?_eq_none.mp noneBad scope (mem_sorted.mpr member)
      rw [permissionsOf_ok collected, List.mem_toFinset, List.mem_filter] at member
      exact ⟨by simpa using member.2, by simpa using valid⟩

/-- A constructed policy that names scopes names scope-tokens. -/
theorem ToolPolicy.Constructed.isScopeToken {policy : ToolPolicy} (built : policy.Constructed)
    (byScopes : policy.kind = .delegatedScopes ∨ policy.kind = .oauthScopes) :
    ∀ scope ∈ policy.permissions, IsScopeToken scope := by
  have ofScopes : ∀ {kind : ToolPolicyKind} {scopes : List String},
      (scopePermissions scopes >>= ToolPolicy.init kind) = .ok policy →
      ∀ scope ∈ policy.permissions, IsScopeToken scope := by
    intro kind scopes constructs
    cases collected : scopePermissions scopes with
    | error error =>
      rw [collected] at constructs
      cases constructs
    | ok permissions =>
      rw [collected] at constructs
      rw [(init_permissions constructs).2]
      exact isScopeToken_of_scopePermissions collected
  cases built with
  | authenticated =>
    intro scope member
    cases member
  | delegatedScopes constructs => exact ofScopes constructs
  | oauthScopes constructs => exact ofScopes constructs
  | @applicationRoles roles _ constructs =>
    have kind : policy.kind = .applicationRoles := by
      cases collected : permissionsOf roles with
      | error error =>
        rw [ToolPolicy.applicationRoles, collected] at constructs
        cases constructs
      | ok permissions =>
        rw [ToolPolicy.applicationRoles, collected] at constructs
        exact (init_permissions constructs).1
    rw [kind] at byScopes
    rcases byScopes with impossible | impossible <;> cases impossible

/-- A scope-token has no space and no quote, and is ASCII. -/
theorem IsScopeToken.chars {scope : String} (token : IsScopeToken scope) :
    ∀ char ∈ scope.toList, char ≠ ' ' ∧ char ≠ '"' ∧ isAscii char = true := by
  intro char member
  have valid := List.all_eq_true.mp token.2 char member
  unfold isScopeTokenChar at valid
  refine ⟨?_, ?_, ?_⟩
  · rintro rfl
    cases valid
  · rintro rfl
    cases valid
  · simp only [Bool.or_eq_true, Bool.and_eq_true, beq_iff_eq, decide_eq_true_eq] at valid
    simp only [isAscii, decide_eq_true_eq]
    omega

theorem IsScopeToken.isAsciiText {scope : String} (token : IsScopeToken scope) : IsAsciiText scope :=
  fun char member => (token.chars char member).2.2

/-! ### Decisions -/

/-- The reason codes of `AuthorizationReason`. -/
inductive AuthorizationReason
  | allowed
  | policyMissing
  | unauthenticated
  | wrongPrincipalKind
  | missingPermission
  deriving DecidableEq, Repr

/-- `reason.value`. -/
def AuthorizationReason.value : AuthorizationReason → String
  | .allowed => "allowed"
  | .policyMissing => "policy_missing"
  | .unauthenticated => "unauthenticated"
  | .wrongPrincipalKind => "wrong_principal_kind"
  | .missingPermission => "missing_permission"

/-- Result of evaluating one tool policy. -/
structure AuthorizationDecision where
  allowed : Bool
  reason : AuthorizationReason
  requiredScopes : List String := []
  deriving DecidableEq, Repr

/-- A `Mapping[str, ToolPolicy]`. -/
abbrev PolicyRegistry := List (String × ToolPolicy)

/-- The registry of one server. -/
structure ToolAuthorizationService where
  policies : PolicyRegistry

/-- `self._policies.get(tool_name)`. -/
def ToolAuthorizationService.policyFor (service : ToolAuthorizationService) (toolName : String) :
    Option ToolPolicy :=
  service.policies.lookup toolName

/-- `_required_scopes`. -/
def requiredScopes (policy : ToolPolicy) : List String :=
  match policy.kind with
  | .delegatedScopes | .oauthScopes => sorted policy.permissions
  | .authenticated | .applicationRoles => []

/-- `_permission_decision`. -/
def permissionDecision (policy : ToolPolicy) (granted : Finset String) : AuthorizationDecision :=
  if policy.permissions ⊆ granted then ⟨true, .allowed, requiredScopes policy⟩
  else ⟨false, .missingPermission, requiredScopes policy⟩

/-- `authorize`. -/
def ToolAuthorizationService.authorize (service : ToolAuthorizationService) (toolName : String)
    (principal : Option Principal) : AuthorizationDecision :=
  match service.policyFor toolName, principal with
  | none, _ => ⟨false, .policyMissing, []⟩
  | some policy, none => ⟨false, .unauthenticated, requiredScopes policy⟩
  | some policy, some principal =>
    match policy.kind with
    | .authenticated => ⟨true, .allowed, []⟩
    | .delegatedScopes =>
      if principal.kind ≠ .delegated then ⟨false, .wrongPrincipalKind, requiredScopes policy⟩
      else permissionDecision policy principal.scopes
    | .applicationRoles =>
      if principal.kind ≠ .application then ⟨false, .wrongPrincipalKind, []⟩
      else permissionDecision policy principal.roles
    | .oauthScopes => permissionDecision policy principal.scopes

/-- `is_visible`. -/
def ToolAuthorizationService.isVisible (service : ToolAuthorizationService) (toolName : String)
    (principal : Option Principal) : Bool :=
  (service.authorize toolName principal).allowed

/-- `required_scopes_for`. -/
def ToolAuthorizationService.requiredScopesFor (service : ToolAuthorizationService)
    (toolName : String) : List String :=
  match service.policyFor toolName with
  | some policy => requiredScopes policy
  | none => []

/-- A denial that more OAuth scopes would repair: `MISSING_PERMISSION` with required scopes. -/
def AuthorizationDecision.repairable (decision : AuthorizationDecision) : Bool :=
  !decision.allowed && decision.reason == .missingPermission && !decision.requiredScopes.isEmpty

/-! ### What a policy is for -/

/-- **The policy admits the principal.** -/
def ToolPolicy.Grants (policy : ToolPolicy) (principal : Principal) : Prop :=
  match policy.kind with
  | .authenticated => True
  | .delegatedScopes => principal.kind = .delegated ∧ policy.permissions ⊆ principal.scopes
  | .applicationRoles => principal.kind = .application ∧ policy.permissions ⊆ principal.roles
  | .oauthScopes => policy.permissions ⊆ principal.scopes

/-- The OAuth scopes a principal of this kind must hold, where scopes decide. -/
def ToolPolicy.scopeRequirement (policy : ToolPolicy) (kind : PrincipalKind) :
    Option (Finset String) :=
  match policy.kind with
  | .delegatedScopes => if kind = .delegated then some policy.permissions else none
  | .oauthScopes => some policy.permissions
  | .authenticated | .applicationRoles => none

/-- `smaller` with more scopes, and otherwise the same authorization facts. -/
structure Principal.Extends (larger smaller : Principal) : Prop where
  kind : larger.kind = smaller.kind
  roles : larger.roles = smaller.roles
  scopes : smaller.scopes ⊆ larger.scopes

/-- **Granting is monotone in the scopes.** -/
theorem ToolPolicy.Grants.mono {policy : ToolPolicy} {smaller larger : Principal}
    (grants : policy.Grants smaller) (grown : larger.Extends smaller) : policy.Grants larger := by
  obtain ⟨sameKind, sameRoles, grows⟩ := grown
  unfold ToolPolicy.Grants at *
  cases shape : policy.kind with
  | authenticated => trivial
  | delegatedScopes =>
    rw [shape] at grants
    exact ⟨sameKind.trans grants.1, grants.2.trans grows⟩
  | applicationRoles =>
    rw [shape] at grants
    exact ⟨sameKind.trans grants.1, sameRoles ▸ grants.2⟩
  | oauthScopes =>
    rw [shape] at grants
    exact grants.trans grows

/-- A policy that requires scopes requires at least one. -/
theorem ToolPolicy.scopeRequirement_nonempty {policy : ToolPolicy} {kind : PrincipalKind}
    {required : Finset String} (requires : policy.scopeRequirement kind = some required) :
    required ≠ ∅ := by
  have notAuthenticated : policy.kind ≠ .authenticated := by
    intro shape
    unfold ToolPolicy.scopeRequirement at requires
    rw [shape] at requires
    cases requires
  have samePermissions : required = policy.permissions := by
    unfold ToolPolicy.scopeRequirement at requires
    split at requires
    · split at requires
      · exact (Option.some.inj requires).symm
      · cases requires
    · exact (Option.some.inj requires).symm
    · cases requires
    · cases requires
  rw [samePermissions]
  exact fun empty => notAuthenticated (policy.consistent.mpr empty)

/-- A principal that holds what the policy requires of its kind is granted. -/
theorem ToolPolicy.grants_of_scopeRequirement {policy : ToolPolicy} {principal : Principal}
    {required : Finset String} (requires : policy.scopeRequirement principal.kind = some required)
    (held : required ⊆ principal.scopes) : policy.Grants principal := by
  unfold ToolPolicy.scopeRequirement at requires
  unfold ToolPolicy.Grants
  cases shape : policy.kind with
  | authenticated => trivial
  | delegatedScopes =>
    rw [shape] at requires
    dsimp only at requires
    split at requires
    · rename_i delegated
      exact ⟨delegated, Option.some.inj requires ▸ held⟩
    · cases requires
  | applicationRoles =>
    rw [shape] at requires
    cases requires
  | oauthScopes =>
    rw [shape] at requires
    exact Option.some.inj requires ▸ held

/-! ### The code decides what the policy is for -/

theorem permissionDecision_of_subset {policy : ToolPolicy} {granted : Finset String}
    (met : policy.permissions ⊆ granted) :
    permissionDecision policy granted = ⟨true, .allowed, requiredScopes policy⟩ := if_pos met

theorem permissionDecision_of_not_subset {policy : ToolPolicy} {granted : Finset String}
    (unmet : ¬ policy.permissions ⊆ granted) :
    permissionDecision policy granted = ⟨false, .missingPermission, requiredScopes policy⟩ :=
  if_neg unmet

@[simp] theorem permissionDecision_allowed {policy : ToolPolicy} {granted : Finset String} :
    (permissionDecision policy granted).allowed = true ↔ policy.permissions ⊆ granted := by
  by_cases met : policy.permissions ⊆ granted
  · simp [permissionDecision_of_subset met, met]
  · simp [permissionDecision_of_not_subset met, met]

theorem authorize_none_policy {service : ToolAuthorizationService} {toolName : String}
    (missing : service.policyFor toolName = none) (principal : Option Principal) :
    service.authorize toolName principal = ⟨false, .policyMissing, []⟩ := by
  unfold ToolAuthorizationService.authorize
  rw [missing]

/-- The decision on a principal, with the registry lookup resolved. -/
theorem authorize_some {service : ToolAuthorizationService} {toolName : String}
    {policy : ToolPolicy} (found : service.policyFor toolName = some policy) (principal : Principal) :
    service.authorize toolName (some principal) =
      match policy.kind with
      | .authenticated => ⟨true, .allowed, []⟩
      | .delegatedScopes =>
        if principal.kind ≠ .delegated then ⟨false, .wrongPrincipalKind, requiredScopes policy⟩
        else permissionDecision policy principal.scopes
      | .applicationRoles =>
        if principal.kind ≠ .application then ⟨false, .wrongPrincipalKind, []⟩
        else permissionDecision policy principal.roles
      | .oauthScopes => permissionDecision policy principal.scopes := by
  unfold ToolAuthorizationService.authorize
  rw [found]

/-- **A tool call is allowed exactly when the tool has a policy and the policy grants.** -/
theorem authorize_allowed_iff {service : ToolAuthorizationService} {toolName : String}
    {principal : Principal} :
    (service.authorize toolName (some principal)).allowed = true ↔
      ∃ policy, service.policyFor toolName = some policy ∧ policy.Grants principal := by
  cases found : service.policyFor toolName with
  | none =>
    rw [authorize_none_policy found]
    simp
  | some policy =>
    rw [authorize_some found]
    unfold ToolPolicy.Grants
    cases shape : policy.kind with
    | authenticated => simp [shape]
    | delegatedScopes => by_cases wrong : principal.kind = .delegated <;> simp [shape, wrong]
    | applicationRoles => by_cases wrong : principal.kind = .application <;> simp [shape, wrong]
    | oauthScopes => simp [shape]

/-- **The repairable denials are the unmet scope requirements**, and they name the requirement. -/
theorem authorize_repairable_iff {service : ToolAuthorizationService} {toolName : String}
    {principal : Principal} {scopes : List String} :
    (service.authorize toolName (some principal)).repairable = true ∧
        (service.authorize toolName (some principal)).requiredScopes = scopes ↔
      ∃ policy required, service.policyFor toolName = some policy ∧
        policy.scopeRequirement principal.kind = some required ∧ ¬ required ⊆ principal.scopes ∧
        sorted required = scopes := by
  cases found : service.policyFor toolName with
  | none =>
    rw [authorize_none_policy found]
    simp [AuthorizationDecision.repairable]
  | some policy =>
    rw [authorize_some found]
    have nonempty : policy.kind ≠ .authenticated → sorted policy.permissions ≠ [] := by
      intro other empty
      exact other (policy.consistent.mpr (sorted_eq_nil_iff.mp empty))
    cases shape : policy.kind with
    | authenticated => simp [AuthorizationDecision.repairable, ToolPolicy.scopeRequirement, shape]
    | delegatedScopes =>
      have hasScopes := nonempty (by rw [shape]; decide)
      by_cases wrong : principal.kind = .delegated <;>
        by_cases met : policy.permissions ⊆ principal.scopes <;>
        simp [AuthorizationDecision.repairable, ToolPolicy.scopeRequirement, requiredScopes,
          permissionDecision, shape, wrong, met, hasScopes]
    | applicationRoles =>
      by_cases wrong : principal.kind = .application <;>
        by_cases met : policy.permissions ⊆ principal.roles <;>
        simp [AuthorizationDecision.repairable, ToolPolicy.scopeRequirement, requiredScopes,
          permissionDecision, shape, wrong, met]
    | oauthScopes =>
      have hasScopes := nonempty (by rw [shape]; decide)
      by_cases met : policy.permissions ⊆ principal.scopes <;>
        simp [AuthorizationDecision.repairable, ToolPolicy.scopeRequirement, requiredScopes,
          permissionDecision, shape, met, hasScopes]

/-- A repairable denial becomes an allowance once the named scopes are held. -/
theorem allowed_of_repairable {service : ToolAuthorizationService} {toolName : String}
    {smaller larger : Principal} (grown : larger.Extends smaller)
    (repairable : (service.authorize toolName (some smaller)).repairable = true)
    (obtained : (service.authorize toolName (some smaller)).requiredScopes.toFinset
      ⊆ larger.scopes) :
    (service.authorize toolName (some larger)).allowed = true := by
  obtain ⟨policy, required, found, requires, _, named⟩ :=
    authorize_repairable_iff.mp ⟨repairable, rfl⟩
  rw [← named, sorted_toFinset] at obtained
  exact authorize_allowed_iff.mpr
    ⟨policy, found, ToolPolicy.grants_of_scopeRequirement (grown.kind ▸ requires) obtained⟩

/-- The decision that a role would repair: no OAuth scope is named. -/
theorem requiredScopes_applicationRoles {service : ToolAuthorizationService} {toolName : String}
    {policy : ToolPolicy} (found : service.policyFor toolName = some policy)
    (roles : policy.kind = .applicationRoles) (principal : Principal) :
    (service.authorize toolName (some principal)).requiredScopes = [] := by
  rw [authorize_some found]
  by_cases wrong : principal.kind = .application <;>
    by_cases met : policy.permissions ⊆ principal.roles <;>
    simp [roles, wrong, permissionDecision, met, requiredScopes]

/-- Outside application-role policies a decision does not read the roles. -/
theorem authorize_congr_scopes {service : ToolAuthorizationService} {toolName : String}
    (noRoles : ∀ policy, service.policyFor toolName = some policy → policy.kind ≠ .applicationRoles)
    {first second : Principal} (sameKind : first.kind = second.kind)
    (sameScopes : first.scopes = second.scopes) :
    service.authorize toolName (some first) = service.authorize toolName (some second) := by
  cases found : service.policyFor toolName with
  | none => rw [authorize_none_policy found, authorize_none_policy found]
  | some policy =>
    rw [authorize_some found, authorize_some found, sameKind, sameScopes]
    cases shape : policy.kind with
    | applicationRoles => exact absurd shape (noRoles policy found)
    | authenticated => rfl
    | delegatedScopes => rfl
    | oauthScopes => rfl

/-- Under an application-role policy a decision does not read the scopes. -/
theorem authorize_congr_roles {service : ToolAuthorizationService} {toolName : String}
    {policy : ToolPolicy} (found : service.policyFor toolName = some policy)
    (roles : policy.kind = .applicationRoles) {first second : Principal}
    (sameKind : first.kind = second.kind) (sameRoles : first.roles = second.roles) :
    service.authorize toolName (some first) = service.authorize toolName (some second) := by
  rw [authorize_some found, authorize_some found, roles, sameKind, sameRoles]

/-- A decision reads the kind, the scopes and the roles of a principal, and nothing else. -/
theorem authorize_congr (service : ToolAuthorizationService) (toolName : String)
    {first second : Principal} (sameKind : first.kind = second.kind)
    (sameScopes : first.scopes = second.scopes) (sameRoles : first.roles = second.roles) :
    service.authorize toolName (some first) = service.authorize toolName (some second) := by
  cases found : service.policyFor toolName with
  | none => rw [authorize_none_policy found, authorize_none_policy found]
  | some policy =>
    rw [authorize_some found, authorize_some found, sameKind, sameScopes, sameRoles]

end McpAuth
