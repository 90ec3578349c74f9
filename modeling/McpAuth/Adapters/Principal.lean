/-
**From a verified access token to authorization facts.**

* `AccessToken` — the SDK's record of a verified token;
* `principalFromAccessToken` — the normalized principal; only the Entra provider classifies the
  identity (`entraPrincipalKind`) and reads roles;
* `principalFromRequest` — the principal of the user attached to this HTTP request;
* `emitSecurityAudit` — the allowlisted audit record.

`entraPrincipalKind_congr`: the Entra kind reads `scp` and `idtyp` only.
`delegated_application_disjoint`: no principal is granted by a delegated-scope policy and by an
application-role policy. `generic_kind`: the generic provider never asserts an identity mode.
-/

import McpAuth.Application.ToolAuthorization

namespace McpAuth

open PyText JsonText

/-! ### Access tokens -/

/-- The configured authentication provider. -/
inductive AuthProvider
  | entra
  | generic
  deriving DecidableEq, Repr

/-- The SDK's `AccessToken`. -/
structure AccessToken where
  token : String
  clientId : String
  scopes : List String
  expiresAt : Option Int
  resource : Option String
  subject : Option String
  claims : Option JsonObject

/-- What Starlette's `request.user` holds. -/
inductive RequestUser
  | unpopulated
  | other
  | authenticated (accessToken : AccessToken)

/-! ### Principals -/

/-- `scp` is a string with at least one word. -/
def hasDelegatedScopes (claims : JsonObject) : Bool :=
  match get claims "scp" with
  | .str scp => !(split scp).isEmpty
  | _ => false

/-- `_entra_principal_kind`. -/
def entraPrincipalKind (claims : JsonObject) : PrincipalKind :=
  if hasDelegatedScopes claims then
    -- Contradictory token shapes satisfy neither delegated nor application policies.
    if (get claims "idtyp").isText "app" then .unknown else .delegated
  else if (get claims "idtyp").isText "app" then .application
  else .unknown

/-- `access_token.claims or {}`. -/
def AccessToken.claimSet (accessToken : AccessToken) : JsonObject := accessToken.claims.getD []

/-- Conversions for inputs that hold no container and no float. -/
abbrev plainRepr : PyRepr := ⟨fun _ => "[]", fun _ => none⟩

section Principal

variable [PyRepr]

/-- `principal_from_access_token`. -/
def principalFromAccessToken (accessToken : AccessToken) (authProvider : AuthProvider) : Principal :=
  let claims := accessToken.claimSet
  let issuerValue := get claims "iss"
  { clientId := accessToken.clientId
    subject := accessToken.subject
    issuer := if issuerValue.isNone then none else some issuerValue.toStr
    kind := match authProvider with
      | .entra => entraPrincipalKind claims
      | .generic => .unknown
    scopes := accessToken.scopes.toFinset
    roles := match authProvider with
      | .entra => (rolesFromClaims claims).toFinset
      | .generic => ∅ }

/-- `principal_from_request`: the user of this request, never a context variable. -/
def principalFromRequest (user : Option RequestUser) (authProvider : AuthProvider) :
    Option Principal :=
  match user with
  | some (.authenticated accessToken) => some (principalFromAccessToken accessToken authProvider)
  | _ => none

@[simp] theorem principal_scopes (accessToken : AccessToken) (authProvider : AuthProvider) :
    (principalFromAccessToken accessToken authProvider).scopes = accessToken.scopes.toFinset := rfl

/-- The generic provider never asserts an identity mode. -/
@[simp] theorem generic_kind (accessToken : AccessToken) :
    (principalFromAccessToken accessToken .generic).kind = .unknown := rfl

end Principal

/-- The Entra kind reads `scp` and `idtyp` only. -/
theorem entraPrincipalKind_congr {first second : JsonObject}
    (sameScp : get first "scp" = get second "scp")
    (sameIdtyp : get first "idtyp" = get second "idtyp") :
    entraPrincipalKind first = entraPrincipalKind second := by
  unfold entraPrincipalKind hasDelegatedScopes
  rw [sameScp, sameIdtyp]

/-- **No principal satisfies a delegated-scope policy and an application-role policy.** -/
theorem delegated_application_disjoint {delegated application : ToolPolicy} {principal : Principal}
    (delegatedKind : delegated.kind = .delegatedScopes)
    (applicationKind : application.kind = .applicationRoles)
    (grantsDelegated : delegated.Grants principal) : ¬ application.Grants principal := by
  intro grantsApplication
  unfold ToolPolicy.Grants at grantsDelegated grantsApplication
  rw [delegatedKind] at grantsDelegated
  rw [applicationKind] at grantsApplication
  have sameKind := grantsDelegated.1.symm.trans grantsApplication.1
  cases sameKind

/-! ### Audit records -/

/-- The actions of `SecurityAuditAction`. -/
inductive SecurityAuditAction
  | authenticationRejected
  | authorizationDenied
  | oauthScopeStepUp
  | transportRejected
  | outboundCredentialBlocked
  deriving DecidableEq, Repr

/-- The outcomes of `SecurityAuditOutcome`. -/
inductive SecurityAuditOutcome
  | denied
  | challenged
  deriving DecidableEq, Repr

/-- The fields of one `security_audit` record; an absent field is `none`. -/
structure SecurityAudit where
  schemaVersion : Nat := 1
  action : SecurityAuditAction
  outcome : SecurityAuditOutcome
  reason : String
  principalKind : Option PrincipalKind := none
  clientId : Option String := none
  toolName : Option String := none
  statusCode : Option Nat := none
  requiredScopeCount : Option Nat := none
  targetKind : Option String := none
  deriving DecidableEq, Repr

/-- `_bounded_text`. -/
def boundedText (value : String) (limit : Nat) : String :=
  if value.length ≤ limit then value else String.ofList (value.toList.take limit) ++ "..."

/-- `emit_security_audit`. -/
def emitSecurityAudit (action : SecurityAuditAction) (outcome : SecurityAuditOutcome)
    (reason : String) (principal : Option Principal := none) (toolName : Option String := none)
    (statusCode : Option Nat := none) (requiredScopeCount : Option Nat := none)
    (targetKind : Option String := none) : SecurityAudit :=
  { action := action
    outcome := outcome
    reason := boundedText reason 128
    principalKind := principal.map Principal.kind
    clientId := principal.map fun facts => boundedText facts.clientId 256
    toolName := toolName.map fun name => boundedText name 256
    statusCode := statusCode
    requiredScopeCount := requiredScopeCount
    targetKind := targetKind }

end McpAuth
