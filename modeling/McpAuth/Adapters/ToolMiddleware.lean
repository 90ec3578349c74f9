/-
**The message-level middleware: `tools/list` filtering and `tools/call` authorization.**

`ToolAuthorizationMiddleware.call` is the SDK's `ServerMiddleware` protocol: it sees the parsed message
(`ServerRequestContext`) and a `call_next` that runs the rest of the chain. Its outcome records whether
`call_next` was awaited, which for `tools/call` is what invokes the tool's handler.

`call_calledNext_iff`: for a call that names a tool, `call_next` is awaited exactly when the decision on
the request's principal is allowed.
-/

import McpAuth.Adapters.Principal

namespace McpAuth

open PyText JsonText

/-! ### Messages and results -/

/-- What the middleware reads of a `ServerRequestContext`; `request` is the user of the HTTP request. -/
structure ServerRequestContext where
  method : String
  params : Option JsonObject
  request : Option RequestUser

/-- A `Tool` model: its name and its other fields. -/
structure Tool where
  name : String
  rest : JsonObject

/-- A `ListToolsResult` model: its tools and its other fields. -/
structure ListToolsResult where
  tools : List Tool
  rest : JsonObject := []

/-- What a handler may return. -/
inductive HandlerResult
  | listTools (result : ListToolsResult)
  | callTool (text : String) (isError : Bool)
  | dict (members : JsonObject)
  | other

/-- `{**members, name: value}`. -/
def setMember {α : Type} (members : List (String × α)) (name : String) (value : α) : List (String × α) :=
  if members.any (·.1 == name) then
    members.map fun member => if member.1 == name then (name, value) else member
  else members ++ [(name, value)]

def deniedText : String := "Authorization denied for this tool."

/-! ### The middleware -/

/-- One policy registry bound to one authentication provider. -/
structure ToolAuthorizationMiddleware where
  authorizer : ToolAuthorizationService
  authProvider : AuthProvider

/-- What one message did: whether `call_next` was awaited, the result and the audit records. -/
structure MiddlewareOutcome where
  calledNext : Bool
  result : HandlerResult
  audit : List SecurityAudit := []

/-- The non-empty string under `params.name`, when there is one. -/
def toolNameOf (params : Option JsonObject) : Option String :=
  match params.map fun members => get members "name" with
  | some (.str name) => if name = "" then none else some name
  | _ => none

section Middleware

variable [PyRepr]

/-- One entry of a wire `tools` list is kept. -/
def ToolAuthorizationMiddleware.keepsEntry (middleware : ToolAuthorizationMiddleware)
    (principal : Option Principal) : Json → Bool
  | .obj tool =>
    match get tool "name" with
    | .str name => middleware.authorizer.isVisible name principal
    | _ => false
  | _ => false

/-- `_filter_tool_list`. -/
def ToolAuthorizationMiddleware.filterToolList (middleware : ToolAuthorizationMiddleware)
    (result : HandlerResult) (ctx : ServerRequestContext) : HandlerResult :=
  let principal := principalFromRequest ctx.request middleware.authProvider
  match result with
  | .listTools listed =>
    .listTools { listed with
      tools := listed.tools.filter fun tool => middleware.authorizer.isVisible tool.name principal }
  | .dict members =>
    match get members "tools" with
    | .arr tools =>
      .dict (setMember members "tools" (.arr (tools.filter (middleware.keepsEntry principal))))
    | _ => .listTools ⟨[], []⟩
  | _ => .listTools ⟨[], []⟩

/-- `ToolAuthorizationMiddleware.__call__`. -/
def ToolAuthorizationMiddleware.call (middleware : ToolAuthorizationMiddleware)
    (ctx : ServerRequestContext) (callNext : ServerRequestContext → HandlerResult) :
    MiddlewareOutcome :=
  if ctx.method = "tools/list" then ⟨true, middleware.filterToolList (callNext ctx) ctx, []⟩
  else if ctx.method ≠ "tools/call" then ⟨true, callNext ctx, []⟩
  else match toolNameOf ctx.params with
    | none => ⟨true, callNext ctx, []⟩
    | some toolName =>
      let principal := principalFromRequest ctx.request middleware.authProvider
      let decision := middleware.authorizer.authorize toolName principal
      if decision.allowed then ⟨true, callNext ctx, []⟩
      else
        ⟨false, .callTool deniedText true,
          [emitSecurityAudit .authorizationDenied .denied decision.reason.value principal
            (some toolName)]⟩

/-- The outcome of a message that calls a named tool. -/
theorem call_tool (middleware : ToolAuthorizationMiddleware) {ctx : ServerRequestContext}
    {toolName : String} (calls : ctx.method = "tools/call")
    (named : toolNameOf ctx.params = some toolName)
    (callNext : ServerRequestContext → HandlerResult) :
    middleware.call ctx callNext =
      let principal := principalFromRequest ctx.request middleware.authProvider
      let decision := middleware.authorizer.authorize toolName principal
      if decision.allowed then ⟨true, callNext ctx, []⟩
      else
        ⟨false, .callTool deniedText true,
          [emitSecurityAudit .authorizationDenied .denied decision.reason.value principal
            (some toolName)]⟩ := by
  have notList : ctx.method ≠ "tools/list" := by
    rw [calls]
    decide
  unfold ToolAuthorizationMiddleware.call
  rw [if_neg notList, if_neg (not_not.mpr calls), named]

/-- **The handler of a named tool runs exactly when the decision is allowed.** -/
theorem call_calledNext_iff (middleware : ToolAuthorizationMiddleware) {ctx : ServerRequestContext}
    {toolName : String} (calls : ctx.method = "tools/call")
    (named : toolNameOf ctx.params = some toolName)
    (callNext : ServerRequestContext → HandlerResult) :
    (middleware.call ctx callNext).calledNext = true ↔
      (middleware.authorizer.authorize toolName
        (principalFromRequest ctx.request middleware.authProvider)).allowed = true := by
  rw [call_tool middleware calls named]
  dsimp only
  split
  · rename_i allowed
    simp [allowed]
  · rename_i denied
    simp [denied]

end Middleware

end McpAuth
