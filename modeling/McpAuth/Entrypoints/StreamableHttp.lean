/-
**The Streamable HTTP stack: which requests reach the MCP app, and how many at once.**

`_build_streamable_http_app` puts the admission middleware outside the probe middleware, and both outside
the MCP app, whose first layer is the progressive authorization middleware. The tracing middleware in
between forwards every request once and unchanged, and is left out. The app itself is a suspension
(`TransportWait.app`) that ends by return, exception or cancellation.

* `StreamableHttpApp.traced` — where a request may suspend, given the answers before: this is where the
  two middlewares have to agree on the probe paths;
* `StreamableHttpApp.balances` — a request holds one slot exactly while it is inside the app;
* `admission_accounting` — both, for every run of any number of requests.
-/

import McpAuth.Adapters.HttpTransport
import McpAuth.Library.Ledger

namespace McpAuth

open Cooperative PyText

/-! ### The stack -/

/-- What `_build_streamable_http_app` is given: the limits, and whether there is a `runtime_status`. -/
structure StreamableHttpApp where
  limits : TransportLimits := {}
  hasRuntimeStatus : Bool := true

/-- `_MCP_HTTP_PATH`. -/
def mcpHttpPath : String := "/mcp"

/-- `_OPERATIONAL_PROBE_PATHS`. -/
def operationalProbePaths : List String := ["/livez", "/readyz"]

/-- The MCP app, from the progressive authorization middleware inwards. -/
def progressiveAuthorizationApp : AsgiApp := fun scope => @TransportAsync.call (.app scope) Unit id

namespace StreamableHttpApp

/-- The paths that the admission middleware lets through as probes. -/
def operationalPaths (app : StreamableHttpApp) : List String :=
  if app.hasRuntimeStatus then operationalProbePaths else []

/-- The MCP app with the probes in front of it. -/
def probed (app : StreamableHttpApp) : AsgiApp :=
  if app.hasRuntimeStatus then (OperationalProbeMiddleware.mk progressiveAuthorizationApp).call
  else progressiveAuthorizationApp

/-- The whole stack, admission outermost. -/
def stack (app : StreamableHttpApp) : HttpTransportAdmissionMiddleware :=
  ⟨app.probed, mcpHttpPath, app.limits, app.operationalPaths⟩

end StreamableHttpApp

/-- What happens in the process: a request, and the lifespan marking the runtime ready or not. -/
inductive TransportTask
  | request (scope : HttpScope)
  | markReady
  | markNotReady

/-- `mark_ready` and `mark_not_ready`. -/
def setReady (ready : Bool) : TransportAsync Unit :=
  Async.lift (.write fun state => { state with ready := ready })

abbrev TransportSystem :=
  System TransportState TransportWait TransportWait.Answer TransportTask (Except Interrupt Unit)

abbrev TransportPool :=
  Pool TransportState TransportWait TransportWait.Answer TransportTask (Except Interrupt Unit)

abbrev TransportProcess :=
  Process TransportState TransportWait TransportWait.Answer (Except Interrupt Unit)

abbrev TransportAction := Action TransportWait TransportWait.Answer TransportTask

abbrev TransportAnswered := Answered TransportWait TransportWait.Answer

/-- What a task runs. -/
def StreamableHttpApp.call (app : StreamableHttpApp) : TransportTask → TransportAsync Unit
  | .request scope => app.stack.call scope
  | .markReady => setReady true
  | .markNotReady => setReady false

/-- The process that runs the stack. Every suspension may end at any time. -/
def StreamableHttpApp.system (app : StreamableHttpApp) : TransportSystem :=
  ⟨fun task => (app.call task).run, fun _ _ => true⟩

/-! ### Where a request may suspend -/

/-- The only answer of an admitted request before it is inside: the SDK's check rejected nothing. -/
def validated (scope : HttpScope) : TransportAnswered :=
  ⟨.validateRequest scope (scope.method == "POST"), .ok none⟩

/-- The request passed every check in front of the MCP app. -/
structure PassedChecks (app : StreamableHttpApp) (scope : HttpScope) (past : List TransportAnswered) :
    Prop where
  envelope : EnvelopeAccepted app.limits scope
  transport : validated scope ∈ past
  post : scope.path = mcpHttpPath → scope.method = "POST"
  noProbe : scope.path ∉ app.operationalPaths

/-- The exact probe paths, with an accepted envelope: the requests that skip the SDK's check. -/
structure IsProbe (app : StreamableHttpApp) (scope : HttpScope) : Prop where
  http : scope.scopeType = "http"
  envelope : EnvelopeAccepted app.limits scope
  path : scope.path ∈ app.operationalPaths

/-- The wait is inside the MCP app. -/
def TransportWait.IsApp : TransportWait → Prop
  | .app _ => True
  | _ => False

/-- The wait sends a rejection of the admission middleware. -/
def TransportWait.IsRejection : TransportWait → Prop
  | .respond _ => True
  | _ => False

/-- The request reached the MCP app only as itself, and over HTTP only past every check. -/
def ReachesApp (app : StreamableHttpApp) (scope : HttpScope) (past : List TransportAnswered)
    (want : TransportWait) : Prop :=
  want = .app scope ∧ (scope.scopeType = "http" → PassedChecks app scope past)

/-- The SDK was asked about the request, or the request skipped its check: with a rejected envelope or on
a probe path. -/
def CheckedOrProbe (app : StreamableHttpApp) (scope : HttpScope) (past : List TransportAnswered) : Prop :=
  (validateEnvelope app.limits scope).isSome ∨ IsProbe app scope ∨
    ∃ answer, ⟨.validateRequest scope (scope.method == "POST"), answer⟩ ∈ past

/-- Where a request may suspend after the answers it got. -/
def RequestSuspends (app : StreamableHttpApp) (scope : HttpScope) (past : List TransportAnswered) :
    TransportWait → Prop
  | .validateRequest validatedScope isPost =>
    past = [] ∧ validatedScope = scope ∧ isPost = (scope.method == "POST")
  | .respond _ => (∀ answered ∈ past, ¬ answered.1.IsApp) ∧ CheckedOrProbe app scope past
  | .respondProbe _ => past = [] ∧ IsProbe app scope
  | .app reached => (∀ answered ∈ past, ¬ answered.1.IsRejection) ∧
      ReachesApp app scope past (.app reached)

/-- What the answers of a finished request show. -/
structure RequestReturns (app : StreamableHttpApp) (scope : HttpScope) (past : List TransportAnswered) :
    Prop where
  exclusive : (∃ answered ∈ past, answered.1.IsRejection) → ∀ answered ∈ past, ¬ answered.1.IsApp
  checked : scope.scopeType = "http" → CheckedOrProbe app scope past
  reached : ∀ answered ∈ past, answered.1.IsApp → ReachesApp app scope past answered.1

section Paths

variable {app : StreamableHttpApp} {scope : HttpScope}

/-- The probe middleware knows the paths that the admission middleware lets through. -/
theorem mem_operationalPaths :
    scope.path ∈ app.operationalPaths ↔ app.hasRuntimeStatus = true ∧ scope.path ∈ [livePath, readyPath] := by
  unfold StreamableHttpApp.operationalPaths
  cases app.hasRuntimeStatus
  · simp
  · simp [operationalProbePaths, livePath, readyPath]

/-- **Everything but a probe goes on to the MCP app.** -/
theorem probed_of_noProbe (noProbe : scope.scopeType = "http" → scope.path ∉ app.operationalPaths) :
    app.probed scope = progressiveAuthorizationApp scope := by
  unfold StreamableHttpApp.probed
  by_cases status : app.hasRuntimeStatus = true
  · rw [if_pos status, OperationalProbeMiddleware.call, if_pos]
    by_cases http : scope.scopeType = "http"
    · exact Or.inr fun member => noProbe http (mem_operationalPaths.mpr ⟨status, member⟩)
    · exact Or.inl http
  · rw [if_neg status]

/-- **A probe is answered in front of the MCP app.** -/
theorem probed_of_probe (http : scope.scopeType = "http") (path : scope.path ∈ app.operationalPaths) :
    app.probed scope = answerProbe scope := by
  obtain ⟨status, member⟩ := mem_operationalPaths.mp path
  unfold StreamableHttpApp.probed
  rw [if_pos status, OperationalProbeMiddleware.call, if_neg (by simp [http, member])]

end Paths

/-! ### Every path through the stack -/

section Traced

variable {app : StreamableHttpApp} {scope : HttpScope}

/-- A rejection before the SDK was asked, or after it answered. -/
theorem rejection_traced {past : List TransportAnswered} (rejection : TransportResponse)
    (checked : CheckedOrProbe app scope past) (outside : ∀ answered ∈ past, ¬ answered.1.IsApp) :
    Traced (RequestSuspends app scope) (fun past _ => RequestReturns app scope past)
      (respond rejection).run past := by
  refine ⟨⟨outside, checked⟩, fun answer => ?_⟩
  have outsideStill : ∀ answered ∈ past ++ [⟨.respond rejection, answer⟩], ¬ answered.1.IsApp := by
    intro answered member
    rcases List.mem_append.mp member with early | last
    · exact outside answered early
    · rw [List.mem_singleton.mp last]
      exact id
  refine ⟨fun _ => outsideStill, fun _ => ?_, fun answered member inside =>
    absurd inside (outsideStill answered member)⟩
  rcases checked with envelope | probe | ⟨asked, member⟩
  · exact Or.inl envelope
  · exact Or.inr (Or.inl probe)
  · exact Or.inr (Or.inr ⟨asked, List.mem_append_left _ member⟩)

/-- A request that goes on to the MCP app. -/
theorem progressiveAuthorizationApp_traced {past : List TransportAnswered}
    {returns : List TransportAnswered → Except Interrupt Unit → Prop}
    (noRejection : ∀ answered ∈ past, ¬ answered.1.IsRejection)
    (checks : scope.scopeType = "http" → PassedChecks app scope past)
    (ends : ∀ answer, returns (past ++ [⟨.app scope, answer⟩]) answer) :
    Traced (RequestSuspends app scope) returns (progressiveAuthorizationApp scope).run past :=
  ⟨⟨noRejection, rfl, checks⟩, ends⟩

/-- What an app that was reached leaves behind. -/
theorem returns_of_app {past : List TransportAnswered}
    (noRejection : ∀ answered ∈ past, ¬ answered.1.IsRejection)
    (outside : ∀ answered ∈ past, ¬ answered.1.IsApp)
    (checked : scope.scopeType = "http" → CheckedOrProbe app scope past)
    (checks : scope.scopeType = "http" → PassedChecks app scope past)
    (answer : Except Interrupt Unit) : RequestReturns app scope (past ++ [⟨.app scope, answer⟩]) := by
  refine ⟨?_, fun http => ?_, fun answered member inside => ?_⟩
  · rintro ⟨answered, member, rejected⟩
    rcases List.mem_append.mp member with early | last
    · exact absurd rejected (noRejection answered early)
    · rw [List.mem_singleton.mp last] at rejected
      exact rejected.elim
  · rcases checked http with envelope | probe | ⟨asked, member⟩
    · exact Or.inl envelope
    · exact Or.inr (Or.inl probe)
    · exact Or.inr (Or.inr ⟨asked, List.mem_append_left _ member⟩)
  · rcases List.mem_append.mp member with early | last
    · exact absurd inside (outside answered early)
    · rw [List.mem_singleton.mp last]
      refine ⟨rfl, fun http => ?_⟩
      obtain ⟨envelope, transport, post, noProbe⟩ := checks http
      exact ⟨envelope, List.mem_append_left _ transport, post, noProbe⟩

/-- Taking a slot does not suspend. -/
theorem tryAdmit_traced {limits : TransportLimits} {past : List TransportAnswered}
    {suspends : List TransportAnswered → TransportWait → Prop}
    {returns : List TransportAnswered → Bool → Prop} (both : ∀ admitted, returns past admitted) :
    Traced suspends returns (tryAdmit limits) past := by
  refine traced_bind.mpr fun state => ?_
  simp only [Traced]
  split
  · exact both false
  · exact traced_bind.mpr fun _ => both true

/-- A request that takes a slot, or is rejected for want of one. -/
theorem admitted_traced
    (checks : PassedChecks app scope [validated scope]) :
    Traced (RequestSuspends app scope) (fun past _ => RequestReturns app scope past)
      ((app.probed scope).ensuring release).run [validated scope] := by
  rw [probed_of_noProbe fun _ => checks.noProbe]
  have noRejection : ∀ answered ∈ [validated scope], ¬ answered.1.IsRejection := by
    simp [validated, TransportWait.IsRejection]
  have outside : ∀ answered ∈ [validated scope], ¬ answered.1.IsApp := by
    simp [validated, TransportWait.IsApp]
  have checked : CheckedOrProbe app scope [validated scope] :=
    Or.inr (Or.inr ⟨.ok none, List.mem_singleton.mpr rfl⟩)
  refine traced_bind.mpr (progressiveAuthorizationApp_traced noRejection (fun _ => checks) ?_)
  intro answer state
  exact returns_of_app noRejection outside (fun _ => checked) (fun _ => checks) answer

/-- **Every path of a request through the stack.** -/
theorem stack_traced (app : StreamableHttpApp) (scope : HttpScope) :
    Traced (RequestSuspends app scope) (fun past _ => RequestReturns app scope past)
      (app.stack.call scope).run [] := by
  unfold HttpTransportAdmissionMiddleware.call
  by_cases http : scope.scopeType ≠ "http"
  · rw [if_pos http]
    show Traced _ _ (app.probed scope).run []
    rw [probed_of_noProbe fun same => absurd same http]
    refine progressiveAuthorizationApp_traced (by simp) (fun same => absurd same http) fun answer => ?_
    exact returns_of_app (by simp) (by simp) (fun same => absurd same http)
      (fun same => absurd same http) answer
  rw [if_neg http]
  rw [not_not] at http
  cases envelope : validateEnvelope app.stack.limits scope with
  | some rejection =>
    refine traced_asyncBind.mpr fun state => ?_
    exact rejection_traced _ (Or.inl (by rw [show app.limits = app.stack.limits from rfl, envelope]; rfl))
      (by simp)
  | none =>
    have accepted : EnvelopeAccepted app.limits scope := validateEnvelope_none_iff.mp envelope
    by_cases path : scope.path ∈ app.operationalPaths
    · have probe : IsProbe app scope := ⟨http, accepted, path⟩
      rw [show app.stack.operationalPaths = app.operationalPaths from rfl]
      dsimp only
      rw [if_pos path, show app.stack.app = app.probed from rfl, probed_of_probe http path]
      refine traced_asyncBind.mpr fun state => ⟨⟨rfl, probe⟩, fun answer => ?_⟩
      refine ⟨?_, fun _ => Or.inr (Or.inl probe), ?_⟩
      · simp [TransportWait.IsRejection]
      · simp [TransportWait.IsApp]
    · dsimp only
      rw [show app.stack.operationalPaths = app.operationalPaths from rfl, if_neg path]
      refine traced_asyncBind.mpr ⟨⟨rfl, rfl, rfl⟩, fun answer => ?_⟩
      have checked : CheckedOrProbe app scope
          [⟨.validateRequest scope (scope.method == "POST"), answer⟩] :=
        Or.inr (Or.inr ⟨answer, List.mem_singleton.mpr rfl⟩)
      rcases answer with interrupt | _ | rejection
      · exact ⟨by simp [TransportWait.IsRejection], fun _ => checked, by simp [TransportWait.IsApp]⟩
      · dsimp only [id, List.nil_append]
        by_cases method : scope.path = app.stack.mcpPath ∧ scope.method ≠ "POST"
        · rw [if_pos method]
          refine traced_asyncBind.mpr fun state => ?_
          exact rejection_traced _ checked (by simp [TransportWait.IsApp])
        rw [if_neg method]
        have checks : PassedChecks app scope [validated scope] :=
          ⟨accepted, List.mem_singleton.mpr rfl, not_and_not_right.mp method, path⟩
        refine traced_asyncBind.mpr (traced_bind.mpr (tryAdmit_traced fun admitted => ?_))
        cases admitted with
        | false =>
          refine traced_asyncBind.mpr fun state => ?_
          exact rejection_traced _ checked (by simp [TransportWait.IsApp])
        | true => exact admitted_traced checks
      · refine traced_asyncBind.mpr fun state => ?_
        exact rejection_traced _ checked (by simp [TransportWait.IsApp])

end Traced

/-! ### Slots -/

/-- The slots a request holds where it suspends: one inside the MCP app. -/
def TransportWait.slot : TransportWait → ℤ
  | .app scope => if scope.scopeType = "http" then 1 else 0
  | _ => 0

section Balanced

variable {scope : HttpScope} {ready : TransportWait → TransportState → Bool}

/-- A rejection holds nothing. -/
theorem rejection_balances (reason : String) (statusCode : ℕ) (rejection : TransportResponse) :
    (do auditTransportRejection reason statusCode; respond rejection : TransportAsync Unit).run.Balances
      ready TransportState.inFlight TransportWait.slot 0 := by
  intro state
  refine Balanced.asyncBind ?_
  show ∀ state, _
  intro later
  exact ⟨by simp [TransportWait.slot], fun answer _ _ => by simp [Cooperative.Balanced]⟩

/-- The slot is taken exactly when the request is admitted. -/
theorem tryAdmit_balanced (limits : TransportLimits) (state : TransportState) :
    Balanced ready TransportState.inFlight TransportWait.slot
      (fun admitted held => held = if admitted then 1 else 0) (tryAdmit limits) state 0 := by
  refine Balanced.bind (balanced_read.mpr fun later => ?_)
  split
  · exact rfl
  · exact Balanced.bind (balanced_write.mpr fun _ => by simp)

/-- **A request takes a slot when it is admitted and gives it back however the app ends.** -/
theorem stack_balances (app : StreamableHttpApp) (scope : HttpScope) :
    (app.stack.call scope).run.Balances ready TransportState.inFlight TransportWait.slot 0 := by
  intro state
  unfold HttpTransportAdmissionMiddleware.call
  by_cases http : scope.scopeType ≠ "http"
  · rw [if_pos http]
    show Balanced _ _ _ _ (app.probed scope).run state 0
    rw [probed_of_noProbe fun same => absurd same http]
    exact ⟨by simp [TransportWait.slot, http], fun answer later _ => rfl⟩
  rw [if_neg http]
  rw [not_not] at http
  cases validateEnvelope app.stack.limits scope with
  | some rejection => exact rejection_balances _ _ _ state
  | none =>
    dsimp only
    by_cases path : scope.path ∈ app.operationalPaths
    · rw [show app.stack.operationalPaths = app.operationalPaths from rfl, if_pos path,
        show app.stack.app = app.probed from rfl, probed_of_probe http path]
      refine Balanced.asyncBind (Balanced.bind (balanced_read.mpr fun _ later => ?_))
      exact ⟨rfl, fun answer _ _ => rfl⟩
    · rw [show app.stack.operationalPaths = app.operationalPaths from rfl, if_neg path]
      refine Balanced.asyncBind ⟨rfl, fun answer later _ => ?_⟩
      rcases answer with interrupt | _ | rejection
      · rfl
      · intro later
        dsimp only [id]
        by_cases method : scope.path = app.stack.mcpPath ∧ scope.method ≠ "POST"
        · rw [if_pos method]
          exact rejection_balances _ _ _ later
        rw [if_neg method]
        refine Balanced.asyncBind (Balanced.bind ?_)
        refine (tryAdmit_balanced _ later).mono fun admitted held slots _ => ?_
        subst slots
        cases admitted with
        | false => exact fun later => rejection_balances _ _ _ later
        | true =>
          intro later
          rw [show app.stack.app = app.probed from rfl, probed_of_noProbe fun _ => path]
          refine Balanced.bind ⟨by simp [TransportWait.slot, http], fun answer _ _ ending => ?_⟩
          exact Balanced.bind (balanced_write.mpr fun _ => by simp)
      · exact rejection_balances _ _ _

/-- Every task of the process starts and ends without a slot. -/
theorem system_balances (app : StreamableHttpApp) :
    app.system.Balances TransportState.inFlight TransportWait.slot := by
  rintro (scope | _ | _)
  · exact stack_balances app scope
  · exact fun state => Balanced.bind (balanced_write.mpr fun _ => by simp [Cooperative.Balanced])
  · exact fun state => Balanced.bind (balanced_write.mpr fun _ => by simp [Cooperative.Balanced])

end Balanced

/-! ### The bound -/

/-- The contract of the counter: it never exceeds its limit. -/
def slotContract (limits : TransportLimits) : Contract TransportState TransportWait where
  ready _ _ := true
  invariant state := state.inFlight ≤ limits.maxConcurrentRequests
  evolves _ _ := True
  refl _ := trivial
  trans _ _ := trivial

section Bound

variable {limits : TransportLimits} {pre : TransportState → Prop}

theorem call_bounded {want : TransportWait} {α : Type}
    (answer : TransportWait.Answer want → Except Interrupt α) :
    Async.Meets (slotContract limits) pre (fun _ _ => True) (TransportAsync.call answer) := by
  intro state kept _
  refine ⟨kept, fun outcome later _ keptLater _ => ?_⟩
  show Async.outcomePost _ _ (answer outcome) later
  cases answer outcome with
  | error interrupt => exact keptLater
  | ok result => exact ⟨keptLater, trivial⟩

/-- An update that leaves the counter alone, or gives a slot back. -/
theorem write_bounded {update : TransportState → TransportState}
    (lower : ∀ state, (update state).inFlight ≤ state.inFlight) :
    Async.Meets (slotContract limits) pre (fun _ _ => True)
      (Async.lift (.write update) : TransportAsync Unit) :=
  .access fun state kept _ => ⟨trivial, (lower state).trans kept, trivial⟩

theorem rejection_bounded (reason : String) (statusCode : ℕ) (rejection : TransportResponse) :
    Async.Meets (slotContract limits) pre (fun _ _ => True)
      (do auditTransportRejection reason statusCode; respond rejection : TransportAsync Unit) :=
  (write_bounded fun _ => le_refl _).bind fun _ => call_bounded _

/-- **The counter is raised only below its limit.** -/
theorem tryAdmit_bounded :
    Async.Meets (slotContract limits) pre (fun _ _ => True)
      (Async.lift (tryAdmit limits) : TransportAsync Bool) := by
  intro state kept _
  rw [Async.holds_lift, tryAdmit, Cooperative.holds_bind, holds_read]
  split
  · exact ⟨kept, trivial⟩
  · rename_i free
    exact ⟨trivial, by show state.inFlight + 1 ≤ _; omega, trivial⟩

theorem probed_bounded (app : StreamableHttpApp) (scope : HttpScope) :
    Async.Meets (slotContract limits) pre (fun _ _ => True) (app.probed scope) := by
  by_cases probe : scope.scopeType = "http" ∧ scope.path ∈ app.operationalPaths
  · rw [probed_of_probe probe.1 probe.2]
    refine Async.Meets.bindAny (.access fun state kept _ => ⟨trivial, kept, trivial⟩) fun state => ?_
    exact call_bounded _
  · rw [probed_of_noProbe fun http path => probe ⟨http, path⟩]
    exact call_bounded _

theorem stack_bounded (app : StreamableHttpApp) (scope : HttpScope) :
    Async.Meets (slotContract app.limits) (fun _ => True) (fun _ _ => True) (app.stack.call scope) := by
  unfold HttpTransportAdmissionMiddleware.call
  split
  · exact probed_bounded app scope
  split
  · exact rejection_bounded _ _ _
  split
  · exact probed_bounded app scope
  refine (call_bounded _).bind fun rejection => ?_
  split
  · exact rejection_bounded _ _ _
  split
  · exact rejection_bounded _ _ _
  refine tryAdmit_bounded.bind fun admitted => ?_
  split
  · exact rejection_bounded _ _ _
  · intro state kept _
    rw [Async.holds_ensuring]
    have released : ∀ later : TransportState, later.inFlight ≤ app.limits.maxConcurrentRequests →
        later.inFlight - 1 ≤ app.limits.maxConcurrentRequests := by
      intro later keptLater
      omega
    have inside := @probed_bounded app.limits (fun _ => True) app scope state kept trivial
    exact inside.mono (fun _ later holds => ⟨trivial, released later holds.1, trivial⟩)
      fun _ later keptLater => ⟨trivial, released later keptLater⟩

/-- Every task keeps the counter within its limit. -/
theorem system_bounded (app : StreamableHttpApp) :
    app.system.Meets (slotContract app.limits)
      fun _ outcome _ => ∀ result, outcome = .ok result → True := by
  refine System.meets_of_calls fun task => ?_
  cases task with
  | request scope => exact stack_bounded app scope
  | markReady => exact write_bounded fun _ => le_refl _
  | markNotReady => exact write_bounded fun _ => le_refl _

end Bound

/-! ### Runs -/

/-- The task is an HTTP request inside the MCP app. -/
def isInside (task : TransportTask × TransportProcess) : Bool :=
  match task.2 with
  | .wait (.app scope) _ => scope.scopeType == "http"
  | _ => false

/-- A process at the start. -/
def initialPool : TransportPool := ⟨{}, []⟩

/-- The request was or is being rejected. -/
def IsRejected (past : List TransportAnswered) (process : TransportProcess) : Prop :=
  (∃ rejection next, process = .wait (.respond rejection) next) ∨
    ∃ answered ∈ past, answered.1.IsRejection

/-- The request was or is inside the MCP app. -/
def HasReachedApp (past : List TransportAnswered) (process : TransportProcess) : Prop :=
  (∃ scope next, process = .wait (.app scope) next) ∨ ∃ answered ∈ past, answered.1.IsApp

/-- What a request did is in order: it reached the app as itself, and over HTTP past every check; a probe
never reached it; and whatever skipped the SDK's check is a probe or has a rejected envelope. -/
structure RequestGuarded (app : StreamableHttpApp) (scope : HttpScope) (past : List TransportAnswered)
    (process : TransportProcess) : Prop where
  same : ∀ reached next, process = .wait (.app reached) next → reached = scope
  reached : HasReachedApp past process → scope.scopeType = "http" → PassedChecks app scope past
  probe : IsProbe app scope → ¬ HasReachedApp past process
  checked : scope.scopeType = "http" → CheckedOrProbe app scope past ∨
    ∃ next, process = .wait (.validateRequest scope (scope.method == "POST")) next

/-- The counter is exact: it counts the requests inside the app, within its limit, and only a request
that enters or leaves the app moves it. -/
structure AdmissionExact (app : StreamableHttpApp) (pool : TransportPool) : Prop where
  counts : pool.shared.inFlight = pool.tasks.countP isInside
  nonneg : 0 ≤ pool.shared.inFlight
  bounded : pool.shared.inFlight ≤ app.limits.maxConcurrentRequests
  drained : (∀ task ∈ pool.tasks, ∃ outcome, task.2 = .done outcome) → pool.shared.inFlight = 0
  moves : ∀ action next, app.system.perform pool action = some next →
    next.shared.inFlight - pool.shared.inFlight =
      next.holdingAt TransportWait.slot (pool.subject action) -
        pool.holdingAt TransportWait.slot (pool.subject action)

section Runs

variable {app : StreamableHttpApp} {pool next last : TransportPool}

/-- Where the tasks of the process may suspend. -/
def TaskSuspends (app : StreamableHttpApp) :
    TransportTask → List TransportAnswered → TransportWait → Prop
  | .request scope => RequestSuspends app scope
  | _ => fun _ _ => False

/-- What the answers of a finished task show. -/
def TaskReturns (app : StreamableHttpApp) :
    TransportTask → List TransportAnswered → Except Interrupt Unit → Prop
  | .request scope => fun past _ => RequestReturns app scope past
  | _ => fun _ _ => True

theorem system_traced (app : StreamableHttpApp) :
    app.system.Traced (TaskSuspends app) (TaskReturns app) := by
  rintro (scope | _ | _)
  · exact stack_traced app scope
  · exact fun _ => trivial
  · exact fun _ => trivial

/-- A request at rest, by what it was answered so far. -/
theorem request_rests {actions : List TransportAction}
    (ran : app.system.run initialPool actions = some pool) {index : ℕ} {scope : HttpScope}
    {process : TransportProcess} (found : pool.tasks[index]? = some (.request scope, process)) :
    TracedAtRest (RequestSuspends app scope) (fun past _ => RequestReturns app scope past) process
      (app.system.answersTo index initialPool actions) :=
  run_traced_of_empty (system_traced app) ran found

/-- The slots are the requests inside the app. -/
theorem holding_eq_countP (pool : TransportPool) :
    pool.holding TransportWait.slot = pool.tasks.countP isInside := by
  unfold Pool.holding
  induction pool.tasks with
  | nil => rfl
  | cons task tasks ih =>
    rw [List.map_cons, List.sum_cons, List.countP_cons, ih, Nat.cast_add, add_comm]
    congr 1
    obtain ⟨request, process⟩ := task
    rcases process with outcome | ⟨update, next⟩ | ⟨want, next⟩
    · rfl
    · rfl
    · cases want <;> simp [isInside, TransportWait.slot]

/-- **In every run the counter is exact.** -/
theorem run_admission {actions : List TransportAction}
    (ran : app.system.run initialPool actions = some pool) : AdmissionExact app pool := by
  have empty : initialPool.Balances app.system.ready TransportState.inFlight TransportWait.slot := by
    intro task member
    cases member
  obtain ⟨balances, counts⟩ := run_balanced (system_balances app) ran empty rfl
  rw [holding_eq_countP] at counts
  have safe : initialPool.Safe (slotContract app.limits)
      fun _ outcome _ => ∀ result, outcome = .ok result → True :=
    ⟨by show (0 : ℤ) ≤ _; omega, by intro task member; cases member⟩
  refine ⟨counts, by omega, (run_safe (system_bounded app) ran safe).1.invariant, ?_, ?_⟩
  · intro finished
    rw [counts, List.countP_eq_zero.mpr]
    · rfl
    · intro task member
      obtain ⟨outcome, ended⟩ := finished task member
      simp [isInside, ended]
  · intro action next performed
    exact (perform_moves (system_balances app) balances performed).2.1

/-- A request at rest inside the app, or past it, passed every check. -/
theorem reached_checks {scope : HttpScope} {process : TransportProcess} {past : List TransportAnswered}
    (rests : TracedAtRest (RequestSuspends app scope) (fun past _ => RequestReturns app scope past)
      process past) (reached : HasReachedApp past process) (http : scope.scopeType = "http") :
    PassedChecks app scope past := by
  rcases process with outcome | ⟨update, next⟩ | ⟨want, next⟩
  · rcases reached with ⟨_, _, waits⟩ | ⟨answered, member, inside⟩
    · cases waits
    · exact (rests.reached answered member inside).2 http
  · exact rests.elim
  · obtain ⟨suspends, -⟩ := rests
    have outside : (∀ answered ∈ past, ¬ answered.1.IsApp) → ∃ inner, want = .app inner := by
      intro none
      rcases reached with ⟨inner, _, waits⟩ | ⟨answered, member, inside⟩
      · cases waits
        exact ⟨inner, rfl⟩
      · exact absurd inside (none answered member)
    cases want with
    | app inner => exact suspends.2.2 http
    | validateRequest validatedScope isPost =>
      obtain ⟨_, waits⟩ := outside (by simp [suspends.1])
      cases waits
    | respond rejection =>
      obtain ⟨_, waits⟩ := outside suspends.1
      cases waits
    | respondProbe response =>
      obtain ⟨_, waits⟩ := outside (by simp [suspends.1])
      cases waits

/-- **In every run each request is guarded.** -/
theorem run_guarded {actions : List TransportAction}
    (ran : app.system.run initialPool actions = some pool) {index : ℕ} {scope : HttpScope}
    {process : TransportProcess} (found : pool.tasks[index]? = some (.request scope, process)) :
    RequestGuarded app scope (app.system.answersTo index initialPool actions) process := by
  have rests := request_rests ran found
  refine ⟨?_, reached_checks rests, fun probe reached => ?_, fun http => ?_⟩
  · rintro inner next rfl
    exact TransportWait.app.inj rests.1.2.1
  · exact (reached_checks rests reached probe.http).noProbe probe.path
  · rcases process with outcome | ⟨update, next⟩ | ⟨want, next⟩
    · exact Or.inl (rests.checked http)
    · exact rests.elim
    · obtain ⟨suspends, -⟩ := rests
      cases want with
      | app inner => exact Or.inl (Or.inr (Or.inr ⟨.ok none, (suspends.2.2 http).transport⟩))
      | validateRequest validatedScope isPost =>
        obtain ⟨-, rfl, rfl⟩ := suspends
        exact Or.inr ⟨next, rfl⟩
      | respond rejection => exact Or.inl suspends.2
      | respondProbe response => exact Or.inl (Or.inr (Or.inl suspends.2))

/-- **A rejected request was never inside the app.** -/
theorem rejected_outside {scope : HttpScope} {process : TransportProcess} {past : List TransportAnswered}
    (rests : TracedAtRest (RequestSuspends app scope) (fun past _ => RequestReturns app scope past)
      process past) (rejected : IsRejected past process) : ¬ HasReachedApp past process := by
  have exclusive : (∃ answered ∈ past, answered.1.IsRejection) → ∀ answered ∈ past, ¬ answered.1.IsApp := by
    refine rests.past (fun past want suspends => ?_) fun past _ returns => returns.exclusive
    cases want with
    | app inner =>
      rintro ⟨answered, member, rejection⟩
      exact absurd rejection (suspends.1 answered member)
    | validateRequest validatedScope isPost => simp [suspends.1]
    | respond rejection => exact fun _ => suspends.1
    | respondProbe response => simp [suspends.1]
  rintro (⟨inner, next, rfl⟩ | ⟨answered, member, inside⟩)
  · rcases rejected with ⟨_, _, waits⟩ | ⟨answered, member, rejection⟩
    · cases waits
    · exact rests.1.1 answered member rejection
  · rcases rejected with ⟨_, _, rfl⟩ | past
    · exact rests.1.1 answered member inside
    · exact exclusive past answered member inside

/-- A request inside the app has reached it for good. -/
theorem reached_persists {actions : List TransportAction} (ran : app.system.run pool actions = some last)
    {index : ℕ} {request : TransportTask} {scope : HttpScope}
    {continuation : TransportWait.Answer (.app scope) → TransportProcess}
    (inside : pool.tasks[index]? = some (request, .wait (.app scope) continuation))
    {task : TransportTask} {process : TransportProcess}
    (found : last.tasks[index]? = some (task, process)) :
    HasReachedApp (app.system.answersTo index pool actions) process := by
  rcases run_suspended ran inside with still | ⟨answer, rest, answered⟩
  · obtain ⟨-, rfl⟩ := Prod.mk.inj (Option.some.inj (still.symm.trans found))
    exact Or.inl ⟨scope, continuation, rfl⟩
  · exact Or.inr ⟨⟨.app scope, answer⟩, by rw [answered]; exact List.mem_cons_self, trivial⟩

theorem HasReachedApp.mono {past later : List TransportAnswered} {process : TransportProcess}
    (reached : HasReachedApp past process) (grows : past ⊆ later) : HasReachedApp later process := by
  rcases reached with waits | ⟨answered, member, inside⟩
  · exact Or.inl waits
  · exact Or.inr ⟨answered, grows member, inside⟩

/-- A task with a slot is inside the app. -/
theorem inside_of_holdingAt {index : ℕ} (holds : pool.holdingAt TransportWait.slot index ≠ 0) :
    ∃ request scope continuation,
      pool.tasks[index]? = some (request, .wait (.app scope) continuation) := by
  unfold Pool.holdingAt at holds
  cases found : pool.tasks[index]? with
  | none => simp [found] at holds
  | some task =>
    obtain ⟨request, outcome | ⟨update, next⟩ | ⟨want, next⟩⟩ := task
    · simp [found] at holds
    · simp [found, Process.holding] at holds
    · cases want with
      | app scope => exact ⟨request, scope, next, rfl⟩
      | validateRequest scope isPost => simp [found, TransportWait.slot] at holds
      | respond rejection => simp [found, TransportWait.slot] at holds
      | respondProbe response => simp [found, TransportWait.slot] at holds

/-- **No step of a request that is rejected, then or later, moves the counter.** -/
theorem rejected_steps {before after : List TransportAction} {action : TransportAction}
    (ran : app.system.run initialPool before = some pool)
    (performed : app.system.perform pool action = some next)
    (ranOn : app.system.run next after = some last) {scope : HttpScope} {process : TransportProcess}
    (found : last.tasks[pool.subject action]? = some (.request scope, process))
    (rejected : IsRejected (app.system.answersTo (pool.subject action) initialPool
      (before ++ action :: after)) process) : next.shared.inFlight = pool.shared.inFlight := by
  have all : app.system.run initialPool (before ++ action :: after) = some last := by
    rw [run_append, ran]
    simp [System.run, performed, ranOn]
  have outside := rejected_outside (request_rests all found) rejected
  rw [answersTo_append ran] at outside
  have moved := (run_admission ran).moves action next performed
  have free : pool.holdingAt TransportWait.slot (pool.subject action) = 0 := by
    by_contra holds
    obtain ⟨request, inner, continuation, inside⟩ := inside_of_holdingAt holds
    have ranFrom : app.system.run pool (action :: after) = some last := by
      simp [System.run, performed, ranOn]
    exact outside ((reached_persists ranFrom inside found).mono (List.subset_append_right _ _))
  have freeAfter : next.holdingAt TransportWait.slot (pool.subject action) = 0 := by
    by_contra holds
    obtain ⟨request, inner, continuation, inside⟩ := inside_of_holdingAt holds
    refine outside ((reached_persists ranOn inside found).mono fun answered member => ?_)
    simp [System.answersTo, performed, member]
  omega

/-- **Admission accounting is exact and cannot be bypassed.** In every run the counter is the number of
requests inside the MCP app, within its limit and back at zero when all have finished; every request is
guarded; and no step of a request that is ever rejected moves the counter. -/
theorem admission_accounting (app : StreamableHttpApp) {before : List TransportAction}
    {pool : TransportPool} (ran : app.system.run initialPool before = some pool) :
    AdmissionExact app pool ∧
      (∀ index scope process, pool.tasks[index]? = some (.request scope, process) →
        RequestGuarded app scope (app.system.answersTo index initialPool before) process) ∧
      ∀ action next after last scope process, app.system.perform pool action = some next →
        app.system.run next after = some last →
        last.tasks[pool.subject action]? = some (.request scope, process) →
        IsRejected (app.system.answersTo (pool.subject action) initialPool
          (before ++ action :: after)) process →
        next.shared.inFlight = pool.shared.inFlight := by
  refine ⟨run_admission ran, fun index scope process found => run_guarded ran found, ?_⟩
  intro action next after last scope process performed ranOn found rejected
  exact rejected_steps ran performed ranOn found rejected

/-- Every suspension returns, and the SDK rejects nothing. -/
def returning : (want : TransportWait) → TransportWait.Answer want
  | .validateRequest _ _ => .ok none
  | .respond _ => .ok ()
  | .respondProbe _ => .ok ()
  | .app _ => .ok ()

/-- A POST on the MCP path. -/
def postMcp : HttpScope :=
  ⟨"http", "POST", mcpHttpPath, [(asciiBytes "Host", asciiBytes "mcp.example.org"),
    (asciiBytes "Content-Type", asciiBytes "application/json")]⟩

/-- One request is inside, a second waits for the SDK's check, and a probe is being answered. -/
def overlap : List TransportAction :=
  [.spawn (.request postMcp), .resume 0 returning, .spawn (.request postMcp),
    .spawn (.request ⟨"http", "GET", "/livez", []⟩)]

theorem admission_accounting_overlap :
    ∃ pool, (StreamableHttpApp.mk {} true).system.run initialPool overlap = some pool ∧
      AdmissionExact (.mk {} true) pool ∧ pool.shared.inFlight = 1 := by
  have ran : ((StreamableHttpApp.mk {} true).system.run initialPool overlap).any
      (fun pool => pool.shared.inFlight == 1) = true := by decide +kernel
  obtain ⟨pool, same, inside⟩ := (Option.any_eq_true _ _).mp ran
  exact ⟨pool, same, (admission_accounting _ same).1, beq_iff_eq.mp inside⟩

end Runs

end McpAuth
