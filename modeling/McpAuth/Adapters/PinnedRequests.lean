/-
**Every outbound OIDC request is pinned to a validated address.**

`Pinned` says what a request given to a child transport satisfies: it is a `GET` without credentials, its
URL is the original one with the first address of the answers that were validated as its host, `Host` and
SNI name the original host, and the child is the one under the original origin and no other.

`SoundTransports` is the invariant of the children: distinct origins have distinct children, and nobody
holds the lock while a task is suspended. `pinned_requests`: in every run of any number of calls, under any
schedule and any answers, the step that gives a request to a child has a `Pinned` one.
-/

import McpAuth.Adapters.PinnedTransport

namespace McpAuth

open PyText UrlSplit IpAddress PyNumbers Cooperative

/-! ### The children -/

/-- Distinct origins have distinct children, all of them made by the factory. -/
structure SoundChildren (state : PinnedState) : Prop where
  minted : ∀ entry ∈ state.transports, entry.2 < state.created
  children : (state.transports.map Prod.snd).Nodup
  origins : (state.transports.map Prod.fst).Nodup

/-- What holds whenever no task runs. -/
structure SoundTransports (state : PinnedState) : Prop extends SoundChildren state where
  free : state.lock.locked = false ∧ state.lock.waiters = []

theorem soundTransports_initial : SoundTransports {} :=
  ⟨⟨by simp, by simp, by simp⟩, rfl, rfl⟩

/-- The lock is no part of it. -/
theorem SoundChildren.setLock {state : PinnedState} (sound : SoundChildren state) (lock : AsyncLock) :
    SoundChildren (transportsLock.set lock state) := ⟨sound.minted, sound.children, sound.origins⟩

/-- A child has one origin. -/
theorem SoundChildren.child_injective {state : PinnedState} (sound : SoundChildren state)
    {origin other : Origin} {child : ℕ} (isChild : state.child origin = some child)
    (isOther : state.child other = some child) : other = origin := by
  obtain ⟨entry, found, rfl⟩ := Option.map_eq_some_iff.mp isChild
  obtain ⟨entry', found', same⟩ := Option.map_eq_some_iff.mp isOther
  obtain ⟨member, rfl⟩ := Multidict.mem_of_find found
  obtain ⟨member', rfl⟩ := Multidict.mem_of_find found'
  rw [List.inj_on_of_nodup_map sound.children member' member same]

@[simp] theorem child_mint (origin : Origin) (state : PinnedState) :
    (state.mint origin).child origin = some state.created := by
  have stored : Multidict.find Prod.fst origin
      (Multidict.put Prod.fst (origin, state.created) state.transports) = some (origin, state.created) :=
    Multidict.find_put_self (by rfl) _
  simp [PinnedState.child, PinnedState.mint, stored]

/-- **A new child keeps the children distinct.** -/
theorem SoundChildren.mint {state : PinnedState} (sound : SoundChildren state) {origin : Origin}
    (absent : state.child origin = none) : SoundChildren (state.mint origin) := by
  have noEntry : Multidict.find Prod.fst origin state.transports = none := Option.map_eq_none_iff.mp absent
  have appended : (state.mint origin).transports = state.transports ++ [(origin, state.created)] :=
    Multidict.put_of_absent noEntry
  refine ⟨fun entry member => ?_, ?_, ?_⟩
  · rw [appended] at member
    show entry.2 < state.created + 1
    rcases List.mem_append.mp member with old | new
    · have before := sound.minted entry old
      omega
    · rw [List.mem_singleton.mp new]
      omega
  · rw [appended, List.map_append, List.nodup_append]
    refine ⟨sound.children, by simp, fun child old other new => ?_⟩
    obtain ⟨entry, member, rfl⟩ := List.mem_map.mp old
    have before := sound.minted entry member
    simp only [List.map_cons, List.map_nil, List.mem_singleton] at new
    omega
  · rw [appended, List.map_append, List.nodup_append]
    refine ⟨sound.origins, by simp, fun name old other new => ?_⟩
    obtain ⟨entry, member, rfl⟩ := List.mem_map.mp old
    simp only [List.map_cons, List.map_nil, List.mem_singleton] at new
    rw [new]
    exact Multidict.find_eq_none.mp noEntry entry member

/-- The contract of the transport's tasks. -/
def pinnedContract : Contract PinnedState PinnedWait where
  ready := PinnedWait.ready
  invariant := SoundTransports
  evolves _ _ := True
  refl _ := trivial
  trans _ _ := trivial

/-! ### What a request to a child satisfies -/

section Spec

variable [UnicodeTables] [Httpx]

/-- The addresses behind an origin: the host itself, or the one answer of the resolver. -/
inductive Consulted (policy : OidcNetworkSecurityPolicy) (origin : Origin) :
    List (Answered PinnedWait PinnedWait.Answer) → List IPAddress → Prop
  | literal {address : IPAddress} (isLiteral : ipAddress origin.host = some address) :
    Consulted policy origin [] [address]
  | resolver {addresses : List IPAddress} (isName : ipAddress origin.host = none) :
    Consulted policy origin
      [⟨.resolver origin.host origin.port policy.dnsTimeoutSeconds, .ok addresses⟩] addresses

/-- The port that a `Host` header leaves out. -/
def standardPort (scheme : String) : ℕ := if scheme = "https" then 443 else 80

/-- `Host` of an origin. -/
def hostHeader (origin : Origin) : String :=
  (match ipAddress origin.host with
    | some (.v6 _ _) => "[" ++ origin.host ++ "]"
    | _ => origin.host) ++
  (if origin.port = standardPort origin.scheme then "" else ":" ++ toString origin.port)

/-- No header carries credentials. -/
def Uncredentialed (headers : HttpxHeaders) : Prop :=
  ∀ header ∈ headers, asciiLower header.1 ≠ "authorization" ∧ asciiLower header.1 ≠ "proxy-authorization"

/-- **A request that is pinned to the first of the validated addresses.** -/
structure PinnedTo (policy : OidcNetworkSecurityPolicy) (request : HttpxRequest)
    (past : List (Answered PinnedWait PinnedWait.Answer)) (child : ℕ) (sent : HttpxRequest)
    (state : PinnedState) (kind : RequestKind) (origin : Origin) (first : IPAddress)
    (others : List IPAddress) : Prop where
  requestMethod : request.method = "GET"
  sentMethod : sent.method = "GET"
  requestUncredentialed : Uncredentialed request.headers
  sentUncredentialed : Uncredentialed sent.headers
  classified : policy.requestKind (Httpx.text request.url) = .ok kind
  parsed : parseUrl (Httpx.text request.url) = .ok origin
  consulted : Consulted policy origin past (first :: others)
  validated : policy.selectTarget kind origin (first :: others) =
    .ok ⟨origin.scheme, origin.host, origin.port, first, kind⟩
  url : sent.url = { request.url with host := first.compressed }
  host : Multidict.under HttpxHeaders.key "host" sent.headers = [("Host", hostHeader origin)]
  sni : origin.scheme = "https" →
    Multidict.find Prod.fst "sni_hostname" sent.extensions = some ("sni_hostname", .text origin.host)
  owned : state.child origin = some child
  unshared : ∀ other, state.child other = some child → other = origin

/-- A request of a call that is pinned to some address. -/
def Pinned (policy : OidcNetworkSecurityPolicy) (call : PinnedCall)
    (past : List (Answered PinnedWait PinnedWait.Answer)) (child : ℕ) (sent : HttpxRequest)
    (state : PinnedState) : Prop :=
  ∃ request, call = .handle request ∧ ∃ kind origin first others,
    PinnedTo policy request past child sent state kind origin first others

/-- What holds where a call suspends: at a child its request is pinned, and nobody waits for the lock. -/
def PinnedVisit (policy : OidcNetworkSecurityPolicy) (call : PinnedCall)
    (past : List (Answered PinnedWait PinnedWait.Answer)) : PinnedWait → PinnedState → Prop
  | .child child sent, state => Pinned policy call past child sent state
  | .turn _, _ => False
  | _, _ => True

end Spec

/-! ### The request that is sent -/

/-- `_render_host_header` where it does not raise. -/
theorem renderHostHeader_ok {origin : Origin} {rendered : String}
    (renders : renderHostHeader origin.host origin.port origin.scheme = .ok rendered) :
    rendered = hostHeader origin := by
  obtain ⟨standard, isStandard, built⟩ := Fallible.bind_eq_ok.mp renders
  have same : standard = standardPort origin.scheme := by
    unfold defaultPort at isStandard
    by_cases secure : origin.scheme = "https"
    · rw [if_pos secure, Except.ok.injEq] at isStandard
      rw [standardPort, if_pos secure, isStandard]
    · rw [if_neg secure] at isStandard
      split at isStandard
      · rw [Except.ok.injEq] at isStandard
        rw [standardPort, if_neg secure, isStandard]
      · cases isStandard
  rw [Except.ok.injEq] at built
  rw [← built, same, hostHeader]
  by_cases isStandard : origin.port = standardPort origin.scheme
  · rw [if_pos isStandard]
    exact (if_neg (not_not.mpr isStandard)).trans String.append_empty.symm
  · rw [if_neg isStandard]
    exact (if_pos isStandard).trans (String.append_assoc ..)

theorem Uncredentialed.set {headers : HttpxHeaders} (clean : Uncredentialed headers) {name value : String}
    (other : asciiLower name ≠ "authorization" ∧ asciiLower name ≠ "proxy-authorization") :
    Uncredentialed (headers.set name value) := by
  intro header member
  rcases Multidict.mem_put member with rfl | kept
  · exact other
  · exact clean header kept

/-- What the credential check lets pass. -/
theorem uncredentialed_of_any {headers : HttpxHeaders}
    (passes : ¬ ["Authorization", "Proxy-Authorization"].any headers.contains = true) :
    Uncredentialed headers := by
  intro header member
  have lowered : asciiLower "Authorization" = "authorization" ∧
      asciiLower "Proxy-Authorization" = "proxy-authorization" := by decide
  simp only [List.any_cons, List.any_nil, Bool.or_false, Bool.or_eq_true, not_or,
    HttpxHeaders.contains, List.any_eq_true, not_exists, not_and, beq_iff_eq, HttpxHeaders.key] at passes
  exact ⟨lowered.1 ▸ passes.1 header member, lowered.2 ▸ passes.2 header member⟩

/-- **What the request for the child is**, for a target that was selected for an origin. -/
theorem networkRequest_pinned {transport : PinnedOidcAsyncTransport} {request sent : HttpxRequest}
    {kind : RequestKind} {origin : Origin} {first : IPAddress}
    (clean : Uncredentialed request.headers)
    (built : transport.networkRequest request ⟨origin.scheme, origin.host, origin.port, first, kind⟩ = .ok sent) :
    sent.method = request.method ∧ Uncredentialed sent.headers ∧
      sent.url = { request.url with host := first.compressed } ∧
      Multidict.under HttpxHeaders.key "host" sent.headers = [("Host", hostHeader origin)] ∧
      (origin.scheme = "https" →
        Multidict.find Prod.fst "sni_hostname" sent.extensions = some ("sni_hostname", .text origin.host)) := by
  obtain ⟨rendered, renders, built⟩ := Fallible.bind_eq_ok.mp built
  obtain rfl := renderHostHeader_ok renders
  rw [Except.ok.injEq] at built
  subst built
  refine ⟨rfl, ?_, rfl, ?_, fun secure => ?_⟩
  · exact (clean.set (by decide)).set (by decide)
  · have isKey : HttpxHeaders.key ("Host", hostHeader origin) = "host" :=
      show asciiLower "Host" = "host" by decide
    have otherKey : HttpxHeaders.key ("Accept-Encoding", "identity") ≠ "host" := by decide
    rw [HttpxHeaders.set, HttpxHeaders.set, Multidict.under_put_other otherKey]
    exact Multidict.under_put_self isKey _
  · dsimp only
    rw [if_pos secure]
    exact Multidict.find_put_self (by rfl) _

/-! ### What a call visits -/

section Calls

variable {transport : PinnedOidcAsyncTransport} {call : PinnedCall}
  {past : List (Answered PinnedWait PinnedWait.Answer)} {state : PinnedState}
  {visits : List (Answered PinnedWait PinnedWait.Answer) → PinnedWait → PinnedState → Prop}

/-- What a part of a call visits and returns. -/
abbrev PinnedAsync.Visits {α : Type}
    (visits : List (Answered PinnedWait PinnedWait.Answer) → PinnedWait → PinnedState → Prop)
    (returns : List (Answered PinnedWait PinnedWait.Answer) → Except PinnedError α → PinnedState → Prop)
    (body : PinnedAsync α) (past : List (Answered PinnedWait PinnedWait.Answer)) (state : PinnedState) : Prop :=
  Cooperative.Visits pinnedContract visits returns body.run past state

/-- No child answered. -/
def NoChild (past : List (Answered PinnedWait PinnedWait.Answer)) : Prop :=
  ∀ child sent answer, (⟨.child child sent, answer⟩ : Answered PinnedWait PinnedWait.Answer) ∉ past

theorem noChild_nil : NoChild [] := fun _ _ _ => List.not_mem_nil

theorem noChild_resolver (host : String) (port : ℕ) (timeout : ℚ)
    (answer : Except PinnedError (List IPAddress)) : NoChild [⟨.resolver host port timeout, answer⟩] := by
  intro child sent response member
  cases List.mem_singleton.mp member

/-- A step of the policy neither suspends nor changes the state. -/
theorem visits_check {α : Type}
    {returns : List (Answered PinnedWait PinnedWait.Answer) → Except PinnedError α → PinnedState → Prop}
    {outcome : Except OidcNetworkSecurityError α}
    (raised : ∀ error, outcome = .error error → returns past (.error (.security error)) state)
    (passed : ∀ result, outcome = .ok result → returns past (.ok result) state) :
    (PinnedAsync.check outcome).Visits visits returns past state := by
  cases outcome with
  | error error => exact raised error rfl
  | ok result => exact passed result rfl

/-- A body that keeps the transports sound, whatever it returns. -/
abbrev PinnedAsync.KeepsSound {α : Type}
    (visits : List (Answered PinnedWait PinnedWait.Answer) → PinnedWait → PinnedState → Prop)
    (body : PinnedAsync α) (past : List (Answered PinnedWait PinnedWait.Answer)) (state : PinnedState) : Prop :=
  body.Visits visits (fun _ _ state => SoundTransports state) past state

theorem visits_refuse {α : Type} (sound : SoundTransports state) {response : HttpxResponse} (message : String)
    (closes : visits past (.closeResponse response) state) :
    (PinnedAsync.refuse response message : PinnedAsync α).KeepsSound visits past state := by
  refine visits_asyncBind.mpr ⟨sound, closes, fun answer later _ soundLater _ => ?_⟩
  cases answer with
  | error error => exact soundLater
  | ok _ => exact soundLater

theorem visits_closeAll (sound : SoundTransports state) (children : List (Origin × ℕ))
    (closes : ∀ past child state, visits past (.closeChild child) state) :
    (PinnedOidcAsyncTransport.closeAll children).KeepsSound visits past state := by
  induction children generalizing past state with
  | nil => exact sound
  | cons entry later ih =>
    refine visits_asyncBind.mpr ⟨sound, closes _ _ _, fun answer after _ soundAfter _ => ?_⟩
    cases answer with
    | error error => exact soundAfter
    | ok _ => exact ih soundAfter

/-- `aclose` leaves no child behind. -/
theorem visits_aclose (sound : SoundTransports state)
    (closes : ∀ past child state, visits past (.closeChild child) state) :
    PinnedOidcAsyncTransport.aclose.KeepsSound visits past state := by
  have cleared : SoundTransports { state with transports := [] } := ⟨⟨by simp, by simp, by simp⟩, sound.free⟩
  exact visits_asyncBind.mpr ⟨trivial, visits_closeAll cleared state.transports closes⟩

variable [UnicodeTables]

/-- The targets that `resolve` returns, with the answers it got. -/
structure Resolved (transport : PinnedOidcAsyncTransport) (url : String)
    (past : List (Answered PinnedWait PinnedWait.Answer)) (target : ResolvedTarget) (kind : RequestKind)
    (origin : Origin) (first : IPAddress) (others : List IPAddress) : Prop where
  classified : transport.policy.requestKind url = .ok kind
  parsed : parseUrl url = .ok origin
  consulted : Consulted transport.policy origin past (first :: others)
  validated : transport.policy.selectTarget kind origin (first :: others) = .ok target
  target_eq : target = ⟨origin.scheme, origin.host, origin.port, first, kind⟩

/-- What `resolve` leaves: no child answered, and a returned target was resolved. -/
structure ResolveEnds (transport : PinnedOidcAsyncTransport) (url : String)
    (past : List (Answered PinnedWait PinnedWait.Answer)) (outcome : Except PinnedError ResolvedTarget)
    (state : PinnedState) : Prop where
  sound : SoundTransports state
  noChild : NoChild past
  resolved : ∀ target, outcome = .ok target → ∃ kind origin first others,
    Resolved transport url past target kind origin first others

/-- **`resolve` asks the resolver at most once**, and validates every address it answers. -/
theorem visits_resolve (sound : SoundTransports state) (url : String)
    (asks : ∀ host port timeout, visits [] (.resolver host port timeout) state) :
    (transport.resolve url).Visits visits (ResolveEnds transport url) [] state := by
  refine visits_asyncBind.mpr (visits_check (fun _ _ => ⟨sound, noChild_nil, by simp⟩) fun kind classified => ?_)
  refine visits_asyncBind.mpr (visits_check (fun _ _ => ⟨sound, noChild_nil, by simp⟩) fun origin parsed => ?_)
  have selects : ∀ (past : List (Answered PinnedWait PinnedWait.Answer)) (addresses : List IPAddress)
      (later : PinnedState), Consulted transport.policy origin past addresses → NoChild past →
      SoundTransports later → (PinnedAsync.check (transport.policy.selectTarget kind origin addresses)).Visits
        visits (ResolveEnds transport url) past later := by
    intro past addresses later consulted noChild soundLater
    refine visits_check (fun _ _ => ⟨soundLater, noChild, by simp⟩) fun target validated =>
      ⟨soundLater, noChild, ?_⟩
    rintro other same
    cases same
    obtain ⟨first, others, rfl, isTarget, -⟩ := selectTarget_ok_iff.mp validated
    exact ⟨kind, origin, first, others, classified, parsed, consulted, validated, isTarget⟩
  refine visits_asyncBind.mpr ?_
  unfold PinnedOidcAsyncTransport.addressesFor
  cases host : ipAddress origin.host with
  | some literal => exact selects [] [literal] state (.literal host) noChild_nil sound
  | none =>
    refine ⟨sound, asks _ _ _, fun answer later _ soundLater _ => ?_⟩
    cases answer with
    | error error => exact ⟨soundLater, noChild_resolver _ _ _ _, by simp⟩
    | ok addresses => exact selects _ addresses later (.resolver host) (noChild_resolver _ _ _ _) soundLater

/-- **`_transport_for` returns the child under the origin of the target**, and never waits. -/
theorem visits_transportFor (sound : SoundTransports state) (target : ResolvedTarget) :
    (transport.transportFor target).Visits visits (fun later outcome state => later = past ∧
      SoundTransports state ∧ ∀ child, outcome = .ok child → ∃ origin,
        originOf target.scheme target.host target.port = .ok origin ∧ state.child origin = some child)
      past state := by
  refine visits_asyncBind.mpr (visits_check (fun error _ => ⟨rfl, sound, by simp⟩) fun origin isOrigin => ?_)
  refine visits_asyncBind.mpr ⟨trivial, ?_⟩
  dsimp only [id]
  cases existing : state.child origin with
  | some child =>
    refine ⟨rfl, sound, fun other same => ?_⟩
    cases same
    exact ⟨origin, isOrigin, existing⟩
  | none =>
    have sets : ∀ lock state, pinnedContract.evolves state (transportsLock.set lock state) :=
      fun _ _ => trivial
    have free : (transportsLock.get state).locked = false ∧ (transportsLock.get state).waiters = [] :=
      sound.free
    refine visits_locked sets free ?_
    refine visits_asyncBind.mpr ⟨trivial, ?_⟩
    have released : ∀ later : PinnedState, SoundChildren later → later.lock.waiters = [] →
        SoundTransports (transportsLock.set { transportsLock.get later with locked := false } later) :=
      fun later children noWaiter => ⟨children.setLock _, rfl, noWaiter⟩
    have unknown : ∀ lock, PinnedState.child (transportsLock.set lock state) origin = none := fun _ => existing
    simp only [id, Process.bind, Function.comp_apply, Cooperative.Visits]
    rw [unknown]
    dsimp only
    split
    · exact ⟨rfl, released _ (sound.setLock _) sound.free.2, by simp⟩
    · refine ⟨trivial, rfl, released _ ((sound.setLock _).mint existing) sound.free.2, fun child same => ?_⟩
      cases same
      exact ⟨origin, isOrigin, child_mint origin state⟩

/-- What follows a child's response only closes it. -/
theorem visits_receive (sound : SoundTransports state) (url : String) (request : HttpxRequest)
    {response : HttpxResponse} (closes : visits past (.closeResponse response) state) :
    (transport.receive url request response).KeepsSound visits past state := by
  unfold PinnedOidcAsyncTransport.receive
  split
  · exact visits_refuse sound _ closes
  · generalize strip (lower ((response.headers.get "Content-Encoding").getD "identity")) = contentEncoding
    by_cases compressed : contentEncoding ≠ "" ∧ contentEncoding ≠ "identity"
    · rw [if_pos compressed]
      exact visits_refuse sound _ closes
    · rw [if_neg compressed]
      refine visits_asyncBind.mpr (visits_check (fun _ _ => sound) fun limit _ => ?_)
      dsimp only
      split
      · exact sound
      · split
        · exact visits_refuse sound _ closes
        · split
          · exact visits_refuse sound _ closes
          · exact sound

variable [Httpx]

/-- **How a request goes**: it raises before a child answered, or it gives a child a pinned request, and
what follows is `receive`. -/
theorem visits_handleAsyncRequest {request : HttpxRequest}
    {returns : List (Answered PinnedWait PinnedWait.Answer) → Except PinnedError HttpxResponse → PinnedState → Prop}
    (sound : SoundTransports state)
    (asks : ∀ host port timeout, visits [] (.resolver host port timeout) state)
    (raises : ∀ past error state, SoundTransports state → NoChild past → returns past (.error error) state)
    (gives : ∀ past child sent state kind origin first others,
      PinnedTo transport.policy request past child sent state kind origin first others →
      visits past (.child child sent) state)
    (fails : ∀ past child sent error state, SoundTransports state → NoChild past →
      returns (past ++ [⟨.child child sent, .error error⟩]) (.error error) state)
    (receives : ∀ past child sent response state, SoundTransports state → NoChild past →
      (transport.receive (Httpx.text request.url) request response).Visits visits returns
        (past ++ [⟨.child child sent, .ok response⟩]) state) :
    (transport.handleAsyncRequest request).Visits visits returns [] state := by
  unfold PinnedOidcAsyncTransport.handleAsyncRequest
  by_cases isGet : request.method = "GET"
  swap
  · rw [if_pos isGet]
    exact raises _ _ _ sound noChild_nil
  rw [if_neg (not_not.mpr isGet)]
  by_cases carries : ["Authorization", "Proxy-Authorization"].any request.headers.contains = true
  · rw [if_pos carries]
    have audited : ∀ audits, SoundTransports { state with audits := audits } := fun audits =>
      ⟨⟨sound.minted, sound.children, sound.origins⟩, sound.free⟩
    exact ⟨trivial, raises _ _ _ (audited _) noChild_nil⟩
  rw [if_neg carries]
  have clean := uncredentialed_of_any carries
  refine visits_asyncBind.mpr ((visits_resolve sound _ asks).mono ?_)
  rintro past (error | target) later ⟨soundLater, noChild, resolved⟩
  · exact raises _ _ _ soundLater noChild
  obtain ⟨kind, origin, first, others, resolved⟩ := resolved target rfl
  refine visits_asyncBind.mpr ((visits_transportFor soundLater target).mono ?_)
  rintro past' (error | child) later' ⟨rfl, soundLater', found⟩
  · exact raises _ _ _ soundLater' noChild
  obtain ⟨key, isKey, isChild⟩ := found child rfl
  refine visits_asyncBind.mpr (visits_check (fun _ _ => raises _ _ _ soundLater' noChild) fun sent built => ?_)
  obtain rfl := resolved.target_eq
  obtain rfl : key = origin := originOf_parsed resolved.parsed isKey
  obtain ⟨sameMethod, sentClean, url, host, sni⟩ := networkRequest_pinned clean built
  have pinned : PinnedTo transport.policy request past' child sent later' kind key first others :=
    { requestMethod := isGet
      sentMethod := sameMethod.trans isGet
      requestUncredentialed := clean
      sentUncredentialed := sentClean
      classified := resolved.classified
      parsed := resolved.parsed
      consulted := resolved.consulted
      validated := resolved.validated
      url := url
      host := host
      sni := sni
      owned := isChild
      unshared := fun other => soundLater'.child_injective isChild }
  refine visits_asyncBind.mpr ⟨soundLater', gives _ _ _ _ _ _ _ _ pinned, fun answer last _ soundLast _ => ?_⟩
  cases answer with
  | error error => exact fails _ _ _ _ _ soundLast noChild
  | ok response => exact receives _ _ _ _ _ soundLast noChild

/-- **Every call visits children only with pinned requests.** -/
theorem visits_call (sound : SoundTransports state) (call : PinnedCall) :
    (transport.call call).KeepsSound (PinnedVisit transport.policy call) [] state := by
  cases call with
  | handle request =>
    refine visits_asyncBind.mpr (visits_handleAsyncRequest sound (fun _ _ _ => trivial) ?_ ?_ ?_ ?_)
    · intro past error later soundLater noChild
      exact soundLater
    · intro past child sent later kind origin first others pinned
      exact ⟨request, rfl, kind, origin, first, others, pinned⟩
    · intro past child sent error later soundLater noChild
      exact soundLater
    · intro past child sent response later soundLater noChild
      refine (visits_receive soundLater _ request trivial).mono ?_
      rintro past (error | received) last soundLast
      · exact soundLast
      · exact soundLast
  | close =>
    refine visits_asyncBind.mpr ((visits_aclose sound fun _ _ _ => trivial).mono ?_)
    rintro past (error | _) later soundLater
    · exact soundLater
    · exact soundLater

theorem pinnedSystem_visits (transport : PinnedOidcAsyncTransport) :
    (pinnedSystem transport).Visits pinnedContract (PinnedVisit transport.policy) fun _ _ _ _ => True := by
  refine ⟨rfl, fun call state sound => ?_⟩
  exact (visits_call sound call).mono fun _ _ _ soundLater => ⟨soundLater, trivial⟩

end Calls

/-- **Every request that a child is given is pinned.** In any run of calls of one transport, whatever the
resolver and the children answer, the step that gives a request to a child gives it one that is pinned to
the first of the validated addresses, and the child is the one under the original origin. -/
theorem pinned_requests [UnicodeTables] [Httpx] (transport : PinnedOidcAsyncTransport)
    {actions : List PinnedAction} {pool next : PinnedPool}
    (ran : (pinnedSystem transport).run ⟨{}, []⟩ actions = some pool) {action : PinnedAction}
    (performed : (pinnedSystem transport).perform pool action = some next) {call : PinnedCall} {child : ℕ}
    {sent : HttpxRequest} {continuation : PinnedWait.Answer (.child child sent) → PinnedProcess}
    (given : next.tasks[pool.subject action]? = some (call, .wait (.child child sent) continuation)) :
    Pinned transport.policy call
      ((pinnedSystem transport).answersTo (pool.subject action) ⟨{}, []⟩ (actions ++ [action]))
      child sent next.shared :=
  (run_visits (pinnedSystem_visits transport) soundTransports_initial ran performed given).2

/-! ### A discovery request -/

/-- httpx on URLs of a scheme, a host and a path. -/
@[reducible] def plainHttpx : Httpx where
  url text :=
    let scheme := before ':' text.toList
    let rest := (after ':' text.toList).drop 2
    { scheme := asciiLower (String.ofList scheme)
      host := asciiLower (String.ofList (before '/' rest))
      path := String.ofList (rest.dropWhile (· ≠ '/')) }
  text url := url.scheme ++ "://" ++ url.host ++ url.path

/-- The request of the discovery document. -/
def discoveryRequest : HttpxRequest where
  method := "GET"
  url :=
    { scheme := "https"
      host := "issuer.example"
      path := "/.well-known/openid-configuration" }
  headers := [("host", "issuer.example"), ("accept", "*/*")]
  stream := ⟨[], .exhausted⟩
  extensions := []

/-- The request that its child gets. -/
def discoverySent : HttpxRequest where
  method := "GET"
  url :=
    { scheme := "https"
      host := "93.184.216.34"
      path := "/.well-known/openid-configuration" }
  headers := [("Host", "issuer.example"), ("accept", "*/*"), ("Accept-Encoding", "identity")]
  stream := ⟨[], .exhausted⟩
  extensions := [("timeout", .timeout 5 5 5 5), ("sni_hostname", .text "issuer.example")]

/-- The address of the issuer. -/
def issuerAddress : IPAddress := .v4 ⟨0x5DB8D822, by decide⟩

/-- The resolver answers with one address. -/
def oneAddress : (want : PinnedWait) → PinnedWait.Answer want
  | .resolver _ _ _ => .ok [issuerAddress]
  | .turn _ => ()
  | .child _ _ => .error (.outside "ConnectError")
  | .closeResponse _ => .ok ()
  | .closeChild _ => .ok ()

/-- The only task of the pool waits for the child that was given the discovery request. -/
def PinnedPool.sendsDiscovery (pool : PinnedPool) : Bool :=
  match pool.tasks with
  | [(.handle request, .wait (.child child sent) _)] =>
    decide (request = discoveryRequest ∧ child = 0 ∧ sent = discoverySent)
  | _ => false

theorem pinned_requests_discovery :
    let _ := asciiTables
    let _ := plainHttpx
    ∃ past state, Pinned issuerPolicy (.handle discoveryRequest) past 0 discoverySent state := by
  intro _ _
  let system := pinnedSystem ⟨issuerPolicy, 8⟩
  have reached : (system.run ⟨{}, []⟩ ([.spawn (.handle discoveryRequest)] ++ [.resume 0 oneAddress])).any
      PinnedPool.sendsDiscovery = true := by
    decide +kernel
  obtain ⟨next, ran, shape⟩ := (Option.any_eq_true _ _).mp reached
  rw [run_append] at ran
  obtain ⟨pool, ranPool, resumed⟩ := Option.bind_eq_some_iff.mp ran
  obtain ⟨last, performed, same⟩ := Option.bind_eq_some_iff.mp resumed
  cases same
  unfold PinnedPool.sendsDiscovery at shape
  split at shape
  · rename_i request child sent continuation found
    obtain ⟨rfl, rfl, rfl⟩ := of_decide_eq_true shape
    exact ⟨_, _, pinned_requests ⟨issuerPolicy, 8⟩ ranPool performed (by rw [found]; rfl)⟩
  · cases shape

end McpAuth
