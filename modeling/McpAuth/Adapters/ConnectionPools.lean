/-
**The connection pools of the outbound transport.**

Any number of `handle_async_request` calls run at once, suspended at the resolver, in a child or while a response is
closed; nothing is closed as a whole. `_transport_for` makes a child for an origin that has none, below the budget.

`SoundPools` is the invariant of these runs: the children are numbered in the order in which the factory made them, one
for each origin, and no more than the budget. What a step can do to the pools is to put a new one behind the others, so
that an origin keeps its child. `pools_bounded` puts it together for every run.
-/

import McpAuth.Adapters.PinnedRequests

namespace McpAuth

open PyText UrlSplit IpAddress Cooperative

/-! ### The transport and its calls -/

/-- `__init__`: the text of its `ValueError`, or the transport. -/
def PinnedOidcAsyncTransport.init (policy : OidcNetworkSecurityPolicy) (maxHosts : ℤ) :
    Except String PinnedOidcAsyncTransport :=
  if maxHosts ≤ 0 then .error "max_hosts must be positive" else .ok ⟨policy, maxHosts⟩

theorem init_transport_ok {policy : OidcNetworkSecurityPolicy} {maxHosts : ℤ} {transport : PinnedOidcAsyncTransport}
    (made : PinnedOidcAsyncTransport.init policy maxHosts = .ok transport) :
    0 < maxHosts ∧ transport = ⟨policy, maxHosts⟩ := by
  unfold PinnedOidcAsyncTransport.init at made
  split at made
  · cases made
  · rename_i positive
    cases made
    exact ⟨not_le.mp positive, rfl⟩

abbrev RequestProcess : Type := Process PinnedState PinnedWait PinnedWait.Answer (Except PinnedError HttpxResponse)

abbrev RequestPool : Type :=
  Pool PinnedState PinnedWait PinnedWait.Answer HttpxRequest (Except PinnedError HttpxResponse)

abbrev RequestAction : Type := Action PinnedWait PinnedWait.Answer HttpxRequest

/-- The requests of one transport as tasks over its state. -/
def requestSystem [UnicodeTables] [Httpx] (transport : PinnedOidcAsyncTransport) :
    System PinnedState PinnedWait PinnedWait.Answer HttpxRequest (Except PinnedError HttpxResponse) where
  program request := (transport.handleAsyncRequest request).run
  ready := PinnedWait.ready

/-! ### Sound pools -/

/-- **The pools under a budget**: one for each origin, numbered as the factory made them. -/
structure SoundPools (maxHosts : ℤ) (state : PinnedState) : Prop where
  origins : (state.transports.map Prod.fst).Nodup
  numbered : state.transports.map Prod.snd = List.range state.created
  bounded : (state.created : ℤ) ≤ maxHosts

theorem SoundPools.length_eq {maxHosts : ℤ} {state : PinnedState} (sound : SoundPools maxHosts state) :
    state.transports.length = state.created := by
  have lengths := congrArg List.length sound.numbered
  rwa [List.length_map, List.length_range] at lengths

theorem soundPools_initial {maxHosts : ℤ} (positive : 0 < maxHosts) : SoundPools maxHosts {} :=
  ⟨List.nodup_nil, rfl, positive.le⟩

/-- What is no part of the pools may change. -/
theorem SoundPools.congr {maxHosts : ℤ} {state later : PinnedState} (sound : SoundPools maxHosts state)
    (transports : later.transports = state.transports) (created : later.created = state.created) :
    SoundPools maxHosts later := by
  refine ⟨?_, ?_, ?_⟩
  · rw [transports]
    exact sound.origins
  · rw [transports, created]
    exact sound.numbered
  · rw [created]
    exact sound.bounded

theorem transports_mint {state : PinnedState} {origin : Origin} (absent : state.child origin = none) :
    (state.mint origin).transports = state.transports ++ [(origin, state.created)] :=
  Multidict.put_of_absent (Option.map_eq_none_iff.mp absent)

/-- **A new pool below the budget keeps the pools sound.** -/
theorem SoundPools.mint {maxHosts : ℤ} {state : PinnedState} (sound : SoundPools maxHosts state) {origin : Origin}
    (absent : state.child origin = none) (room : (state.transports.length : ℤ) < maxHosts) :
    SoundPools maxHosts (state.mint origin) := by
  have created : (state.mint origin).created = state.created + 1 := rfl
  have noEntry : origin ∉ state.transports.map Prod.fst := by
    intro member
    obtain ⟨entry, inside, same⟩ := List.mem_map.mp member
    exact Multidict.find_eq_none.mp (Option.map_eq_none_iff.mp absent) entry inside same
  refine ⟨?_, ?_, ?_⟩
  · rw [transports_mint absent, List.map_append, List.map_singleton, ← List.concat_eq_append]
    exact sound.origins.concat noEntry
  · rw [transports_mint absent, List.map_append, List.map_singleton, sound.numbered, created, List.range_succ]
  · rw [created, ← sound.length_eq]
    push_cast
    omega

/-- An origin keeps its child as the pools grow. -/
theorem child_of_kept {state later : PinnedState} (kept : state.transports <+: later.transports) {origin : Origin}
    {child : ℕ} (known : state.child origin = some child) : later.child origin = some child := by
  obtain ⟨added, grown⟩ := kept
  obtain ⟨entry, found, rfl⟩ := Option.map_eq_some_iff.mp known
  have foundLater : Multidict.find Prod.fst origin later.transports = some entry := by
    rw [Multidict.find, Multidict.under, ← grown, List.filter_append, List.head?_append]
    rw [Multidict.find, Multidict.under] at found
    rw [found]
    rfl
  rw [PinnedState.child, foundLater]
  rfl

/-- The contract of the requests: pools are only added. -/
def poolContract (maxHosts : ℤ) : Contract PinnedState PinnedWait where
  ready := PinnedWait.ready
  invariant := SoundPools maxHosts
  evolves state later := state.transports <+: later.transports
  refl _ := List.prefix_rfl
  trans first second := first.trans second

/-! ### What a request does to the pools -/

section Requests

variable {transport : PinnedOidcAsyncTransport} {pre : PinnedState → Prop}

/-- A body that keeps the pools sound and only adds to them. -/
abbrev PinnedAsync.KeepsPools {α : Type} (maxHosts : ℤ) (pre : PinnedState → Prop) (body : PinnedAsync α) : Prop :=
  Async.Meets (poolContract maxHosts) pre (fun _ _ => True) body

theorem check_keepsPools {α : Type} {maxHosts : ℤ} (outcome : Except OidcNetworkSecurityError α) :
    (PinnedAsync.check outcome).KeepsPools maxHosts pre :=
  .ofExcept fun _ _ _ _ _ => trivial

theorem call_keepsPools {α : Type} {maxHosts : ℤ} (want : PinnedWait)
    (answer : PinnedWait.Answer want → Except PinnedError α) :
    (PinnedAsync.call want answer).KeepsPools maxHosts pre := by
  intro state kept _
  refine ⟨kept, fun outcome later _ keptLater _ => ?_⟩
  show Async.outcomePost _ _ (answer outcome) later
  cases answer outcome with
  | error error => exact keptLater
  | ok result => exact ⟨keptLater, trivial⟩

theorem refuse_keepsPools {α : Type} {maxHosts : ℤ} (response : HttpxResponse) (message : String) :
    (PinnedAsync.refuse response message : PinnedAsync α).KeepsPools maxHosts pre :=
  Async.Meets.bindAny (call_keepsPools _ _) fun _ => .ofExcept fun _ same => nomatch same

variable [UnicodeTables]

theorem resolve_keepsPools {maxHosts : ℤ} (url : String) : (transport.resolve url).KeepsPools maxHosts pre := by
  refine Async.Meets.bindAny (check_keepsPools _) fun kind => ?_
  refine Async.Meets.bindAny (check_keepsPools _) fun origin => ?_
  refine Async.Meets.bindAny ?_ fun addresses => check_keepsPools _
  unfold PinnedOidcAsyncTransport.addressesFor
  split
  · exact .ofExcept fun _ _ _ _ _ => trivial
  · exact call_keepsPools _ _

/-- **`_transport_for` adds at most one pool**, for an origin without one and below the budget. -/
theorem transportFor_keepsPools (target : ResolvedTarget) :
    (transport.transportFor target).KeepsPools transport.maxHosts pre := by
  refine Async.Meets.bindAny (check_keepsPools _) fun key => ?_
  refine Async.Meets.bindAny (.access fun state kept _ => ⟨List.prefix_rfl, kept, trivial⟩) fun existing => ?_
  cases existing with
  | some child => exact .ofExcept fun _ _ _ _ _ => trivial
  | none =>
    refine Async.Meets.locked (fun lock state => ⟨List.prefix_rfl, fun kept => kept.congr rfl rfl, fun _ _ => trivial⟩) ?_
    have reads : Async.Meets (poolContract transport.maxHosts) (fun _ => True) (fun seen state => state = seen)
        (Async.lift .read : PinnedAsync PinnedState) :=
      .access fun state kept _ => ⟨List.prefix_rfl, kept, rfl⟩
    refine reads.bind fun seen => ?_
    cases known : seen.child key with
    | some child => exact .ofExcept fun _ _ _ _ _ => trivial
    | none =>
      dsimp only
      split
      · exact .ofExcept fun _ same => nomatch same
      · rename_i room
        refine .access fun state kept same => ?_
        subst same
        refine ⟨?_, kept.mint known (not_le.mp room), trivial⟩
        show state.transports <+: (state.mint key).transports
        rw [transports_mint known]
        exact List.prefix_append _ _

theorem receive_keepsPools {maxHosts : ℤ} (url : String) (request : HttpxRequest) (response : HttpxResponse) :
    (transport.receive url request response).KeepsPools maxHosts pre := by
  unfold PinnedOidcAsyncTransport.receive
  split
  · exact refuse_keepsPools _ _
  · generalize strip (lower ((response.headers.get "Content-Encoding").getD "identity")) = contentEncoding
    by_cases compressed : contentEncoding ≠ "" ∧ contentEncoding ≠ "identity"
    · rw [if_pos compressed]
      exact refuse_keepsPools _ _
    · rw [if_neg compressed]
      refine Async.Meets.bindAny (check_keepsPools _) fun limit => ?_
      dsimp only
      split
      · exact .ofExcept fun _ _ _ _ _ => trivial
      · split
        · exact refuse_keepsPools _ _
        · split
          · exact refuse_keepsPools _ _
          · exact .ofExcept fun _ _ _ _ _ => trivial

variable [Httpx]

theorem handleAsyncRequest_keepsPools (request : HttpxRequest) :
    (transport.handleAsyncRequest request).KeepsPools transport.maxHosts pre := by
  unfold PinnedOidcAsyncTransport.handleAsyncRequest
  split
  · exact .ofExcept fun _ same => nomatch same
  · split
    · refine Async.Meets.bindAny (.access fun state kept _ => ⟨List.prefix_rfl, kept.congr rfl rfl, trivial⟩) fun _ => ?_
      exact .ofExcept fun _ same => nomatch same
    · refine Async.Meets.bindAny (resolve_keepsPools _) fun target => ?_
      refine Async.Meets.bindAny (transportFor_keepsPools target) fun child => ?_
      refine Async.Meets.bindAny (check_keepsPools _) fun sent => ?_
      exact Async.Meets.bindAny (call_keepsPools _ _) fun response => receive_keepsPools _ _ _

theorem requestSystem_meets (transport : PinnedOidcAsyncTransport) :
    (requestSystem transport).Meets (poolContract transport.maxHosts) fun _ outcome _ =>
      ∀ result, outcome = .ok result → True :=
  System.meets_of_calls fun request => handleAsyncRequest_keepsPools request

end Requests

/-! ### What `_transport_for` does -/

/-- The refusal of a request for one more origin. -/
def budgetExhausted : PinnedError := .security ⟨"OIDC outbound host budget exhausted"⟩

section Settle

variable [UnicodeTables] {transport : PinnedOidcAsyncTransport} {state : PinnedState} {target : ResolvedTarget}
  {key : Origin}

/-- **What `_transport_for` does where nobody holds or waits for the lock.** -/
theorem transportFor_settle (free : state.lock.locked = false ∧ state.lock.waiters = [])
    (isKey : originOf target.scheme target.host target.port = .ok key) :
    (transport.transportFor target).run.settle state =
      match state.child key with
      | some child => (state, .done (.ok child))
      | none =>
        if transport.maxHosts ≤ state.transports.length then (state, .done (.error budgetExhausted))
        else (state.mint key, .done (.ok state.created)) := by
  obtain ⟨transports, created, ⟨locked, waiters, nextTicket⟩, audits⟩ := state
  obtain ⟨rfl, rfl⟩ := free
  unfold PinnedOidcAsyncTransport.transportFor
  rw [isKey]
  show Process.settle (ExceptT.run (match PinnedState.child _ key with
    | some child => Async.ofExcept (.ok child)
    | none => _)) _ = _
  cases known : PinnedState.child ⟨transports, created, ⟨false, [], nextTicket⟩, audits⟩ key with
  | some child => rfl
  | none =>
    -- the lock is free, so the second look comes in the same turn
    let held : PinnedState := ⟨transports, created, ⟨true, [], nextTicket⟩, audits⟩
    have heldKnown : held.child key = none := known
    show Process.settle (Process.bind (ExceptT.run (match held.child key with
      | some child => _
      | none => if (transports.length : ℤ) ≥ transport.maxHosts then _ else _)) _) held =
        if transport.maxHosts ≤ (transports.length : ℤ) then _ else _
    rw [heldKnown]
    by_cases full : transport.maxHosts ≤ (transports.length : ℤ)
    · rw [if_pos full, if_pos full]
      rfl
    · rw [if_neg full, if_neg full]
      rfl

/-- A request for an origin with a child goes on with it. -/
theorem transportFor_known (free : state.lock.locked = false ∧ state.lock.waiters = [])
    (isKey : originOf target.scheme target.host target.port = .ok key) {child : ℕ} (isChild : state.child key = some child)
    (rest : ℕ → PinnedAsync HttpxResponse) :
    (transport.transportFor target >>= rest).run.settle state = (rest child).run.settle state := by
  have settles : (transport.transportFor target).run.settle state = (state, .done (.ok child)) := by
    rw [transportFor_settle free isKey, isChild]
  exact settle_asyncBind_ok settles rest

/-- A request for one more origin than the budget has ends where it is. -/
theorem transportFor_refused (free : state.lock.locked = false ∧ state.lock.waiters = [])
    (isKey : originOf target.scheme target.host target.port = .ok key) (absent : state.child key = none)
    (full : transport.maxHosts ≤ state.transports.length) (rest : ℕ → PinnedAsync HttpxResponse) :
    (transport.transportFor target >>= rest).run.settle state = (state, .done (.error budgetExhausted)) := by
  have settles : (transport.transportFor target).run.settle state = (state, .done (.error budgetExhausted)) := by
    rw [transportFor_settle free isKey, absent]
    exact if_pos full
  exact settle_asyncBind_error settles rest

end Settle

/-! ### Runs -/

section Runs

variable [UnicodeTables] [Httpx] {transport : PinnedOidcAsyncTransport} {actions : List RequestAction}
  {last : RequestPool}

theorem requestSystem_visits (transport : PinnedOidcAsyncTransport) :
    (requestSystem transport).Visits pinnedContract (fun request => PinnedVisit transport.policy (.handle request))
      fun _ _ _ _ => True := by
  refine ⟨rfl, fun request state sound => ?_⟩
  refine visits_handleAsyncRequest sound (fun _ _ _ => trivial) ?_ ?_ ?_ ?_
  · intro past error later soundLater noChild
    exact ⟨soundLater, trivial⟩
  · intro past child sent later kind origin first others pinned
    exact ⟨request, rfl, kind, origin, first, others, pinned⟩
  · intro past child sent error later soundLater noChild
    exact ⟨soundLater, trivial⟩
  · intro past child sent response later soundLater noChild
    exact (visits_receive soundLater _ request trivial).mono fun _ _ _ soundLast => ⟨soundLast, trivial⟩

theorem free_of_run (ran : (requestSystem transport).run ⟨{}, []⟩ actions = some last) :
    last.shared.lock.locked = false ∧ last.shared.lock.waiters = [] :=
  (run_visited (requestSystem_visits transport) ran (visited_empty soundTransports_initial)).invariant.free

theorem soundPools_of_run (positive : 0 < transport.maxHosts)
    (ran : (requestSystem transport).run ⟨{}, []⟩ actions = some last) :
    last.Safe (poolContract transport.maxHosts) (fun _ outcome _ => ∀ result, outcome = .ok result → True) := by
  have start : (⟨{}, []⟩ : RequestPool).Safe (poolContract transport.maxHosts)
      (fun _ outcome _ => ∀ result, outcome = .ok result → True) :=
    ⟨soundPools_initial positive, fun _ member => nomatch member⟩
  exact (run_safe (requestSystem_meets transport) ran start).1

/-- The pools of a part of a run are the first ones of the whole. -/
theorem pools_kept (positive : 0 < transport.maxHosts) {before after : List RequestAction} {pool : RequestPool}
    (ranBefore : (requestSystem transport).run ⟨{}, []⟩ before = some pool)
    (ran : (requestSystem transport).run ⟨{}, []⟩ (before ++ after) = some last) :
    pool.shared.transports <+: last.shared.transports := by
  rw [run_append, ranBefore] at ran
  exact (run_safe (requestSystem_meets transport) ran (soundPools_of_run positive ranBefore)).2

/-- **A step of the run gives a child a request for an origin.** -/
def Gives (transport : PinnedOidcAsyncTransport) (actions : List RequestAction) (origin : Origin) (child : ℕ) : Prop :=
  ∃ (before after : List RequestAction) (action : RequestAction) (pool next : RequestPool) (request : HttpxRequest)
    (sent : HttpxRequest) (continuation : PinnedWait.Answer (.child child sent) → RequestProcess),
    actions = before ++ [action] ++ after ∧
    (requestSystem transport).run ⟨{}, []⟩ before = some pool ∧
    (requestSystem transport).perform pool action = some next ∧
    next.tasks[pool.subject action]? = some (request, .wait (.child child sent) continuation) ∧
    parseUrl (Httpx.text request.url) = .ok origin

/-- A request goes to the child that its origin has at the end of the run. -/
theorem Gives.child_eq (positive : 0 < transport.maxHosts)
    (ran : (requestSystem transport).run ⟨{}, []⟩ actions = some last) {origin : Origin} {child : ℕ}
    (gives : Gives transport actions origin child) : last.shared.child origin = some child := by
  obtain ⟨before, after, action, pool, next, request, sent, continuation, rfl, ranBefore, performed, given, parsed⟩ := gives
  obtain ⟨-, other, same, kind, key, first, others, pinned⟩ :=
    run_visits (requestSystem_visits transport) soundTransports_initial ranBefore performed given
  cases same
  have isKey : key = origin := by
    have keys := pinned.parsed.symm.trans parsed
    rwa [Except.ok.injEq] at keys
  have ranNext : (requestSystem transport).run ⟨{}, []⟩ (before ++ [action]) = some next := by
    rw [run_append, ranBefore]
    show ((requestSystem transport).perform pool action).bind _ = _
    rw [performed]
    rfl
  exact child_of_kept (pools_kept positive ranNext ran) (isKey ▸ pinned.owned)

/-- **What holds of the pools after a run.** -/
structure BoundedPools (transport : PinnedOidcAsyncTransport) (maxHosts : ℤ) (actions : List RequestAction)
    (state : PinnedState) : Prop where
  /-- The factory was called at most `max_hosts` times. -/
  bounded : (state.created : ℤ) ≤ maxHosts
  /-- Each of its calls made the child of one origin, which is still there. -/
  numbered : state.transports.map Prod.snd = List.range state.created
  /-- No origin has two. -/
  unique : (state.transports.map Prod.fst).Nodup
  /-- At every earlier point of the run the pools were the first of these. -/
  kept : ∀ before after pool, actions = before ++ after → (requestSystem transport).run ⟨{}, []⟩ before = some pool →
    pool.shared.transports <+: state.transports
  /-- Two requests go to one child exactly when they are for one origin. -/
  shared : ∀ origin other child otherChild, Gives transport actions origin child →
    Gives transport actions other otherChild → (origin = other ↔ child = otherChild)
  /-- A request for an origin with a child goes on with it, whatever the budget. -/
  known : ∀ (target : ResolvedTarget) key child, originOf target.scheme target.host target.port = .ok key →
    state.child key = some child → ∀ rest : ℕ → PinnedAsync HttpxResponse,
      (transport.transportFor target >>= rest).run.settle state = (rest child).run.settle state
  /-- A request for another origin is refused at the end of the budget, and changes nothing. -/
  refused : ∀ (target : ResolvedTarget) key, originOf target.scheme target.host target.port = .ok key →
    state.child key = none → maxHosts ≤ state.transports.length → ∀ rest : ℕ → PinnedAsync HttpxResponse,
      (transport.transportFor target >>= rest).run.settle state = (state, .done (.error budgetExhausted))

/-- **In every run of requests the pools are bounded, unique for each origin, and never shared.** -/
theorem pools_bounded {policy : OidcNetworkSecurityPolicy} {maxHosts : ℤ}
    (made : PinnedOidcAsyncTransport.init policy maxHosts = .ok transport)
    (ran : (requestSystem transport).run ⟨{}, []⟩ actions = some last) :
    BoundedPools transport maxHosts actions last.shared := by
  obtain ⟨positive, rfl⟩ := init_transport_ok made
  have sound := (soundPools_of_run positive ran).invariant
  have children : SoundChildren last.shared :=
    (run_visited (requestSystem_visits _) ran (visited_empty soundTransports_initial)).invariant.toSoundChildren
  have free := free_of_run ran
  constructor
  · exact sound.bounded
  · exact sound.numbered
  · exact sound.origins
  · rintro before after pool rfl ranBefore
    exact pools_kept positive ranBefore ran
  · intro origin other child otherChild gives givesOther
    have isChild := gives.child_eq positive ran
    have isOther := givesOther.child_eq positive ran
    constructor
    · rintro rfl
      rw [isChild, Option.some.injEq] at isOther
      exact isOther
    · rintro rfl
      exact children.child_injective isOther isChild
  · intro target key child isKey isChild rest
    exact transportFor_known free isKey isChild rest
  · intro target key isKey absent full rest
    exact transportFor_refused free isKey absent full rest

end Runs

/-- A transport with room for two origins, whose policy trusts three. -/
def crowdedTransport : PinnedOidcAsyncTransport where
  policy := { issuerPolicy with trustedJwksOrigins := [⟨"https", "issuer.example", 443⟩,
    ⟨"https", "keys.example", 443⟩, ⟨"https", "other.example", 443⟩] }
  maxHosts := 2

def keysRequest (host : String) : HttpxRequest :=
  { discoveryRequest with url := { scheme := "https", host := host, path := "/keys" }, headers := [("host", host)] }

/-- The child that a request waits for, or the exception that it raised. -/
def requestFate : RequestProcess → Option (ℕ ⊕ PinnedError)
  | .wait (.child child _) _ => some (.inl child)
  | .done (.error error) => some (.inr error)
  | _ => none

/-- Two requests for the issuer wait for addresses at once; one for a second origin follows, and one for a third. -/
def crowdedSchedule : List RequestAction :=
  [.spawn discoveryRequest, .spawn (keysRequest "issuer.example"), .resume 1 oneAddress, .resume 0 oneAddress,
    .spawn (keysRequest "keys.example"), .resume 2 oneAddress, .spawn (keysRequest "other.example"), .resume 3 oneAddress]

/-- The requests for the issuer share a child, the second origin has its own, and the third is refused. -/
theorem pools_bounded_crowded :
    let _ := asciiTables
    let _ := plainHttpx
    ∃ last, (requestSystem crowdedTransport).run ⟨{}, []⟩ crowdedSchedule = some last ∧
      BoundedPools crowdedTransport 2 crowdedSchedule last.shared ∧
      last.shared.transports = [(⟨"https", "issuer.example", 443⟩, 0), (⟨"https", "keys.example", 443⟩, 1)] ∧
      last.tasks.map (requestFate ·.2) = [some (.inl 0), some (.inl 0), some (.inl 1), some (.inr budgetExhausted)] := by
  intro _ _
  let system := requestSystem crowdedTransport
  have reached : (system.run ⟨{}, []⟩ crowdedSchedule).any (fun (last : RequestPool) =>
      decide (last.shared.transports = [(⟨"https", "issuer.example", 443⟩, 0), (⟨"https", "keys.example", 443⟩, 1)] ∧
        last.tasks.map (requestFate ·.2) =
          [some (.inl 0), some (.inl 0), some (.inl 1), some (.inr budgetExhausted)])) = true := by
    decide +kernel
  obtain ⟨last, ran, pools⟩ := (Option.any_eq_true _ _).mp reached
  exact ⟨last, ran, pools_bounded rfl ran, of_decide_eq_true pools⟩

end McpAuth
