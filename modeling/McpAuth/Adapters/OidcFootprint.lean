/-
**What the calls of the OIDC clients touch.**

`JwksSteps` and `DiscoverySteps` name the accesses and suspensions of the two clients: a relation that has
these steps is kept by every call (`resolveKey_uses`, `resolve_uses`). `resolveKey_atMost` bounds the
suspensions of a call, and `resolveKey_balances` says that it leaves the queue of the lock as it found it.
-/

import McpAuth.Adapters.JwksKeyResolver
import McpAuth.Library.Progress

namespace McpAuth

open Cooperative JsonText PyText

/-- A request is one suspension and one record. -/
theorem httpGet_uses {α : Type} {moves : OidcState → OidcState → Prop} {suspends : OidcWait → Prop}
    {client : RequestKind} {url : String} {reads : HttpOutcome → Except Raised α}
    (gets : suspends (.get client url))
    (records : ∀ outcome state, moves state (state.record (.received client url outcome))) :
    Async.Uses moves suspends (httpGet client url reads) := by
  refine (Async.Uses.await gets).bind fun outcome => ?_
  exact (Async.Uses.access fun state => records outcome state).bind fun _ => .ofExcept _

variable [Clocks]

/-! ### Discovery -/

/-- The steps of a refresh of the metadata. -/
structure DiscoverySteps (client : OidcDiscoveryClient) (moves : OidcState → OidcState → Prop)
    (suspends : OidcWait → Prop) : Prop where
  looked : ∀ state, moves state (discoveryCache.looked client.policy.issuerUrl state)
  stored : ∀ metadata state, moves state (discoveryCache.stored client.policy.issuerUrl metadata state)
  started : ∀ state, moves state
    (state.record (.fetchStarted .discovery client.policy.discoveryUrl false false state.now))
  received : ∀ outcome state, moves state
    (state.record (.received .discovery client.policy.discoveryUrl outcome))
  gets : suspends (.get .discovery client.policy.discoveryUrl)

section Discovery

variable [JsonGrammar] [UnicodeTables] {client : OidcDiscoveryClient}
  {moves : OidcState → OidcState → Prop} {suspends : OidcWait → Prop}

theorem refreshMetadata_uses (steps : DiscoverySteps client moves suspends) :
    Async.Uses moves suspends (client.refresh client.policy.issuerUrl) := by
  refine (Async.Uses.access steps.looked).bind fun found => ?_
  cases found with
  | some cached => exact .pure _
  | none =>
    refine (Async.Uses.access steps.started).bind fun _ => ?_
    refine (httpGet_uses steps.gets steps.received).adapt.bind fun metadata => ?_
    exact (Async.Uses.access (steps.stored metadata)).bind fun _ => .pure _

/-- **A discovery call keeps what its steps keep.** -/
theorem resolve_uses (steps : DiscoverySteps client moves suspends) (refl : ∀ state, moves state state)
    (sets : ∀ lock state, moves state (discoveryLock.set lock state))
    (turns : ∀ ticket, suspends (.turn .discovery ticket)) (issuerBaseUrl : String) :
    Async.Uses moves suspends (client.resolve issuerBaseUrl) := by
  unfold OidcDiscoveryClient.resolve
  split
  · exact .throw _
  · rename_i same
    rw [not_not] at same
    subst same
    refine (Async.Uses.access steps.looked).bind fun found => ?_
    cases found with
    | some cached => exact .pure _
    | none => exact .locked sets refl turns (refreshMetadata_uses steps)

end Discovery

/-! ### Keys -/

/-- The steps of a refresh of the keys of a URI. -/
structure JwksSteps (jwksUri : String) (moves : OidcState → OidcState → Prop)
    (suspends : OidcWait → Prop) : Prop where
  refl : ∀ state, moves state state
  ticked : ∀ state, moves state state.tick
  looked : ∀ state, moves state (jwksCache.looked jwksUri state)
  stored : ∀ keys state, moves state (jwksCache.stored jwksUri keys state)
  stamped : ∀ now state, moves state
    { state with lastForcedRefresh := (jwksUri, now) :: state.lastForcedRefresh }
  started : ∀ forced cached state, moves state
    (state.record (.fetchStarted .jwks jwksUri forced cached state.now))
  received : ∀ outcome state, moves state (state.record (.received .jwks jwksUri outcome))
  gets : suspends (.get .jwks jwksUri)

section Keys

variable [JsonGrammar] [UnicodeTables] {resolver : JwksKeyResolver} {jwksUri : String}
  {moves : OidcState → OidcState → Prop} {suspends : OidcWait → Prop}

theorem fetchAndStore_uses (steps : JwksSteps jwksUri moves suspends) (forceRefresh cached : Bool) :
    Async.Uses moves suspends (resolver.fetchAndStore jwksUri forceRefresh cached) := by
  refine (Async.Uses.access (steps.started forceRefresh cached)).bind fun _ => ?_
  have fetches : Async.Uses moves suspends (resolver.fetchKeys jwksUri) :=
    .adapt ((Async.Uses.ofExcept _).bind fun _ => httpGet_uses steps.gets steps.received)
  refine fetches.bind fun keys => ?_
  exact (Async.Uses.access (steps.stored keys)).bind fun _ => .pure _

theorem refreshKeys_uses (steps : JwksSteps jwksUri moves suspends) (forceRefresh : Bool) :
    Async.Uses moves suspends (resolver.refresh jwksUri forceRefresh) := by
  refine (Async.Uses.access steps.looked).bind fun found => ?_
  cases found with
  | none => exact fetchAndStore_uses steps forceRefresh false
  | some cached =>
    dsimp only
    split
    · exact .pure _
    · refine (Async.Uses.access steps.refl).bind fun state => ?_
      refine (Async.Uses.access steps.ticked).bind fun now => ?_
      split
      · exact .pure _
      · exact (Async.Uses.access (steps.stamped now)).bind fun _ => fetchAndStore_uses steps true true

theorem keysFor_uses (steps : JwksSteps jwksUri moves suspends)
    (sets : ∀ lock state, moves state (jwksLock.set lock state))
    (turns : ∀ ticket, suspends (.turn .jwks ticket)) (forceRefresh : Bool) :
    Async.Uses moves suspends (resolver.keysFor jwksUri forceRefresh) := by
  have locked : ∀ forced, Async.Uses moves suspends (jwksLock.locked (resolver.refresh jwksUri forced)) :=
    fun forced => .locked sets steps.refl turns (refreshKeys_uses steps forced)
  unfold JwksKeyResolver.keysFor
  split
  · exact locked true
  · refine (Async.Uses.access steps.looked).bind fun found => ?_
    cases found with
    | some cached => exact .pure _
    | none => exact locked false

variable [PyJwt]

/-- **A key call keeps what its steps keep**, and makes them for a trusted URI only. -/
theorem resolveKey_uses
    (steps : resolver.policy.assertJwksUriTrusted jwksUri = .ok () → JwksSteps jwksUri moves suspends)
    (sets : ∀ lock state, moves state (jwksLock.set lock state))
    (turns : ∀ ticket, suspends (.turn .jwks ticket)) (token : String) :
    Async.Uses moves suspends (resolver.resolve jwksUri token) := by
  unfold JwksKeyResolver.resolve
  split
  · exact .throw _
  · split
    · exact .throw _
    · split
      · exact .throw _
      · split
        · exact .throw _
        · rename_i trusted
          refine (keysFor_uses (steps trusted) sets turns false).bind fun keys => ?_
          split
          · exact .pure _
          · refine (keysFor_uses (steps trusted) sets turns true).bind fun keys => ?_
            split
            · exact .pure _
            · exact .throw _

/-! ### Suspensions of a key call -/

omit [PyJwt] in
theorem fetchAndStore_atMost (forceRefresh cached : Bool) :
    Async.AtMost (resolver.fetchAndStore jwksUri forceRefresh cached) 1 := by
  have gets : Async.AtMost (httpGet .jwks jwksUri (readKeys resolver.policy resolver.maxKeys.toNat)) 1 :=
    Async.AtMost.await.bind 1 0 fun _ => Async.AtMost.access.bind 0 0 fun _ => .ofExcept _
  have fetches : Async.AtMost (resolver.fetchKeys jwksUri) 1 :=
    .adapt ((Async.AtMost.ofExcept _).bind 0 1 fun _ => gets)
  refine Async.AtMost.access.bind 0 1 fun _ => ?_
  exact fetches.bind 1 0 fun keys => Async.AtMost.access.bind 0 0 fun _ => .pure _

omit [PyJwt] in
theorem refreshKeys_atMost (forceRefresh : Bool) :
    Async.AtMost (resolver.refresh jwksUri forceRefresh) 1 := by
  refine Async.AtMost.access.bind 0 1 fun found => ?_
  cases found with
  | none => exact fetchAndStore_atMost forceRefresh false
  | some cached =>
    dsimp only
    split
    · exact .pure _
    · refine Async.AtMost.access.bind 0 1 fun state => ?_
      refine Async.AtMost.access.bind 0 1 fun now => ?_
      split
      · exact .pure _
      · exact Async.AtMost.access.bind 0 1 fun _ => fetchAndStore_atMost true true

omit [PyJwt] in
theorem keysFor_atMost (forceRefresh : Bool) :
    Async.AtMost (resolver.keysFor jwksUri forceRefresh) 2 := by
  have locked : ∀ forced, Async.AtMost (jwksLock.locked (resolver.refresh jwksUri forced)) 2 :=
    fun forced => (refreshKeys_atMost forced).locked
  unfold JwksKeyResolver.keysFor
  split
  · exact locked true
  · refine Async.AtMost.access.bind 0 2 fun found => ?_
    cases found with
    | some cached => exact .pure _
    | none => exact locked false

/-- **A call suspends at most four times**: twice at the lock and twice for a request. -/
theorem resolveKey_atMost (token : String) : Async.AtMost (resolver.resolve jwksUri token) 4 := by
  unfold JwksKeyResolver.resolve
  split
  · exact .throw _
  · split
    · exact .throw _
    · split
      · exact .throw _
      · split
        · exact .throw _
        · refine (keysFor_atMost false).bind 2 2 fun keys => ?_
          split
          · exact .pure _
          · refine (keysFor_atMost true).bind 2 0 fun keys => ?_
            split
            · exact .pure _
            · exact .throw _

/-! ### The queue of the lock -/

variable {π : Type} {monitor : Monitor OidcState OidcWait π}

omit [JsonGrammar] [UnicodeTables] [PyJwt] in
/-- The steps of a refresh leave the queue alone. -/
theorem queue_steps (isLock : monitor.field = jwksLock) : JwksSteps jwksUri
    (fun first second => monitor.queued second = monitor.queued first) (fun want => monitor.ticket want = 0) := by
  have same : ∀ {first second : OidcState}, second.jwksLock = first.jwksLock →
      monitor.queued second = monitor.queued first := by
    intro first second sameLock
    funext ticket
    rw [Monitor.queued, Monitor.queued, isLock]
    show ((second.jwksLock.waiters.count ticket : ℕ) : ℤ) = (first.jwksLock.waiters.count ticket : ℕ)
    rw [sameLock]
  refine ⟨fun _ => rfl, fun _ => same rfl, fun _ => same rfl, fun _ _ => same rfl, fun _ _ => same rfl,
    fun _ _ _ => same rfl, fun _ _ => same rfl, ?_⟩
  funext ticket
  simp [Monitor.ticket, isLock, jwksLock]

omit [PyJwt] in
theorem keysFor_balances (isLock : monitor.field = jwksLock) (forceRefresh : Bool) :
    (resolver.keysFor jwksUri forceRefresh).run.Balances monitor.ready monitor.queued monitor.ticket 0 := by
  have injective : Function.Injective monitor.field.turn := by
    rw [isLock]
    intro first second same
    cases same
    rfl
  have locked : ∀ forced, (jwksLock.locked (resolver.refresh jwksUri forced)).run.Balances monitor.ready
      monitor.queued monitor.ticket 0 := by
    intro forced
    rw [← isLock]
    exact Monitor.locked_balances injective (refreshKeys_uses (queue_steps isLock) forced)
  unfold JwksKeyResolver.keysFor
  split
  · exact locked true
  · refine balances_bind (Monitor.ofUses_balances (.access (queue_steps isLock).looked)) fun found => ?_
    cases found with
    | some cached => exact fun _ => rfl
    | none => exact locked false

/-- **A call leaves the queue of the lock as it found it.** -/
theorem resolveKey_balances (isLock : monitor.field = jwksLock) (token : String) :
    (resolver.resolve jwksUri token).run.Balances monitor.ready monitor.queued monitor.ticket 0 := by
  unfold JwksKeyResolver.resolve
  split
  · exact fun _ => rfl
  · split
    · exact fun _ => rfl
    · split
      · exact fun _ => rfl
      · split
        · exact fun _ => rfl
        · refine balances_bind (keysFor_balances isLock false) fun keys => ?_
          split
          · exact fun _ => rfl
          · refine balances_bind (keysFor_balances isLock true) fun keys => ?_
            split
            · exact fun _ => rfl
            · exact fun _ => rfl

end Keys

end McpAuth
