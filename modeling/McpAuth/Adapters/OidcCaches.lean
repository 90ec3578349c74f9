/-
**The caches of a discovery client and a key resolver that share one policy.**

Any number of discovery and key calls run concurrently over the two caches (`OidcClients.system`).
`oidc_caches_sound` says, for every reachable state: what is cached was validated, at most one request of each
client is open, a request that fails leaves the caches alone and raises in its caller, and successful
discovery requests start a time to live apart.
-/

import McpAuth.Adapters.OidcFootprint
import McpAuth.Adapters.OidcTimeline
import McpAuth.Adapters.TrustChain

namespace McpAuth

open Cooperative JsonText PyText RefreshTimeline

/-- The two clients of one policy. -/
structure OidcClients where
  discovery : OidcDiscoveryClient
  keyResolver : JwksKeyResolver
  samePolicy : keyResolver.policy = discovery.policy

/-- A call of one of the clients. -/
inductive OidcRequest
  | discovery (issuerBaseUrl : String)
  | key (jwksUri token : String)

/-- The policy both clients were built with. -/
def OidcClients.policy (clients : OidcClients) : OidcNetworkSecurityPolicy := clients.discovery.policy

variable [Clocks] [JsonGrammar] [UnicodeTables] [PyJwt]

/-- What a request runs. -/
def OidcClients.call (clients : OidcClients) : OidcRequest → OidcAsync (OidcMetadata ⊕ PyJWK)
  | .discovery issuerBaseUrl => do
    let metadata ← clients.discovery.resolve issuerBaseUrl
    pure (.inl metadata)
  | .key jwksUri token => do
    let key ← clients.keyResolver.resolve jwksUri token
    pure (.inr key)

abbrev OidcPool : Type :=
  Pool OidcState OidcWait OidcWait.Answer OidcRequest (Except Raised (OidcMetadata ⊕ PyJWK))

/-- Both clients under every schedule. -/
def OidcClients.system (clients : OidcClients) :
    System OidcState OidcWait OidcWait.Answer OidcRequest (Except Raised (OidcMetadata ⊕ PyJWK)) :=
  oidcSystem clients.call

/-- Both clients before their first call. -/
def OidcClients.idle (clients : OidcClients) : OidcPool :=
  ⟨.initial clients.discovery clients.keyResolver, []⟩

variable {clients : OidcClients}

/-! ### Validated documents -/

/-- The keys were indexed from a bounded JSON object with few enough keys. -/
def IndexedKeys (policy : OidcNetworkSecurityPolicy) (maxKeys : ℕ) (keys : KeySet) : Prop :=
  ∃ content document rawKeys, (content.length : ℤ) ≤ policy.jwksMaxBytes ∧
    parseJsonObject content policy.jwksMaxBytes = .ok document ∧ get document "keys" = .arr rawKeys ∧
    rawKeys.length ≤ maxKeys ∧ indexKeys rawKeys = .ok keys

omit [Clocks] [PyJwt] in
theorem readDocument_bounded {mediaTypes : List String} {unsupported : String} {maxBytes : Int}
    {outcome : HttpOutcome} {document : JsonObject}
    (reads : readDocument mediaTypes unsupported maxBytes outcome = .ok document) :
    ∃ content, (content.length : ℤ) ≤ maxBytes ∧ parseJsonObject content maxBytes = .ok document := by
  obtain ⟨response, -, reads⟩ := Fallible.bind_eq_ok.mp reads
  obtain ⟨_, -, reads⟩ := Fallible.bind_eq_ok.mp reads
  by_cases listed : response.mediaType ∈ mediaTypes
  · rw [if_pos listed] at reads
    refine ⟨response.content, ?_, reads⟩
    by_contra long
    rw [parseJsonObject, if_pos (Or.inr (by omega))] at reads
    cases reads
  · rw [if_neg listed] at reads
    cases reads

omit [Clocks] [PyJwt] in
/-- **What a JWKS response is read to** was indexed from a bounded document. -/
theorem readKeys_indexed {policy : OidcNetworkSecurityPolicy} {maxKeys : ℕ} {outcome : HttpOutcome}
    {keys : KeySet} (reads : readKeys policy maxKeys outcome = .ok keys) : IndexedKeys policy maxKeys keys := by
  obtain ⟨rawKeys, raw, indexed⟩ := Fallible.bind_eq_ok.mp reads
  obtain ⟨document, isDocument, members⟩ := Fallible.bind_eq_ok.mp raw
  obtain ⟨content, bounded, parsed⟩ := readDocument_bounded isDocument
  cases isList : (get document "keys").asList with
  | none =>
    rw [isList] at members
    cases members
  | some found =>
    rw [isList] at members
    dsimp only at members
    by_cases many : maxKeys < found.length
    · rw [if_pos many] at members
      cases members
    · rw [if_neg many] at members
      cases members
      refine ⟨content, document, rawKeys, bounded, parsed, ?_, not_lt.mp many, indexed⟩
      cases value : get document "keys" with
      | arr items =>
        rw [value] at isList
        exact congrArg Json.arr (Option.some.inj isList)
      | _ =>
        rw [value] at isList
        cases isList

/-- Every call keeps the provenance of the caches. -/
theorem call_trusted (request : OidcRequest) :
    Async.Meets (trustContract clients.discovery clients.keyResolver) (fun _ => True) (fun _ _ => True)
      (clients.call request) := by
  cases request with
  | discovery issuerBaseUrl => exact (resolve_trusted issuerBaseUrl).bind fun _ => .pure fun _ _ _ => trivial
  | key jwksUri token => exact (resolveKey_trusted jwksUri token).bind fun _ => .pure fun _ _ _ => trivial

variable {pool last : OidcPool} {actions : List (Action OidcWait OidcWait.Answer OidcRequest)}

/-- **Everything cached was read from a recorded response.** -/
theorem run_provenance (ran : clients.system.run clients.idle actions = some last) :
    Provenance clients.discovery clients.keyResolver last.shared := by
  have meets := @System.meets_of_calls _ _ OidcWait.Answer _ _ _
    (trustContract clients.discovery clients.keyResolver) clients.call (fun _ _ _ => True)
    fun request => call_trusted request
  refine (run_safe meets ran ⟨⟨fun entry member => ?_, fun entry member => ?_⟩, fun task member => ?_⟩).1.invariant
  · cases member
  · cases member
  · cases member

/-- Every cached document lies under a trusted URI. -/
def CachesTrusted (policy : OidcNetworkSecurityPolicy) (state : OidcState) : Prop :=
  ∀ entry ∈ state.jwksCache.entries, policy.assertJwksUriTrusted entry.key = .ok ()

/-- A call caches keys under a trusted URI only. -/
theorem call_caches_trusted (request : OidcRequest) :
    Async.Uses (fun first second : OidcState => ∀ entry ∈ second.jwksCache.entries,
        entry ∈ first.jwksCache.entries ∨ clients.policy.assertJwksUriTrusted entry.key = .ok ())
      (fun _ => True) (clients.call request) := by
  have stays : ∀ {first second : OidcState}, second.jwksCache = first.jwksCache →
      ∀ entry ∈ second.jwksCache.entries,
        entry ∈ first.jwksCache.entries ∨ clients.policy.assertJwksUriTrusted entry.key = .ok () :=
    fun same entry member => Or.inl (same ▸ member)
  cases request with
  | discovery issuerBaseUrl =>
    refine (resolve_uses ⟨fun _ => stays rfl, fun _ _ => stays rfl, fun _ => stays rfl, fun _ _ => stays rfl,
      trivial⟩ (fun _ => stays rfl) (fun _ _ => stays rfl) (fun _ => trivial) issuerBaseUrl).bind fun _ => .pure _
  | key jwksUri token =>
    refine (resolveKey_uses (fun trusted => ⟨fun _ => stays rfl, fun _ => stays rfl, fun state entry member => ?_,
      fun keys state entry member => ?_, fun _ _ => stays rfl, fun _ _ _ => stays rfl, fun _ _ => stays rfl,
      trivial⟩) (fun _ _ => stays rfl) (fun _ => trivial) token).bind fun _ => .pure _
    · exact Or.inl (TtlCache.Cache.mem_touch member)
    · refine (TtlCache.Cache.mem_store member).imp_right fun same => ?_
      rw [same, OidcClients.policy, ← clients.samePolicy]
      exact trusted

/-- **Keys are cached under trusted URIs.** -/
theorem run_caches_trusted (ran : clients.system.run clients.idle actions = some last) :
    CachesTrusted clients.policy last.shared := by
  have keeps : ∀ first second : OidcState, (∀ entry ∈ second.jwksCache.entries,
      entry ∈ first.jwksCache.entries ∨ clients.policy.assertJwksUriTrusted entry.key = .ok ()) →
      CachesTrusted clients.policy first → CachesTrusted clients.policy second :=
    fun first second moved kept entry member => (moved entry member).elim (kept entry) id
  refine (run_uses keeps call_caches_trusted ran (fun task member => ?_) fun entry member => ?_).1
  · cases member
  · cases member

/-! ### One request of each client -/

section Exclusion

/-- The lock of a client. -/
def lockOf : RequestKind → LockField OidcState OidcWait
  | .discovery => discoveryLock
  | .jwks => jwksLock

/-- A suspension for a response. -/
def awaitsResponse (kind : RequestKind) : OidcWait → Bool
  | .get client _ => client = kind
  | .turn _ _ => false

/-- What a client can hold under each of its cache keys. -/
abbrev Contents : RequestKind → Type
  | .discovery => String → Option (TtlCache.Entry String OidcMetadata ℚ)
  | .jwks => String → Option (TtlCache.Entry String KeySet ℚ)

/-- The contents of the cache of a client, in whatever order they were used. -/
def contents : (kind : RequestKind) → OidcState → Contents kind
  | .discovery, state => state.discoveryCache.entryAt
  | .jwks, state => state.jwksCache.entryAt

/-- The lock of a client protects its request and its cache. -/
def requestMonitor (kind : RequestKind) : Monitor OidcState OidcWait (Contents kind) :=
  Monitor.mutex (lockOf kind) OidcWait.ready (awaitsResponse kind) (contents kind)
    (by cases kind <;> exact fun _ _ => rfl) (by cases kind <;> exact fun _ _ => rfl)
    (by cases kind <;> exact fun _ => rfl) (by cases kind <;> exact fun _ _ => rfl)

/-- The lock of a client stays as it is. -/
def KeepsLock (kind : RequestKind) (first second : OidcState) : Prop :=
  (lockOf kind).get second = (lockOf kind).get first

variable {α : Type} {kind : RequestKind} {body : OidcAsync α} {suspends : OidcWait → Prop}

omit [JsonGrammar] [UnicodeTables] [PyJwt] in
/-- The steps of a refresh of the metadata leave both locks alone. -/
theorem discovery_keepsLock (gets : suspends (.get .discovery clients.discovery.policy.discoveryUrl)) :
    DiscoverySteps clients.discovery (KeepsLock kind) suspends := by
  cases kind <;> exact ⟨fun _ => rfl, fun _ _ => rfl, fun _ => rfl, fun _ _ => rfl, gets⟩

omit [JsonGrammar] [UnicodeTables] [PyJwt] in
/-- The steps of a refresh of the keys leave both locks alone. -/
theorem keys_keepLock {jwksUri : String} (gets : suspends (.get .jwks jwksUri)) :
    JwksSteps jwksUri (KeepsLock kind) suspends := by
  cases kind <;> exact ⟨fun _ => rfl, fun _ => rfl, fun _ => rfl, fun _ _ => rfl, fun _ _ => rfl,
    fun _ _ _ => rfl, fun _ _ => rfl, gets⟩

/-- The lock and the cache contents of a client stay as they are. -/
def KeepsClient (kind : RequestKind) (first second : OidcState) : Prop :=
  KeepsLock kind first second ∧ contents kind second = contents kind first

omit [JsonGrammar] [UnicodeTables] [PyJwt] in
/-- A refresh of the metadata is no matter of the key resolver. -/
theorem discovery_keepsClient (gets : suspends (.get .discovery clients.discovery.policy.discoveryUrl)) :
    DiscoverySteps clients.discovery (KeepsClient .jwks) suspends :=
  ⟨fun _ => ⟨rfl, rfl⟩, fun _ _ => ⟨rfl, rfl⟩, fun _ => ⟨rfl, rfl⟩, fun _ _ => ⟨rfl, rfl⟩, gets⟩

omit [JsonGrammar] [UnicodeTables] [PyJwt] in
/-- A refresh of the keys is no matter of the discovery client. -/
theorem keys_keepClient {jwksUri : String} (gets : suspends (.get .jwks jwksUri)) :
    JwksSteps jwksUri (KeepsClient .discovery) suspends :=
  ⟨fun _ => ⟨rfl, rfl⟩, fun _ => ⟨rfl, rfl⟩, fun _ => ⟨rfl, rfl⟩, fun _ _ => ⟨rfl, rfl⟩, fun _ _ => ⟨rfl, rfl⟩,
    fun _ _ _ => ⟨rfl, rfl⟩, fun _ _ => ⟨rfl, rfl⟩, gets⟩

/-- Requests of a client are made, and its cache is changed, under its lock only. -/
abbrev Exclusive {α : Type} (kind : RequestKind) (body : OidcAsync α) : Prop :=
  Monitor.Meets (requestMonitor kind) false (fun _ => True) (fun _ _ => True) (fun _ => True) body

omit [Clocks] [JsonGrammar] [UnicodeTables] [PyJwt] in
/-- What does not request, and leaves the lock and the contents alone. -/
theorem Exclusive.outside (uses : Async.Uses (KeepsClient kind)
    (fun want => awaitsResponse kind want = false) body) : Exclusive kind body :=
  Monitor.Meets.outside
    (uses.mono (fun _ _ same => ⟨trivial, congrArg AsyncLock.locked same.1, same.2⟩) fun _ => id)

omit [Clocks] [JsonGrammar] [UnicodeTables] [PyJwt] in
/-- What requests, under the lock. -/
theorem Exclusive.underLock (uses : Async.Uses (KeepsLock kind)
    (fun want => awaitsResponse kind want = true) body) : Exclusive kind ((lockOf kind).locked body) := by
  have inside : Monitor.Meets (requestMonitor kind) true (fun _ => True) (fun _ _ => True) (fun _ => True) body :=
    .inside (fun _ => trivial)
      (uses.mono (fun _ _ same => ⟨trivial, congrArg AsyncLock.locked same⟩) fun _ => id)
  exact .locked (fun _ => id) (fun _ _ _ => id) (fun _ _ => id)
    (inside.weaken (fun _ _ => trivial) (fun _ _ _ => ⟨trivial, trivial⟩) fun _ _ => ⟨trivial, trivial⟩)

omit [Clocks] [JsonGrammar] [UnicodeTables] [PyJwt] in
theorem Exclusive.bind {β : Type} {after : α → OidcAsync β} (first : Exclusive kind body)
    (second : ∀ result, Exclusive kind (after result)) : Exclusive kind (body >>= after) :=
  Monitor.Meets.bind first second

omit [JsonGrammar] [UnicodeTables] [PyJwt] in
/-- A look at the metadata. -/
theorem lookupMetadata_exclusive (key : String) : Exclusive .discovery (discoveryCache.lookup key) :=
  Exclusive.outside (.access fun state =>
    ⟨rfl, funext fun other => TtlCache.Cache.entryAt_touch state.discoveryCache _ key other⟩)

omit [JsonGrammar] [UnicodeTables] [PyJwt] in
/-- A look at the keys. -/
theorem lookupKeys_exclusive (key : String) : Exclusive .jwks (jwksCache.lookup key) :=
  Exclusive.outside (.access fun state =>
    ⟨rfl, funext fun other => TtlCache.Cache.entryAt_touch state.jwksCache _ key other⟩)

omit [PyJwt] in
/-- A discovery call requests under its lock. -/
theorem resolve_exclusive (issuerBaseUrl : String) :
    Exclusive .discovery (clients.discovery.resolve issuerBaseUrl) := by
  unfold OidcDiscoveryClient.resolve
  split
  · exact .throw fun _ _ => trivial
  · rename_i same
    rw [not_not] at same
    subst same
    refine (lookupMetadata_exclusive _).bind fun found => ?_
    cases found with
    | some cached => exact .pure fun _ _ => trivial
    | none => exact @Exclusive.underLock _ .discovery _ (refreshMetadata_uses (discovery_keepsLock rfl))

omit [PyJwt] in
theorem keysFor_exclusive (jwksUri : String) (forceRefresh : Bool) :
    Exclusive .jwks (clients.keyResolver.keysFor jwksUri forceRefresh) := by
  have locked : ∀ forced, Exclusive .jwks (jwksLock.locked (clients.keyResolver.refresh jwksUri forced)) :=
    fun forced => @Exclusive.underLock _ .jwks _ (refreshKeys_uses (keys_keepLock (by rfl)) forced)
  unfold JwksKeyResolver.keysFor
  split
  · exact locked true
  · refine (lookupKeys_exclusive jwksUri).bind fun found => ?_
    cases found with
    | some cached => exact .pure fun _ _ => trivial
    | none => exact locked false

/-- A key call requests under its lock. -/
theorem resolveKey_exclusive (jwksUri token : String) :
    Exclusive .jwks (clients.keyResolver.resolve jwksUri token) := by
  unfold JwksKeyResolver.resolve
  split
  · exact .throw fun _ _ => trivial
  · split
    · exact .throw fun _ _ => trivial
    · split
      · exact .throw fun _ _ => trivial
      · split
        · exact .throw fun _ _ => trivial
        · refine (keysFor_exclusive jwksUri false).bind fun keys => ?_
          split
          · exact .pure fun _ _ => trivial
          · refine (keysFor_exclusive jwksUri true).bind fun keys => ?_
            split
            · exact .pure fun _ _ => trivial
            · exact .throw fun _ _ => trivial

/-- **A call requests under the lock of its client**, and leaves the lock of the other one alone. -/
theorem call_exclusive (kind : RequestKind) (request : OidcRequest) :
    Exclusive kind (clients.call request) := by
  cases request with
  | discovery issuerBaseUrl =>
    have resolves : Exclusive kind (clients.discovery.resolve issuerBaseUrl) := by
      cases kind with
      | discovery => exact resolve_exclusive issuerBaseUrl
      | jwks =>
        have keeps : Async.Uses (KeepsClient .jwks) (fun want => awaitsResponse .jwks want = false)
            (clients.discovery.resolve issuerBaseUrl) :=
          resolve_uses (discovery_keepsClient (by rfl)) (fun _ => ⟨rfl, rfl⟩) (fun _ _ => ⟨rfl, rfl⟩)
            (fun _ => by rfl) issuerBaseUrl
        exact .outside keeps
    exact resolves.bind fun _ => .pure fun _ _ => trivial
  | key jwksUri token =>
    have resolves : Exclusive kind (clients.keyResolver.resolve jwksUri token) := by
      cases kind with
      | jwks => exact resolveKey_exclusive jwksUri token
      | discovery =>
        have keeps : Async.Uses (KeepsClient .discovery) (fun want => awaitsResponse .discovery want = false)
            (clients.keyResolver.resolve jwksUri token) :=
          resolveKey_uses (fun _ => keys_keepClient (by rfl)) (fun _ _ => ⟨rfl, rfl⟩) (fun _ => by rfl) token
        exact .outside keeps
    exact resolves.bind fun _ => .pure fun _ _ => trivial

/-- The tasks that wait for a response of a client. -/
def Requesting (kind : RequestKind) (pool : OidcPool) (index : ℕ) : Prop :=
  ∃ request url next, pool.tasks[index]? = some (request, .wait (.get kind url) next)

/-- Every run keeps both clients guarded. -/
theorem run_clients_guarded (kind : RequestKind) (ran : clients.system.run clients.idle actions = some last) :
    Monitor.SystemGuards (requestMonitor kind) clients.system 0 (fun _ _ _ => True) ∧
      Monitor.Guarded (requestMonitor kind) (fun _ _ _ => True) last := by
  have guards : Monitor.SystemGuards (requestMonitor kind) clients.system 0 fun _ _ _ => True :=
    ⟨rfl, fun request index _ state kept =>
      (call_exclusive kind request).program (fun _ _ _ => trivial) (fun _ _ _ => trivial) kept trivial⟩
  have unlocked : (requestMonitor kind).locked clients.idle.shared = false := by cases kind <;> rfl
  exact ⟨guards, (Monitor.run_guarded guards ran (Nat.zero_le _) (Monitor.Guarded.initial unlocked trivial)).1⟩

omit [Clocks] [JsonGrammar] [UnicodeTables] [PyJwt] in
theorem ownsAt_of_requesting {kind : RequestKind} {index : ℕ} (requesting : Requesting kind last index) :
    (requestMonitor kind).ownsAt last index = true := by
  obtain ⟨request, url, next, found⟩ := requesting
  rw [Monitor.ownsAt_eq found]
  simp [Monitor.owns, requestMonitor, Monitor.mutex, awaitsResponse]

/-- **At most one request of each client is open.** -/
theorem run_exclusive {kind : RequestKind} (ran : clients.system.run clients.idle actions = some last)
    {first second : ℕ} (one : Requesting kind last first) (other : Requesting kind last second) : first = second :=
  (run_clients_guarded kind ran).2.unique first second (ownsAt_of_requesting one) (ownsAt_of_requesting other)

/-- **While a request is open** the cache contents of its client stay as they are. -/
theorem run_contents {kind : RequestKind} (ran : clients.system.run clients.idle actions = some pool)
    {more : List (Action OidcWait OidcWait.Answer OidcRequest)}
    (ranOn : clients.system.run pool more = some last) {index : ℕ} (requesting : Requesting kind pool index)
    (waits : ∀ answer, .resume index answer ∉ more) :
    contents kind last.shared = contents kind pool.shared ∧ last.tasks[index]? = pool.tasks[index]? := by
  obtain ⟨guards, guarded⟩ := run_clients_guarded kind ran
  exact Monitor.run_owned guards ranOn guarded (ownsAt_of_requesting requesting) waits

end Exclusion

/-! ### Fetches that fail -/

section Failure

/-- The client raises on this answer. -/
def FetchFails (policy : OidcNetworkSecurityPolicy) (maxKeys : ℕ) : Answered OidcWait OidcWait.Answer → Prop
  | ⟨.get .discovery _, outcome⟩ => ∃ error, readMetadata policy outcome = .error error
  | ⟨.get .jwks _, outcome⟩ => ∃ error, readKeys policy maxKeys outcome = .error error
  | ⟨.turn _ _, _⟩ => False

/-- Both caches stay exactly as they are. -/
def KeepsCaches (first second : OidcState) : Prop :=
  second.discoveryCache = first.discoveryCache ∧ second.jwksCache = first.jwksCache

variable {fails : Answered OidcWait OidcWait.Answer → Prop}

omit [Clocks] [JsonGrammar] [UnicodeTables] [PyJwt] in
/-- A request fails closed where its reader raises. -/
theorem httpGet_failsClosed {α : Type} {client : RequestKind} {url : String} {reads : HttpOutcome → Except Raised α}
    (raises : ∀ outcome, fails ⟨.get client url, outcome⟩ → ∃ error, reads outcome = .error error) :
    Async.FailsClosed fails KeepsCaches (httpGet client url reads) := by
  refine ⟨fun outcome failed state => ⟨⟨rfl, rfl⟩, ?_⟩, fun outcome state => trivial⟩
  obtain ⟨error, raised⟩ := raises outcome failed
  exact ⟨error, congrArg Process.done raised⟩

omit [PyJwt] in
theorem resolve_failsClosed (issuerBaseUrl : String) :
    Async.FailsClosed (FetchFails clients.policy clients.keyResolver.maxKeys.toNat) KeepsCaches
      (clients.discovery.resolve issuerBaseUrl) := by
  have refreshes : ∀ issuer, Async.FailsClosed (FetchFails clients.policy clients.keyResolver.maxKeys.toNat)
      KeepsCaches (clients.discovery.refresh issuer) := by
    intro issuer
    refine Async.FailsClosed.access.andThen fun found => ?_
    cases found with
    | some cached => trivial
    | none =>
      refine Async.FailsClosed.access.andThen fun _ => ?_
      refine (Async.FailsClosed.adapt (httpGet_failsClosed fun _ => id)).andThen fun metadata => ?_
      exact Async.FailsClosed.access.andThen fun _ => trivial
  unfold OidcDiscoveryClient.resolve
  split
  · trivial
  · refine Async.FailsClosed.access.andThen fun found => ?_
    cases found with
    | some cached => trivial
    | none => exact .locked (fun _ _ => id) (fun _ _ _ => id) (refreshes _)

omit [PyJwt] in
theorem keysFor_failsClosed (jwksUri : String) (forceRefresh : Bool) :
    Async.FailsClosed (FetchFails clients.policy clients.keyResolver.maxKeys.toNat) KeepsCaches
      (clients.keyResolver.keysFor jwksUri forceRefresh) := by
  have stores : ∀ forced cached, Async.FailsClosed (FetchFails clients.policy clients.keyResolver.maxKeys.toNat)
      KeepsCaches (clients.keyResolver.fetchAndStore jwksUri forced cached) := by
    intro forced cached
    refine Async.FailsClosed.access.andThen fun _ => ?_
    have gets : Async.FailsClosed (FetchFails clients.policy clients.keyResolver.maxKeys.toNat) KeepsCaches
        (httpGet .jwks jwksUri (readKeys clients.keyResolver.policy clients.keyResolver.maxKeys.toNat)) := by
      rw [clients.samePolicy]
      exact httpGet_failsClosed fun _ => id
    have fetches : Async.FailsClosed (FetchFails clients.policy clients.keyResolver.maxKeys.toNat) KeepsCaches
        (clients.keyResolver.fetchKeys jwksUri) := by
      refine .adapt ?_
      cases clients.keyResolver.policy.assertJwksUriTrusted jwksUri with
      | ok _ => exact gets
      | error refused => trivial
    exact fetches.andThen fun keys => Async.FailsClosed.access.andThen fun _ => trivial
  have locked : ∀ forced, Async.FailsClosed (FetchFails clients.policy clients.keyResolver.maxKeys.toNat)
      KeepsCaches (jwksLock.locked (clients.keyResolver.refresh jwksUri forced)) := by
    intro forced
    refine .locked (fun _ _ => id) (fun _ _ _ => id) (Async.FailsClosed.access.andThen fun found => ?_)
    cases found with
    | none => exact stores forced false
    | some cached =>
      dsimp only
      split
      · trivial
      · refine Async.FailsClosed.access.andThen fun state => Async.FailsClosed.access.andThen fun now => ?_
        split
        · trivial
        · exact Async.FailsClosed.access.andThen fun _ => stores true true
  unfold JwksKeyResolver.keysFor
  split
  · exact locked true
  · refine Async.FailsClosed.access.andThen fun found => ?_
    cases found with
    | some cached => trivial
    | none => exact locked false

theorem resolveKey_failsClosed (jwksUri token : String) :
    Async.FailsClosed (FetchFails clients.policy clients.keyResolver.maxKeys.toNat) KeepsCaches
      (clients.keyResolver.resolve jwksUri token) := by
  unfold JwksKeyResolver.resolve
  split
  · trivial
  · split
    · trivial
    · split
      · trivial
      · split
        · trivial
        · refine (keysFor_failsClosed jwksUri false).andThen fun keys => ?_
          split
          · trivial
          · refine (keysFor_failsClosed jwksUri true).andThen fun keys => ?_
            split <;> trivial

/-- **A call raises when its fetch fails**, and leaves the caches alone. -/
theorem call_failsClosed (request : OidcRequest) :
    Async.FailsClosed (FetchFails clients.policy clients.keyResolver.maxKeys.toNat) KeepsCaches
      (clients.call request) := by
  cases request with
  | discovery issuerBaseUrl => exact (resolve_failsClosed issuerBaseUrl).andThen fun _ => trivial
  | key jwksUri token => exact (resolveKey_failsClosed jwksUri token).andThen fun _ => trivial

end Failure

/-! ### Discovery requests a time to live apart -/

section Spacing

/-- Every discovery request that ended did so with trusted metadata. -/
def DiscoveryFetched (policy : OidcNetworkSecurityPolicy) (log : List OidcEvent) : Prop :=
  ∀ url outcome, .received .discovery url outcome ∈ log → ∃ metadata, readMetadata policy outcome = .ok metadata

omit [Clocks] [PyJwt] in
theorem clean_of_discoveryFetched {state : OidcState} (fetched : DiscoveryFetched clients.policy state.log) :
    clients.discovery.cached.Clean state := by
  intro fetch member outcome ended
  obtain ⟨url, recorded⟩ := received_of_fetch member ended
  obtain ⟨metadata, reads⟩ := fetched url outcome recorded
  show (readMetadata clients.discovery.policy outcome).toOption.isSome
  rw [show readMetadata clients.discovery.policy outcome = .ok metadata from reads]
  rfl

variable {monotone : Monotone Clocks.monotonic}

/-- **A call keeps the timeline of discovery.** -/
theorem call_timeline (request : OidcRequest) :
    Monitor.Meets (clients.discovery.cached.monitor monotone) false (fun _ => True) (fun _ _ => True)
      (fun _ => True) (clients.call request) := by
  cases request with
  | discovery issuerBaseUrl =>
    exact (resolve_timeline clients.discovery issuerBaseUrl).bind fun _ => .pure fun _ _ => trivial
  | key jwksUri token =>
    -- The steps of a key call are recorded, but none of them is a step of discovery.
    have unseen : ∀ (event : OidcEvent) (state : OidcState), (∀ older, fetchesOf .discovery (event :: older) =
        fetchesOf .discovery older) → clients.discovery.cached.view (state.record event) =
        clients.discovery.cached.view state := by
      intro event state skipped
      simp only [CachedClient.view, CachedClient.snapshot, OidcState.record]
      exact congrArg (fun fetches => (Snapshot.mk _ _ fetches, _)) (skipped state.log)
    have steps : JwksSteps jwksUri (fun first second => CachedClient.Passes first second ∧
        (clients.discovery.cached.monitor monotone).locked second =
          (clients.discovery.cached.monitor monotone).locked first ∧
        clients.discovery.cached.view second = clients.discovery.cached.view first)
        (fun want => clients.discovery.cached.inside want = false) := by
      refine ⟨fun state => ⟨.refl state, rfl, rfl⟩, fun state => ⟨⟨Nat.le_succ _, List.suffix_refl _⟩, rfl, rfl⟩,
        fun state => ⟨⟨Nat.le_succ _, List.suffix_refl _⟩, rfl, rfl⟩,
        fun keys state => ⟨⟨Nat.le_succ _, List.suffix_refl _⟩, rfl, rfl⟩,
        fun now state => ⟨⟨le_refl _, List.suffix_refl _⟩, rfl, rfl⟩,
        fun forced cached state => ⟨CachedClient.record_passes _, rfl, unseen _ state fun older => rfl⟩,
        fun outcome state => ⟨CachedClient.record_passes _, rfl, unseen _ state fun older => rfl⟩, rfl⟩
    have resolves : Monitor.Meets (clients.discovery.cached.monitor monotone) false (fun _ => True)
        (fun _ _ => True) (fun _ => True) (clients.keyResolver.resolve jwksUri token) :=
      .outside (resolveKey_uses (fun _ => steps)
        (fun lock state => ⟨⟨le_refl _, List.suffix_refl _⟩, rfl, rfl⟩) (fun ticket => rfl) token)
    exact resolves.bind fun _ => .pure fun _ _ => trivial

/-- **Successful discovery requests start a time to live apart.** -/
theorem run_discovery_spaced (monotone : Monotone Clocks.monotonic)
    (ran : clients.system.run clients.idle actions = some last)
    (fetched : DiscoveryFetched clients.policy last.shared.log) :
    (fetchesOf .discovery last.shared.log).Pairwise fun later earlier =>
      earlier.startedAt + (clients.discovery.cacheTtlSeconds : ℚ) ≤ later.startedAt := by
  have guards : Monitor.SystemGuards (clients.discovery.cached.monitor monotone) clients.system 0
      fun _ _ _ => True :=
    ⟨rfl, fun request index _ state kept =>
      (call_timeline request).program (fun _ _ _ => trivial) (fun _ _ _ => trivial) kept trivial⟩
  have settled : clients.discovery.cached.Settled clients.idle.shared := by
    refine ⟨rfl, fun _ => ⟨?_, .nil, .nil, .nil, ?_⟩, fun _ => ⟨fun _ => ⟨rfl, rfl⟩, fun fetch older some => ?_⟩⟩
    · intro fetch member
      cases member
    · intro fetch member
      cases member
    · cases some
  have guarded := (Monitor.run_guarded guards ran (Nat.zero_le _) (Monitor.Guarded.initial rfl settled)).1
  have spaced := CachedClient.spaced_of_invariant guarded.invariant (clean_of_discoveryFetched fetched)
  refine spaced.uncached.imp_of_mem fun isLater _ apart => apart ?_
  -- Discovery leaves no stamp, so none of its requests was forced.
  by_contra cached
  obtain ⟨stamp, none, -⟩ := spaced.bounded _ isLater (by simpa using cached)
  cases none

end Spacing

/-! ### The caches in every reachable state -/

/-- A request that its client is going to raise on: nothing in the cache of the client changes from here to the
answer, which ends the call with an exception. -/
def FailsApart (clients : OidcClients) (kind : RequestKind) (pool : OidcPool) : Prop :=
  ∀ index request url continuation more later answer next,
    pool.tasks[index]? = some (request, .wait (.get kind url) continuation) →
    (∀ answer, .resume index answer ∉ more) → clients.system.run pool more = some later →
    FetchFails clients.policy clients.keyResolver.maxKeys.toNat ⟨.get kind url, answer (.get kind url)⟩ →
    clients.system.perform later (.resume index answer) = some next →
      contents kind next.shared = contents kind pool.shared ∧
        ∃ error, next.tasks[index]? = some (request, .done (.error error))

/-- What holds of both clients in every reachable state. -/
structure SoundCaches (clients : OidcClients) (pool : OidcPool) : Prop where
  metadata : ∀ entry ∈ pool.shared.discoveryCache.entries, entry.value.issuer = clients.policy.issuerUrl ∧
    clients.policy.assertJwksUriTrusted entry.value.jwksUri = .ok ()
  keys : ∀ entry ∈ pool.shared.jwksCache.entries, clients.policy.assertJwksUriTrusted entry.key = .ok () ∧
    IndexedKeys clients.policy clients.keyResolver.maxKeys.toNat entry.value
  exclusive : ∀ kind first second, Requesting kind pool first → Requesting kind pool second → first = second
  failsApart : ∀ kind, FailsApart clients kind pool
  spaced : Monotone Clocks.monotonic → DiscoveryFetched clients.policy pool.shared.log →
    (fetchesOf .discovery pool.shared.log).Pairwise fun later earlier =>
      earlier.startedAt + (clients.discovery.cacheTtlSeconds : ℚ) ≤ later.startedAt

/-- **A request that fails** changes nothing in the cache of its client and raises in its caller. -/
theorem run_failsApart (ran : clients.system.run clients.idle actions = some pool) (kind : RequestKind) :
    FailsApart clients kind pool := by
  intro index request url continuation more later answer next found waits ranOn failed performed
  obtain ⟨same, sameTask⟩ := run_contents ran ranOn ⟨request, url, continuation, found⟩ waits
  have reached : clients.system.run clients.idle (actions ++ more) = some later := by
    rw [run_append, ran]
    exact ranOn
  have closed := run_failsClosed (fun request => call_failsClosed request) reached fun task member => by
    cases member
  obtain ⟨kept, raised⟩ := perform_failsClosed closed performed (sameTask.trans found) failed
  refine ⟨Eq.trans ?_ same, raised⟩
  cases kind with
  | discovery => exact congrArg TtlCache.Cache.entryAt kept.1
  | jwks => exact congrArg TtlCache.Cache.entryAt kept.2

/-- **The caches of both clients are sound in every reachable state**, whatever calls run concurrently, however
their requests end and whenever they end. -/
theorem oidc_caches_sound (clients : OidcClients) (actions : List (Action OidcWait OidcWait.Answer OidcRequest))
    (pool : OidcPool) (ran : clients.system.run clients.idle actions = some pool) : SoundCaches clients pool := by
  have provenance := run_provenance ran
  refine ⟨fun entry member => ?_, fun entry member => ⟨run_caches_trusted ran entry member, ?_⟩,
    fun kind first second => run_exclusive ran, run_failsApart ran,
    fun monotone fetched => run_discovery_spaced monotone ran fetched⟩
  · obtain ⟨outcome, -, reads⟩ := provenance.discovered entry member
    exact readMetadata_trusted reads
  · obtain ⟨outcome, -, reads⟩ := provenance.fetched entry member
    rw [clients.samePolicy] at reads
    exact readKeys_indexed reads

omit [Clocks] [JsonGrammar] [UnicodeTables] [PyJwt]

/-- The clients of the issuer. -/
def issuerClients : OidcClients := ⟨issuerDiscovery, issuerKeyResolver, rfl⟩

/-- Two discovery calls and a key call run concurrently; the keys are refused once. -/
def issuerCalls : List (Action OidcWait OidcWait.Answer OidcRequest) :=
  [.spawn (.discovery "https://issuer.example"), .spawn (.key issuerJwksUri issuerToken),
    .spawn (.discovery "https://issuer.example"), .spawn (.key issuerJwksUri issuerToken),
    .resume 1 (networkAnswer .httpError .httpError),
    .resume 0 (networkAnswer (jsonResponse (discoveryText issuerJwksUri)) .httpError),
    .resume 3 (networkAnswer .httpError (jsonResponse keysText)),
    .resume 2 (networkAnswer .httpError .httpError)]

theorem oidc_caches_sound_issuer :
    let _ := asciiTables
    let _ := issuerJwt
    let _ := issuerGrammar
    let _ := stoppedClocks
    ∃ pool, issuerClients.system.run issuerClients.idle issuerCalls = some pool ∧
      pool.shared.discoveryCache.entries.length = 1 ∧ SoundCaches issuerClients pool := by
  intro _ _ _ _
  have evaluated : (issuerClients.system.run issuerClients.idle issuerCalls).any (fun pool =>
      pool.shared.discoveryCache.entries.length == 1) = true := by decide +kernel
  obtain ⟨pool, ran, cached⟩ := (Option.any_eq_true _ _).mp evaluated
  exact ⟨pool, ran, beq_iff_eq.mp cached, oidc_caches_sound issuerClients issuerCalls pool ran⟩

end McpAuth
