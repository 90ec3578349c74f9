/-
**The caches of the OIDC clients as timelines.**

Both clients keep documents in a cache that they refresh under their own lock. A `CachedClient` is one of
them with one cache key; its `snapshot` of the shared state is the state of a `RefreshTimeline`, and its
`monitor` says what the lock protects: while it is free the cache holds the document of the latest fetch,
and at every suspension the starts of the fetches are spaced, as long as every fetch succeeded and the
clock never goes back.

The steps of a refresh follow the timeline: `startFetch_meets`, `httpGet_meets`, `store_meets`.
-/

import McpAuth.Adapters.JwksKeyResolver
import McpAuth.Library.Monitor
import McpAuth.Library.RefreshTimeline

namespace McpAuth

open Cooperative JsonText PyText RefreshTimeline

/-! ### Fetches in the log -/

/-- The fetches of one client, newest first. An outcome is that of the latest fetch. -/
def fetchesOf (client : RequestKind) : List OidcEvent → List (Fetch HttpOutcome ℚ)
  | [] => []
  | .fetchStarted kind _ _ cached startedAt :: older =>
    if kind = client then ⟨startedAt, cached, none⟩ :: fetchesOf client older
    else fetchesOf client older
  | .received kind _ outcome :: older =>
    if kind = client then received outcome (fetchesOf client older) else fetchesOf client older

/-- A longer log records the same fetches, some with an outcome they did not have. -/
theorem fetchesOf_grows {client : RequestKind} {log later : List OidcEvent} (grows : log <:+ later) :
    ∀ fetch ∈ fetchesOf client log, ∃ found ∈ fetchesOf client later,
      found.startedAt = fetch.startedAt ∧
        ∀ known, fetch.outcome = some known → found.outcome = some known := by
  obtain ⟨events, rfl⟩ := grows
  induction events with
  | nil => exact fun fetch member => ⟨fetch, member, rfl, fun _ same => same⟩
  | cons event events ih =>
    intro fetch member
    obtain ⟨found, isFound, started, ended⟩ := ih fetch member
    cases event with
    | fetchStarted kind url forced cached startedAt =>
      by_cases same : kind = client
      · exact ⟨found, by simp [fetchesOf, same, isFound], started, ended⟩
      · exact ⟨found, by simpa [fetchesOf, same] using isFound, started, ended⟩
    | received kind url outcome =>
      by_cases same : kind = client
      · obtain ⟨again, isAgain, restarted, reended⟩ := @mem_received _ _ outcome _ _ isFound
        refine ⟨again, by simpa [fetchesOf, same] using isAgain, restarted.trans started, ?_⟩
        exact fun known outcomeKnown => reended known (ended known outcomeKnown)
      · exact ⟨found, by simpa [fetchesOf, same] using isFound, started, ended⟩

/-- The outcome of a fetch is recorded. -/
theorem received_of_fetch {client : RequestKind} {log : List OidcEvent} {fetch : Fetch HttpOutcome ℚ}
    (member : fetch ∈ fetchesOf client log) {outcome : HttpOutcome} (ended : fetch.outcome = some outcome) :
    ∃ url, .received client url outcome ∈ log := by
  induction log generalizing fetch with
  | nil => cases member
  | cons event older ih =>
    cases event with
    | fetchStarted kind url forced cached startedAt =>
      by_cases same : kind = client
      · simp only [fetchesOf, if_pos same, List.mem_cons] at member
        rcases member with rfl | isOlder
        · cases ended
        · obtain ⟨url, recorded⟩ := ih isOlder ended
          exact ⟨url, List.mem_cons_of_mem _ recorded⟩
      · simp only [fetchesOf, if_neg same] at member
        obtain ⟨url, recorded⟩ := ih member ended
        exact ⟨url, List.mem_cons_of_mem _ recorded⟩
    | received kind url latest =>
      by_cases same : kind = client
      · subst same
        simp only [fetchesOf, if_true] at member
        cases known : fetchesOf kind older with
        | nil =>
          rw [known] at member
          cases member
        | cons first rest =>
          rw [known] at member ih
          rcases List.mem_cons.mp member with rfl | isRest
          · cases before : first.outcome with
            | none =>
              obtain rfl : latest = outcome := by simpa [before] using ended
              exact ⟨url, List.mem_cons_self⟩
            | some earlier =>
              obtain rfl : earlier = outcome := by simpa [before] using ended
              obtain ⟨url, recorded⟩ := ih List.mem_cons_self before
              exact ⟨url, List.mem_cons_of_mem _ recorded⟩
          · obtain ⟨url, recorded⟩ := ih (List.mem_cons_of_mem _ isRest) ended
            exact ⟨url, List.mem_cons_of_mem _ recorded⟩
      · simp only [fetchesOf, if_neg same] at member
        obtain ⟨url, recorded⟩ := ih member ended
        exact ⟨url, List.mem_cons_of_mem _ recorded⟩

/-! ### Cached clients -/

/-- One client with one cache key: where its lock and cache lie, its stamp, and its policy. -/
structure CachedClient (ν : Type) where
  client : RequestKind
  lock : LockField OidcState OidcWait
  cache : CacheField ν
  key : String
  stamp : OidcState → Option ℚ
  policy : Policy HttpOutcome ν ℚ
  turn : lock.turn = .turn client
  turn_ready : ∀ ticket state,
    OidcWait.ready (.turn client ticket) state = (lock.get state).isTurn ticket
  lock_get : ∀ value state, lock.get (lock.set value state) = value
  cache_get : ∀ value state, cache.get (cache.set value state) = value
  locking : ∀ value state, cache.get (lock.set value state) = cache.get state ∧
    stamp (lock.set value state) = stamp state ∧ (lock.set value state).log = state.log ∧
    (lock.set value state).readings = state.readings
  caching : ∀ value state, lock.get (cache.set value state) = lock.get state ∧
    stamp (cache.set value state) = stamp state ∧ (cache.set value state).log = state.log ∧
    (cache.set value state).readings = state.readings ∧ (cache.set value state).now = state.now
  clocked : ∀ readings now state, lock.get { state with readings := readings, now := now } = lock.get state ∧
    cache.get { state with readings := readings, now := now } = cache.get state ∧
    stamp { state with readings := readings, now := now } = stamp state
  logged : ∀ log state, lock.get { state with log := log } = lock.get state ∧
    cache.get { state with log := log } = cache.get state ∧ stamp { state with log := log } = stamp state

namespace CachedClient

variable {ν : Type} (cached : CachedClient ν)

/-- The timeline of the client. -/
def snapshot (state : OidcState) : Snapshot HttpOutcome ν ℚ where
  entry := ((cached.cache.get state).entryAt cached.key).map fun entry => (entry.value, entry.expires)
  stamp := cached.stamp state
  fetches := fetchesOf cached.client state.log

/-- Every fetch of the client that ended succeeded. -/
def Clean (state : OidcState) : Prop := Succeeds cached.policy (cached.snapshot state).fetches

variable [Clocks]

/-- While the lock is free. -/
structure Settled (state : OidcState) : Prop where
  ttl : (cached.cache.get state).ttl = cached.policy.ttl
  spaced : cached.Clean state →
    Spaced cached.policy (Clocks.monotonic state.readings) (cached.snapshot state)
  filled : cached.Clean state → Filled cached.policy (cached.snapshot state)

/-- During a fetch. -/
structure Fetching (state : OidcState) : Prop where
  ttl : (cached.cache.get state).ttl = cached.policy.ttl
  spaced : cached.Clean state →
    Spaced cached.policy (Clocks.monotonic state.readings) (cached.snapshot state)

/-- Time passes and the log grows. -/
structure Passes (first second : OidcState) : Prop where
  readings : first.readings ≤ second.readings
  log : first.log <:+ second.log

variable {cached} {first second state : OidcState}

omit [Clocks] in
theorem Passes.refl (state : OidcState) : Passes state state := ⟨le_refl _, List.suffix_refl _⟩

omit [Clocks] in
theorem Passes.trans {third : OidcState} (before : Passes first second) (after : Passes second third) :
    Passes first third :=
  ⟨before.readings.trans after.readings, before.log.trans after.log⟩

theorem Settled.congr (monotone : Monotone Clocks.monotonic) (settled : cached.Settled first)
    (sameSnapshot : cached.snapshot second = cached.snapshot first)
    (sameTtl : (cached.cache.get second).ttl = (cached.cache.get first).ttl)
    (readings : first.readings ≤ second.readings) : cached.Settled second := by
  refine ⟨sameTtl.trans settled.ttl, fun clean => ?_, fun clean => ?_⟩
  · rw [Clean, sameSnapshot] at clean
    rw [sameSnapshot]
    exact (settled.spaced clean).mono (monotone readings)
  · rw [Clean, sameSnapshot] at clean
    rw [sameSnapshot]
    exact settled.filled clean

theorem Fetching.congr (monotone : Monotone Clocks.monotonic) (fetching : cached.Fetching first)
    (sameSnapshot : cached.snapshot second = cached.snapshot first)
    (sameTtl : (cached.cache.get second).ttl = (cached.cache.get first).ttl)
    (readings : first.readings ≤ second.readings) : cached.Fetching second := by
  refine ⟨sameTtl.trans fetching.ttl, fun clean => ?_⟩
  rw [Clean, sameSnapshot] at clean
  rw [sameSnapshot]
  exact (fetching.spaced clean).mono (monotone readings)

/-- What only the holder of the lock changes. -/
def view (cached : CachedClient ν) (state : OidcState) : Snapshot HttpOutcome ν ℚ × ℚ :=
  (cached.snapshot state, (cached.cache.get state).ttl)

/-- The suspension inside the critical section: the request of the client. -/
def inside (cached : CachedClient ν) : OidcWait → Bool
  | .get client _ => client = cached.client
  | .turn _ _ => false

omit [Clocks] in
theorem view_lock (value : AsyncLock) (state : OidcState) :
    cached.view (cached.lock.set value state) = cached.view state := by
  obtain ⟨sameCache, sameStamp, sameLog, -⟩ := cached.locking value state
  simp [view, snapshot, sameCache, sameStamp, sameLog]

/-- **The monitor of the client's lock.** -/
def monitor (cached : CachedClient ν) (monotone : Monotone Clocks.monotonic) :
    Monitor OidcState OidcWait (Snapshot HttpOutcome ν ℚ × ℚ) where
  field := cached.lock
  ready := OidcWait.ready
  inside := cached.inside
  view := cached.view
  evolves := Passes
  free := cached.Settled
  busy := cached.Fetching
  refl := Passes.refl
  trans := Passes.trans
  free_stable same passed settled :=
    settled.congr monotone (congrArg Prod.fst same) (congrArg Prod.snd same) passed.readings
  busy_stable same passed fetching :=
    fetching.congr monotone (congrArg Prod.fst same) (congrArg Prod.snd same) passed.readings
  get_set := cached.lock_get
  view_set := view_lock
  evolves_set value state :=
    ⟨(cached.locking value state).2.2.2.ge, (cached.locking value state).2.2.1 ▸ List.suffix_refl _⟩
  turn_outside ticket := by rw [cached.turn]; rfl
  turn_ready ticket state := by rw [cached.turn]; exact cached.turn_ready ticket state

/-! ### One refresh -/

/-- Right before a fetch. -/
structure Ready (cached : CachedClient ν) (isCached : Bool) (since : ℚ) (state : OidcState) : Prop where
  ttl : (cached.cache.get state).ttl = cached.policy.ttl
  now : state.now ≤ Clocks.monotonic state.readings
  starts : cached.Clean state →
    Spaced cached.policy state.now ((cached.snapshot state).start state.now isCached) ∧
      Pending since ((cached.snapshot state).start state.now isCached)

/-- While the request is open. -/
structure Requested (cached : CachedClient ν) (since : ℚ) (state : OidcState) : Prop where
  fetching : cached.Fetching state
  pending : cached.Clean state → Pending since (cached.snapshot state)

/-- Right before the document is cached. -/
structure Answered (cached : CachedClient ν) (since : ℚ) (value : ν) (state : OidcState) : Prop where
  ttl : (cached.cache.get state).ttl = cached.policy.ttl
  answered : cached.Clean state → ∃ before outcome,
    Spaced cached.policy (Clocks.monotonic state.readings) before ∧ Pending since before ∧
      cached.snapshot state = before.receive outcome ∧ cached.policy.reads outcome = some value

/-- After a fetch that failed. -/
structure Failed (cached : CachedClient ν) (state : OidcState) : Prop where
  settled : cached.Settled state
  unclean : ¬ cached.Clean state

/-- After a fetch or a look at the cache: the document came with a fetch since then. -/
structure Holds (cached : CachedClient ν) (since : ℚ) (value : ν) (state : OidcState) : Prop where
  settled : cached.Settled state
  served : cached.Clean state → Served cached.policy since value (cached.snapshot state).fetches

section Steps

variable {monotone : Monotone Clocks.monotonic} {since : ℚ} {raises : OidcState → Prop}

omit [Clocks] in
theorem snapshot_fetchStarted (url : String) (forced isCached : Bool) (startedAt : ℚ) :
    cached.snapshot (state.record (.fetchStarted cached.client url forced isCached startedAt)) =
      (cached.snapshot state).start startedAt isCached := by
  obtain ⟨-, sameCache, sameStamp⟩ := cached.logged
    (.fetchStarted cached.client url forced isCached startedAt :: state.log) state
  simp only [snapshot, OidcState.record, sameCache, sameStamp, fetchesOf, if_true, Snapshot.start]

omit [Clocks] in
theorem snapshot_received (url : String) (outcome : HttpOutcome) :
    cached.snapshot (state.record (.received cached.client url outcome)) =
      (cached.snapshot state).receive outcome := by
  obtain ⟨-, sameCache, sameStamp⟩ := cached.logged (.received cached.client url outcome :: state.log) state
  simp only [snapshot, OidcState.record, sameCache, sameStamp, fetchesOf, if_true, Snapshot.receive]

omit [Clocks] in
theorem record_passes (event : OidcEvent) : Passes state (state.record event) :=
  ⟨le_refl _, List.suffix_cons _ _⟩

variable (cached) in
/-- **A fetch starts.** -/
theorem startFetch_meets (url : String) (forced isCached : Bool) :
    Monitor.Meets (cached.monitor monotone) true (cached.Ready isCached since)
      (fun _ => cached.Requested since) raises (startFetch cached.client url forced isCached) := by
  refine .access (fun state => record_passes _) (fun state => ?_) (fun outside => by cases outside)
    fun state ready _ => ?_
  · exact congrArg AsyncLock.locked (cached.logged _ state).1
  have sameTtl := congrArg TtlCache.Cache.ttl (cached.logged
    (.fetchStarted cached.client url forced isCached state.now :: state.log) state).2.1
  have started := @snapshot_fetchStarted _ cached state url forced isCached state.now
  have before : cached.Clean (state.record (.fetchStarted cached.client url forced isCached state.now)) →
      cached.Clean state := by
    intro clean fetch member
    rw [Clean, started] at clean
    exact clean fetch (List.mem_cons_of_mem _ member)
  refine ⟨⟨sameTtl.trans ready.ttl, fun clean => ?_⟩, fun clean => ?_⟩
  · rw [started]
    exact (ready.starts (before clean)).1.mono ready.now
  · rw [started]
    exact (ready.starts (before clean)).2

variable (cached) in
/-- **The request ends**, and its outcome is read. -/
theorem httpGet_meets (url : String) {reads : HttpOutcome → Except Raised ν}
    (agrees : ∀ outcome, cached.policy.reads outcome = (reads outcome).toOption) :
    Monitor.Meets (cached.monitor monotone) true (cached.Requested since)
      (fun value => cached.Answered since value) cached.Failed (httpGet cached.client url reads) := by
  have waits : Monitor.Meets (cached.monitor monotone) true (cached.Requested since)
      (fun _ : HttpOutcome => cached.Requested since) cached.Failed
      (Async.lift (.await (OidcWait.get cached.client url)) : OidcAsync HttpOutcome) := by
    refine .awaitInside (by simp [monitor, inside]) (fun state requested => requested.fetching) ?_
    intro outcome state later requested passed same
    have sameSnapshot : cached.snapshot later = cached.snapshot state := congrArg Prod.fst same
    refine ⟨requested.fetching.congr monotone sameSnapshot (congrArg Prod.snd same) passed.readings, ?_⟩
    intro clean
    rw [Clean, sameSnapshot] at clean
    rw [sameSnapshot]
    exact requested.pending clean
  refine waits.bind fun outcome => ?_
  have records : Monitor.Meets (cached.monitor monotone) true (cached.Requested since)
      (fun _ state => (cached.cache.get state).ttl = cached.policy.ttl ∧
        (cached.Clean state → ∃ before, Spaced cached.policy (Clocks.monotonic state.readings) before ∧
          Pending since before ∧ cached.snapshot state = before.receive outcome)) cached.Failed
      (Async.lift (.write (·.record (.received cached.client url outcome))) : OidcAsync Unit) := by
    refine .access (fun state => record_passes _) (fun state => ?_) (fun outside => by cases outside)
      fun state requested _ => ⟨?_, fun clean => ⟨cached.snapshot state, ?_, ?_, snapshot_received _ _⟩⟩
    · exact congrArg AsyncLock.locked (cached.logged _ state).1
    · have sameTtl := congrArg TtlCache.Cache.ttl (cached.logged
        (.received cached.client url outcome :: state.log) state).2.1
      exact sameTtl.trans requested.fetching.ttl
    all_goals
      have before : cached.Clean state := by
        intro fetch member known isKnown
        rw [Clean, snapshot_received] at clean
        obtain ⟨later, found, -, ended⟩ := @mem_received _ _ outcome _ _ member
        exact clean later found known (ended known isKnown)
    · exact requested.fetching.spaced before
    · exact requested.pending before
  refine records.bind fun _ => .ofExcept (fun value read state known => ?_) fun error raised state known => ?_
  · refine ⟨known.1, fun clean => ?_⟩
    obtain ⟨before, spaced, pending, same⟩ := known.2 clean
    exact ⟨before, outcome, spaced, pending, same, by rw [agrees, read]; rfl⟩
  · have unclean : ¬ cached.Clean state := by
      intro clean
      obtain ⟨before, -, pending, same⟩ := known.2 clean
      obtain ⟨fetch, older, known, open', -, -⟩ := pending.latest
      have ended : (cached.snapshot state).fetches =
          ⟨fetch.startedAt, fetch.cached, some outcome⟩ :: older := by
        simp [same, Snapshot.receive, received, known, open']
      have reads := clean _ (ended ▸ List.mem_cons_self) outcome rfl
      rw [agrees, raised] at reads
      cases reads
    exact ⟨⟨known.1, fun clean => absurd clean unclean, fun clean => absurd clean unclean⟩, unclean⟩

/-- The snapshot after the cache was replaced at a clock reading. -/
theorem snapshot_cached (value : TtlCache.Cache String ν ℚ) :
    cached.snapshot (cached.cache.set value state.tick) =
      { cached.snapshot state with
        entry := (value.entryAt cached.key).map fun entry => (entry.value, entry.expires) } := by
  obtain ⟨-, sameStamp, sameLog, -⟩ := cached.caching value state.tick
  have clocked := (cached.clocked (state.readings + 1) (Clocks.monotonic state.readings) state).2.2
  simp only [snapshot, cached.cache_get, sameStamp, sameLog]
  exact congrArg (fun stamp => Snapshot.mk _ stamp _) clocked

theorem cacheSet_passes (value : TtlCache.Cache String ν ℚ) :
    Passes state (cached.cache.set value state.tick) ∧
      (cached.monitor monotone).locked (cached.cache.set value state.tick) =
        (cached.monitor monotone).locked state := by
  obtain ⟨sameLock, -, sameLog, sameReadings, -⟩ := cached.caching value state.tick
  have clocked := (cached.clocked (state.readings + 1) (Clocks.monotonic state.readings) state).1
  refine ⟨⟨?_, ?_⟩, congrArg AsyncLock.locked (sameLock.trans clocked)⟩
  · rw [sameReadings]
    exact Nat.le_succ _
  · rw [sameLog]
    exact List.suffix_refl _

variable (cached) in
/-- **The document is cached.** -/
theorem store_meets (value : ν) :
    Monitor.Meets (cached.monitor monotone) true (cached.Answered since value)
      (fun _ => cached.Holds since value) raises (cached.cache.store cached.key value) := by
  refine .access (fun state => (@cacheSet_passes _ cached _ state monotone _).1)
    (fun state => (cacheSet_passes _).2) (fun outside => by cases outside) fun state answered _ => ?_
  have sameCache := (cached.clocked (state.readings + 1) (Clocks.monotonic state.readings) state).2.1
  have stored : cached.snapshot (cached.cache.stored cached.key value state) =
      (cached.snapshot state).store value (Clocks.monotonic state.readings + cached.policy.ttl) := by
    rw [CacheField.stored, snapshot_cached, TtlCache.Cache.entryAt_store_self, ← answered.ttl]
    rfl
  have ttl : (cached.cache.get (cached.cache.stored cached.key value state)).ttl = cached.policy.ttl := by
    rw [CacheField.stored, cached.cache_get, TtlCache.Cache.ttl_store, answered.ttl]
  have later : (cached.cache.stored cached.key value state).readings = state.readings + 1 :=
    (cached.caching _ state.tick).2.2.2.1
  have known : cached.Clean (cached.cache.stored cached.key value state) →
      ∃ before outcome, Spaced cached.policy (Clocks.monotonic state.readings) before ∧
        Pending since before ∧ cached.snapshot state = before.receive outcome ∧
        cached.policy.reads outcome = some value := by
    intro clean
    rw [Clean, stored] at clean
    exact answered.answered clean
  refine ⟨⟨ttl, fun clean => ?_, fun clean => ?_⟩, fun clean => ?_⟩
  all_goals obtain ⟨before, outcome, spaced, pending, same, reads⟩ := known clean
  · rw [stored, same, later]
    exact ((spaced.receive outcome).store value _).mono (monotone (Nat.le_succ _))
  · rw [stored, same]
    exact pending.store spaced reads (le_refl _)
  · rw [stored, same]
    exact pending.served reads

/-- Nothing live was found under the lock. -/
structure Missing (cached : CachedClient ν) (state : OidcState) : Prop where
  settled : cached.Settled state
  now : state.now ≤ Clocks.monotonic state.readings
  spaced : cached.Clean state → Spaced cached.policy state.now (cached.snapshot state)
  dead : ∀ value expires, (cached.snapshot state).entry = some (value, expires) → expires ≤ state.now

/-- What a look at the cache under the lock finds. -/
structure Looked (cached : CachedClient ν) (start : ℚ) (found : Option ν) (state : OidcState) : Prop where
  settled : cached.Settled state
  started : start ≤ Clocks.monotonic state.readings
  hit : ∀ value, found = some value → ∃ expires, (cached.snapshot state).entry = some (value, expires)
  miss : found = none → cached.Missing state ∧ start ≤ state.now

variable (cached) in
/-- **A look at the cache under the lock.** -/
theorem lookup_meets (start : ℚ) :
    Monitor.Meets (cached.monitor monotone) true
      (fun state => cached.Settled state ∧ start ≤ Clocks.monotonic state.readings)
      (fun found => cached.Looked start found) raises (cached.cache.lookup cached.key) := by
  refine .access (fun state => (@cacheSet_passes _ cached _ state monotone _).1)
    (fun state => (cacheSet_passes _).2) (fun outside => by cases outside) fun state known _ => ?_
  obtain ⟨settled, started⟩ := known
  have same : cached.snapshot (cached.cache.looked cached.key state) = cached.snapshot state := by
    rw [CacheField.looked, snapshot_cached, TtlCache.Cache.entryAt_touch]
    rfl
  have ttl : (cached.cache.get (cached.cache.looked cached.key state)).ttl = (cached.cache.get state).ttl := by
    rw [CacheField.looked, cached.cache_get, TtlCache.Cache.ttl_touch]
  obtain ⟨-, -, -, later, now⟩ := cached.caching ((cached.cache.get state).touch
    (Clocks.monotonic state.readings) cached.key) state.tick
  have readings : state.readings ≤ (cached.cache.looked cached.key state).readings := later ▸ Nat.le_succ _
  have next : Clocks.monotonic state.readings ≤
      Clocks.monotonic (cached.cache.looked cached.key state).readings := monotone readings
  have settledStill := settled.congr monotone same ttl readings
  refine ⟨settledStill, started.trans next, fun value found => ?_, fun missing => ⟨⟨settledStill, ?_, ?_, ?_⟩, ?_⟩⟩
  · obtain ⟨entry, isEntry, rfl, -⟩ := TtlCache.Cache.get?_eq_some found
    exact ⟨entry.expires, by rw [same]; simp [snapshot, isEntry]⟩
  · exact now.trans_le next
  · intro clean
    rw [Clean, same] at clean
    rw [same, CacheField.looked, now]
    exact settled.spaced clean
  · intro value expires stored
    rw [same] at stored
    obtain ⟨entry, isEntry, pair⟩ := Option.map_eq_some_iff.mp stored
    obtain ⟨-, rfl⟩ := Prod.mk.inj pair
    exact (TtlCache.Cache.get?_eq_none missing isEntry).trans_eq now.symm
  · exact started.trans_eq now.symm

/-- Nothing live is cached: a fetch may start. -/
theorem Missing.ready (missing : cached.Missing state) (le : since ≤ state.now) :
    cached.Ready false since state :=
  ⟨missing.settled.ttl, missing.now, fun clean =>
    ⟨(missing.spaced clean).startUncached (missing.settled.filled clean) missing.dead,
      pending_startUncached (missing.spaced clean) (missing.settled.filled clean) le⟩⟩

/-- At every suspension the starts are spaced. -/
theorem spaced_of_invariant (kept : (cached.monitor monotone).Invariant state) (clean : cached.Clean state) :
    Spaced cached.policy (Clocks.monotonic state.readings) (cached.snapshot state) := by
  cases held : (cached.monitor monotone).locked state with
  | true => exact (kept.busy held).spaced clean
  | false => exact (kept.free held).spaced clean

variable (cached) in
/-- **A look at the cache outside the lock** changes nothing that the lock protects. -/
theorem lookup_outside (start : ℚ) :
    Monitor.Meets (cached.monitor monotone) false (fun state => start ≤ Clocks.monotonic state.readings)
      (fun _ state => start ≤ Clocks.monotonic state.readings) raises (cached.cache.lookup cached.key) := by
  have same : ∀ state, cached.snapshot (cached.cache.looked cached.key state) = cached.snapshot state := by
    intro state
    rw [CacheField.looked, snapshot_cached, TtlCache.Cache.entryAt_touch]
    rfl
  have ttl : ∀ state, (cached.cache.get (cached.cache.looked cached.key state)).ttl =
      (cached.cache.get state).ttl := by
    intro state
    rw [CacheField.looked, cached.cache_get, TtlCache.Cache.ttl_touch]
  refine .access (fun state => (@cacheSet_passes _ cached _ state monotone _).1)
    (fun state => (cacheSet_passes _).2) (fun _ state => Prod.ext (same state) (ttl state))
    fun state started _ => ?_
  have passed := (@cacheSet_passes _ cached _ state monotone
    ((cached.cache.get state).touch (Clocks.monotonic state.readings) cached.key)).1
  exact started.trans (monotone passed.readings)

end Steps

end CachedClient

/-! ### Discovery -/

section Discovery

variable [JsonGrammar] [UnicodeTables]

/-- The discovery client, with the one key it uses. -/
def OidcDiscoveryClient.cached (client : OidcDiscoveryClient) : CachedClient OidcMetadata where
  client := .discovery
  lock := discoveryLock
  cache := discoveryCache
  key := client.policy.issuerUrl
  stamp _ := none
  policy := ⟨client.cacheTtlSeconds, client.cacheTtlSeconds,
    fun outcome => (readMetadata client.policy outcome).toOption⟩
  turn := rfl
  turn_ready _ _ := rfl
  lock_get _ _ := rfl
  cache_get _ _ := rfl
  locking _ _ := ⟨rfl, rfl, rfl, rfl⟩
  caching _ _ := ⟨rfl, rfl, rfl, rfl, rfl⟩
  clocked _ _ _ := ⟨rfl, rfl, rfl⟩
  logged _ _ := ⟨rfl, rfl, rfl⟩

variable [Clocks] {monotone : Monotone Clocks.monotonic}

/-- **Discovery keeps its timeline.** -/
theorem resolve_timeline (client : OidcDiscoveryClient) (issuerBaseUrl : String) :
    Monitor.Meets (client.cached.monitor monotone) false (fun _ => True) (fun _ _ => True)
      (fun _ => True) (client.resolve issuerBaseUrl) := by
  unfold OidcDiscoveryClient.resolve
  split
  · exact .throw fun _ _ => trivial
  · rename_i same
    rw [not_not] at same
    subst same
    -- The first reading bounds all others: discovery does not ask how old its document is.
    have first : ∀ state : OidcState, Clocks.monotonic 0 ≤ Clocks.monotonic state.readings :=
      fun state => monotone (Nat.zero_le _)
    have refreshes : Monitor.Meets (client.cached.monitor monotone) true
        (fun state => client.cached.Settled state ∧ Clocks.monotonic 0 ≤ Clocks.monotonic state.readings)
        (fun _ => client.cached.Settled) client.cached.Settled (client.refresh client.policy.issuerUrl) := by
      refine (client.cached.lookup_meets (Clocks.monotonic 0)).bind fun found => ?_
      cases found with
      | some metadata => exact .pure fun _ looked => looked.settled
      | none =>
        have starts : Monitor.Meets (client.cached.monitor monotone) true
            (client.cached.Looked (Clocks.monotonic 0) none)
            (fun _ => client.cached.Requested (Clocks.monotonic 0)) client.cached.Settled
            (startFetch .discovery client.policy.discoveryUrl false false) :=
          (client.cached.startFetch_meets client.policy.discoveryUrl false false).weaken
            (fun state looked => (looked.miss rfl).1.ready (looked.miss rfl).2) (fun _ _ => id) fun _ => id
        have fetches : Monitor.Meets (client.cached.monitor monotone) true
            (client.cached.Requested (Clocks.monotonic 0))
            (fun metadata => client.cached.Answered (Clocks.monotonic 0) metadata) client.cached.Settled
            client.fetch :=
          ((client.cached.httpGet_meets client.policy.discoveryUrl fun _ => rfl).adapt).weaken
            (fun _ => id) (fun _ _ => id) fun _ failed => failed.settled
        refine starts.bind fun _ => fetches.bind fun metadata => ?_
        exact (client.cached.store_meets metadata).bind fun _ => .pure fun _ holds => holds.settled
    refine ((client.cached.lookup_outside (Clocks.monotonic 0)).weaken (fun state _ => first state)
      (fun _ _ => id) fun _ => id).bind fun found => ?_
    cases found with
    | some metadata => exact .pure fun _ _ => trivial
    | none =>
      refine Monitor.Meets.locked (fun passed started => ?_) (fun _ _ _ => id) (fun _ _ => id) ?_
      · exact started.trans (monotone passed.readings)
      · exact refreshes.weaken (fun state known => ⟨known.1, first state⟩)
          (fun _ _ settled => ⟨settled, trivial⟩) fun _ settled => ⟨settled, trivial⟩

end Discovery

/-! ### Keys -/

section Keys

variable [JsonGrammar] [UnicodeTables]

/-- The key resolver, with one of its keys. -/
def JwksKeyResolver.cached (resolver : JwksKeyResolver) (jwksUri : String) : CachedClient KeySet where
  client := .jwks
  lock := jwksLock
  cache := jwksCache
  key := jwksUri
  stamp state := state.lastForcedRefresh.lookup jwksUri
  policy := ⟨resolver.lifespanSeconds, resolver.refreshCooldownSeconds,
    fun outcome => (readKeys resolver.policy resolver.maxKeys.toNat outcome).toOption⟩
  turn := rfl
  turn_ready _ _ := rfl
  lock_get _ _ := rfl
  cache_get _ _ := rfl
  locking _ _ := ⟨rfl, rfl, rfl, rfl⟩
  caching _ _ := ⟨rfl, rfl, rfl, rfl, rfl⟩
  clocked _ _ _ := ⟨rfl, rfl, rfl⟩
  logged _ _ := ⟨rfl, rfl, rfl⟩

variable [Clocks] {monotone : Monotone Clocks.monotonic} {resolver : JwksKeyResolver} {jwksUri : String}
  {start : ℚ}

/-- Fetch and cache: the keys came with a fetch that started where it was allowed. -/
theorem fetchAndStore_timeline (trusted : resolver.policy.assertJwksUriTrusted jwksUri = .ok ())
    (forceRefresh isCached : Bool) :
    Monitor.Meets ((resolver.cached jwksUri).monitor monotone) true
      ((resolver.cached jwksUri).Ready isCached start) (fun keys => (resolver.cached jwksUri).Holds start keys)
      (resolver.cached jwksUri).Failed (resolver.fetchAndStore jwksUri forceRefresh isCached) := by
  refine ((resolver.cached jwksUri).startFetch_meets jwksUri forceRefresh isCached).bind fun _ => ?_
  have asserts : Monitor.Meets ((resolver.cached jwksUri).monitor monotone) true
      ((resolver.cached jwksUri).Requested start) (fun _ => (resolver.cached jwksUri).Requested start)
      (resolver.cached jwksUri).Failed
      (Async.ofExcept ((resolver.policy.assertJwksUriTrusted jwksUri).mapError .networkSecurity) :
        OidcAsync Unit) := by
    rw [trusted]
    exact .pure fun _ => id
  have fetches : Monitor.Meets ((resolver.cached jwksUri).monitor monotone) true
      ((resolver.cached jwksUri).Requested start) (fun keys => (resolver.cached jwksUri).Answered start keys)
      (resolver.cached jwksUri).Failed (resolver.fetchKeys jwksUri) :=
    .adapt (asserts.bind fun _ => (resolver.cached jwksUri).httpGet_meets jwksUri fun _ => rfl)
  refine fetches.bind fun keys => ?_
  exact ((resolver.cached jwksUri).store_meets keys).bind fun _ => .pure fun _ => id

/-- When forced, the keys are those of a fetch that started a cooldown before the call or later. -/
def Returned (resolver : JwksKeyResolver) (jwksUri : String) (start : ℚ) (forced : Bool)
    (keys : KeySet) (state : OidcState) : Prop :=
  forced = true → (resolver.cached jwksUri).Clean state →
    Served (resolver.cached jwksUri).policy (start - resolver.refreshCooldownSeconds) keys
      ((resolver.cached jwksUri).snapshot state).fetches

/-- What a refresh leaves and returns. -/
structure Refreshed (resolver : JwksKeyResolver) (jwksUri : String) (start : ℚ) (forced : Bool)
    (keys : KeySet) (state : OidcState) : Prop where
  settled : (resolver.cached jwksUri).Settled state
  returned : Returned resolver jwksUri start forced keys state

/-- Keys fetched since the start of the call are as recent as any. -/
theorem refreshed_of_holds {keys : KeySet} {forced : Bool} {state : OidcState}
    (holds : (resolver.cached jwksUri).Holds start keys state) :
    Refreshed resolver jwksUri start forced keys state := by
  refine ⟨holds.settled, fun _ clean => ?_⟩
  have earlier := sub_le_self start resolver.cooldownPositive.le
  exact (holds.served clean).mono earlier fun fetch member => ⟨fetch, member, rfl, fun _ => id⟩

/-- **A forced refresh that the cooldown turns away** returns keys no older than the last stamp. -/
theorem refreshed_of_cooling {keys : KeySet} {before : OidcState}
    (looked : (resolver.cached jwksUri).Looked start (some keys) before)
    (cooling : (before.lastForcedRefresh.lookup jwksUri).any
      (fun last => Clocks.monotonic before.readings - last < resolver.refreshCooldownSeconds) = true)
    (monotone : Monotone Clocks.monotonic) : Refreshed resolver jwksUri start true keys before.tick := by
  have settled : (resolver.cached jwksUri).Settled before.tick :=
    looked.settled.congr monotone rfl rfl (Nat.le_succ _)
  obtain ⟨last, isLast, recent⟩ := (Option.any_eq_true _ _).mp cooling
  obtain ⟨expires, stored⟩ := looked.hit keys rfl
  have served : (resolver.cached jwksUri).Clean before →
      Served (resolver.cached jwksUri).policy last keys ((resolver.cached jwksUri).snapshot before).fetches :=
    fun clean => (looked.settled.filled clean).served isLast stored
  refine ⟨settled, fun _ clean => ?_⟩
  refine (served clean).mono ?_ fun fetch member => ⟨fetch, member, rfl, fun _ => id⟩
  have started := looked.started
  have within : Clocks.monotonic before.readings - last < resolver.refreshCooldownSeconds := by
    simpa using recent
  linarith

/-- **A forced refresh that the cooldown lets pass** leaves its stamp and may fetch. -/
theorem ready_of_stamp {keys : KeySet} {before : OidcState}
    (looked : (resolver.cached jwksUri).Looked start (some keys) before)
    (elapsed : ¬ (before.lastForcedRefresh.lookup jwksUri).any
      (fun last => Clocks.monotonic before.readings - last < resolver.refreshCooldownSeconds) = true)
    (monotone : Monotone Clocks.monotonic) :
    (resolver.cached jwksUri).Ready true start { before.tick with
      lastForcedRefresh := (jwksUri, Clocks.monotonic before.readings) :: before.lastForcedRefresh } := by
  let after : OidcState := { before.tick with
    lastForcedRefresh := (jwksUri, Clocks.monotonic before.readings) :: before.lastForcedRefresh }
  have stamped : (resolver.cached jwksUri).snapshot after =
      ((resolver.cached jwksUri).snapshot before).restamp (Clocks.monotonic before.readings) := by
    have own : after.lastForcedRefresh.lookup jwksUri = some (Clocks.monotonic before.readings) := by
      simp [after]
    exact congrArg (fun stamp => Snapshot.mk _ stamp _) own
  have cool : ∀ last, ((resolver.cached jwksUri).snapshot before).stamp = some last →
      resolver.refreshCooldownSeconds ≤ Clocks.monotonic before.readings - last := by
    intro last isLast
    rw [show before.lastForcedRefresh.lookup jwksUri = some last from isLast] at elapsed
    simpa using elapsed
  refine ⟨looked.settled.ttl, monotone (Nat.le_succ _), fun clean => ?_⟩
  rw [stamped]
  exact ⟨(looked.settled.spaced clean).startStamped cool, pending_startStamped looked.started⟩

/-- **One refresh of the keys under the lock.** -/
theorem refresh_timeline (trusted : resolver.policy.assertJwksUriTrusted jwksUri = .ok ())
    (forced : Bool) :
    Monitor.Meets ((resolver.cached jwksUri).monitor monotone) true
      (fun state => (resolver.cached jwksUri).Settled state ∧ start ≤ Clocks.monotonic state.readings)
      (Refreshed resolver jwksUri start forced) (resolver.cached jwksUri).Failed
      (resolver.refresh jwksUri forced) := by
  refine ((resolver.cached jwksUri).lookup_meets start).bind fun found => ?_
  cases found with
  | none =>
    exact (fetchAndStore_timeline trusted forced false).weaken
      (fun state looked => (looked.miss rfl).1.ready (looked.miss rfl).2)
      (fun keys state holds => refreshed_of_holds holds) fun _ => id
  | some keys =>
    cases forced with
    | false => exact .pure fun state looked => ⟨looked.settled, fun forced => (by cases forced)⟩
    | true =>
      -- The comparison with the last stamp and the new stamp see one state and one clock reading.
      have reads : Monitor.Meets ((resolver.cached jwksUri).monitor monotone) true
          ((resolver.cached jwksUri).Looked start (some keys))
          (fun before state => state = before ∧ (resolver.cached jwksUri).Looked start (some keys) before)
          (resolver.cached jwksUri).Failed (Async.lift .read : OidcAsync OidcState) :=
        .access CachedClient.Passes.refl (fun _ => rfl) (fun outside => by cases outside)
          fun state looked _ => ⟨rfl, looked⟩
      refine reads.bind fun before => ?_
      have ticks : Monitor.Meets ((resolver.cached jwksUri).monitor monotone) true
          (fun state => state = before ∧ (resolver.cached jwksUri).Looked start (some keys) before)
          (fun now state => state = before.tick ∧ now = Clocks.monotonic before.readings ∧
            (resolver.cached jwksUri).Looked start (some keys) before)
          (resolver.cached jwksUri).Failed McpAuth.monotonic := by
        refine .access (fun state => ⟨Nat.le_succ _, List.suffix_refl _⟩) (fun _ => rfl)
          (fun outside => by cases outside) fun state known _ => ?_
        obtain ⟨rfl, looked⟩ := known
        exact ⟨rfl, rfl, looked⟩
      refine ticks.bind fun now => ?_
      by_cases cooling : (before.lastForcedRefresh.lookup jwksUri).any
          (fun last => now - last < resolver.refreshCooldownSeconds) = true
      · rw [if_pos cooling]
        refine .pure fun state known => ?_
        obtain ⟨rfl, rfl, looked⟩ := known
        exact refreshed_of_cooling looked cooling monotone
      · rw [if_neg cooling]
        have stamps : Monitor.Meets ((resolver.cached jwksUri).monitor monotone) true
            (fun state => state = before.tick ∧ now = Clocks.monotonic before.readings ∧
              (resolver.cached jwksUri).Looked start (some keys) before)
            (fun _ => (resolver.cached jwksUri).Ready true start)
            (resolver.cached jwksUri).Failed (JwksKeyResolver.stamp jwksUri now) := by
          refine .access (fun state => ⟨le_refl _, List.suffix_refl _⟩) (fun _ => rfl)
            (fun outside => by cases outside) fun state known _ => ?_
          obtain ⟨rfl, rfl, looked⟩ := known
          exact ready_of_stamp looked cooling monotone
        refine stamps.bind fun _ => ?_
        exact (fetchAndStore_timeline trusted true true).weaken (fun _ => id)
          (fun keys state holds => refreshed_of_holds holds) fun _ => id

/-- **The keys of the URI**, cached or fetched. -/
theorem keysFor_timeline (trusted : resolver.policy.assertJwksUriTrusted jwksUri = .ok ())
    (forced : Bool) :
    Monitor.Meets ((resolver.cached jwksUri).monitor monotone) false
      (fun state => start ≤ Clocks.monotonic state.readings)
      (fun keys state => Returned resolver jwksUri start forced keys state ∧
        start ≤ Clocks.monotonic state.readings)
      (fun state => ¬ (resolver.cached jwksUri).Clean state) (resolver.keysFor jwksUri forced) := by
  have started : ∀ {first second : OidcState}, CachedClient.Passes first second →
      start ≤ Clocks.monotonic first.readings → start ≤ Clocks.monotonic second.readings :=
    fun passed le => le.trans (monotone passed.readings)
  have locked : ∀ forced, Monitor.Meets ((resolver.cached jwksUri).monitor monotone) false
      (fun state => start ≤ Clocks.monotonic state.readings)
      (fun keys state => Returned resolver jwksUri start forced keys state ∧
        start ≤ Clocks.monotonic state.readings)
      (fun state => ¬ (resolver.cached jwksUri).Clean state)
      (jwksLock.locked (resolver.refresh jwksUri forced)) := by
    intro forced
    refine .locked started (fun lock keys state => id) (fun lock state unclean => unclean) ?_
    refine ((refresh_timeline trusted forced).frame started).weaken (fun state known => ⟨known, known.2⟩)
      (fun keys state known => ⟨known.1.settled, known.1.returned, known.2⟩)
      fun state failed => ⟨failed.settled, failed.unclean⟩
  unfold JwksKeyResolver.keysFor
  cases forced with
  | true => exact locked true
  | false =>
    refine ((resolver.cached jwksUri).lookup_outside start).bind fun found => ?_
    cases found with
    | some keys => exact .pure fun state started => ⟨fun forced => (by cases forced), started⟩
    | none => exact locked false

variable [PyJwt]

/-- A document that was fetched a cooldown before the call or later has no compatible key. -/
def MissedIn (resolver : JwksKeyResolver) (jwksUri kid algorithm : String) (start : ℚ)
    (state : OidcState) : Prop :=
  ∃ keys, Served (resolver.cached jwksUri).policy (start - resolver.refreshCooldownSeconds) keys
    ((resolver.cached jwksUri).snapshot state).fetches ∧ compatibleKey keys kid algorithm = none

/-- **A call that finds no key has looked into a recent document.** -/
theorem resolveKid_timeline (trusted : resolver.policy.assertJwksUriTrusted jwksUri = .ok ())
    (kid algorithm : String) :
    Monitor.Meets ((resolver.cached jwksUri).monitor monotone) false
      (fun state => start ≤ Clocks.monotonic state.readings) (fun _ _ => True)
      (fun state => (resolver.cached jwksUri).Clean state →
        MissedIn resolver jwksUri kid algorithm start state)
      (resolver.resolveKid jwksUri kid algorithm) := by
  have fails : ∀ state, ¬ (resolver.cached jwksUri).Clean state → (resolver.cached jwksUri).Clean state →
      MissedIn resolver jwksUri kid algorithm start state :=
    fun state unclean clean => absurd clean unclean
  refine ((keysFor_timeline trusted false).weaken (fun _ => id) (fun _ _ => id) fails).bind fun keys => ?_
  split
  · exact .pure fun _ _ => trivial
  · refine ((keysFor_timeline trusted true).weaken (fun _ known => known.2) (fun _ _ => id) fails).bind
      fun keys => ?_
    split
    · exact .pure fun _ _ => trivial
    · rename_i missing
      exact .throw fun state known clean => ⟨keys, known.1 rfl clean, missing⟩

end Keys

end McpAuth
