/-
**How old the document of a returned key is.**

A run of the resolver has a history (`JwksHistory`): the requests that ended, each with the clock reading that
followed, and the state in which the current step began. `Dated` is the invariant of the cache: an entry
expires a time to live after the end of the fetch that brought it.

A call that returns a key does so in one step, and this step begins with the cache read or the end of the
request that produced the key (`FreshKeys`): what it reads later in the step, it has already found to hold no
compatible key (`Spent`). `resolve_fresh` says this of every call in every run.
-/

import Mathlib.Tactic.Linarith
import McpAuth.Adapters.JwksKeyResolver
import McpAuth.Library.Chronicle

namespace McpAuth

open Cooperative JsonText PyText

/-! ### Histories -/

/-- A request for a JWKS document that ended, with the number of the clock reading that follows. -/
structure EndedFetch where
  url : String
  outcome : HttpOutcome
  reading : ℕ

/-- The requests that ended, newest first, and the state in which the current step began. -/
structure JwksHistory where
  ended : List EndedFetch := []
  start : OidcState

/-- Every step is recorded, and the outcome of a JWKS request. -/
def jwksRecorder : Recorder OidcState OidcWait OidcWait.Answer JwksHistory where
  starts state history := { history with start := state }
  answers
    | .get .jwks url, outcome, state, history => ⟨⟨url, outcome, state.readings⟩ :: history.ended, state⟩
    | .get .discovery _, _, state, history => { history with start := state }
    | .turn _ _, _, state, history => { history with start := state }

/-- A step begins in the state it is performed in. -/
theorem start_after {κ α : Type} {system : System OidcState OidcWait OidcWait.Answer κ α}
    {pool next : Pool OidcState OidcWait OidcWait.Answer κ α} {action : Action OidcWait OidcWait.Answer κ}
    (performed : system.perform pool action = some next) (history : JwksHistory) :
    (jwksRecorder.after pool history action).start = pool.shared := by
  rcases perform_cases performed with
    ⟨request, rfl, -⟩ | ⟨resumed, answer, request, want, continuation, rfl, found, -, -⟩
  · rfl
  · simp only [Recorder.after, found]
    rcases want with ⟨_ | _, url⟩ | ⟨kind, ticket⟩ <;> rfl

section Freshness

variable [Clocks] [JsonGrammar] [UnicodeTables]

/-- A fetch of the URI that ended with these keys. -/
structure FetchedBy (resolver : JwksKeyResolver) (jwksUri : String) (ended : List EndedFetch)
    (keys : KeySet) (fetch : EndedFetch) : Prop where
  recorded : fetch ∈ ended
  url : fetch.url = jwksUri
  reads : readKeys resolver.policy resolver.maxKeys.toNat fetch.outcome = .ok keys

/-- **The keys are of a fetch that ended less than a time to live before the step's first clock reading**,
which the step began with or whose document the cache holds at this reading. -/
structure FreshKeys (resolver : JwksKeyResolver) (jwksUri : String) (ended : List EndedFetch)
    (start : OidcState) (keys : KeySet) (fetch : EndedFetch) : Prop
    extends FetchedBy resolver jwksUri ended keys fetch where
  before : fetch.reading ≤ start.readings
  fresh : Clocks.monotonic start.readings - Clocks.monotonic fetch.reading < resolver.lifespanSeconds
  source : (ended.head? = some fetch ∧ fetch.reading = start.readings) ∨
    start.jwksCache.get? (Clocks.monotonic start.readings) jwksUri = some keys

/-- **Entries expire a time to live after their fetch ended.** -/
structure Dated (resolver : JwksKeyResolver) (state : OidcState × JwksHistory) : Prop where
  ttl : state.1.jwksCache.ttl = resolver.lifespanSeconds
  entries : ∀ entry ∈ state.1.jwksCache.entries, ∃ fetch,
    FetchedBy resolver entry.key state.2.ended entry.value fetch ∧
      entry.expires = Clocks.monotonic fetch.reading + resolver.lifespanSeconds
  past : ∀ fetch ∈ state.2.ended, fetch.reading ≤ state.1.readings

/-- The contract of calls of one resolver, with their history. -/
def datedContract (resolver : JwksKeyResolver) : Contract (OidcState × JwksHistory) OidcWait where
  ready want state := OidcWait.ready want state.1
  invariant := Dated resolver
  evolves _ _ := True
  refl _ := trivial
  trans _ _ := trivial

/-- No clock was read in this step. -/
def StepBegins (state : OidcState × JwksHistory) : Prop :=
  state.1.readings = state.2.start.readings ∧ state.1.jwksCache = state.2.start.jwksCache

variable [PyJwt]

/-- Nothing live with a compatible key is cached. -/
def Spent (jwksUri kid algorithm : String) (state : OidcState × JwksHistory) : Prop :=
  ∀ entry, state.1.jwksCache.entryAt jwksUri = some entry →
    entry.expires ≤ Clocks.monotonic state.1.readings ∨ compatibleKey entry.value kid algorithm = none

/-- Where a read of the cache is the first of its step or finds nothing. -/
def Opening (jwksUri kid algorithm : String) (state : OidcState × JwksHistory) : Prop :=
  StepBegins state ∨ Spent jwksUri kid algorithm state

/-- The keys are fresh or of no use, and they are what is cached. -/
structure Yields (resolver : JwksKeyResolver) (jwksUri kid algorithm : String) (keys : KeySet)
    (state : OidcState × JwksHistory) : Prop where
  fresh : (∃ fetch, FreshKeys resolver jwksUri state.2.ended state.2.start keys fetch) ∨
    compatibleKey keys kid algorithm = none
  cached : ∀ entry, state.1.jwksCache.entryAt jwksUri = some entry → entry.value = keys

variable {resolver : JwksKeyResolver} {jwksUri kid algorithm : String} {first second : OidcState}
  {history : JwksHistory} {keys : KeySet}

omit [PyJwt] in
theorem Dated.congr (dated : Dated resolver (first, history)) (readings : first.readings ≤ second.readings)
    (ttl : second.jwksCache.ttl = first.jwksCache.ttl)
    (entries : ∀ entry ∈ second.jwksCache.entries, entry ∈ first.jwksCache.entries) :
    Dated resolver (second, history) :=
  ⟨ttl.trans dated.ttl, fun entry member => dated.entries entry (entries entry member),
    fun fetch member => (dated.past fetch member).trans readings⟩

theorem Yields.congr (yields : Yields resolver jwksUri kid algorithm keys (first, history))
    (same : second.jwksCache = first.jwksCache) :
    Yields resolver jwksUri kid algorithm keys (second, history) :=
  ⟨yields.fresh, fun entry stored => yields.cached entry (by rw [← same]; exact stored)⟩

omit [JsonGrammar] [UnicodeTables] in
theorem Opening.congr (opening : Opening jwksUri kid algorithm (first, history))
    (readings : second.readings = first.readings) (same : second.jwksCache = first.jwksCache) :
    Opening jwksUri kid algorithm (second, history) := by
  rcases opening with begins | spent
  · exact Or.inl ⟨readings.trans begins.1, same.trans begins.2⟩
  · refine Or.inr fun entry stored => ?_
    simp only [same] at stored
    simpa [readings] using spent entry stored

/-- Keys of no use that are cached leave nothing to find. -/
theorem Yields.spent (yields : Yields resolver jwksUri kid algorithm keys (first, history))
    (useless : compatibleKey keys kid algorithm = none) : Spent jwksUri kid algorithm (first, history) :=
  fun entry stored => Or.inr (by rw [yields.cached entry stored, useless])

/-! ### The steps of a call -/

omit [PyJwt] in
/-- More requests that ended take nothing away. -/
theorem Dated.ends (dated : Dated resolver (first, history)) (fetch : EndedFetch)
    (reading : fetch.reading = first.readings) (start : OidcState) :
    Dated resolver (first, ⟨fetch :: history.ended, start⟩) := by
  refine ⟨dated.ttl, fun entry member => ?_, fun other member => ?_⟩
  · obtain ⟨fetched, known, expires⟩ := dated.entries entry member
    exact ⟨fetched, ⟨List.mem_cons_of_mem _ known.recorded, known.url, known.reads⟩, expires⟩
  · rcases List.mem_cons.mp member with rfl | old
    · exact reading.le
    · exact dated.past other old

omit [PyJwt] in
/-- An answer keeps the cache dated, and a step begins. -/
theorem answered_dated (want : OidcWait) (answer : want.Answer) (state : OidcState)
    (dated : Dated resolver (state, history)) :
    Dated resolver (state, jwksRecorder.answers want answer state history) ∧
      StepBegins (state, jwksRecorder.answers want answer state history) := by
  have waits : Dated resolver (state, { history with start := state }) :=
    ⟨dated.ttl, dated.entries, dated.past⟩
  rcases want with ⟨_ | _, url⟩ | ⟨kind, ticket⟩
  · exact ⟨waits, rfl, rfl⟩
  · exact ⟨dated.ends _ rfl _, rfl, rfl⟩
  · exact ⟨waits, rfl, rfl⟩

/-- **A look at the cache** yields what is fresh or of no use. -/
theorem lookup_fresh (monotone : Monotone Clocks.monotonic) :
    Records jwksRecorder (datedContract resolver) (Opening jwksUri kid algorithm)
      (fun found state => (∀ keys, found = some keys → Yields resolver jwksUri kid algorithm keys state) ∧
        (found = none → Spent jwksUri kid algorithm state)) (jwksCache.lookup jwksUri) := by
  refine .access fun state history dated opening => ⟨trivial, ?_, fun keys found => ⟨?_, ?_⟩, fun missing => ?_⟩
  · exact dated.congr (Nat.le_succ _) (TtlCache.Cache.ttl_touch _ _ _) fun entry member =>
      TtlCache.Cache.mem_touch member
  · obtain ⟨entry, stored, rfl, live⟩ := TtlCache.Cache.get?_eq_some found
    rcases opening with ⟨sameReadings, sameCache⟩ | spent
    · -- The first clock reading of the step: the entry has the end of its fetch behind it.
      obtain ⟨fetch, known, expires⟩ := dated.entries entry (List.mem_of_find?_eq_some stored)
      have isKey : entry.key = jwksUri := by simpa using List.find?_some stored
      rw [isKey] at known
      refine Or.inl ⟨fetch, { known with before := ?_, fresh := ?_, source := Or.inr ?_ }⟩
      · exact (dated.past fetch known.recorded).trans_eq sameReadings
      · rw [← sameReadings]
        rw [expires] at live
        show Clocks.monotonic state.readings - _ < _
        linarith
      · rw [← sameReadings, ← sameCache]
        exact found
    · rcases spent entry stored with expired | useless
      · exact absurd live (not_lt.mpr expired)
      · exact Or.inr useless
  · intro other stored
    obtain ⟨entry, isEntry, rfl, -⟩ := TtlCache.Cache.get?_eq_some found
    have same := (TtlCache.Cache.entryAt_touch state.jwksCache (Clocks.monotonic state.readings) jwksUri
      jwksUri).symm.trans stored
    obtain rfl := Option.some.inj (isEntry.symm.trans same)
    rfl
  · intro entry stored
    have same := (TtlCache.Cache.entryAt_touch state.jwksCache (Clocks.monotonic state.readings) jwksUri
      jwksUri).symm.trans stored
    exact Or.inl ((TtlCache.Cache.get?_eq_none missing same).trans (monotone (Nat.le_succ _)))

/-- **A fetch yields its document.** -/
theorem fetchAndStore_fresh (forceRefresh cached : Bool) :
    Records jwksRecorder (datedContract resolver) (fun _ => True)
      (fun keys => Yields resolver jwksUri kid algorithm keys)
      (resolver.fetchAndStore jwksUri forceRefresh cached) := by
  have starts : Records jwksRecorder (datedContract resolver) (fun _ => True) (fun _ _ => True)
      (startFetch .jwks jwksUri forceRefresh cached) :=
    .access fun state history dated _ => ⟨trivial, dated.congr le_rfl rfl fun _ => id, trivial⟩
  -- What is known from the end of the request until its document is cached.
  let Ended (outcome : HttpOutcome) (state : OidcState × JwksHistory) : Prop :=
    ∃ fetch, state.2.ended.head? = some fetch ∧ fetch.url = jwksUri ∧ fetch.outcome = outcome ∧
      fetch.reading = state.2.start.readings ∧ StepBegins state
  have gets : Records jwksRecorder (datedContract resolver) (fun _ => True) Ended
      (Async.lift (.await (OidcWait.get .jwks jwksUri)) : OidcAsync HttpOutcome) := by
    refine .await fun outcome state history dated _ => ⟨trivial, (answered_dated _ outcome state dated).1, ?_⟩
    exact ⟨⟨jwksUri, outcome, state.readings⟩, rfl, rfl, rfl, rfl, rfl, rfl⟩
  have records : ∀ outcome, Records jwksRecorder (datedContract resolver) (Ended outcome)
      (fun _ => Ended outcome)
      (Async.lift (.write (·.record (.received .jwks jwksUri outcome))) : OidcAsync Unit) :=
    fun outcome => .access fun state history dated known =>
      ⟨trivial, dated.congr le_rfl rfl fun _ => id, known⟩
  have fetches : Records jwksRecorder (datedContract resolver) (fun _ => True)
      (fun keys state => ∃ outcome, Ended outcome state ∧
        readKeys resolver.policy resolver.maxKeys.toNat outcome = .ok keys) (resolver.fetchKeys jwksUri) := by
    have asserts : Records jwksRecorder (datedContract resolver) (fun _ => True) (fun _ _ => True)
        (Async.ofExcept ((resolver.policy.assertJwksUriTrusted jwksUri).mapError .networkSecurity) :
          OidcAsync Unit) := .ofExcept fun _ _ _ _ _ => trivial
    refine .adapt (asserts.bind fun _ => ?_)
    refine gets.bind fun outcome => (records outcome).bind fun _ => .ofExcept fun keys reads state _ known => ?_
    exact ⟨outcome, known, reads⟩
  refine starts.bind fun _ => fetches.bind fun keys => ?_
  have stores : Records jwksRecorder (datedContract resolver)
      (fun state => ∃ outcome, Ended outcome state ∧
        readKeys resolver.policy resolver.maxKeys.toNat outcome = .ok keys)
      (fun _ => Yields resolver jwksUri kid algorithm keys) (jwksCache.store jwksUri keys) := by
    refine .access fun state history dated known => ?_
    obtain ⟨outcome, ⟨fetch, isHead, url, rfl, reading, begins⟩, reads⟩ := known
    have known : FetchedBy resolver jwksUri history.ended keys fetch := ⟨List.mem_of_mem_head? isHead, url, reads⟩
    have now : fetch.reading = state.readings := reading.trans begins.1.symm
    refine ⟨trivial, ⟨dated.ttl, fun entry member => ?_, fun other member => ?_⟩, Or.inl ⟨fetch, ?_⟩, ?_⟩
    · rcases TtlCache.Cache.mem_store member with old | rfl
      · exact dated.entries entry old
      · exact ⟨fetch, known, congrArg₂ (· + ·) (congrArg Clocks.monotonic now.symm) dated.ttl⟩
    · exact (dated.past other member).trans (Nat.le_succ _)
    · refine { known with before := reading.le, fresh := ?_, source := Or.inl ⟨isHead, reading⟩ }
      show Clocks.monotonic history.start.readings - _ < _
      rw [reading, sub_self]
      exact Int.cast_pos.mpr resolver.positive.1
    · intro entry stored
      have own := (TtlCache.Cache.entryAt_store_self state.jwksCache (Clocks.monotonic state.readings) jwksUri
        keys).symm.trans stored
      exact (congrArg TtlCache.Entry.value (Option.some.inj own)).symm
  exact stores.bind fun _ => .pure fun _ _ yields => yields

/-- **One refresh under the lock.** -/
theorem refreshKeys_fresh (monotone : Monotone Clocks.monotonic) (forceRefresh : Bool) :
    Records jwksRecorder (datedContract resolver) (Opening jwksUri kid algorithm)
      (fun keys => Yields resolver jwksUri kid algorithm keys) (resolver.refresh jwksUri forceRefresh) := by
  refine (lookup_fresh monotone).bind fun found => ?_
  cases found with
  | none => exact (fetchAndStore_fresh forceRefresh false).weaken (fun _ _ => trivial) fun _ _ => id
  | some cached =>
    dsimp only
    split
    · exact .pure fun _ _ yields => yields.1 cached rfl
    · have reads : Records jwksRecorder (datedContract resolver)
          (fun state => (∀ keys, some cached = some keys → Yields resolver jwksUri kid algorithm keys state) ∧
            (some cached = none → Spent jwksUri kid algorithm state))
          (fun _ => Yields resolver jwksUri kid algorithm cached) (Async.lift .read : OidcAsync OidcState) :=
        .access fun _ _ dated yields => ⟨trivial, dated, yields.1 cached rfl⟩
      have ticks : Records jwksRecorder (datedContract resolver) (Yields resolver jwksUri kid algorithm cached)
          (fun _ => Yields resolver jwksUri kid algorithm cached) monotonic :=
        .access fun _ _ dated yields =>
          ⟨trivial, dated.congr (Nat.le_succ _) rfl fun _ => id, yields.congr rfl⟩
      refine reads.bind fun before => ticks.bind fun now => ?_
      split
      · exact .pure fun _ _ yields => yields
      · have stamps : Records jwksRecorder (datedContract resolver) (Yields resolver jwksUri kid algorithm cached)
            (fun _ _ => True) (JwksKeyResolver.stamp jwksUri now) :=
          .access fun _ _ dated _ => ⟨trivial, dated.congr le_rfl rfl fun _ => id, trivial⟩
        exact stamps.bind fun _ => fetchAndStore_fresh true true

theorem keysFor_fresh (monotone : Monotone Clocks.monotonic) (forceRefresh : Bool) :
    Records jwksRecorder (datedContract resolver) (Opening jwksUri kid algorithm)
      (fun keys => Yields resolver jwksUri kid algorithm keys) (resolver.keysFor jwksUri forceRefresh) := by
  have locked : ∀ forced, Records jwksRecorder (datedContract resolver) (Opening jwksUri kid algorithm)
      (fun keys => Yields resolver jwksUri kid algorithm keys)
      (jwksLock.locked (resolver.refresh jwksUri forced)) := by
    intro forced
    refine .locked (fun lock state history => ⟨trivial, fun dated => dated.congr le_rfl rfl fun _ => id,
      fun opening => opening.congr rfl rfl, fun _ yields => yields.congr rfl⟩) ?_ (refreshKeys_fresh monotone forced)
    intro ticket answer state history dated
    obtain ⟨still, begins⟩ := answered_dated (.turn .jwks ticket) answer state dated
    exact ⟨trivial, still, Or.inl begins⟩
  unfold JwksKeyResolver.keysFor
  cases forceRefresh with
  | true => exact locked true
  | false =>
    refine (lookup_fresh monotone).bind fun found => ?_
    cases found with
    | some cached => exact .pure fun _ _ yields => yields.1 cached rfl
    | none => exact (locked false).weaken (fun _ spent => Or.inr (spent.2 rfl)) fun _ _ => id

/-- The key is the compatible one of fresh keys. -/
def FreshKey (resolver : JwksKeyResolver) (jwksUri token : String) (key : PyJWK) (ended : List EndedFetch)
    (start : OidcState) : Prop :=
  ∃ header kid algorithm keys fetch, PyJwt.unverifiedHeader token = some header ∧
    usableKid header = some kid ∧ acceptedAlgorithm header = some algorithm ∧
    compatibleKey keys kid algorithm = some key ∧ FreshKeys resolver jwksUri ended start keys fetch

/-- **A call returns the key of fresh keys.** -/
theorem resolveKey_fresh (monotone : Monotone Clocks.monotonic) (token : String) :
    Records jwksRecorder (datedContract resolver) StepBegins
      (fun key state => FreshKey resolver jwksUri token key state.2.ended state.2.start)
      (resolver.resolve jwksUri token) := by
  unfold JwksKeyResolver.resolve
  split
  · exact .throw _
  · rename_i header decoded
    split
    · exact .throw _
    · rename_i kid isKid
      split
      · exact .throw _
      · rename_i algorithm isAlgorithm
        split
        · exact .throw _
        · have found : ∀ {keys key state}, Yields resolver jwksUri kid algorithm keys state →
              compatibleKey keys kid algorithm = some key →
              FreshKey resolver jwksUri token key state.2.ended state.2.start := by
            intro keys key state yields compatible
            rcases yields.fresh with ⟨fetch, fresh⟩ | useless
            · exact ⟨header, kid, algorithm, keys, fetch, decoded, isKid, isAlgorithm, compatible, fresh⟩
            · rw [useless] at compatible
              cases compatible
          have first : Records jwksRecorder (datedContract resolver) StepBegins
              (fun keys => Yields resolver jwksUri kid algorithm keys) (resolver.keysFor jwksUri false) :=
            (keysFor_fresh monotone false).weaken (fun _ begins => Or.inl begins) fun _ _ => id
          refine first.bind fun keys => ?_
          split
          · rename_i key compatible
            exact .pure fun _ _ yields => found yields compatible
          · rename_i useless
            have second : Records jwksRecorder (datedContract resolver) (Yields resolver jwksUri kid algorithm keys)
                (fun keys => Yields resolver jwksUri kid algorithm keys) (resolver.keysFor jwksUri true) :=
              (keysFor_fresh monotone true).weaken (fun _ yields => Or.inr (yields.spent useless)) fun _ _ => id
            refine second.bind fun keys => ?_
            split
            · rename_i key compatible
              exact .pure fun _ _ yields => found yields compatible
            · exact .throw _

/-- The requests that ended in a run. -/
def endedFetches (resolver : JwksKeyResolver) (jwksUri : String) (shared : OidcState)
    (actions : List (Action OidcWait OidcWait.Answer String)) : List EndedFetch :=
  (System.history jwksRecorder (oidcSystem (resolver.resolve jwksUri)) ⟨shared, []⟩ actions
    { start := shared }).ended

omit [Clocks] [JsonGrammar] [UnicodeTables] [PyJwt] in
/-- A step takes no request from the history. -/
theorem ended_subset_after {κ α : Type} (pool : Pool OidcState OidcWait OidcWait.Answer κ α)
    (history : JwksHistory) (action : Action OidcWait OidcWait.Answer κ) :
    history.ended ⊆ (jwksRecorder.after pool history action).ended := by
  cases action with
  | spawn request => exact List.Subset.refl _
  | resume index answer =>
    rw [Recorder.after]
    split
    · rename_i request want continuation found
      rcases want with ⟨_ | _, url⟩ | ⟨kind, ticket⟩
      · exact List.Subset.refl _
      · exact List.subset_cons_self _ _
      · exact List.Subset.refl _
    · exact List.Subset.refl _

/-- **A request that ended stays in the history.** -/
theorem endedFetches_subset {shared : OidcState} {before after : List (Action OidcWait OidcWait.Answer String)}
    {pool : Pool OidcState OidcWait OidcWait.Answer String (Except Raised PyJWK)}
    (ran : (oidcSystem (resolver.resolve jwksUri)).run ⟨shared, []⟩ before = some pool) :
    endedFetches resolver jwksUri shared before ⊆ endedFetches resolver jwksUri shared (before ++ after) := by
  have grows : ∀ (actions : List (Action OidcWait OidcWait.Answer String))
      (pool : Pool OidcState OidcWait OidcWait.Answer String (Except Raised PyJWK)) (history : JwksHistory),
      history.ended ⊆
        (System.history jwksRecorder (oidcSystem (resolver.resolve jwksUri)) pool actions history).ended := by
    intro actions
    induction actions with
    | nil => exact fun pool history => List.Subset.refl _
    | cons action later ih =>
      intro pool history
      rw [System.history]
      split
      · exact List.Subset.trans (ended_subset_after pool history action) (ih _ _)
      · exact List.Subset.refl _
  rw [endedFetches, endedFetches, history_append ran]
  exact grows after pool _

/-- **In every run, a step that returns a key returns that of fresh keys.** -/
theorem resolve_fresh (monotone : Monotone Clocks.monotonic) {client : OidcDiscoveryClient}
    {before : List (Action OidcWait OidcWait.Answer String)} {action : Action OidcWait OidcWait.Answer String}
    {pool next : Pool OidcState OidcWait OidcWait.Answer String (Except Raised PyJWK)}
    (ran : (oidcSystem (resolver.resolve jwksUri)).run ⟨.initial client resolver, []⟩ before = some pool)
    (performed : (oidcSystem (resolver.resolve jwksUri)).perform pool action = some next)
    {token : String} {key : PyJWK}
    (ended : next.tasks[pool.subject action]? = some (token, .done (.ok key))) :
    FreshKey resolver jwksUri token key
      (endedFetches resolver jwksUri (.initial client resolver) (before ++ [action])) pool.shared := by
  have initially : Dated resolver (OidcState.initial client resolver, { start := .initial client resolver }) := by
    refine ⟨rfl, fun entry member => ?_, fun fetch member => ?_⟩
    · cases member
    · cases member
  have isReady : (datedContract resolver).ready = fun want state => OidcWait.ready want state.1 := rfl
  have starts : ∀ state history, Dated resolver (state, history) → True ∧
      Dated resolver (state, jwksRecorder.starts state history) ∧
      StepBegins (state, jwksRecorder.starts state history) :=
    fun state history dated => ⟨trivial, ⟨dated.ttl, dated.entries, dated.past⟩, rfl, rfl⟩
  have fresh := subject_records isReady starts (fun token => resolveKey_fresh monotone token) initially ran
    performed ended
  have begins : (System.history jwksRecorder (oidcSystem (resolver.resolve jwksUri))
      ⟨OidcState.initial client resolver, []⟩ (before ++ [action])
      { start := .initial client resolver }).start = pool.shared := by
    rw [history_concat ran performed]
    exact start_after performed _
  rw [← begins]
  exact fresh

end Freshness

end McpAuth
