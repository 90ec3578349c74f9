/-
**Forced JWKS refreshes are a cooldown apart, as long as the cache is live.**

A forced refresh under the lock reads the cache, compares the last stamp with the clock and stamps, all
in one step. `Cooled` is the invariant of these stamps: every forced fetch started at or before the stamp
of its URI, and any two of one URI are a cooldown apart. A forced refresh that finds no live document
fetches without stamp; `forcedStarts_spaced` says what holds in every run without one, and
`forcedStarts_close` is a run with one.
-/

import Mathlib.Tactic.Linarith
import McpAuth.Adapters.JwksKeyResolver

namespace McpAuth

open Cooperative JsonText PyText

/-! ### Forced fetches -/

/-- The start time of a forced JWKS fetch of the URI. -/
def OidcEvent.forcedStart (jwksUri : String) : OidcEvent → Option ℚ
  | .fetchStarted .jwks url true _ startedAt => if url = jwksUri then some startedAt else none
  | _ => none

/-- The start times of the forced JWKS fetches of a URI, newest first. -/
def forcedStarts (jwksUri : String) (log : List OidcEvent) : List ℚ :=
  log.filterMap (·.forcedStart jwksUri)

/-- A forced fetch started although the cache held no live document. -/
def OidcEvent.isUnstamped : OidcEvent → Bool
  | .fetchStarted .jwks _ true false _ => true
  | _ => false

/-- Every forced refresh of the log found a live cached document. -/
def RefreshesCached (log : List OidcEvent) : Prop := ∀ event ∈ log, event.isUnstamped = false

/-- The stamps bound the forced fetches, which are a cooldown apart. -/
structure Cooled (cooldown : ℚ) (state : OidcState) : Prop where
  spaced : ∀ jwksUri, (forcedStarts jwksUri state.log).Pairwise
    fun later earlier => cooldown ≤ later - earlier
  stamped : ∀ jwksUri, ∀ startedAt ∈ forcedStarts jwksUri state.log,
    ∃ stamp, state.lastForcedRefresh.lookup jwksUri = some stamp ∧ startedAt ≤ stamp

/-- The contract of calls of one resolver. -/
def coolingContract (cooldown : ℚ) : Contract OidcState OidcWait where
  ready := OidcWait.ready
  invariant state := RefreshesCached state.log → Cooled cooldown state
  evolves _ _ := True
  refl _ := trivial
  trans _ _ := trivial

variable {cooldown : ℚ}

/-- The invariant looks at the stamps and the log. -/
theorem cooling_congr {first second : OidcState} (log : second.log = first.log)
    (stamps : second.lastForcedRefresh = first.lastForcedRefresh)
    (kept : (coolingContract cooldown).invariant first) :
    (coolingContract cooldown).invariant second := by
  intro cached
  rw [log] at cached
  obtain ⟨spaced, stamped⟩ := kept cached
  refine ⟨?_, ?_⟩
  · rw [log]
    exact spaced
  · rw [log, stamps]
    exact stamped

/-- An event that is no forced fetch leaves the invariant alone. -/
theorem cooling_record {state : OidcState} {event : OidcEvent}
    (unforced : ∀ jwksUri, event.forcedStart jwksUri = none)
    (kept : (coolingContract cooldown).invariant state) :
    (coolingContract cooldown).invariant (state.record event) := by
  intro cached
  obtain ⟨spaced, stamped⟩ := kept fun other member => cached other (List.mem_cons_of_mem _ member)
  have same : ∀ jwksUri, forcedStarts jwksUri (state.record event).log =
      forcedStarts jwksUri state.log := fun jwksUri => List.filterMap_cons_none (unforced jwksUri)
  refine ⟨?_, ?_⟩
  · intro jwksUri
    rw [same]
    exact spaced jwksUri
  · intro jwksUri
    rw [same]
    exact stamped jwksUri

/-- The URI was just stamped, a cooldown after every forced fetch of it. -/
def JustStamped (cooldown : ℚ) (jwksUri : String) (state : OidcState) : Prop :=
  state.lastForcedRefresh.lookup jwksUri = some state.now ∧
    (RefreshesCached state.log →
      ∀ startedAt ∈ forcedStarts jwksUri state.log, cooldown ≤ state.now - startedAt)

/-- **A stamped forced fetch** is a cooldown after the ones before it. -/
theorem cooling_forced {state : OidcState} {jwksUri : String}
    (stamped : JustStamped cooldown jwksUri state)
    (kept : (coolingContract cooldown).invariant state) :
    (coolingContract cooldown).invariant
      (state.record (.fetchStarted .jwks jwksUri true true state.now)) := by
  intro cached
  have before : RefreshesCached state.log := fun event member =>
    cached event (List.mem_cons_of_mem _ member)
  have same : forcedStarts jwksUri (state.record (.fetchStarted .jwks jwksUri true true state.now)).log =
      state.now :: forcedStarts jwksUri state.log :=
    List.filterMap_cons_some (if_pos rfl)
  have other : ∀ url, jwksUri ≠ url →
      forcedStarts url (state.record (.fetchStarted .jwks jwksUri true true state.now)).log =
        forcedStarts url state.log :=
    fun url differs => List.filterMap_cons_none (if_neg differs)
  obtain ⟨isStamp, apart⟩ := stamped
  obtain ⟨spaced, bounded⟩ := kept before
  refine ⟨fun url => ?_, fun url => ?_⟩
  · by_cases isUrl : jwksUri = url
    · subst isUrl
      rw [same, List.pairwise_cons]
      exact ⟨apart before, spaced jwksUri⟩
    · rw [other url isUrl]
      exact spaced url
  · by_cases isUrl : jwksUri = url
    · subst isUrl
      rw [same]
      intro startedAt member
      rcases List.mem_cons.mp member with rfl | earlier
      · exact ⟨state.now, isStamp, le_refl _⟩
      · obtain ⟨stamp, found, bound⟩ := bounded jwksUri startedAt earlier
        exact ⟨stamp, found, bound⟩
    · rw [other url isUrl]
      exact bounded url

/-- The state after a stamp. -/
def OidcState.stamp (state : OidcState) (jwksUri : String) (now : ℚ) : OidcState :=
  { state with lastForcedRefresh := (jwksUri, now) :: state.lastForcedRefresh }

/-- **A stamp that the cooldown allows** keeps the invariant. -/
theorem cooling_stamp (positive : 0 < cooldown) {state : OidcState} {jwksUri : String}
    (allowed : ∀ last, state.lastForcedRefresh.lookup jwksUri = some last →
      cooldown ≤ state.now - last)
    (kept : (coolingContract cooldown).invariant state) :
    (coolingContract cooldown).invariant (state.stamp jwksUri state.now) ∧
      JustStamped cooldown jwksUri (state.stamp jwksUri state.now) := by
  have own : (state.stamp jwksUri state.now).lastForcedRefresh.lookup jwksUri = some state.now := by
    simp [OidcState.stamp]
  have apart : RefreshesCached state.log →
      ∀ startedAt ∈ forcedStarts jwksUri state.log, cooldown ≤ state.now - startedAt := by
    intro cached startedAt member
    obtain ⟨stamp, found, bound⟩ := (kept cached).stamped jwksUri startedAt member
    have elapsed := allowed stamp found
    linarith
  refine ⟨fun cached => ⟨(kept cached).spaced, fun url startedAt member => ?_⟩, own, apart⟩
  by_cases isUrl : url = jwksUri
  · subst isUrl
    have elapsed := apart cached startedAt member
    exact ⟨state.now, own, by linarith⟩
  · obtain ⟨stamp, found, bound⟩ := (kept cached).stamped url startedAt member
    refine ⟨stamp, ?_, bound⟩
    have differs : (url == jwksUri) = false := by simpa using isUrl
    show List.lookup url ((jwksUri, state.now) :: state.lastForcedRefresh) = some stamp
    rw [List.lookup_cons, differs]
    exact found

/-! ### The steps of a resolver -/

section Steps

variable [Clocks] [JsonGrammar] [UnicodeTables] {pre : OidcState → Prop}

omit [Clocks] [JsonGrammar] [UnicodeTables] in
/-- A step that touches neither stamps nor log. -/
theorem cooled_access {α : Type} {update : OidcState → OidcState} {result : OidcState → α}
    (log : ∀ state, (update state).log = state.log)
    (stamps : ∀ state, (update state).lastForcedRefresh = state.lastForcedRefresh) :
    Async.Meets (coolingContract cooldown) pre (fun _ _ => True)
      (Async.lift (.access update fun state => .done (result state)) : OidcAsync α) :=
  .access fun state kept _ => ⟨trivial, cooling_congr (log state) (stamps state) kept, trivial⟩

omit [JsonGrammar] [UnicodeTables] in
theorem lookup_cooled (jwksUri : String) :
    Async.Meets (coolingContract cooldown) pre (fun _ _ => True) (jwksCache.lookup jwksUri) :=
  cooled_access (fun _ => rfl) fun _ => rfl

omit [JsonGrammar] [UnicodeTables] in
theorem store_cooled (jwksUri : String) (keys : KeySet) :
    Async.Meets (coolingContract cooldown) pre (fun _ _ => True) (jwksCache.store jwksUri keys) :=
  cooled_access (fun _ => rfl) fun _ => rfl

omit [Clocks] [JsonGrammar] [UnicodeTables] in
theorem httpGet_cooled {α : Type} (client : RequestKind) (url : String)
    (reads : HttpOutcome → Except Raised α) :
    Async.Meets (coolingContract cooldown) pre (fun _ _ => True) (httpGet client url reads) := by
  refine Async.Meets.bindAny (.await fun _ _ _ _ => trivial) fun outcome => ?_
  refine Async.Meets.bindAny (.access fun state kept _ => ?_) fun _ =>
    .ofExcept fun _ _ _ _ _ => trivial
  exact ⟨trivial, cooling_record (fun _ => rfl) kept, trivial⟩

/-- A fetch keeps the invariant, when a forced one was just stamped. -/
theorem fetchAndStore_cooled (resolver : JwksKeyResolver) (jwksUri : String)
    (forceRefresh cached : Bool) :
    Async.Meets (coolingContract cooldown)
      (fun state => forceRefresh = true → cached = true → JustStamped cooldown jwksUri state)
      (fun _ _ => True) (resolver.fetchAndStore jwksUri forceRefresh cached) := by
  refine Async.Meets.bindAny (.access fun state kept stamped => ?_) fun _ => ?_
  · refine ⟨trivial, ?_, trivial⟩
    cases forceRefresh with
    | false => exact cooling_record (fun _ => rfl) kept
    | true =>
      cases cached with
      | false =>
        intro found
        have unstamped := found _ List.mem_cons_self
        cases unstamped
      | true => exact cooling_forced (stamped rfl rfl) kept
  · refine Async.Meets.bindAny (.adapt (.bindAny (.ofExcept fun _ _ _ _ _ => trivial) fun _ =>
      httpGet_cooled _ _ _)) fun keys => ?_
    exact (store_cooled jwksUri keys).bindAny fun _ => .pure fun _ _ _ => trivial

/-- **One refresh under the lock.** -/
theorem refresh_cooled (resolver : JwksKeyResolver) (jwksUri : String) (forceRefresh : Bool) :
    Async.Meets (coolingContract resolver.refreshCooldownSeconds) (fun _ => True) (fun _ _ => True)
      (resolver.refresh jwksUri forceRefresh) := by
  refine (lookup_cooled jwksUri).bindAny fun found => ?_
  cases found with
  | none =>
    exact (fetchAndStore_cooled resolver jwksUri forceRefresh false).weaken
      (fun _ _ _ cached => by cases cached) fun _ _ _ => trivial
  | some cached =>
    dsimp only
    split
    · exact .pure fun _ _ _ => trivial
    · -- The comparison with the last stamp and the new stamp see one state and one clock reading.
      have reads : Async.Meets (coolingContract resolver.refreshCooldownSeconds) (fun _ => True)
          (fun before state => state = before)
          (Async.lift .read : OidcAsync OidcState) :=
        .access fun state kept _ => ⟨trivial, kept, rfl⟩
      refine reads.bind fun before => ?_
      have ticks : Async.Meets (coolingContract resolver.refreshCooldownSeconds)
          (fun state => state = before)
          (fun now state => state.lastForcedRefresh = before.lastForcedRefresh ∧ state.now = now)
          monotonic := by
        refine .access fun state kept same => ?_
        subst same
        exact ⟨trivial, @cooling_congr _ state _ rfl rfl kept, rfl, rfl⟩
      refine ticks.bind fun now => ?_
      split
      · exact .pure fun _ _ _ => trivial
      · rename_i elapsed
        have stamps : Async.Meets (coolingContract resolver.refreshCooldownSeconds)
            (fun state => state.lastForcedRefresh = before.lastForcedRefresh ∧ state.now = now)
            (fun _ => JustStamped resolver.refreshCooldownSeconds jwksUri)
            (JwksKeyResolver.stamp jwksUri now) := by
          refine .access fun state kept known => ?_
          obtain ⟨sameStamps, rfl⟩ := known
          have allowed : ∀ last, state.lastForcedRefresh.lookup jwksUri = some last →
              resolver.refreshCooldownSeconds ≤ state.now - last := by
            intro last found
            rw [← sameStamps, found] at elapsed
            simpa using elapsed
          obtain ⟨keptAfter, stamped⟩ := cooling_stamp resolver.cooldownPositive allowed kept
          exact ⟨trivial, keptAfter, stamped⟩
        refine stamps.bind fun _ => ?_
        exact (fetchAndStore_cooled resolver jwksUri true true).weaken
          (fun _ stamped _ _ => stamped) fun _ _ _ => trivial

theorem keysFor_cooled (resolver : JwksKeyResolver) (jwksUri : String) (forceRefresh : Bool) :
    Async.Meets (coolingContract resolver.refreshCooldownSeconds) (fun _ => True) (fun _ _ => True)
      (resolver.keysFor jwksUri forceRefresh) := by
  have locked : ∀ forced, Async.Meets (coolingContract resolver.refreshCooldownSeconds)
      (fun _ => True) (fun _ _ => True) (jwksLock.locked (resolver.refresh jwksUri forced)) := by
    intro forced
    exact .locked (fun _ state => ⟨trivial, fun kept => @cooling_congr _ state _ rfl rfl kept,
      fun _ => id⟩) (refresh_cooled resolver jwksUri forced)
  unfold JwksKeyResolver.keysFor
  split
  · exact locked true
  · refine (lookup_cooled jwksUri).bindAny fun found => ?_
    cases found with
    | some cached => exact .pure fun _ _ _ => trivial
    | none => exact locked false

/-- **Every call of the resolver keeps the stamps apart.** -/
theorem resolve_cooled [PyJwt] (resolver : JwksKeyResolver) (jwksUri token : String) :
    Async.Meets (coolingContract resolver.refreshCooldownSeconds) (fun _ => True) (fun _ _ => True)
      (resolver.resolve jwksUri token) := by
  unfold JwksKeyResolver.resolve
  split
  · exact .throw _
  · split
    · exact .throw _
    · split
      · exact .throw _
      · split
        · exact .throw _
        · refine (keysFor_cooled _ _ _).bindAny fun keys => ?_
          split
          · exact .pure fun _ _ _ => trivial
          · refine (keysFor_cooled _ _ _).bindAny fun keys => ?_
            split
            · exact .pure fun _ _ _ => trivial
            · exact .throw _

end Steps

/-! ### Runs -/

/-- The calls of one resolver: a JWKS URI and a token. -/
def resolverSystem [Clocks] [JsonGrammar] [UnicodeTables] [PyJwt] (resolver : JwksKeyResolver) :
    System OidcState OidcWait OidcWait.Answer (String × String) (Except Raised PyJWK) :=
  oidcSystem fun request => resolver.resolve request.1 request.2

/-- **Forced fetches of a URI start a cooldown apart** in every run whose forced refreshes each find a
live cached document under the lock. -/
theorem forcedStarts_spaced [Clocks] [JsonGrammar] [UnicodeTables] [PyJwt]
    {client : OidcDiscoveryClient} {resolver : JwksKeyResolver}
    {schedule : List (Action OidcWait OidcWait.Answer (String × String))}
    {pool : Pool OidcState OidcWait OidcWait.Answer (String × String) (Except Raised PyJWK)}
    (ran : (resolverSystem resolver).run ⟨.initial client resolver, []⟩ schedule = some pool)
    (cached : RefreshesCached pool.shared.log) (jwksUri : String) :
    (forcedStarts jwksUri pool.shared.log).Pairwise
      fun later earlier => resolver.refreshCooldownSeconds ≤ later - earlier := by
  have meets := @System.meets_of_calls _ _ OidcWait.Answer _ _ _
    (coolingContract resolver.refreshCooldownSeconds)
    (fun request : String × String => resolver.resolve request.1 request.2) (fun _ _ _ => True)
    fun request => resolve_cooled resolver request.1 request.2
  have start : (coolingContract resolver.refreshCooldownSeconds).invariant
      (OidcState.initial client resolver) := by
    intro _
    refine ⟨fun _ => List.Pairwise.nil, fun _ _ member => ?_⟩
    cases member
  have safe := (run_safe meets ran ⟨start, fun _ member => by cases member⟩).1
  exact (safe.invariant cached).spaced jwksUri

def emptyKeysText : String := "\x7b\"keys\": []\x7d"

abbrev emptyKeysGrammar : JsonGrammar where
  scan text :=
    if text = emptyKeysText then ⟨.obj [("keys", .arr [])], false⟩ else ⟨.grammarError, false⟩

/-- Tokens of a key that no document holds. -/
abbrev unknownKidJwt : PyJwt where
  unverifiedHeader _ := some [("alg", .str "RS256"), ("kid", .str "rotated")]
  keyAccepted _ _ := false
  verifies _ _ _ := false
  decode _ _ _ _ _ _ _ _ := none

/-- A document fetched at 0 lives until 300; the clock goes on to 299 and to 301. -/
abbrev expiringClocks : Clocks where
  monotonic reading := if reading ≤ 5 then 0 else if reading ≤ 9 then 299 else 301
  wall _ := 0

theorem expiringClocks_monotone : Monotone expiringClocks.monotonic := by
  intro first second le
  show (if first ≤ 5 then (0 : ℚ) else if first ≤ 9 then 299 else 301) ≤
    if second ≤ 5 then 0 else if second ≤ 9 then 299 else 301
  split_ifs <;> first | omega | norm_num

/-- The first call fetches twice; the second one refreshes just before the document expires. -/
def refreshSchedule : List (Action OidcWait OidcWait.Answer (String × String)) :=
  [.spawn (issuerJwksUri, "first"),
    .resume 0 (networkAnswer .httpError (jsonResponse emptyKeysText)),
    .resume 0 (networkAnswer .httpError (jsonResponse emptyKeysText)),
    .spawn (issuerJwksUri, "second")]

/-- The third call waits for the lock until the second one's request fails, after the expiry. -/
def expirySchedule : List (Action OidcWait OidcWait.Answer (String × String)) :=
  refreshSchedule ++ [.spawn (issuerJwksUri, "third"),
    .resume 1 (networkAnswer .httpError .httpError),
    .resume 2 (networkAnswer .httpError .httpError)]

/-- The pool a schedule leaves. -/
def issuerPool [Clocks] [JsonGrammar] [UnicodeTables] [PyJwt]
    (schedule : List (Action OidcWait OidcWait.Answer (String × String))) :
    Option (Pool OidcState OidcWait OidcWait.Answer (String × String) (Except Raised PyJWK)) :=
  (resolverSystem issuerKeyResolver).run ⟨initialState, []⟩ schedule

theorem forcedStarts_spaced_refresh :
    let _ := asciiTables
    let _ := emptyKeysGrammar
    let _ := unknownKidJwt
    let _ := expiringClocks
    ∃ pool, issuerPool refreshSchedule = some pool ∧ RefreshesCached pool.shared.log ∧
      forcedStarts issuerJwksUri pool.shared.log = [299, 0] ∧
      (forcedStarts issuerJwksUri pool.shared.log).Pairwise
        fun later earlier => 30 ≤ later - earlier := by
  intro _ _ _ _
  have evaluated : (issuerPool refreshSchedule).any (fun pool =>
      pool.shared.log.all (fun event => !event.isUnstamped) &&
        forcedStarts issuerJwksUri pool.shared.log == [299, 0]) = true := by decide +kernel
  obtain ⟨pool, ran, facts⟩ := (Option.any_eq_true _ _).mp evaluated
  obtain ⟨cached, starts⟩ := Bool.and_eq_true_iff.mp facts
  have found : RefreshesCached pool.shared.log := by
    intro event member
    simpa using List.all_eq_true.mp cached event member
  exact ⟨pool, ran, found, beq_iff_eq.mp starts, forcedStarts_spaced ran found issuerJwksUri⟩

/-- **Two forced fetches two seconds apart.** A forced refresh that waited for the lock while the
document expired fetches without stamp. -/
theorem forcedStarts_close :
    let _ := asciiTables
    let _ := emptyKeysGrammar
    let _ := unknownKidJwt
    let _ := expiringClocks
    Monotone expiringClocks.monotonic ∧ issuerPolicy.assertJwksUriTrusted issuerJwksUri = .ok () ∧
      ∃ pool, issuerPool expirySchedule = some pool ∧
        forcedStarts issuerJwksUri pool.shared.log = [301, 299, 0] ∧
        ¬ (forcedStarts issuerJwksUri pool.shared.log).Pairwise
          fun later earlier => issuerKeyResolver.refreshCooldownSeconds ≤ later - earlier := by
  intro _ _ _ _
  have trusted : issuerPolicy.assertJwksUriTrusted issuerJwksUri = .ok () := by decide +kernel
  have evaluated : (issuerPool expirySchedule).any (fun pool =>
      forcedStarts issuerJwksUri pool.shared.log == [301, 299, 0]) = true := by decide +kernel
  obtain ⟨pool, ran, facts⟩ := (Option.any_eq_true _ _).mp evaluated
  have starts : forcedStarts issuerJwksUri pool.shared.log = [301, 299, 0] := beq_iff_eq.mp facts
  refine ⟨expiringClocks_monotone, trusted, pool, ran, starts, ?_⟩
  rw [starts]
  decide +kernel

end McpAuth
