/-
**How often one resolver fetches and how old its keys are.**

The calls of one `JwksKeyResolver` for one trusted JWKS URI, under every schedule:

* `jwks_fetches_bounded` — the fetches that start in a window are bounded by its length, whatever the tokens
  are;
* `resolver_finishes` — every call can be finished from every reachable pool;
* `keys_fresh_and_rotated` — a returned key comes from a document that was fetched less than a time to live
  before it was read, and a rotated key is found a cooldown after every document has it, unless a document
  younger than a time to live has another one.
-/

import Mathlib.Data.Rat.Floor
import McpAuth.Adapters.KeyFreshness
import McpAuth.Adapters.OidcFootprint
import McpAuth.Adapters.OidcTimeline
import McpAuth.Adapters.RefreshCooldown
import McpAuth.Library.CallSpan

namespace McpAuth

open Cooperative JsonText PyText RefreshTimeline

variable [Clocks] [JsonGrammar] [UnicodeTables] [PyJwt]

/-- The calls of one resolver for one URI: each is a token. -/
def JwksKeyResolver.system (resolver : JwksKeyResolver) (jwksUri : String) :
    System OidcState OidcWait OidcWait.Answer String (Except Raised PyJWK) :=
  oidcSystem (resolver.resolve jwksUri)

/-- The pool before the first call. -/
def JwksKeyResolver.idle (client : OidcDiscoveryClient) (resolver : JwksKeyResolver) :
    Pool OidcState OidcWait OidcWait.Answer String (Except Raised PyJWK) :=
  ⟨.initial client resolver, []⟩

/-- The token asks for the key of a usable `kid` and an accepted algorithm. -/
def Asks (token kid algorithm : String) : Prop :=
  ∃ header, PyJwt.unverifiedHeader token = some header ∧ usableKid header = some kid ∧
    acceptedAlgorithm header = some algorithm

/-- Every request for a JWKS document that ended did so with keys. -/
def AllFetched (resolver : JwksKeyResolver) (log : List OidcEvent) : Prop :=
  ∀ url outcome, .received .jwks url outcome ∈ log →
    ∃ keys, readKeys resolver.policy resolver.maxKeys.toNat outcome = .ok keys

omit [Clocks] [PyJwt] in
theorem allFetched_iff (resolver : JwksKeyResolver) (log : List OidcEvent) :
    AllFetched resolver log ↔ (log.all fun event => match event with
      | .received .jwks _ outcome => (readKeys resolver.policy resolver.maxKeys.toNat outcome).isOk
      | _ => true) = true := by
  rw [List.all_eq_true]
  constructor
  · intro fetched event member
    split
    · obtain ⟨keys, reads⟩ := fetched _ _ member
      rw [reads]
      rfl
    · rfl
  · intro evaluated url outcome member
    have ok := evaluated _ member
    dsimp only at ok
    cases reads : readKeys resolver.policy resolver.maxKeys.toNat outcome with
    | error error =>
      rw [reads] at ok
      cases ok
    | ok keys => exact ⟨keys, rfl⟩

instance (resolver : JwksKeyResolver) (log : List OidcEvent) : Decidable (AllFetched resolver log) :=
  decidable_of_iff' _ (allFetched_iff resolver log)

/-! ### One issuer that rotates its key -/

section Issuer

omit [Clocks] [JsonGrammar] [UnicodeTables] [PyJwt]

/-- A token signed with the issuer's key, whatever that is at the time. -/
def signedToken : String := "eyJhbGciOiJSUzI1NiIsImtpZCI6InMifQ.e30.c2ln"

def firstText : String := "\x7b\"keys\":[\x7b\"kid\":\"s\",\"kty\":\"RSA\",\"n\":\"Dw\",\"e\":\"Aw\"\x7d]\x7d"

def secondText : String := "\x7b\"keys\":[\x7b\"kid\":\"s\",\"kty\":\"RSA\",\"n\":\"IQ\",\"e\":\"Aw\"\x7d]\x7d"

/-- The syntax of a document with one RSA key. -/
def signingKeySyntax (modulus : String) : Syntax :=
  .obj [("keys", .arr [.obj [("kid", .leaf (.str "s")), ("kty", .leaf (.str "RSA")),
    ("n", .leaf (.str modulus)), ("e", .leaf (.str "Aw"))]])]

abbrev rotationGrammar : JsonGrammar where
  scan text :=
    if text = emptyKeysText then ⟨.obj [("keys", .arr [])], false⟩
    else if text = firstText then ⟨signingKeySyntax "Dw", false⟩
    else if text = secondText then ⟨signingKeySyntax "IQ", false⟩
    else ⟨.grammarError, false⟩

abbrev rotationJwt : PyJwt where
  unverifiedHeader token :=
    if token = signedToken then some [("alg", .str "RS256"), ("kid", .str "s")] else none
  keyAccepted raw _ := !(get raw "n").isNone && !(get raw "e").isNone
  verifies _ _ _ := true
  decode _ _ _ _ _ _ _ _ := none

/-- The clock of a run whose first call ends at 0 and whose second one begins at 131. -/
abbrev rotationClocks : Clocks where
  monotonic reading := if reading ≤ 5 then 0 else 131
  wall _ := 0

theorem rotationClocks_monotone : Monotone rotationClocks.monotonic := by
  intro first second le
  show (if first ≤ 5 then (0 : ℚ) else 131) ≤ if second ≤ 5 then 0 else 131
  split_ifs <;> first | omega | norm_num

/-- The first call finds no key, twice; the issuer rotates; the second call finds the key. -/
def rotationSchedule : List (Action OidcWait OidcWait.Answer String) :=
  [.spawn signedToken, .resume 0 (networkAnswer .httpError (jsonResponse emptyKeysText)),
    .resume 0 (networkAnswer .httpError (jsonResponse emptyKeysText)),
    .spawn signedToken, .resume 1 (networkAnswer .httpError (jsonResponse secondText))]

/-- The pool that the calls of the issuer's resolver leave. -/
def rotationPool (schedule : List (Action OidcWait OidcWait.Answer String)) :
    Option (Pool OidcState OidcWait OidcWait.Answer String (Except Raised PyJWK)) :=
  (issuerKeyResolver.system issuerJwksUri).run (issuerKeyResolver.idle issuerDiscovery) schedule

theorem issuerJwksUri_trusted :
    let _ := asciiTables
    issuerPolicy.assertJwksUriTrusted issuerJwksUri = .ok () := by
  intro _
  decide +kernel

end Issuer

/-! ### The timeline of a call -/

section Timeline

variable {monotone : Monotone Clocks.monotonic} {resolver : JwksKeyResolver} {jwksUri : String}

omit [Clocks] [PyJwt] in
theorem clean_of_allFetched {state : OidcState} (fetched : AllFetched resolver state.log) :
    (resolver.cached jwksUri).Clean state := by
  intro fetch member outcome ended
  obtain ⟨url, recorded⟩ := received_of_fetch member ended
  obtain ⟨keys, reads⟩ := fetched url outcome recorded
  show (readKeys resolver.policy resolver.maxKeys.toNat outcome).toOption.isSome
  rw [reads]
  rfl

omit [Clocks] [PyJwt] in
/-- What ended well so far ended well before. -/
theorem clean_before {state later : OidcState} (passed : CachedClient.Passes state later)
    (clean : (resolver.cached jwksUri).Clean later) : (resolver.cached jwksUri).Clean state := by
  intro fetch member outcome ended
  obtain ⟨found, isFound, -, kept⟩ := fetchesOf_grows passed.log fetch member
  exact clean found isFound outcome (kept outcome ended)

omit [Clocks] [JsonGrammar] [UnicodeTables] in
/-- A token asks for one key. -/
theorem Asks.unique {token kid algorithm kid' algorithm' : String} (asks : Asks token kid algorithm)
    (other : Asks token kid' algorithm') : kid' = kid ∧ algorithm' = algorithm := by
  obtain ⟨header, decoded, isKid, isAlgorithm⟩ := asks
  obtain ⟨header', decoded', isKid', isAlgorithm'⟩ := other
  obtain rfl := Option.some.inj (decoded.symm.trans decoded')
  exact ⟨Option.some.inj (isKid'.symm.trans isKid), Option.some.inj (isAlgorithm'.symm.trans isAlgorithm)⟩

/-- A call for the token that starts at the given time may raise here. -/
def MayRaise (resolver : JwksKeyResolver) (jwksUri token : String) (start : ℚ) (state : OidcState) : Prop :=
  ∀ kid algorithm, Asks token kid algorithm → (resolver.cached jwksUri).Clean state →
    MissedIn resolver jwksUri kid algorithm start state

/-- **A call keeps the timeline**, and raises only where its start allows it. -/
theorem resolveKey_timeline (trusted : resolver.policy.assertJwksUriTrusted jwksUri = .ok ())
    (token : String) (start : ℚ) :
    Monitor.Meets ((resolver.cached jwksUri).monitor monotone) false
      (fun state => start ≤ Clocks.monotonic state.readings) (fun _ _ => True)
      (MayRaise resolver jwksUri token start) (resolver.resolve jwksUri token) := by
  unfold JwksKeyResolver.resolve
  split
  · rename_i undecoded
    refine .throw fun state _ kid algorithm asks => ?_
    obtain ⟨header, decoded, -⟩ := asks
    rw [undecoded] at decoded
    cases decoded
  · rename_i header decoded
    split
    · rename_i unusable
      refine .throw fun state _ kid algorithm asks => ?_
      obtain ⟨other, decoded', isKid, -⟩ := asks
      obtain rfl := Option.some.inj (decoded.symm.trans decoded')
      rw [unusable] at isKid
      cases isKid
    · rename_i kid isKid
      split
      · rename_i unaccepted
        refine .throw fun state _ other algorithm asks => ?_
        obtain ⟨header', decoded', -, isAlgorithm⟩ := asks
        obtain rfl := Option.some.inj (decoded.symm.trans decoded')
        rw [unaccepted] at isAlgorithm
        cases isAlgorithm
      · rename_i algorithm isAlgorithm
        have own : Asks token kid algorithm := ⟨header, decoded, isKid, isAlgorithm⟩
        rw [trusted]
        refine (resolveKid_timeline trusted kid algorithm).weaken (fun _ => id) (fun _ _ => id) ?_
        intro state missed other otherAlgorithm asks
        obtain ⟨rfl, rfl⟩ := own.unique asks
        exact missed

variable {pool last : Pool OidcState OidcWait OidcWait.Answer String (Except Raised PyJWK)}
  {actions : List (Action OidcWait OidcWait.Answer String)}

/-- Every call guards the timeline. -/
theorem system_guards (monotone : Monotone Clocks.monotonic)
    (trusted : resolver.policy.assertJwksUriTrusted jwksUri = .ok ()) (first : ℕ) :
    Monitor.SystemGuards ((resolver.cached jwksUri).monitor monotone) (resolver.system jwksUri) first
      fun _ _ _ => True := by
  refine ⟨rfl, fun token index _ state kept => ?_⟩
  exact (resolveKey_timeline trusted token (Clocks.monotonic 0)).program (fun _ _ _ => trivial)
    (fun _ _ _ => trivial) kept (monotone (Nat.zero_le _))

omit [PyJwt] in
/-- The timeline before the first call. -/
theorem idle_guarded (monotone : Monotone Clocks.monotonic) (client : OidcDiscoveryClient)
    {post : ℕ → Except Raised PyJWK → OidcState → Prop} :
    Monitor.Guarded ((resolver.cached jwksUri).monitor monotone) post (resolver.idle client) := by
  refine .initial rfl ⟨rfl, fun _ => ?_, fun _ => ⟨fun _ => ⟨rfl, rfl⟩, fun fetch older some => ?_⟩⟩
  · refine ⟨?_, ?_, ?_, ?_, ?_⟩
    · intro fetch member
      cases member
    · exact .nil
    · exact .nil
    · exact .nil
    · intro fetch member
      cases member
  · cases some

/-- **In every reachable pool the timeline is kept.** -/
theorem run_timeline (monotone : Monotone Clocks.monotonic) {client : OidcDiscoveryClient}
    (trusted : resolver.policy.assertJwksUriTrusted jwksUri = .ok ())
    (ran : (resolver.system jwksUri).run (resolver.idle client) actions = some pool) :
    Monitor.Guarded ((resolver.cached jwksUri).monitor monotone) (fun _ _ _ => True) pool :=
  (Monitor.run_guarded (system_guards monotone trusted 0) ran (Nat.zero_le _)
    (idle_guarded monotone client)).1

end Timeline

/-! ### Traffic -/

/-- **The fetches that start in a window are bounded by its length.** One kind of fetch comes a time to live
after any other, the other one a cooldown after the last of its kind. -/
theorem jwks_fetches_bounded (monotone : Monotone Clocks.monotonic) (client : OidcDiscoveryClient)
    (resolver : JwksKeyResolver) (jwksUri : String)
    (trusted : resolver.policy.assertJwksUriTrusted jwksUri = .ok ())
    (actions : List (Action OidcWait OidcWait.Answer String))
    (pool : Pool OidcState OidcWait OidcWait.Answer String (Except Raised PyJWK))
    (ran : (resolver.system jwksUri).run (resolver.idle client) actions = some pool)
    (fetched : AllFetched resolver pool.shared.log) (start window : ℚ) :
    (startedWithin start window (fetchesOf .jwks pool.shared.log)).length ≤
      (⌊window / resolver.lifespanSeconds⌋₊ + 1) + (⌊window / resolver.refreshCooldownSeconds⌋₊ + 1) := by
  have spaced := CachedClient.spaced_of_invariant (run_timeline monotone trusted ran).invariant
    (clean_of_allFetched fetched)
  exact count_le (Int.cast_pos.mpr resolver.positive.1) resolver.cooldownPositive spaced start window

omit [Clocks] [JsonGrammar] [UnicodeTables] [PyJwt] in
theorem jwks_fetches_bounded_rotation :
    let _ := asciiTables
    let _ := rotationGrammar
    let _ := rotationJwt
    let _ := rotationClocks
    ∃ pool, rotationPool rotationSchedule = some pool ∧ AllFetched issuerKeyResolver pool.shared.log ∧
      (startedWithin 0 150 (fetchesOf .jwks pool.shared.log)).length = 3 ∧
      (startedWithin 0 150 (fetchesOf .jwks pool.shared.log)).length ≤
        (⌊(150 : ℚ) / 300⌋₊ + 1) + (⌊(150 : ℚ) / 30⌋₊ + 1) := by
  intro _ _ _ _
  have evaluated : (rotationPool rotationSchedule).any (fun pool =>
      decide (AllFetched issuerKeyResolver pool.shared.log) &&
        (startedWithin 0 150 (fetchesOf .jwks pool.shared.log)).length == 3) = true := by decide +kernel
  obtain ⟨pool, ran, facts⟩ := (Option.any_eq_true _ _).mp evaluated
  obtain ⟨fetched, three⟩ := Bool.and_eq_true_iff.mp facts
  have all := of_decide_eq_true fetched
  exact ⟨pool, ran, all, beq_iff_eq.mp three, jwks_fetches_bounded rotationClocks_monotone issuerDiscovery
    issuerKeyResolver issuerJwksUri issuerJwksUri_trusted rotationSchedule pool ran all 0 150⟩

/-! ### Rotation -/

/-- A document that was served, with the start of its fetch. -/
def DocumentServed (resolver : JwksKeyResolver) (log : List OidcEvent) (startedAt : ℚ) (keys : KeySet) : Prop :=
  ∃ fetch ∈ fetchesOf .jwks log, fetch.startedAt = startedAt ∧ ∃ outcome, fetch.outcome = some outcome ∧
    readKeys resolver.policy resolver.maxKeys.toNat outcome = .ok keys

/-- **From a time on every document holds this key** for the `kid` and the algorithm, and no document whose
fetch ended less than a lifespan before the call holds another one for them. -/
structure Rotated (resolver : JwksKeyResolver) (jwksUri kid algorithm : String) (key : PyJWK) (since called : ℚ)
    (log : List OidcEvent) (ended : List EndedFetch) : Prop where
  holds : ∀ startedAt keys, DocumentServed resolver log startedAt keys → since ≤ startedAt →
    compatibleKey keys kid algorithm = some key
  only : ∀ keys fetch other, FetchedBy resolver jwksUri ended keys fetch →
    called - Clocks.monotonic fetch.reading < resolver.lifespanSeconds →
    compatibleKey keys kid algorithm = some other → other = key

section Rotation

variable {resolver : JwksKeyResolver} {jwksUri token kid algorithm : String} {client : OidcDiscoveryClient}
  {key : PyJWK} {since : ℚ}
  {pool last : Pool OidcState OidcWait OidcWait.Answer String (Except Raised PyJWK)}
  {before after : List (Action OidcWait OidcWait.Answer String)}

omit [Clocks] [PyJwt] in
/-- What a fetch of the timeline served is a served document. -/
theorem documentServed_of_served {state later : OidcState} (grows : state.log <:+ later.log) {keys : KeySet}
    (served : Served (resolver.cached jwksUri).policy since keys ((resolver.cached jwksUri).snapshot state).fetches) :
    ∃ startedAt, since ≤ startedAt ∧ DocumentServed resolver later.log startedAt keys := by
  obtain ⟨fetch, member, le, outcome, ended, reads⟩ :=
    served.mono le_rfl (fetchesOf_grows grows)
  refine ⟨fetch.startedAt, le, fetch, member, rfl, outcome, ended, ?_⟩
  have isSome : (readKeys resolver.policy resolver.maxKeys.toNat outcome).toOption = some keys := reads
  cases read : readKeys resolver.policy resolver.maxKeys.toNat outcome with
  | error error =>
    rw [read] at isSome
    cases isSome
  | ok found =>
    rw [read] at isSome
    exact congrArg Except.ok (Option.some.inj isSome)

/-- **A call that starts a cooldown after the rotation does not raise**: it would have looked into a document
fetched a cooldown before it started or later, and this document holds the key. -/
theorem rotated_returns (monotone : Monotone Clocks.monotonic)
    (trusted : resolver.policy.assertJwksUriTrusted jwksUri = .ok ())
    (ranBefore : (resolver.system jwksUri).run (resolver.idle client) before = some pool)
    (ran : (resolver.system jwksUri).run pool (.spawn token :: after) = some last)
    (fetched : AllFetched resolver last.shared.log) (asks : Asks token kid algorithm)
    (late : since + resolver.refreshCooldownSeconds ≤ Clocks.monotonic pool.shared.readings)
    (holds : ∀ startedAt keys, DocumentServed resolver last.shared.log startedAt keys → since ≤ startedAt →
      compatibleKey keys kid algorithm = some key) {error : Raised} :
    last.tasks[pool.tasks.length]? ≠ some (token, .done (.error error)) := by
  intro ended
  let start := Clocks.monotonic pool.shared.readings
  -- The postcondition of this one call; other tasks have none.
  let post (index : ℕ) (outcome : Except Raised PyJWK) (state : OidcState) : Prop :=
    index = pool.tasks.length → ∀ error, outcome = .error error → MayRaise resolver jwksUri token start state
  obtain ⟨next, performed, rest⟩ := Option.bind_eq_some_iff.mp ran
  have guardedBefore : Monitor.Guarded ((resolver.cached jwksUri).monitor monotone) post pool :=
    (run_timeline monotone trusted ranBefore).mono fun index inside _ _ _ same => absurd same inside.ne
  have guardedNext : Monitor.Guarded ((resolver.cached jwksUri).monitor monotone) post next := by
    refine (Monitor.perform_guarded rfl (fun request same kept => ?_) performed guardedBefore).1
    cases same
    exact (resolveKey_timeline trusted token start).program (fun _ _ _ _ error raised => (by cases raised))
      (fun error _ missed _ _ _ => missed) kept le_rfl
  have longer : pool.tasks.length < next.tasks.length := by
    cases performed
    simp
  have guards : Monitor.SystemGuards ((resolver.cached jwksUri).monitor monotone) (resolver.system jwksUri)
      next.tasks.length post := by
    refine ⟨rfl, fun request index beyond state kept => ?_⟩
    exact ((system_guards monotone trusted 0).2 request index (Nat.zero_le _) state kept).mono
      fun _ _ _ holds => ⟨holds.1, fun same => absurd same (by omega)⟩
  obtain ⟨state, passed, ends⟩ :=
    (Monitor.run_guarded guards rest le_rfl guardedNext).1.finished ended
  obtain ⟨keys, served, missing⟩ :=
    ends rfl error rfl kid algorithm asks (clean_before passed (clean_of_allFetched fetched))
  obtain ⟨startedAt, recent, document⟩ := documentServed_of_served passed.log served
  have held := holds startedAt keys document (by linarith)
  rw [missing] at held
  cases held

/-- **A call that returns a key returns one of a document that ended less than a lifespan before the call**, or
later. -/
theorem returned_recent (monotone : Monotone Clocks.monotonic)
    (trusted : resolver.policy.assertJwksUriTrusted jwksUri = .ok ())
    (ranBefore : (resolver.system jwksUri).run (resolver.idle client) before = some pool)
    (ran : (resolver.system jwksUri).run pool (.spawn token :: after) = some last)
    (asks : Asks token kid algorithm)
    (returned : last.tasks[pool.tasks.length]? = some (token, .done (.ok key))) :
    ∃ keys fetch, FetchedBy resolver jwksUri (endedFetches resolver jwksUri (.initial client resolver)
        (before ++ .spawn token :: after)) keys fetch ∧
      Clocks.monotonic pool.shared.readings - Clocks.monotonic fetch.reading < resolver.lifespanSeconds ∧
      compatibleKey keys kid algorithm = some key := by
  obtain ⟨steps, action, rest, mid, next, split, reached, performed, subject, ended⟩ :=
    run_ended ran returned le_rfl
  have ranMid : (resolver.system jwksUri).run (resolver.idle client) (before ++ steps) = some mid := by
    rw [run_append, ranBefore]
    exact reached
  have ranNext : (resolver.system jwksUri).run (resolver.idle client) (before ++ steps ++ [action]) = some next := by
    rw [run_append, ranMid]
    simp [System.run, performed]
  rw [← subject] at ended
  obtain ⟨header, kid', algorithm', keys, fetch, decoded, isKid, isAlgorithm, compatible, fresh⟩ :=
    resolve_fresh monotone ranMid performed ended
  obtain ⟨rfl, rfl⟩ := asks.unique ⟨header, decoded, isKid, isAlgorithm⟩
  -- The clock does not go back from the start of the call to the step that ends it.
  have passed := (Monitor.run_guarded (system_guards monotone trusted 0) reached (Nat.zero_le _)
    (run_timeline monotone trusted ranBefore)).2
  have later := monotone passed.readings
  have recorded := @endedFetches_subset _ _ _ _ resolver jwksUri _ _ rest _ ranNext _ fresh.recorded
  refine ⟨keys, fetch, ⟨?_, fresh.url, fresh.reads⟩, by linarith [fresh.fresh], compatible⟩
  simpa [split] using recorded

/-- **A call that starts a cooldown after the rotation returns the key.** -/
theorem rotated_key_found (monotone : Monotone Clocks.monotonic)
    (trusted : resolver.policy.assertJwksUriTrusted jwksUri = .ok ())
    (ranBefore : (resolver.system jwksUri).run (resolver.idle client) before = some pool)
    (ran : (resolver.system jwksUri).run pool (.spawn token :: after) = some last)
    (fetched : AllFetched resolver last.shared.log) (asks : Asks token kid algorithm)
    (late : since + resolver.refreshCooldownSeconds ≤ Clocks.monotonic pool.shared.readings)
    (rotated : Rotated resolver jwksUri kid algorithm key since (Clocks.monotonic pool.shared.readings)
      last.shared.log (endedFetches resolver jwksUri (.initial client resolver) (before ++ .spawn token :: after)))
    {result : Except Raised PyJWK}
    (ended : last.tasks[pool.tasks.length]? = some (token, .done result)) : result = .ok key := by
  cases result with
  | error error =>
    exact absurd ended (rotated_returns monotone trusted ranBefore ran fetched asks late rotated.holds)
  | ok found =>
    obtain ⟨keys, fetch, known, recent, compatible⟩ := returned_recent monotone trusted ranBefore ran asks ended
    exact congrArg Except.ok (rotated.only keys fetch found known recent compatible)

end Rotation

/-! ### Every call ends -/

section Completion

variable {resolver : JwksKeyResolver} {jwksUri : String} {client : OidcDiscoveryClient}
  {pool : Pool OidcState OidcWait OidcWait.Answer String (Except Raised PyJWK)}
  {actions : List (Action OidcWait OidcWait.Answer String)}

/-- A call suspends for a JWKS document or for the lock. -/
theorem suspends_of_reachable (ran : (resolver.system jwksUri).run (resolver.idle client) actions = some pool)
    {index : ℕ} {token : String} {want : OidcWait}
    {continuation : want.Answer → Process OidcState OidcWait OidcWait.Answer (Except Raised PyJWK)}
    (found : pool.tasks[index]? = some (token, .wait want continuation)) :
    (∃ url, want = .get .jwks url) ∨ ∃ ticket, want = .turn .jwks ticket := by
  have steps : JwksSteps jwksUri (fun _ _ => True)
      (fun want => (∃ url, want = OidcWait.get .jwks url) ∨ ∃ ticket, want = .turn .jwks ticket) :=
    ⟨fun _ => trivial, fun _ => trivial, fun _ => trivial, fun _ _ => trivial, fun _ _ => trivial,
      fun _ _ _ => trivial, fun _ _ => trivial, Or.inl ⟨jwksUri, rfl⟩⟩
  have uses := (run_uses (fun _ _ _ (kept : True) => kept)
    (fun token => resolveKey_uses (fun _ => steps) (fun _ _ => trivial) (fun ticket => Or.inr ⟨ticket, rfl⟩) token)
    ran (by simp [JwksKeyResolver.idle]) trivial).2
  exact (uses _ (List.mem_of_getElem? found)).1

/-- **Every call can be finished from every reachable pool**, whatever the answers to come are. -/
theorem resolver_finishes (monotone : Monotone Clocks.monotonic)
    (trusted : resolver.policy.assertJwksUriTrusted jwksUri = .ok ())
    (ran : (resolver.system jwksUri).run (resolver.idle client) actions = some pool)
    (answer : (want : OidcWait) → want.Answer) :
    ∃ (indices : List ℕ) (last : Pool OidcState OidcWait OidcWait.Answer String (Except Raised PyJWK)),
      (resolver.system jwksUri).run pool (indices.map fun index => .resume index answer) = some last ∧
        last.Finished := by
  let monitor := (resolver.cached jwksUri).monitor monotone
  have bounded : (resolver.idle client).Bounded fun _ => 0 := by
    intro index request process found
    simp [JwksKeyResolver.idle] at found
  obtain ⟨bounds, boundedPool⟩ := run_bounded (fun token => resolveKey_atMost token) ran bounded
  refine @run_completes _ _ _ _ _ (resolver.system jwksUri) pool bounds 4 (fun token => resolveKey_atMost token)
    (fun pool => ∃ actions, (resolver.system jwksUri).run (resolver.idle client) actions = some pool) answer
    ?_ ?_ ⟨actions, ran⟩ boundedPool
  · rintro before next index ⟨earlier, reached⟩ performed
    refine ⟨earlier ++ [.resume index answer], ?_⟩
    rw [run_append, reached]
    simp [System.run, performed]
  · rintro before index token want continuation ⟨earlier, reached⟩ found
    have empty : (resolver.idle client).Balances OidcWait.ready monitor.queued monitor.ticket := by
      intro task member
      cases member
    have programs : (resolver.system jwksUri).Balances monitor.queued monitor.ticket :=
      fun token => @resolveKey_balances _ _ _ _ _ _ _ monitor rfl token
    have queues := (run_balanced programs reached empty (by funext ticket; rfl)).2
    refine Monitor.exists_ready rfl (run_timeline monotone trusted reached) queues ?_ found ?_
    · rintro (⟨kind, url⟩ | ⟨kind, ticket⟩) state inside
      · rfl
      · cases inside
    · rcases suspends_of_reachable reached found with ⟨url, rfl⟩ | ⟨ticket, rfl⟩
      · exact Or.inl rfl
      · exact Or.inr ⟨ticket, rfl⟩

end Completion

/-! ### Freshness and rotation -/

/-- **Returned keys are fresh, rotated keys are found, and every call can be finished.** -/
theorem keys_fresh_and_rotated (monotone : Monotone Clocks.monotonic) (client : OidcDiscoveryClient)
    (resolver : JwksKeyResolver) (jwksUri : String)
    (trusted : resolver.policy.assertJwksUriTrusted jwksUri = .ok ())
    (actions : List (Action OidcWait OidcWait.Answer String))
    (last : Pool OidcState OidcWait OidcWait.Answer String (Except Raised PyJWK))
    (ran : (resolver.system jwksUri).run (resolver.idle client) actions = some last)
    (fetched : AllFetched resolver last.shared.log) :
    (∀ before action after pool next, actions = before ++ action :: after →
      (resolver.system jwksUri).run (resolver.idle client) before = some pool →
      (resolver.system jwksUri).perform pool action = some next →
      ∀ token key, next.tasks[pool.subject action]? = some (token, .done (.ok key)) →
        FreshKey resolver jwksUri token key
          (endedFetches resolver jwksUri (.initial client resolver) (before ++ [action])) pool.shared) ∧
    (∀ before token after pool, actions = before ++ .spawn token :: after →
      (resolver.system jwksUri).run (resolver.idle client) before = some pool →
      ∀ kid algorithm key since, Asks token kid algorithm →
        since + resolver.refreshCooldownSeconds ≤ Clocks.monotonic pool.shared.readings →
        Rotated resolver jwksUri kid algorithm key since (Clocks.monotonic pool.shared.readings)
          last.shared.log (endedFetches resolver jwksUri (.initial client resolver) actions) →
        ∀ result, last.tasks[pool.tasks.length]? = some (token, .done result) → result = .ok key) ∧
    ∀ answer : (want : OidcWait) → want.Answer, ∃ (indices : List ℕ)
      (final : Pool OidcState OidcWait OidcWait.Answer String (Except Raised PyJWK)),
      (resolver.system jwksUri).run last (indices.map fun index => .resume index answer) = some final ∧
        final.Finished := by
  refine ⟨?_, ?_, resolver_finishes monotone trusted ran⟩
  · rintro before action after pool next rfl ranBefore performed token key ended
    exact resolve_fresh monotone ranBefore performed ended
  · rintro before token after pool rfl ranBefore kid algorithm key since asks late rotated result ended
    rw [run_append, ranBefore] at ran
    exact rotated_key_found monotone trusted ranBefore ran fetched asks late rotated ended

omit [Clocks] [JsonGrammar] [UnicodeTables] [PyJwt]

/-- The key in a document of the issuer. -/
def signingKeyOf (text : String) : Option PyJWK :=
  (readKeys issuerKeyResolver.policy issuerKeyResolver.maxKeys.toNat (jsonResponse text)).toOption.bind
    (compatibleKey · "s" "RS256")

/-- Every document that was fetched from a time on is the second one. -/
def ServesSecond (since : ℚ) (log : List OidcEvent) : Bool :=
  (fetchesOf .jwks log).all fun fetch => fetch.startedAt < since ||
    fetch.outcome == some (jsonResponse secondText)

/-- Every document whose fetch ended less than a lifespan before a time is the second one. -/
def RecentlySecond (called : ℚ) (ended : List EndedFetch) : Bool :=
  ended.all fun fetch => issuerKeyResolver.lifespanSeconds ≤ called - Clocks.monotonic fetch.reading ||
    fetch.outcome == jsonResponse secondText

section Second

variable [JsonGrammar] [UnicodeTables] [PyJwt] {key : PyJWK}

theorem compatibleKey_second (second : signingKeyOf secondText = some key) {keys : KeySet}
    (reads : readKeys issuerKeyResolver.policy issuerKeyResolver.maxKeys.toNat (jsonResponse secondText) =
      .ok keys) : compatibleKey keys "s" "RS256" = some key := by
  rw [signingKeyOf, reads] at second
  exact second

theorem holds_of_servesSecond {since : ℚ} {log : List OidcEvent} (second : signingKeyOf secondText = some key)
    (serves : ServesSecond since log = true) (startedAt : ℚ) (keys : KeySet)
    (served : DocumentServed issuerKeyResolver log startedAt keys) (late : since ≤ startedAt) :
    compatibleKey keys "s" "RS256" = some key := by
  obtain ⟨fetch, member, rfl, outcome, ended, reads⟩ := served
  have known := List.all_eq_true.mp serves fetch member
  simp only [not_lt.mpr late, decide_false, Bool.false_or, ended, beq_iff_eq, Option.some.injEq] at known
  exact compatibleKey_second second (known ▸ reads)

/-- Documents with the second key, and older ones. -/
theorem rotated_of_second [Clocks] {since called : ℚ} {log : List OidcEvent} {ended : List EndedFetch}
    (second : signingKeyOf secondText = some key) (serves : ServesSecond since log = true)
    (recently : RecentlySecond called ended = true) :
    Rotated issuerKeyResolver issuerJwksUri "s" "RS256" key since called log ended := by
  refine ⟨holds_of_servesSecond second serves, fun keys fetch other known recent compatible => ?_⟩
  have isSecond := List.all_eq_true.mp recently fetch known.recorded
  simp only [not_le.mpr recent, decide_false, Bool.false_or, beq_iff_eq] at isSecond
  have held := compatibleKey_second second (isSecond ▸ known.reads)
  exact Option.some.inj (compatible.symm.trans held)

end Second

/-- A clock that reads 131 while the first document is cached, and 301 when it has expired. -/
abbrev reuseClocks : Clocks where
  monotonic reading := if reading ≤ 2 then 0 else if reading = 3 then 131 else 301
  wall _ := 0

theorem reuseClocks_monotone : Monotone reuseClocks.monotonic := by
  intro first second le
  show (if first ≤ 2 then (0 : ℚ) else if first = 3 then 131 else 301) ≤
    if second ≤ 2 then 0 else if second = 3 then 131 else 301
  split_ifs <;> first | omega | norm_num

/-- The first call fetches a document with a key; the issuer replaces this key under its `kid`; the second
call reads the cache and the third one fetches. -/
def reuseSchedule : List (Action OidcWait OidcWait.Answer String) :=
  [.spawn signedToken, .resume 0 (networkAnswer .httpError (jsonResponse firstText)), .spawn signedToken,
    .spawn signedToken, .resume 2 (networkAnswer .httpError (jsonResponse secondText))]

/-- The call for the signed token is done. -/
def ranSigned (pool : Pool OidcState OidcWait OidcWait.Answer String (Except Raised PyJWK)) (index : ℕ) : Bool :=
  match pool.tasks[index]? with
  | some (token, .done _) => token == signedToken
  | _ => false

/-- The third call starts when the first document is older than its lifespan, and returns the key that the
issuer rotated to. -/
theorem keys_fresh_and_rotated_replaced :
    let _ := asciiTables
    let _ := rotationGrammar
    let _ := rotationJwt
    let _ := reuseClocks
    ∃ key last, signingKeyOf secondText = some key ∧ rotationPool reuseSchedule = some last ∧
      last.tasks[2]? = some (signedToken, .done (.ok key)) := by
  intro _ _ _ _
  have evaluated : (rotationPool reuseSchedule).any (fun pool =>
      decide (AllFetched issuerKeyResolver pool.shared.log) && ServesSecond 100 pool.shared.log &&
        RecentlySecond 301 (endedFetches issuerKeyResolver issuerJwksUri
          (.initial issuerDiscovery issuerKeyResolver) reuseSchedule) && ranSigned pool 2) = true := by
    decide +kernel
  have begun : (rotationPool (reuseSchedule.take 3)).any (fun pool =>
      pool.tasks.length == 2 && reuseClocks.monotonic pool.shared.readings == 301) = true := by decide +kernel
  have second : (signingKeyOf secondText).isSome = true := by decide +kernel
  obtain ⟨key, isKey⟩ := Option.isSome_iff_exists.mp second
  obtain ⟨last, ran, facts⟩ := (Option.any_eq_true _ _).mp evaluated
  obtain ⟨pool, ranFirst, atStart⟩ := (Option.any_eq_true _ _).mp begun
  obtain ⟨facts, ended⟩ := Bool.and_eq_true_iff.mp facts
  obtain ⟨facts, recently⟩ := Bool.and_eq_true_iff.mp facts
  obtain ⟨fetched, serves⟩ := Bool.and_eq_true_iff.mp facts
  obtain ⟨two, called⟩ := Bool.and_eq_true_iff.mp atStart
  have asks : Asks signedToken "s" "RS256" :=
    ⟨[("alg", .str "RS256"), ("kid", .str "s")], rfl, by decide +kernel, by decide +kernel⟩
  have late : (100 : ℚ) + issuerKeyResolver.refreshCooldownSeconds ≤
      reuseClocks.monotonic pool.shared.readings := by
    rw [beq_iff_eq.mp called]
    decide +kernel
  have rotated : Rotated issuerKeyResolver issuerJwksUri "s" "RS256" key 100
      (reuseClocks.monotonic pool.shared.readings) last.shared.log (endedFetches issuerKeyResolver issuerJwksUri
        (.initial issuerDiscovery issuerKeyResolver) reuseSchedule) := by
    rw [beq_iff_eq.mp called]
    exact rotated_of_second isKey serves recently
  have found := (keys_fresh_and_rotated reuseClocks_monotone issuerDiscovery issuerKeyResolver issuerJwksUri
    issuerJwksUri_trusted reuseSchedule last ran (of_decide_eq_true fetched)).2.1 (reuseSchedule.take 3)
    signedToken (reuseSchedule.drop 4) pool rfl ranFirst "s" "RS256" key 100 asks late rotated
  rw [beq_iff_eq.mp two] at found
  refine ⟨key, last, isKey, ran, ?_⟩
  unfold ranSigned at ended
  split at ended
  · rename_i token result third
    obtain rfl := beq_iff_eq.mp ended
    rw [found result third] at third
    exact third
  · cases ended

/-- The key a task returned, with its token. -/
def returnedKey (pool : Pool OidcState OidcWait OidcWait.Answer String (Except Raised PyJWK)) (index : ℕ) :
    Option (String × PyJWK) :=
  match pool.tasks[index]? with
  | some (token, .done (.ok key)) => some (token, key)
  | _ => none

/-- **A `kid` with a new key.** Every document served from 100 on holds the second key, and a call that
starts at 131 returns the first one, from the cache. -/
theorem replaced_key_cached :
    let _ := asciiTables
    let _ := rotationGrammar
    let _ := rotationJwt
    let _ := reuseClocks
    Monotone reuseClocks.monotonic ∧ issuerPolicy.assertJwksUriTrusted issuerJwksUri = .ok () ∧
      ∃ pool last first second, rotationPool (reuseSchedule.take 2) = some pool ∧
        rotationPool reuseSchedule = some last ∧ AllFetched issuerKeyResolver last.shared.log ∧
        Asks signedToken "s" "RS256" ∧ pool.tasks.length = 1 ∧
        100 + issuerKeyResolver.refreshCooldownSeconds ≤ reuseClocks.monotonic pool.shared.readings ∧
        (∀ startedAt keys, DocumentServed issuerKeyResolver last.shared.log startedAt keys → 100 ≤ startedAt →
          compatibleKey keys "s" "RS256" = some second) ∧
        (∃ startedAt keys, DocumentServed issuerKeyResolver last.shared.log startedAt keys ∧ 100 ≤ startedAt) ∧
        returnedKey last 1 = some (signedToken, first) ∧ first ≠ second := by
  intro _ _ _ _
  have evaluated : (rotationPool reuseSchedule).any (fun pool =>
      decide (AllFetched issuerKeyResolver pool.shared.log) && (ServesSecond 100 pool.shared.log &&
        ((fetchesOf .jwks pool.shared.log).any (fun fetch => 100 ≤ fetch.startedAt && fetch.outcome.isSome) &&
        (returnedKey pool 1).any fun returned =>
          returned.1 == signedToken && (get returned.2.raw "n").isText "Dw"))) = true := by decide +kernel
  have begun : (rotationPool (reuseSchedule.take 2)).any (fun pool =>
      pool.tasks.length == 1 && decide ((100 : ℚ) + issuerKeyResolver.refreshCooldownSeconds ≤
        reuseClocks.monotonic pool.shared.readings)) = true := by decide +kernel
  have newer : (signingKeyOf secondText).any (fun key => (get key.raw "n").isText "IQ") = true := by
    decide +kernel
  obtain ⟨pool, ranFirst, atStart⟩ := (Option.any_eq_true _ _).mp begun
  obtain ⟨one, late⟩ := Bool.and_eq_true_iff.mp atStart
  obtain ⟨second, isSecond, secondModulus⟩ := (Option.any_eq_true _ _).mp newer
  obtain ⟨last, ran, facts⟩ := (Option.any_eq_true _ _).mp evaluated
  obtain ⟨fetched, facts⟩ := Bool.and_eq_true_iff.mp facts
  obtain ⟨serves, facts⟩ := Bool.and_eq_true_iff.mp facts
  obtain ⟨recent, facts⟩ := Bool.and_eq_true_iff.mp facts
  obtain ⟨⟨token, first⟩, returned, facts⟩ := (Option.any_eq_true _ _).mp facts
  obtain ⟨isToken, firstModulus⟩ := Bool.and_eq_true_iff.mp facts
  obtain rfl := beq_iff_eq.mp isToken
  have fetched := of_decide_eq_true fetched
  refine ⟨reuseClocks_monotone, issuerJwksUri_trusted, pool, last, first, second, ranFirst, ran, fetched,
    ⟨_, rfl, by decide +kernel, by decide +kernel⟩, beq_iff_eq.mp one, of_decide_eq_true late,
    holds_of_servesSecond isSecond serves, ?_, returned, ?_⟩
  · obtain ⟨fetch, member, facts⟩ := List.any_eq_true.mp recent
    obtain ⟨late, some⟩ := Bool.and_eq_true_iff.mp facts
    obtain ⟨outcome, ended⟩ := Option.isSome_iff_exists.mp some
    obtain ⟨url, recorded⟩ := received_of_fetch member ended
    obtain ⟨keys, reads⟩ := fetched url outcome recorded
    exact ⟨fetch.startedAt, keys, ⟨fetch, member, rfl, outcome, ended, reads⟩, of_decide_eq_true late⟩
  · rintro rfl
    have modulus := (Json.isText_iff.mp firstModulus).symm.trans (Json.isText_iff.mp secondModulus)
    exact absurd (Json.str.inj modulus) (by decide)

end McpAuth
