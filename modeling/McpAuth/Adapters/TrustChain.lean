/-
**Where the key and the claims of an accepted token come from.**

The calls of one verifier share caches that other calls filled. `Provenance` is the invariant of those
caches: every entry was read from an outcome the log records for its URL. Under it, each call returns what
it can account for: metadata a discovery document (`Discovered`), keys a JWKS document of the URI asked
for (`FetchedKeys`), a signing key the entry of the token's `kid` (`ResolvedKey`), claims a decode under
all of them at a wall-clock reading of the call (`DecodedClaims`). The log and the readings only grow
(`Grows`), so that these facts last.
-/

import McpAuth.Adapters.TokenVerifier

namespace McpAuth

open Cooperative JsonText PyText

/-! ### Provenance -/

section Provenance

variable [JsonGrammar] [UnicodeTables]

/-- The metadata was read from a recorded discovery response. -/
def Discovered (client : OidcDiscoveryClient) (log : List OidcEvent) (metadata : OidcMetadata) : Prop :=
  ∃ outcome, .received .discovery client.policy.discoveryUrl outcome ∈ log ∧
    readMetadata client.policy outcome = .ok metadata

/-- The keys were read from a recorded response of this URI. -/
def FetchedKeys (resolver : JwksKeyResolver) (jwksUri : String) (log : List OidcEvent) (keys : KeySet) :
    Prop :=
  ∃ outcome, .received .jwks jwksUri outcome ∈ log ∧
    readKeys resolver.policy resolver.maxKeys.toNat outcome = .ok keys

/-- Every cache entry was read from a recorded response. -/
structure Provenance (client : OidcDiscoveryClient) (resolver : JwksKeyResolver) (state : OidcState) :
    Prop where
  discovered : ∀ entry ∈ state.discoveryCache.entries, Discovered client state.log entry.value
  fetched : ∀ entry ∈ state.jwksCache.entries, FetchedKeys resolver entry.key state.log entry.value

/-- The log grows and clocks are read. -/
structure Grows (first second : OidcState) : Prop where
  log : first.log ⊆ second.log
  readings : first.readings ≤ second.readings

omit [JsonGrammar] [UnicodeTables] in
theorem Grows.refl (state : OidcState) : Grows state state := ⟨List.Subset.refl _, le_refl _⟩

omit [JsonGrammar] [UnicodeTables] in
theorem Grows.trans {first second third : OidcState} (before : Grows first second) (after : Grows second third) :
    Grows first third :=
  ⟨List.Subset.trans before.log after.log, before.readings.trans after.readings⟩

omit [JsonGrammar] [UnicodeTables] in
theorem Grows.record (state : OidcState) (event : OidcEvent) : Grows state (state.record event) :=
  ⟨List.subset_cons_self _ _, le_refl _⟩

/-- The contract of calls of one verifier. -/
def trustContract (client : OidcDiscoveryClient) (resolver : JwksKeyResolver) :
    Contract OidcState OidcWait where
  ready := OidcWait.ready
  invariant := Provenance client resolver
  evolves := Grows
  refl := Grows.refl
  trans := Grows.trans

variable {client : OidcDiscoveryClient} {resolver : JwksKeyResolver}

theorem Discovered.mono {log later : List OidcEvent} {metadata : OidcMetadata} (grows : log ⊆ later)
    (discovered : Discovered client log metadata) : Discovered client later metadata := by
  obtain ⟨outcome, recorded, reads⟩ := discovered
  exact ⟨outcome, grows recorded, reads⟩

theorem FetchedKeys.mono {log later : List OidcEvent} {jwksUri : String} {keys : KeySet}
    (grows : log ⊆ later) (fetched : FetchedKeys resolver jwksUri log keys) :
    FetchedKeys resolver jwksUri later keys := by
  obtain ⟨outcome, recorded, reads⟩ := fetched
  exact ⟨outcome, grows recorded, reads⟩

/-- A longer log accounts for the same caches. -/
theorem Provenance.record {state : OidcState} (event : OidcEvent)
    (kept : Provenance client resolver state) : Provenance client resolver (state.record event) := by
  have grows : state.log ⊆ (state.record event).log := List.subset_cons_self _ _
  exact ⟨fun entry member => (kept.discovered entry member).mono grows,
    fun entry member => (kept.fetched entry member).mono grows⟩

/-- The new state of a step that caches nothing new. -/
theorem Provenance.congr {first second : OidcState} (kept : Provenance client resolver first)
    (log : second.log = first.log)
    (discoveryEntries : ∀ entry ∈ second.discoveryCache.entries, entry ∈ first.discoveryCache.entries)
    (jwksEntries : ∀ entry ∈ second.jwksCache.entries, entry ∈ first.jwksCache.entries) :
    Provenance client resolver second := by
  refine ⟨fun entry member => ?_, fun entry member => ?_⟩
  · rw [log]
    exact kept.discovered entry (discoveryEntries entry member)
  · rw [log]
    exact kept.fetched entry (jwksEntries entry member)

/-! ### The steps of the clients -/

variable {pre : OidcState → Prop}

/-- **What a request yields was read from a recorded response.** -/
theorem httpGet_trusted {α : Type} (kind : RequestKind) (url : String)
    (reads : HttpOutcome → Except Raised α) :
    Async.Meets (trustContract client resolver) pre
      (fun value state => ∃ outcome, .received kind url outcome ∈ state.log ∧
        reads outcome = .ok value) (httpGet kind url reads) := by
  refine Async.Meets.bindAny (.await fun _ _ _ _ => trivial) fun outcome => ?_
  have recorded : Async.Meets (trustContract client resolver) (fun _ => True)
      (fun _ state => .received kind url outcome ∈ state.log)
      (Async.lift (.write (·.record (.received kind url outcome))) : OidcAsync Unit) :=
    .access fun state kept _ => ⟨Grows.record _ _, kept.record _, List.mem_cons_self⟩
  refine recorded.bind fun _ => .ofExcept fun value read state _ known => ?_
  exact ⟨outcome, known, read⟩

theorem startFetch_trusted (kind : RequestKind) (url : String) (forced cached : Bool) :
    Async.Meets (trustContract client resolver) pre (fun _ _ => True)
      (startFetch kind url forced cached) :=
  .access fun _ kept _ => ⟨Grows.record _ _, kept.record _, trivial⟩

variable [Clocks]

/-- Cached metadata was discovered. -/
theorem lookupMetadata_trusted (issuerBaseUrl : String) :
    Async.Meets (trustContract client resolver) pre
      (fun found state => ∀ metadata, found = some metadata → Discovered client state.log metadata)
      (discoveryCache.lookup issuerBaseUrl) := by
  refine .access fun state kept _ => ⟨⟨List.Subset.refl _, Nat.le_succ _⟩, ?_, fun metadata found => ?_⟩
  · exact Provenance.congr kept rfl (fun _ member => TtlCache.Cache.mem_touch member)
      fun _ member => member
  · obtain ⟨expires, member, -⟩ := TtlCache.Cache.mem_of_get? found
    exact kept.discovered _ member

/-- Cached keys were fetched from their URI. -/
theorem lookupKeys_trusted (jwksUri : String) :
    Async.Meets (trustContract client resolver) pre
      (fun found state => ∀ keys, found = some keys → FetchedKeys resolver jwksUri state.log keys)
      (jwksCache.lookup jwksUri) := by
  refine .access fun state kept _ => ⟨⟨List.Subset.refl _, Nat.le_succ _⟩, ?_, fun keys found => ?_⟩
  · exact Provenance.congr kept rfl (fun _ member => member)
      fun _ member => TtlCache.Cache.mem_touch member
  · obtain ⟨expires, member, -⟩ := TtlCache.Cache.mem_of_get? found
    exact kept.fetched _ member

theorem storeMetadata_trusted (issuerBaseUrl : String) (metadata : OidcMetadata) :
    Async.Meets (trustContract client resolver) (fun state => Discovered client state.log metadata)
      (fun _ state => Discovered client state.log metadata)
      (discoveryCache.store issuerBaseUrl metadata) := by
  refine .access fun state kept known => ⟨⟨List.Subset.refl _, Nat.le_succ _⟩, ⟨fun entry member => ?_, ?_⟩, known⟩
  · rcases TtlCache.Cache.mem_store member with old | rfl
    · exact kept.discovered entry old
    · exact known
  · exact kept.fetched

theorem storeKeys_trusted (jwksUri : String) (keys : KeySet) :
    Async.Meets (trustContract client resolver)
      (fun state => FetchedKeys resolver jwksUri state.log keys)
      (fun _ state => FetchedKeys resolver jwksUri state.log keys) (jwksCache.store jwksUri keys) := by
  refine .access fun state kept known =>
    ⟨⟨List.Subset.refl _, Nat.le_succ _⟩, ⟨kept.discovered, fun entry member => ?_⟩, known⟩
  rcases TtlCache.Cache.mem_store member with old | rfl
  · exact kept.fetched entry old
  · exact known

/-- **Discovery returns discovered metadata**, and only for the issuer of its policy. -/
theorem resolve_trusted (issuerBaseUrl : String) :
    Async.Meets (trustContract client resolver) pre
      (fun metadata state => Discovered client state.log metadata ∧
        issuerBaseUrl = client.policy.issuerUrl) (client.resolve issuerBaseUrl) := by
  unfold OidcDiscoveryClient.resolve
  split
  · exact .throw _
  · rename_i same
    have refreshes : Async.Meets (trustContract client resolver) (fun _ => True)
        (fun metadata state => Discovered client state.log metadata)
        (client.refresh issuerBaseUrl) := by
      refine (lookupMetadata_trusted issuerBaseUrl).bind fun found => ?_
      cases found with
      | some cached => exact .pure fun _ _ known => known cached rfl
      | none =>
        refine Async.Meets.bindAny (startFetch_trusted _ _ _ _) fun _ => ?_
        refine Async.Meets.bind (.adapt (httpGet_trusted _ _ _)) fun metadata => ?_
        exact (storeMetadata_trusted issuerBaseUrl metadata).bind fun _ => .pure fun _ _ known => known
    refine (lookupMetadata_trusted issuerBaseUrl).bind fun found => ?_
    cases found with
    | some cached => exact .pure fun _ _ known => ⟨known cached rfl, not_not.mp same⟩
    | none =>
      have locked : Async.Meets (trustContract client resolver) (fun _ => True)
          (fun metadata state => Discovered client state.log metadata)
          (discoveryLock.locked (client.refresh issuerBaseUrl)) :=
        .locked (fun _ state => ⟨⟨List.Subset.refl _, le_refl _⟩, fun kept => Provenance.congr kept rfl
          (fun _ member => member) fun _ member => member, fun _ known => known⟩) refreshes
      exact locked.weaken (fun _ _ => trivial) fun _ _ known => ⟨known, not_not.mp same⟩

theorem fetchAndStore_trusted (jwksUri : String) (forceRefresh cached : Bool) :
    Async.Meets (trustContract client resolver) pre
      (fun keys state => FetchedKeys resolver jwksUri state.log keys)
      (resolver.fetchAndStore jwksUri forceRefresh cached) := by
  refine Async.Meets.bindAny (startFetch_trusted _ _ _ _) fun _ => ?_
  refine Async.Meets.bind (.adapt (.bindAny (.ofExcept fun _ _ _ _ _ => trivial) fun _ =>
    httpGet_trusted _ _ _)) fun keys => ?_
  exact (storeKeys_trusted jwksUri keys).bind fun _ => .pure fun _ _ known => known

theorem refreshKeys_trusted (jwksUri : String) (forceRefresh : Bool) :
    Async.Meets (trustContract client resolver) pre
      (fun keys state => FetchedKeys resolver jwksUri state.log keys)
      (resolver.refresh jwksUri forceRefresh) := by
  refine (lookupKeys_trusted jwksUri).bind fun found => ?_
  cases found with
  | none => exact fetchAndStore_trusted jwksUri forceRefresh false
  | some cached =>
    dsimp only
    split
    · exact .pure fun _ _ known => known cached rfl
    · have reads : Async.Meets (trustContract client resolver)
          (fun state => ∀ keys, some cached = some keys → FetchedKeys resolver jwksUri state.log keys)
          (fun _ state => FetchedKeys resolver jwksUri state.log cached)
          (Async.lift .read : OidcAsync OidcState) :=
        .access fun _ kept known => ⟨Grows.refl _, kept, known cached rfl⟩
      refine reads.bind fun before => ?_
      have ticks : Async.Meets (trustContract client resolver)
          (fun state => FetchedKeys resolver jwksUri state.log cached)
          (fun _ state => FetchedKeys resolver jwksUri state.log cached) monotonic :=
        .access fun state kept known => ⟨⟨List.Subset.refl _, Nat.le_succ _⟩,
          Provenance.congr kept rfl (fun _ member => member) fun _ member => member, known⟩
      refine ticks.bind fun now => ?_
      split
      · exact .pure fun _ _ known => known
      · refine Async.Meets.bindAny (.access fun state kept _ => ⟨⟨List.Subset.refl _, le_refl _⟩,
          Provenance.congr kept rfl (fun _ member => member) fun _ member => member, trivial⟩)
          fun _ => fetchAndStore_trusted jwksUri true true

theorem keysFor_trusted (jwksUri : String) (forceRefresh : Bool) :
    Async.Meets (trustContract client resolver) pre
      (fun keys state => FetchedKeys resolver jwksUri state.log keys)
      (resolver.keysFor jwksUri forceRefresh) := by
  have locked : ∀ {pre : OidcState → Prop} (forced : Bool), Async.Meets
      (trustContract client resolver) pre
      (fun keys state => FetchedKeys resolver jwksUri state.log keys)
      (jwksLock.locked (resolver.refresh jwksUri forced)) := by
    intro pre forced
    exact .locked (fun _ state => ⟨⟨List.Subset.refl _, le_refl _⟩, fun kept => Provenance.congr kept rfl
      (fun _ member => member) fun _ member => member, fun _ known => known⟩)
      (refreshKeys_trusted jwksUri forced)
  unfold JwksKeyResolver.keysFor
  split
  · exact locked true
  · refine (lookupKeys_trusted jwksUri).bind fun found => ?_
    cases found with
    | some cached => exact .pure fun _ _ known => known cached rfl
    | none => exact locked false

/-- The signing key is the compatible entry of the token's own `kid` and algorithm. -/
def ResolvedKey [PyJwt] (resolver : JwksKeyResolver) (jwksUri token : String) (log : List OidcEvent)
    (key : PyJWK) : Prop :=
  ∃ header kid algorithm keys, PyJwt.unverifiedHeader token = some header ∧
    usableKid header = some kid ∧ acceptedAlgorithm header = some algorithm ∧
    FetchedKeys resolver jwksUri log keys ∧ compatibleKey keys kid algorithm = some key

/-- **Key resolution returns the entry of the token's `kid`.** -/
theorem resolveKey_trusted [PyJwt] (jwksUri token : String) :
    Async.Meets (trustContract client resolver) pre
      (fun key state => ResolvedKey resolver jwksUri token state.log key)
      (resolver.resolve jwksUri token) := by
  unfold JwksKeyResolver.resolve
  split
  · exact .throw _
  · rename_i header decoded
    split
    · exact .throw _
    · rename_i kid isKid
      split
      · exact .throw _
      · rename_i algorithm isAlgorithm
        split
        · exact .throw _
        · refine (keysFor_trusted jwksUri false).bind fun keys => ?_
          split
          · rename_i key compatible
            exact .pure fun _ _ known =>
              ⟨header, kid, algorithm, keys, decoded, isKid, isAlgorithm, known, compatible⟩
          · refine (keysFor_trusted jwksUri true).bind fun keys => ?_
            split
            · rename_i key compatible
              exact .pure fun _ _ known =>
                ⟨header, kid, algorithm, keys, decoded, isKid, isAlgorithm, known, compatible⟩
            · exact .throw _

/-! ### The verifier -/

variable [PyJwt] [PyRepr]

omit [Clocks] [PyRepr] in
theorem ResolvedKey.mono {log later : List OidcEvent} {jwksUri token : String} {key : PyJWK}
    (grows : log ⊆ later) (resolved : ResolvedKey resolver jwksUri token log key) :
    ResolvedKey resolver jwksUri token later key := by
  obtain ⟨header, kid, algorithm, keys, decoded, isKid, isAlgorithm, fetched, compatible⟩ := resolved
  exact ⟨header, kid, algorithm, keys, decoded, isKid, isAlgorithm, fetched.mono grows, compatible⟩

/-- Discovered metadata of the configured issuer. -/
def IssuerMetadata (verifier : GenericOidcTokenVerifier) (log : List OidcEvent)
    (metadata : OidcMetadata) : Prop :=
  Discovered verifier.discovery log metadata ∧
    verifier.issuerUrl = verifier.discovery.policy.issuerUrl

/-- The claims were decoded under discovered metadata and a resolved key, at a wall-clock reading taken from
the given one on. -/
def DecodedClaims (verifier : GenericOidcTokenVerifier) (token : String) (started : ℕ) (state : OidcState)
    (claims : JsonObject) : Prop :=
  ∃ metadata key reading, IssuerMetadata verifier state.log metadata ∧
    ResolvedKey verifier.keyResolver metadata.jwksUri token state.log key ∧
    started ≤ reading ∧ reading < state.readings ∧
    PyJwt.decode (Clocks.wall reading) token key acceptedAlgorithms verifier.audience metadata.issuer
      clockSkewLeewaySeconds requiredClaims = some claims

omit [PyRepr] in
theorem DecodedClaims.mono {verifier : GenericOidcTokenVerifier} {token : String} {started : ℕ}
    {state later : OidcState} {claims : JsonObject} (grows : Grows state later)
    (decoded : DecodedClaims verifier token started state claims) :
    DecodedClaims verifier token started later claims := by
  obtain ⟨metadata, key, reading, discovered, resolved, begun, read, decodes⟩ := decoded
  exact ⟨metadata, key, reading, ⟨discovered.1.mono grows.log, discovered.2⟩, resolved.mono grows.log, begun,
    read.trans_le grows.readings, decodes⟩

/-- What a call of the verifier has behind it: the claims of an access token it returns. -/
def Accounts (verifier : GenericOidcTokenVerifier) (token : String) (started : ℕ)
    (accessToken : Option AccessToken) (state : OidcState) : Prop :=
  ∀ accepted, accessToken = some accepted → ∃ claims, DecodedClaims verifier token started state claims ∧
    buildAccessToken verifier.audience token claims = .ok accepted

variable {started : ℕ}

omit [PyRepr] in
theorem decodeClaims_trusted (verifier : GenericOidcTokenVerifier) (token : String) :
    Async.Meets (trustContract verifier.discovery verifier.keyResolver) (fun state => started ≤ state.readings)
      (fun claims state => DecodedClaims verifier token started state claims)
      (verifier.decodeClaims token) := by
  have begun : ∀ first second : OidcState, Grows first second → started ≤ first.readings →
      started ≤ second.readings := fun _ _ grows le => le.trans grows.readings
  have discovers : Async.Meets (trustContract verifier.discovery verifier.keyResolver)
      (fun state => True ∧ started ≤ state.readings)
      (fun metadata state => (Discovered verifier.discovery state.log metadata ∧
        verifier.issuerUrl = verifier.discovery.policy.issuerUrl) ∧ started ≤ state.readings)
      (verifier.discovery.resolve verifier.issuerUrl) := (resolve_trusted verifier.issuerUrl).frame begun
  refine (discovers.weaken (fun _ le => ⟨trivial, le⟩) fun _ _ known => known).bind fun metadata => ?_
  -- The metadata stay discovered while the key is resolved.
  have resolves : Async.Meets (trustContract verifier.discovery verifier.keyResolver)
      (fun state => True ∧ (IssuerMetadata verifier state.log metadata ∧ started ≤ state.readings))
      (fun key state => ResolvedKey verifier.keyResolver metadata.jwksUri token state.log key ∧
        (IssuerMetadata verifier state.log metadata ∧ started ≤ state.readings))
      (verifier.keyResolver.resolve metadata.jwksUri token) :=
    (resolveKey_trusted metadata.jwksUri token).frame fun first second grows known =>
      ⟨⟨known.1.1.mono grows.log, known.1.2⟩, begun first second grows known.2⟩
  refine (resolves.weaken (fun _ known => ⟨trivial, known⟩) fun _ _ known => known).bind fun key => ?_
  have reads : Async.Meets (trustContract verifier.discovery verifier.keyResolver)
      (fun state => ResolvedKey verifier.keyResolver metadata.jwksUri token state.log key ∧
        (IssuerMetadata verifier state.log metadata ∧ started ≤ state.readings))
      (fun now state => (∃ reading, now = Clocks.wall reading ∧ started ≤ reading ∧ reading < state.readings) ∧
        ResolvedKey verifier.keyResolver metadata.jwksUri token state.log key ∧
        IssuerMetadata verifier state.log metadata) wallClock :=
    .access fun state kept known => ⟨⟨List.Subset.refl _, Nat.le_succ _⟩,
      Provenance.congr kept rfl (fun _ member => member) fun _ member => member,
      ⟨state.readings, rfl, known.2.2, Nat.lt_succ_self _⟩, known.1, known.2.1⟩
  refine reads.bind fun now => ?_
  split
  · rename_i claims decodes
    refine .pure fun state _ known => ?_
    obtain ⟨⟨reading, rfl, from', read⟩, resolved, discovered⟩ := known
    exact ⟨metadata, key, reading, discovered, resolved, from', read, decodes⟩
  · exact .throw _

/-- **A returned access token is accounted for.** -/
theorem verifyToken_trusted (verifier : GenericOidcTokenVerifier) (token : String) :
    Async.Meets (trustContract verifier.discovery verifier.keyResolver) (fun state => started ≤ state.readings)
      (fun accessToken state => Accounts verifier token started accessToken state)
      (verifier.verifyToken token) := by
  have attempts : Async.Meets (trustContract verifier.discovery verifier.keyResolver)
      (fun state => started ≤ state.readings)
      (fun decoded state => ∀ claims, decoded = some claims →
        DecodedClaims verifier token started state claims)
      (verifier.decodeClaims token >>= fun claims => pure (some claims)) := by
    refine (decodeClaims_trusted verifier token).bind fun claims => .pure fun state _ known => ?_
    rintro _ ⟨⟩
    exact known
  have handles : ∀ error, Async.Meets (trustContract verifier.discovery verifier.keyResolver)
      (fun _ => True) (fun decoded state => ∀ claims, decoded = some claims →
        DecodedClaims verifier token started state claims)
      (GenericOidcTokenVerifier.rejected error) := by
    intro error
    cases error
    case discovery | signingKey | invalidToken => exact .pure fun _ _ _ _ none => by cases none
    all_goals exact .throw _
  refine (attempts.tryCatch handles).bind fun decoded => ?_
  cases decoded with
  | none => exact .pure fun _ _ _ _ none => by cases none
  | some claims =>
    have builds : Async.Meets (trustContract verifier.discovery verifier.keyResolver)
        (fun state => ∀ found, some claims = some found → DecodedClaims verifier token started state found)
        (fun accepted state => DecodedClaims verifier token started state claims ∧
          buildAccessToken verifier.audience token claims = .ok accepted)
        (Async.ofExcept ((buildAccessToken verifier.audience token claims).mapError .claim) :
          OidcAsync AccessToken) :=
      .ofExcept fun accepted built _ _ known =>
        ⟨known claims rfl, Fallible.mapError_eq_ok.mp built⟩
    refine builds.bind fun accepted => .pure fun state _ known => ?_
    rintro _ ⟨⟩
    exact ⟨claims, known.1, known.2⟩

end Provenance

end McpAuth
