/-
**The ceiling of the discovery response.**

`boundedStream_chunks`: a bounded stream yields the longest prefix of the chunks that fits its limit, and
`boundedStream_ending` how it ends. The limit of a request is chosen by comparing the text that httpx gives
of its URL with the configured discovery URL, so that it depends on how the issuer is spelled.

`DiscoveryCeiling` says that a request of the discovery URL is classified as discovery and that in every
run its response never exceeds the discovery limit. `discovery_ceiling_iff`: this holds exactly for the
issuers that are spelled normally, with scheme and host in lower case and no default port.
-/

import McpAuth.Adapters.DiscoveryUrl
import McpAuth.Adapters.PinnedRequests
import McpAuth.Library.Budget

namespace McpAuth

open PyText UrlSplit UrlText PyNumbers Cooperative

/-! ### Bounded streams -/

/-- **What a bounded stream yields after a total that is within the limit.** -/
theorem boundedFrom_eq {limit : ℤ} {total : ℕ} (within : (total : ℤ) ≤ limit) (ending : StreamEnd)
    (chunks : List Bytes) :
    boundedFrom limit ending total chunks =
      ⟨Budget.fitting List.length (limit - total).toNat chunks,
        if total + Budget.total List.length chunks ≤ limit then ending
        else .raised (.security ⟨sizeLimitExceeded⟩)⟩ := by
  induction chunks generalizing total with
  | nil => simp [boundedFrom, within]
  | cons chunk later ih =>
    rw [boundedFrom]
    dsimp only
    by_cases fits : ((total + chunk.length : ℕ) : ℤ) > limit
    · have notFitting : ¬ chunk.length ≤ (limit - total).toNat := by omega
      have exceeds : ¬ (total : ℤ) + (chunk.length + Budget.total List.length later : ℕ) ≤ limit := by omega
      rw [if_pos fits, Budget.fitting_cons, if_neg notFitting, Budget.total_cons, if_neg exceeds]
    · have fitting : chunk.length ≤ (limit - total).toNat := by omega
      have budget : (limit - (total + chunk.length : ℕ)).toNat = (limit - total).toNat - chunk.length := by omega
      have sum : ((total + chunk.length : ℕ) : ℤ) + Budget.total List.length later =
          (total : ℤ) + (chunk.length + Budget.total List.length later : ℕ) := by omega
      rw [if_neg fits, ih (by omega), Budget.fitting_cons, if_pos fitting, Budget.total_cons, budget, sum]

/-- **A bounded stream yields the longest prefix of the chunks that fits.** -/
theorem boundedStream_chunks {limit : ℤ} (positive : 0 ≤ limit) (stream : ByteStream) :
    (boundedStream limit stream).chunks = Budget.fitting List.length limit.toNat stream.chunks := by
  rw [boundedStream, boundedFrom_eq (by simpa using positive)]
  simp

theorem boundedStream_ending {limit : ℤ} (positive : 0 ≤ limit) (stream : ByteStream) :
    (boundedStream limit stream).ending =
      if (Budget.total List.length stream.chunks : ℤ) ≤ limit then stream.ending
      else .raised (.security ⟨sizeLimitExceeded⟩) := by
  rw [boundedStream, boundedFrom_eq (by simpa using positive)]
  simp

/-- **How a body is passed on within a limit**: unchanged where all of it fits, and otherwise its longest
prefix that fits, followed by the error. -/
structure PassesWithin (limit : ℤ) (body passed : ByteStream) : Prop where
  fits : (Budget.total List.length body.chunks : ℤ) ≤ limit → passed = body
  exceeds : limit < Budget.total List.length body.chunks →
    passed.ending = .raised (.security ⟨sizeLimitExceeded⟩) ∧
    ∀ first, first <+: passed.chunks ↔
      first <+: body.chunks ∧ (Budget.total List.length first : ℤ) ≤ limit

theorem boundedStream_passes {limit : ℤ} (positive : 0 ≤ limit) (stream : ByteStream) :
    PassesWithin limit stream (boundedStream limit stream) := by
  constructor
  · intro fits
    have chunks : (boundedStream limit stream).chunks = stream.chunks := by
      rw [boundedStream_chunks positive, Budget.fitting_eq_self_iff]
      omega
    have ending : (boundedStream limit stream).ending = stream.ending := by
      rw [boundedStream_ending positive, if_pos fits]
    calc boundedStream limit stream
        = ⟨(boundedStream limit stream).chunks, (boundedStream limit stream).ending⟩ := rfl
      _ = stream := by rw [chunks, ending]
  · intro exceeds
    refine ⟨?_, fun first => ?_⟩
    · rw [boundedStream_ending positive, if_neg (by omega)]
    · rw [boundedStream_chunks positive, Budget.prefix_fitting_iff]
      refine and_congr_right fun _ => ?_
      omega

theorem boundedStream_total {limit : ℤ} (positive : 0 ≤ limit) (stream : ByteStream) :
    (Budget.total List.length (boundedStream limit stream).chunks : ℤ) ≤ limit := by
  have within : Budget.total List.length (Budget.fitting List.length limit.toNat stream.chunks) ≤
      limit.toNat := Budget.total_fitting_le _ _
  rw [boundedStream_chunks positive]
  omega

/-! ### What becomes of a response -/

/-- A response whose body is passed on: no redirect, identity-encoded, without `Content-Length`. -/
structure PlainResponse [UnicodeTables] (response : HttpxResponse) : Prop where
  noRedirect : ¬ (300 ≤ response.statusCode ∧ response.statusCode < 400)
  identity : strip (lower ((response.headers.get "Content-Encoding").getD "identity")) = "" ∨
    strip (lower ((response.headers.get "Content-Encoding").getD "identity")) = "identity"
  unsized : response.headers.get "Content-Length" = none

/-- The response of a child among the answers. -/
def ChildAnswered (past : List (Answered PinnedWait PinnedWait.Answer)) (response : HttpxResponse) : Prop :=
  ∃ child sent, (⟨.child child sent, .ok response⟩ : Answered PinnedWait PinnedWait.Answer) ∈ past

section Responses

variable [UnicodeTables] {transport : PinnedOidcAsyncTransport}
  {past : List (Answered PinnedWait PinnedWait.Answer)} {state : PinnedState}

/-- While a call is suspended, no child gave it a plain response. -/
def NoPlainResponse (past : List (Answered PinnedWait PinnedWait.Answer)) (_ : PinnedWait)
    (_ : PinnedState) : Prop :=
  ∀ response, ChildAnswered past response → ¬ PlainResponse response

/-- A returned response bounds that of a child, and a plain one is always returned so. -/
structure ReturnsBounded (transport : PinnedOidcAsyncTransport) (url : String)
    (past : List (Answered PinnedWait PinnedWait.Answer)) (outcome : Except PinnedError HttpxResponse) :
    Prop where
  bounded : ∀ returned, outcome = .ok returned → ∃ response limit, ChildAnswered past response ∧
    transport.policy.responseLimitFor url = .ok limit ∧
    returned.stream = boundedStream limit response.stream
  plain : ∀ response limit, ChildAnswered past response → PlainResponse response →
    transport.policy.responseLimitFor url = .ok limit → ∃ returned, outcome = .ok returned ∧
    returned.statusCode = response.statusCode ∧ returned.headers = response.headers ∧
    returned.stream = boundedStream limit response.stream

/-- Nothing to say of a call without a plain response that raises. -/
theorem returnsBounded_error {url : String} {error : PinnedError}
    (none : ∀ response, ChildAnswered past response → ¬ PlainResponse response) :
    ReturnsBounded transport url past (.error error) :=
  ⟨by simp, fun response _ answered plain _ => absurd plain (none response answered)⟩

theorem NoChild.noPlainResponse (noChild : NoChild past) (response : HttpxResponse)
    (answered : ChildAnswered past response) : ¬ PlainResponse response := by
  obtain ⟨child, sent, member⟩ := answered
  exact absurd member (noChild child sent _)

omit [UnicodeTables] in
/-- The one answer of a child. -/
theorem NoChild.answered (noChild : NoChild past) {child : ℕ} {sent : HttpxRequest}
    {answer : Except PinnedError HttpxResponse} {response : HttpxResponse} :
    ChildAnswered (past ++ [⟨.child child sent, answer⟩]) response ↔ answer = .ok response := by
  constructor
  · rintro ⟨other, otherSent, member⟩
    rcases List.mem_append.mp member with early | last
    · exact absurd early (noChild other otherSent _)
    · cases List.mem_singleton.mp last
      rfl
  · rintro rfl
    exact ⟨child, sent, by simp⟩

/-- A refused response is not plain. -/
theorem refuse_bounded {url : String} {response : HttpxResponse} {message : String} (sound : SoundTransports state)
    (others : ∀ other, ChildAnswered past other → ¬ PlainResponse other) :
    (PinnedAsync.refuse response message : PinnedAsync HttpxResponse).Visits NoPlainResponse
      (fun past outcome state => SoundTransports state ∧ ReturnsBounded transport url past outcome)
      past state := by
  have none : ∀ answer other, ChildAnswered (past ++ [⟨.closeResponse response, answer⟩]) other →
      ¬ PlainResponse other := by
    rintro answer other ⟨child, sent, member⟩
    rcases List.mem_append.mp member with early | last
    · exact others other ⟨child, sent, early⟩
    · cases List.mem_singleton.mp last
  refine visits_asyncBind.mpr ⟨sound, others, fun answer later _ soundLater _ => ?_⟩
  cases answer with
  | error error => exact ⟨soundLater, returnsBounded_error (none _)⟩
  | ok _ => exact ⟨soundLater, returnsBounded_error (none _)⟩

/-- **`receive` bounds the response of the child**, and returns a plain one at once. -/
theorem receive_bounded {url : String} (request : HttpxRequest) {child : ℕ} {sent : HttpxRequest}
    {response : HttpxResponse} (sound : SoundTransports state) (noChild : NoChild past) :
    (transport.receive url request response).Visits NoPlainResponse
      (fun past outcome state => SoundTransports state ∧ ReturnsBounded transport url past outcome)
      (past ++ [⟨.child child sent, .ok response⟩]) state := by
  have only : ∀ other, ChildAnswered (past ++ [⟨.child child sent, .ok response⟩]) other → other = response :=
    fun other answered => (Except.ok.inj (noChild.answered.mp answered)).symm
  have refused : ∀ message, ¬ PlainResponse response →
      (PinnedAsync.refuse response message : PinnedAsync HttpxResponse).Visits NoPlainResponse
        (fun past outcome state => SoundTransports state ∧ ReturnsBounded transport url past outcome)
        (past ++ [⟨.child child sent, .ok response⟩]) state := fun message notPlain =>
    refuse_bounded sound fun other answered => only other answered ▸ notPlain
  unfold PinnedOidcAsyncTransport.receive
  by_cases redirect : 300 ≤ response.statusCode ∧ response.statusCode < 400
  · rw [if_pos redirect]
    exact refused _ fun plain => plain.noRedirect redirect
  rw [if_neg redirect]
  generalize isEncoding :
    strip (lower ((response.headers.get "Content-Encoding").getD "identity")) = contentEncoding
  by_cases compressed : contentEncoding ≠ "" ∧ contentEncoding ≠ "identity"
  · rw [if_pos compressed]
    refine refused _ fun plain => ?_
    have identity := plain.identity
    rw [isEncoding] at identity
    exact identity.elim compressed.1 compressed.2
  rw [if_neg compressed]
  refine visits_asyncBind.mpr (visits_check (fun error failed => ⟨sound, ?_⟩) fun limit isLimit => ?_)
  · refine ⟨by simp, fun other limit _ _ isLimit => ?_⟩
    rw [failed] at isLimit
    cases isLimit
  have returned : ReturnsBounded transport url (past ++ [⟨.child child sent, .ok response⟩])
      (.ok ⟨response.statusCode, response.headers, boundedStream limit response.stream, response.extensions,
        some request⟩) := by
    constructor
    · rintro other same
      cases same
      exact ⟨response, limit, noChild.answered.mpr rfl, isLimit, rfl⟩
    · intro other limit' answered _ isLimit'
      obtain rfl := only other answered
      rw [isLimit] at isLimit'
      cases isLimit'
      exact ⟨_, rfl, rfl, rfl, rfl⟩
  cases contentLength : response.headers.get "Content-Length" with
  | none => exact ⟨sound, returned⟩
  | some text =>
    have sized : ¬ PlainResponse response := fun plain => by
      rw [plain.unsized] at contentLength
      cases contentLength
    dsimp only
    split
    · exact refused _ sized
    · split
      · exact refused _ sized
      · exact ⟨sound, returned⟩

variable [Httpx]

/-- What holds where a call suspends: a plain response has been returned at once. -/
def CeilingVisit : PinnedCall → List (Answered PinnedWait PinnedWait.Answer) → PinnedWait → PinnedState → Prop
  | .handle _ => NoPlainResponse
  | .close => fun _ _ _ => True

/-- What a call returns: the response of a child, bounded. -/
def CeilingReturn (transport : PinnedOidcAsyncTransport) :
    PinnedCall → List (Answered PinnedWait PinnedWait.Answer) →
      Except PinnedError (Option HttpxResponse) → PinnedState → Prop
  | .handle request, past, outcome, _ => ∃ inner, outcome = inner.map some ∧
    ReturnsBounded transport (Httpx.text request.url) past inner
  | .close, _, _, _ => True

theorem handle_bounded (sound : SoundTransports state) (request : HttpxRequest) :
    (transport.handleAsyncRequest request).Visits NoPlainResponse
      (fun past outcome state => SoundTransports state ∧
        ReturnsBounded transport (Httpx.text request.url) past outcome) [] state := by
  refine visits_handleAsyncRequest sound ?_ ?_ ?_ ?_ ?_
  · intro host port timeout
    exact noChild_nil.noPlainResponse
  · intro past error later soundLater noChild
    exact ⟨soundLater, returnsBounded_error noChild.noPlainResponse⟩
  · intro past child sent later kind origin first others pinned
    refine NoChild.noPlainResponse ?_
    cases pinned.consulted with
    | literal _ => exact noChild_nil
    | resolver _ => exact noChild_resolver _ _ _ _
  · intro past child sent error later soundLater noChild
    refine ⟨soundLater, returnsBounded_error fun other answered => ?_⟩
    cases noChild.answered.mp answered
  · intro past child sent response later soundLater noChild
    exact receive_bounded request soundLater noChild

theorem pinnedSystem_ceiling (transport : PinnedOidcAsyncTransport) :
    (pinnedSystem transport).Visits pinnedContract CeilingVisit (CeilingReturn transport) := by
  refine ⟨rfl, fun call state sound => ?_⟩
  cases call with
  | handle request =>
    refine visits_asyncBind.mpr ((handle_bounded sound request).mono ?_)
    rintro past (error | response) later ⟨soundLater, bounded⟩
    · exact ⟨soundLater, .error error, rfl, bounded⟩
    · exact ⟨soundLater, .ok response, rfl, bounded⟩
  | close =>
    refine visits_asyncBind.mpr ((visits_aclose sound fun _ _ _ => trivial).mono ?_)
    rintro past (error | _) later soundLater
    · exact ⟨soundLater, trivial⟩
    · exact ⟨soundLater, trivial⟩

end Responses

/-! ### The ceiling -/

section Ceiling

variable [UnicodeTables] [Httpx]

/-- **The discovery response never exceeds its limit.** A request of the discovery URL is classified as
discovery; in every run, what is returned for one stays within the limit, and a plain response of a child
is returned at once, with its body passed on within the limit. -/
structure DiscoveryCeiling (transport : PinnedOidcAsyncTransport) : Prop where
  classified : transport.policy.requestKind (Httpx.text (Httpx.url transport.policy.discoveryUrl)) =
    .ok .discovery
  bounded : ∀ (actions : List PinnedAction) (pool : PinnedPool) (index : ℕ) (request : HttpxRequest)
    (response : HttpxResponse),
    (pinnedSystem transport).run ⟨{}, []⟩ actions = some pool →
    request.url = Httpx.url transport.policy.discoveryUrl →
    pool.tasks[index]? = some (.handle request, .done (.ok (some response))) →
    (Budget.total List.length response.stream.chunks : ℤ) ≤ transport.policy.discoveryMaxBytes
  streamed : ∀ (actions : List PinnedAction) (pool : PinnedPool) (index : ℕ) (request : HttpxRequest)
    (process : PinnedProcess) (response : HttpxResponse),
    (pinnedSystem transport).run ⟨{}, []⟩ actions = some pool →
    request.url = Httpx.url transport.policy.discoveryUrl →
    pool.tasks[index]? = some (.handle request, process) →
    ChildAnswered ((pinnedSystem transport).answersTo index ⟨{}, []⟩ actions) response →
    PlainResponse response →
    ∃ returned, process = .done (.ok (some returned)) ∧ returned.statusCode = response.statusCode ∧
      returned.headers = response.headers ∧
      PassesWithin transport.policy.discoveryMaxBytes response.stream returned.stream

/-- **Where the discovery URL is its own text, its response is bounded.** -/
theorem discovery_ceiling {transport : PinnedOidcAsyncTransport}
    (positive : 0 < transport.policy.discoveryMaxBytes)
    (fixed : Httpx.text (Httpx.url transport.policy.discoveryUrl) = transport.policy.discoveryUrl) :
    DiscoveryCeiling transport := by
  have classified : transport.policy.requestKind transport.policy.discoveryUrl = .ok .discovery := if_pos rfl
  have isLimit : transport.policy.responseLimitFor transport.policy.discoveryUrl =
      .ok transport.policy.discoveryMaxBytes := by
    rw [OidcNetworkSecurityPolicy.responseLimitFor, classified]
    rfl
  refine ⟨(congrArg _ fixed).trans classified, ?_, ?_⟩
  · intro actions pool index request response ran isUrl found
    rcases run_rests (pinnedSystem_ceiling transport) soundTransports_initial ran found with
      ⟨_, _, _, same, -⟩ | ⟨_, _, same, inner, isInner, returns⟩
    · cases same
    · cases same
      cases inner with
      | error error => cases isInner
      | ok returned =>
        cases isInner
        obtain ⟨original, limit, -, limited, stream⟩ := returns.bounded response rfl
        rw [isUrl, fixed, isLimit] at limited
        cases limited
        rw [stream]
        exact boundedStream_total positive.le original.stream
  · intro actions pool index request process response ran isUrl found answered plain
    rcases run_rests (pinnedSystem_ceiling transport) soundTransports_initial ran found with
      ⟨_, _, _, -, visited⟩ | ⟨_, _, rfl, inner, rfl, returns⟩
    · exact absurd plain (visited response answered)
    · rw [isUrl, fixed] at returns
      obtain ⟨returned, rfl, statusCode, headers, stream⟩ := returns.plain response _ answered plain isLimit
      exact ⟨returned, rfl, statusCode, headers, stream ▸ boundedStream_passes positive.le response.stream⟩

/-! ### How the issuer is spelled -/

omit [Httpx] in
/-- **The discovery URL is spelled normally exactly when the issuer is.** -/
theorem normalizedText_discoveryUrl {issuerUrl : String} {issuer : Origin}
    (parses : parseUrl issuerUrl = .ok issuer) :
    normalizedText (rstripChar '/' issuerUrl ++ discoverySuffix) = rstripChar '/' issuerUrl ++ discoverySuffix ↔
      normalizedText issuerUrl = issuerUrl := by
  obtain ⟨parts, -, isText, -, -, nonempty⟩ := parseUrl_parts parses
  have isDiscovery := discoveryParts_text isText nonempty
  rw [normalizedText_eq_self_iff isDiscovery, normalizedText_eq_self_iff isText]
  rfl

/-- **The ceiling holds exactly for the issuers that are spelled normally.** httpx gives the text of a URL
with scheme and host lowered and a default port removed. -/
theorem discovery_ceiling_iff {issuerUrl : String} {allowInsecureLoopback : Bool}
    {jwksAllowedOrigins : List String} {dnsTimeoutSeconds httpTimeoutSeconds : ℚ}
    {discoveryMaxBytes jwksMaxBytes : ℤ} {policy : OidcNetworkSecurityPolicy}
    (accepted : OidcNetworkSecurityPolicy.init issuerUrl allowInsecureLoopback jwksAllowedOrigins
      dnsTimeoutSeconds httpTimeoutSeconds discoveryMaxBytes jwksMaxBytes = .ok policy) (maxHosts : ℤ)
    (spells : Httpx.text (Httpx.url policy.discoveryUrl) = normalizedText policy.discoveryUrl) :
    DiscoveryCeiling ⟨policy, maxHosts⟩ ↔ normalizedText issuerUrl = issuerUrl := by
  obtain ⟨issuer, issuerOrigin, parsedIssuer, allowed, facts, rfl⟩ := init_ok_iff.mp accepted
  rw [← normalizedText_discoveryUrl facts.parsed]
  constructor
  · intro ceiling
    have classified := ceiling.classified
    dsimp only at classified spells
    rw [spells, OidcNetworkSecurityPolicy.requestKind] at classified
    by_contra other
    rw [if_neg other] at classified
    obtain ⟨_, -, isJwks⟩ := Fallible.bind_eq_ok.mp classified
    cases isJwks
  · intro fixed
    exact discovery_ceiling facts.sizes.1 (spells.trans fixed)

end Ceiling

/-- The ceiling of `https://issuer.example`. -/
theorem discovery_ceiling_lower :
    let _ := asciiTables
    let _ := plainHttpx
    DiscoveryCeiling ⟨issuerPolicy, 8⟩ := by
  intro _ _
  have spells : Httpx.text (Httpx.url issuerPolicy.discoveryUrl) = normalizedText issuerPolicy.discoveryUrl := by
    decide +kernel
  have normal : normalizedText "https://issuer.example" = "https://issuer.example" := by decide +kernel
  exact (discovery_ceiling_iff issuerPolicy_init 8 spells).mpr normal

/-! ### An issuer with an upper-case host -/

/-- The trust boundary of `https://Issuer.example`, with small limits. -/
def upperPolicy : OidcNetworkSecurityPolicy where
  issuerUrl := "https://Issuer.example"
  issuerOrigin := ⟨"https", "issuer.example", 443⟩
  discoveryUrl := "https://Issuer.example/.well-known/openid-configuration"
  allowInsecureLoopback := false
  dnsTimeoutSeconds := 2
  httpTimeoutSeconds := 5
  discoveryMaxBytes := 2
  jwksMaxBytes := 4
  trustedJwksOrigins := [⟨"https", "issuer.example", 443⟩]

/-- The child answers with three bytes. -/
def threeBytes : (want : PinnedWait) → PinnedWait.Answer want
  | .resolver _ _ _ => .ok [issuerAddress]
  | .turn _ => ()
  | .child _ _ => .ok ⟨200, [], ⟨[[123, 32, 125]], .exhausted⟩, [], none⟩
  | .closeResponse _ => .ok ()
  | .closeChild _ => .ok ()

/-- The only task of the pool got a response of three bytes. -/
def PinnedPool.gotThreeBytes (pool : PinnedPool) : Bool :=
  match pool.tasks with
  | [(.handle request, .done (.ok (some response)))] =>
    decide (request = discoveryRequest ∧ Budget.total List.length response.stream.chunks = 3)
  | _ => false

/-- Its discovery request has the limit of the keys, and three bytes pass where two are allowed. -/
theorem discovery_ceiling_upper :
    let _ := asciiTables
    let _ := plainHttpx
    OidcNetworkSecurityPolicy.init "https://Issuer.example" false [] 2 5 2 4 = .ok upperPolicy ∧
      Httpx.text (Httpx.url upperPolicy.discoveryUrl) = normalizedText upperPolicy.discoveryUrl ∧
      discoveryRequest.url = Httpx.url upperPolicy.discoveryUrl ∧
      upperPolicy.requestKind (Httpx.text discoveryRequest.url) = .ok .jwks ∧
      ∃ actions pool response, (pinnedSystem ⟨upperPolicy, 8⟩).run ⟨{}, []⟩ actions = some pool ∧
        pool.tasks = [(.handle discoveryRequest, .done (.ok (some response)))] ∧
        upperPolicy.discoveryMaxBytes < Budget.total List.length response.stream.chunks := by
  intro _ _
  have accepted : OidcNetworkSecurityPolicy.init "https://Issuer.example" false [] 2 5 2 4 = .ok upperPolicy :=
    init_ok_iff.mpr ⟨⟨"https", "issuer.example", 443⟩, _, ⟨"https", "Issuer.example", "", "", ""⟩, [],
      { timeouts := by decide +kernel
        sizes := by decide
        parsed := by decide +kernel
        secure := Or.inl rfl
        split := by decide +kernel
        noQuery := rfl
        isOrigin := by decide +kernel
        allows := rfl }, rfl⟩
  refine ⟨accepted, by decide +kernel, by decide +kernel, by decide +kernel, ?_⟩
  let actions : List PinnedAction :=
    [.spawn (.handle discoveryRequest), .resume 0 threeBytes, .resume 0 threeBytes]
  have reached : ((pinnedSystem ⟨upperPolicy, 8⟩).run ⟨{}, []⟩ actions).any PinnedPool.gotThreeBytes = true := by
    decide +kernel
  obtain ⟨pool, ran, shape⟩ := (Option.any_eq_true _ _).mp reached
  unfold PinnedPool.gotThreeBytes at shape
  split at shape
  · rename_i request response tasks
    obtain ⟨rfl, three⟩ := of_decide_eq_true shape
    exact ⟨actions, pool, response, ran, tasks, by rw [three]; decide⟩
  · cases shape

end McpAuth
