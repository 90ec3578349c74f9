/-
**The shared state of the OIDC clients and the steps they are made of.**

Verification calls run as coroutines of one event loop over an `OidcState`: the two caches, the two
locks, the forced-refresh stamps, and how often a clock was read and when last. Every reading of a clock
is a value of its own (`Clocks`), so that time passes inside a step as well as between steps. `log` is a
ghost record of the fetches started and the outcomes received; no step reads it.
-/

import Mathlib.Algebra.Order.Ring.Rat
import McpAuth.Adapters.OidcDocuments
import McpAuth.Library.Cooperative
import McpAuth.Library.TtlCache

namespace McpAuth

open Cooperative JsonText

/-! ### State -/

/-- The readings of `time.monotonic()` and of the wall clock, one for each time a clock is read. -/
class Clocks where
  monotonic : ℕ → ℚ
  wall : ℕ → ℚ

/-- A ghost event: a fetch was started, for JWKS with what the cache held then, or a request ended. -/
inductive OidcEvent
  | fetchStarted (client : RequestKind) (url : String) (forced cached : Bool) (startedAt : ℚ)
  | received (client : RequestKind) (url : String) (outcome : HttpOutcome)
  deriving DecidableEq

/-- The state the clients of one server share. -/
structure OidcState where
  readings : ℕ := 0
  now : ℚ := 0
  discoveryCache : TtlCache.Cache String OidcMetadata ℚ
  discoveryLock : AsyncLock := {}
  jwksCache : TtlCache.Cache String KeySet ℚ
  jwksLock : AsyncLock := {}
  lastForcedRefresh : List (String × ℚ) := []
  log : List OidcEvent := []

/-- What a client waits for: the end of a request, or its turn at a lock. -/
inductive OidcWait
  | get (client : RequestKind) (url : String)
  | turn (client : RequestKind) (ticket : ℕ)
  deriving DecidableEq

/-- The answers to a wait. -/
abbrev OidcWait.Answer : OidcWait → Type
  | .get _ _ => HttpOutcome
  | .turn _ _ => Unit

abbrev OidcAsync (α : Type) := Async OidcState OidcWait OidcWait.Answer Raised α

/-! ### Locks and caches -/

def discoveryLock : LockField OidcState OidcWait where
  get := OidcState.discoveryLock
  set lock state := { state with discoveryLock := lock }
  turn := .turn .discovery

def jwksLock : LockField OidcState OidcWait where
  get := OidcState.jwksLock
  set lock state := { state with jwksLock := lock }
  turn := .turn .jwks

/-- A request may end at any time, a lock is granted in turn. -/
def OidcWait.ready : OidcWait → OidcState → Bool
  | .get _ _, _ => true
  | .turn .discovery ticket, state => state.discoveryLock.isTurn ticket
  | .turn .jwks ticket, state => state.jwksLock.isTurn ticket

/-- The calls of a server as tasks over the shared state. -/
def oidcSystem {κ α : Type} (call : κ → OidcAsync α) :
    System OidcState OidcWait OidcWait.Answer κ (Except Raised α) where
  program request := (call request).run
  ready := OidcWait.ready

/-- One of the two caches. -/
structure CacheField (ν : Type) where
  get : OidcState → TtlCache.Cache String ν ℚ
  set : TtlCache.Cache String ν ℚ → OidcState → OidcState

def discoveryCache : CacheField OidcMetadata where
  get := OidcState.discoveryCache
  set cache state := { state with discoveryCache := cache }

def jwksCache : CacheField KeySet where
  get := OidcState.jwksCache
  set cache state := { state with jwksCache := cache }

/-! ### Steps -/

section Steps

variable [Clocks] {ν : Type}

/-- One more clock reading. -/
def OidcState.tick (state : OidcState) : OidcState :=
  { state with readings := state.readings + 1, now := Clocks.monotonic state.readings }

/-- `monotonic()`. -/
def monotonic : OidcAsync ℚ :=
  Async.lift (.access OidcState.tick fun state => .done (Clocks.monotonic state.readings))

/-- The wall clock. -/
def wallClock : OidcAsync ℚ :=
  Async.lift (.access OidcState.tick fun state => .done (Clocks.wall state.readings))

/-- The state `cache.get(key)` leaves. -/
def CacheField.looked (field : CacheField ν) (key : String) (state : OidcState) : OidcState :=
  field.set ((field.get state).touch (Clocks.monotonic state.readings) key) state.tick

/-- `cache.get(key)`. -/
def CacheField.lookup (field : CacheField ν) (key : String) : OidcAsync (Option ν) :=
  Async.lift (.access (field.looked key) fun state =>
    .done ((field.get state).get? (Clocks.monotonic state.readings) key))

/-- The state `cache[key] = value` leaves. -/
def CacheField.stored (field : CacheField ν) (key : String) (value : ν) (state : OidcState) :
    OidcState :=
  field.set ((field.get state).store (Clocks.monotonic state.readings) key value) state.tick

/-- `cache[key] = value`. -/
def CacheField.store (field : CacheField ν) (key : String) (value : ν) : OidcAsync Unit :=
  Async.lift (.write (field.stored key value))

end Steps

/-- The state with one more event. -/
def OidcState.record (state : OidcState) (event : OidcEvent) : OidcState :=
  { state with log := event :: state.log }

/-- A fetch begins, at the last clock reading. -/
def startFetch (client : RequestKind) (url : String) (forced cached : Bool) : OidcAsync Unit :=
  Async.lift (.write fun state =>
    state.record (.fetchStarted client url forced cached state.now))

/-- `await http_client.get(url)`, read by the client. -/
def httpGet {α : Type} (client : RequestKind) (url : String) (reads : HttpOutcome → Except Raised α) :
    OidcAsync α := do
  let outcome ← Async.lift (.await (OidcWait.get client url))
  Async.lift (.write (·.record (.received client url outcome)))
  Async.ofExcept (reads outcome)

/-! ### Which answers are faults -/

/-- The classes that `verify_token` does not turn into `None`. -/
def Raised.Uncaught : Raised → Prop
  | .discovery _ | .signingKey _ | .invalidToken => False
  | _ => True

/-- The answer poisons the document that its client reads from it. -/
def Poisoned (discoveryMaxBytes jwksMaxBytes : Int) [JsonGrammar] [PyText.UnicodeTables] :
    Answered OidcWait OidcWait.Answer → Prop
  | ⟨.get .discovery _, outcome⟩ =>
    HttpOutcome.Poisons ["application/json"] discoveryMaxBytes outcome
  | ⟨.get .jwks _, outcome⟩ =>
    HttpOutcome.Poisons ["application/json", "application/jwk-set+json"] jwksMaxBytes outcome
  | ⟨.turn _ _, _⟩ => False

section Accounting

variable {fault : Answered OidcWait OidcWait.Answer → Prop}

/-- **A request accounts for its exceptions** when the faults are the outcomes its client reads to an
uncaught exception. -/
theorem httpGet_accounted {α : Type} {client : RequestKind} {url : String}
    {reads : HttpOutcome → Except Raised α}
    (agrees : ∀ outcome, EscapesFrom (reads outcome) ↔ fault ⟨.get client url, outcome⟩) :
    Accounted Raised.Escapes fault (fun _ => True) (httpGet client url reads) := by
  intro turns state
  let outcome : HttpOutcome := (turns 0).answer (.get client url)
  show Verdict Raised.Escapes fault _ (reads outcome) [⟨.get client url, outcome⟩]
  have agree := agrees outcome
  cases read : reads outcome with
  | ok value =>
    refine ⟨trivial, fun answered member => ?_⟩
    rw [List.mem_singleton] at member
    subst member
    rw [← agree, read]
    rintro ⟨error, same, -⟩
    cases same
  | error error =>
    show error.Escapes ↔ ∃ answered ∈ [⟨OidcWait.get client url, outcome⟩], fault answered
    simp only [List.mem_singleton, exists_eq_left]
    rw [← agree, read]
    constructor
    · intro escapes
      exact ⟨error, rfl, escapes⟩
    · rintro ⟨other, same, escapes⟩
      cases same
      exact escapes

theorem startFetch_accounted {escapes : Raised → Prop} (client : RequestKind) (url : String)
    (forced cached : Bool) :
    Accounted escapes fault (fun _ => True) (startFetch client url forced cached) :=
  .lift (.write _)

variable [Clocks] {ν : Type}

theorem lookup_accounted {escapes : Raised → Prop} (field : CacheField ν) (key : String) :
    Accounted escapes fault (fun _ => True) (field.lookup key) :=
  .lift (.access fun _ => .done _)

theorem store_accounted {escapes : Raised → Prop} (field : CacheField ν) (key : String) (value : ν) :
    Accounted escapes fault (fun _ => True) (field.store key value) :=
  .lift (.write _)

end Accounting

end McpAuth
