/-
**When a cache that is refreshed under a lock fetches.**

One document is cached with an expiry. A fetch starts because nothing live is cached, or it was forced while
a live document was cached and then left a stamp, at least a cooldown after the last stamp. A `Snapshot` is
the cached document, the stamp, and the fetches so far, newest first.

* `Spaced` — where the starts of the fetches lie, if every fetch that ended succeeded;
* `Filled` — what is cached between fetches: the document of the latest one;
* `count_le` — no window holds more starts than both kinds allow;
* `Filled.served` — a stamp is never newer than the cached document.
-/

import Mathlib.Algebra.Order.Floor.Semiring
import Mathlib.Data.List.Basic
import Mathlib.Tactic.Linarith

namespace RefreshTimeline

variable {ρ ν τ : Type}

/-- A fetch: whether a live document was cached when it started, and its outcome once it ended. -/
structure Fetch (ρ τ : Type) where
  startedAt : τ
  cached : Bool
  outcome : Option ρ := none

/-- The cached document with its expiry, the last stamp, and the fetches, newest first. -/
@[ext] structure Snapshot (ρ ν τ : Type) where
  entry : Option (ν × τ)
  stamp : Option τ
  fetches : List (Fetch ρ τ)

/-- How long documents live and how far stamps are apart, and what a successful outcome holds. -/
structure Policy (ρ ν τ : Type) where
  ttl : τ
  cooldown : τ
  reads : ρ → Option ν

/-! ### Steps -/

namespace Snapshot

/-- A fetch starts. -/
def start (snapshot : Snapshot ρ ν τ) (now : τ) (cached : Bool) : Snapshot ρ ν τ :=
  { snapshot with fetches := ⟨now, cached, none⟩ :: snapshot.fetches }

/-- A forced refresh leaves its stamp. -/
def restamp (snapshot : Snapshot ρ ν τ) (now : τ) : Snapshot ρ ν τ :=
  { snapshot with stamp := some now }

/-- A document is cached. -/
def store (snapshot : Snapshot ρ ν τ) (value : ν) (expires : τ) : Snapshot ρ ν τ :=
  { snapshot with entry := some (value, expires) }

end Snapshot

/-- The latest fetch ends. -/
def received (outcome : ρ) : List (Fetch ρ τ) → List (Fetch ρ τ)
  | [] => []
  | fetch :: older => ⟨fetch.startedAt, fetch.cached, fetch.outcome <|> some outcome⟩ :: older

/-- The latest fetch of a snapshot ends. -/
def Snapshot.receive (snapshot : Snapshot ρ ν τ) (outcome : ρ) : Snapshot ρ ν τ :=
  { snapshot with fetches := received outcome snapshot.fetches }

/-- Every fetch that ended succeeded. -/
def Succeeds (policy : Policy ρ ν τ) (fetches : List (Fetch ρ τ)) : Prop :=
  ∀ fetch ∈ fetches, ∀ outcome, fetch.outcome = some outcome → (policy.reads outcome).isSome

/-- A fact of fetches that a later list of fetches only adds to. -/
theorem mem_received {outcome : ρ} {fetches : List (Fetch ρ τ)} {fetch : Fetch ρ τ}
    (member : fetch ∈ fetches) : ∃ later ∈ received outcome fetches,
      later.startedAt = fetch.startedAt ∧ ∀ known, fetch.outcome = some known → later.outcome = some known := by
  cases fetches with
  | nil => cases member
  | cons latest older =>
    rcases List.mem_cons.mp member with rfl | isOlder
    · exact ⟨_, List.mem_cons_self, rfl, fun known same => by simp [same]⟩
    · exact ⟨fetch, List.mem_cons_of_mem _ isOlder, rfl, fun _ same => same⟩

/-! ### Invariants -/

section Invariants

variable [Field τ] [LinearOrder τ]

/-- **Where the starts lie**, up to now. -/
structure Spaced (policy : Policy ρ ν τ) (now : τ) (snapshot : Snapshot ρ ν τ) : Prop where
  past : ∀ fetch ∈ snapshot.fetches, fetch.startedAt ≤ now
  sorted : snapshot.fetches.Pairwise fun later earlier => earlier.startedAt ≤ later.startedAt
  uncached : snapshot.fetches.Pairwise fun later earlier =>
    later.cached = false → earlier.startedAt + policy.ttl ≤ later.startedAt
  stamped : snapshot.fetches.Pairwise fun later earlier => later.cached = true →
    earlier.cached = true → earlier.startedAt + policy.cooldown ≤ later.startedAt
  bounded : ∀ fetch ∈ snapshot.fetches, fetch.cached = true →
    ∃ stamp, snapshot.stamp = some stamp ∧ fetch.startedAt ≤ stamp

/-- **What is cached between fetches**: nothing before the first, then the document of the latest, which
lives at least its time to live from the start of the fetch on and is not older than the stamp. -/
structure Filled (policy : Policy ρ ν τ) (snapshot : Snapshot ρ ν τ) : Prop where
  empty : snapshot.fetches = [] → snapshot.entry = none ∧ snapshot.stamp = none
  latest : ∀ fetch older, snapshot.fetches = fetch :: older →
    ∃ outcome value expires, fetch.outcome = some outcome ∧ policy.reads outcome = some value ∧
      snapshot.entry = some (value, expires) ∧ fetch.startedAt + policy.ttl ≤ expires ∧
      ∀ stamp, snapshot.stamp = some stamp → stamp ≤ fetch.startedAt

/-- **During a fetch**: the latest one has not ended, and started at or after the stamp. -/
structure Pending (since : τ) (snapshot : Snapshot ρ ν τ) : Prop where
  latest : ∃ fetch older, snapshot.fetches = fetch :: older ∧ fetch.outcome = none ∧
    since ≤ fetch.startedAt ∧ ∀ stamp, snapshot.stamp = some stamp → stamp ≤ fetch.startedAt

/-- The document came with a fetch that started at the given time or later. -/
def Served (policy : Policy ρ ν τ) (since : τ) (value : ν) (fetches : List (Fetch ρ τ)) : Prop :=
  ∃ fetch ∈ fetches, since ≤ fetch.startedAt ∧
    ∃ outcome, fetch.outcome = some outcome ∧ policy.reads outcome = some value

variable {policy : Policy ρ ν τ} {now later since : τ} {snapshot : Snapshot ρ ν τ}

theorem Spaced.mono (le : now ≤ later) (spaced : Spaced policy now snapshot) :
    Spaced policy later snapshot :=
  { spaced with past := fun fetch member => (spaced.past fetch member).trans le }

/-- **A fetch because nothing live is cached** starts a time to live after all others. -/
theorem Spaced.startUncached [IsStrictOrderedRing τ] (spaced : Spaced policy now snapshot) (filled : Filled policy snapshot)
    (dead : ∀ value expires, snapshot.entry = some (value, expires) → expires ≤ now) :
    Spaced policy now (snapshot.start now false) := by
  have apart : ∀ fetch ∈ snapshot.fetches, fetch.startedAt + policy.ttl ≤ now := by
    intro fetch member
    cases known : snapshot.fetches with
    | nil => simp [known] at member
    | cons latest older =>
      obtain ⟨outcome, value, expires, -, -, stored, lives, -⟩ := filled.latest latest older known
      have expired := dead value expires stored
      have sorted := spaced.sorted
      rw [known] at member sorted
      rcases List.mem_cons.mp member with rfl | isOlder
      · linarith
      · have before := List.rel_of_pairwise_cons sorted isOlder
        linarith
  refine ⟨fun fetch member => ?_, ?_, ?_, ?_, fun fetch member cached => ?_⟩
  · rcases List.mem_cons.mp member with rfl | old
    · exact le_refl _
    · exact spaced.past fetch old
  · exact List.pairwise_cons.mpr ⟨fun fetch member => spaced.past fetch member, spaced.sorted⟩
  · exact List.pairwise_cons.mpr ⟨fun fetch member _ => apart fetch member, spaced.uncached⟩
  · exact List.pairwise_cons.mpr ⟨fun _ _ cached => (by cases cached), spaced.stamped⟩
  · rcases List.mem_cons.mp member with rfl | old
    · cases cached
    · exact spaced.bounded fetch old cached

/-- **A forced fetch that leaves a stamp** starts a cooldown after all others that did. -/
theorem Spaced.startStamped [IsStrictOrderedRing τ] (spaced : Spaced policy now snapshot)
    (cool : ∀ last, snapshot.stamp = some last → policy.cooldown ≤ now - last) :
    Spaced policy now ((snapshot.restamp now).start now true) := by
  have apart : ∀ fetch ∈ snapshot.fetches, fetch.cached = true →
      fetch.startedAt + policy.cooldown ≤ now := by
    intro fetch member cached
    obtain ⟨stamp, isStamp, bound⟩ := spaced.bounded fetch member cached
    have elapsed := cool stamp isStamp
    linarith
  refine ⟨fun fetch member => ?_, ?_, ?_, ?_, fun fetch member cached => ⟨now, rfl, ?_⟩⟩
  · rcases List.mem_cons.mp member with rfl | old
    · exact le_refl _
    · exact spaced.past fetch old
  · exact List.pairwise_cons.mpr ⟨fun fetch member => spaced.past fetch member, spaced.sorted⟩
  · exact List.pairwise_cons.mpr ⟨fun _ _ uncached => (by cases uncached), spaced.uncached⟩
  · exact List.pairwise_cons.mpr ⟨fun fetch member _ cached => apart fetch member cached, spaced.stamped⟩
  · rcases List.mem_cons.mp member with rfl | old
    · exact le_refl _
    · exact spaced.past fetch old

theorem pending_startUncached (spaced : Spaced policy now snapshot) (filled : Filled policy snapshot)
    (le : since ≤ now) : Pending since (snapshot.start now false) := by
  refine ⟨_, _, rfl, rfl, le, fun stamp isStamp => ?_⟩
  cases known : snapshot.fetches with
  | nil =>
    rw [show (snapshot.start now false).stamp = snapshot.stamp from rfl, (filled.empty known).2] at isStamp
    cases isStamp
  | cons latest older =>
    obtain ⟨-, -, -, -, -, -, -, older⟩ := filled.latest latest older known
    exact (older stamp isStamp).trans (spaced.past latest (known ▸ List.mem_cons_self))

omit [Field τ] in
theorem pending_startStamped (le : since ≤ now) : Pending since ((snapshot.restamp now).start now true) :=
  ⟨_, _, rfl, rfl, le, fun _ isStamp => (Option.some.inj isStamp).symm.le⟩

/-- The end of a fetch moves no start. -/
theorem Spaced.receive (spaced : Spaced policy now snapshot) (outcome : ρ) :
    Spaced policy now (snapshot.receive outcome) := by
  obtain ⟨entry, stamp, fetches⟩ := snapshot
  obtain ⟨past, sorted, uncached, stamped, bounded⟩ := spaced
  cases fetches with
  | nil => exact ⟨past, sorted, uncached, stamped, bounded⟩
  | cons latest older =>
    simp only [List.pairwise_cons, List.forall_mem_cons] at past sorted uncached stamped bounded
    simp only [Snapshot.receive, received]
    refine ⟨?_, ?_, ?_, ?_, ?_⟩
    · exact List.forall_mem_cons.mpr past
    · exact List.pairwise_cons.mpr sorted
    · exact List.pairwise_cons.mpr uncached
    · exact List.pairwise_cons.mpr stamped
    · exact List.forall_mem_cons.mpr bounded

/-- **A successful fetch fills the cache.** -/
theorem Pending.store [IsStrictOrderedRing τ] (pending : Pending since snapshot) {outcome : ρ} {value : ν} {expires : τ}
    (spaced : Spaced policy now snapshot) (reads : policy.reads outcome = some value)
    (lives : now + policy.ttl ≤ expires) : Filled policy ((snapshot.receive outcome).store value expires) := by
  obtain ⟨fetch, older, known, open', -, bound⟩ := pending.latest
  have shown : ((snapshot.receive outcome).store value expires).fetches =
      ⟨fetch.startedAt, fetch.cached, some outcome⟩ :: older := by
    simp [Snapshot.store, Snapshot.receive, received, known, open']
  refine ⟨fun none => ?_, fun latest rest same => ?_⟩
  · rw [shown] at none
    cases none
  · obtain ⟨rfl, rfl⟩ := List.cons.inj (shown.symm.trans same)
    refine ⟨outcome, value, expires, rfl, reads, rfl, ?_, bound⟩
    have started := spaced.past fetch (known ▸ List.mem_cons_self)
    exact (add_le_add_left started _).trans lives

theorem Spaced.store (spaced : Spaced policy now snapshot) (value : ν) (expires : τ) :
    Spaced policy now (snapshot.store value expires) :=
  { spaced with }

omit [Field τ] in
/-- The document of the fetch that just ended. -/
theorem Pending.served (pending : Pending since snapshot) {outcome : ρ} {value : ν}
    (reads : policy.reads outcome = some value) :
    Served policy since value (snapshot.receive outcome).fetches := by
  obtain ⟨fetch, older, known, open', le, -⟩ := pending.latest
  refine ⟨⟨fetch.startedAt, fetch.cached, some outcome⟩, ?_, le, outcome, rfl, reads⟩
  simp [Snapshot.receive, received, known, open']

/-- **A stamp is never newer than the cached document.** -/
theorem Filled.served (filled : Filled policy snapshot) {stamp : τ} (stamped : snapshot.stamp = some stamp)
    {value : ν} {expires : τ} (stored : snapshot.entry = some (value, expires)) :
    Served policy stamp value snapshot.fetches := by
  cases known : snapshot.fetches with
  | nil =>
    rw [(filled.empty known).2] at stamped
    cases stamped
  | cons latest older =>
    obtain ⟨outcome, found, _, ended, reads, same, -, bound⟩ := filled.latest latest older known
    obtain ⟨rfl, rfl⟩ := Prod.mk.inj (Option.some.inj (same.symm.trans stored))
    exact ⟨latest, List.mem_cons_self, bound stamp stamped, outcome, ended, reads⟩

omit [Field τ] in
/-- A fetch that served a document still did when later ones are recorded. -/
theorem Served.mono {fetches others : List (Fetch ρ τ)} {value : ν} {le : τ}
    (served : Served policy since value fetches) (earlier : le ≤ since)
    (grows : ∀ fetch ∈ fetches, ∃ later ∈ others, later.startedAt = fetch.startedAt ∧
      ∀ known, fetch.outcome = some known → later.outcome = some known) :
    Served policy le value others := by
  obtain ⟨fetch, member, started, outcome, ended, reads⟩ := served
  obtain ⟨later, found, same, kept⟩ := grows fetch member
  exact ⟨later, found, earlier.trans (same ▸ started), outcome, kept outcome ended, reads⟩

end Invariants

/-! ### Counting -/

section Counting

variable [Field τ] [LinearOrder τ] [IsStrictOrderedRing τ]

/-- Times that lie a distance apart, newest first, reach that many distances back. -/
theorem spaced_reach {distance first : τ} {times : List τ} {latest : τ}
    (apart : (latest :: times).Pairwise fun later earlier => earlier + distance ≤ later)
    (from' : ∀ time ∈ latest :: times, first ≤ time) :
    first + times.length * distance ≤ latest := by
  induction times generalizing latest with
  | nil => simpa using from' latest
  | cons next older ih =>
    obtain ⟨step, rest⟩ := List.pairwise_cons.mp apart
    have reach := ih rest fun time member => from' time (List.mem_cons_of_mem _ member)
    have gap := step next List.mem_cons_self
    push_cast [List.length_cons]
    linarith

variable [FloorSemiring τ]

/-- **A window holds few times that lie a distance apart.** -/
theorem length_le_of_spaced {distance start window : τ} (positive : 0 < distance) {times : List τ}
    (apart : times.Pairwise fun later earlier => earlier + distance ≤ later)
    (inside : ∀ time ∈ times, start ≤ time ∧ time ≤ start + window) :
    times.length ≤ ⌊window / distance⌋₊ + 1 := by
  cases times with
  | nil => simp
  | cons latest older =>
    have reach := spaced_reach apart fun time member => (inside time member).1
    have within := (inside latest List.mem_cons_self).2
    have many : (older.length : τ) ≤ window / distance := by
      rw [le_div_iff₀ positive]
      linarith
    rw [List.length_cons, Nat.add_le_add_iff_right]
    exact Nat.le_floor many

/-- The fetches that start in a window. -/
def startedWithin (start window : τ) (fetches : List (Fetch ρ τ)) : List (Fetch ρ τ) :=
  fetches.filter fun fetch => start ≤ fetch.startedAt ∧ fetch.startedAt ≤ start + window

/-- **No window holds more starts than both kinds allow.** -/
theorem count_le {policy : Policy ρ ν τ} (ttl : 0 < policy.ttl) (cooldown : 0 < policy.cooldown) {now : τ}
    {snapshot : Snapshot ρ ν τ} (spaced : Spaced policy now snapshot) (start window : τ) :
    (startedWithin start window snapshot.fetches).length ≤
      (⌊window / policy.ttl⌋₊ + 1) + (⌊window / policy.cooldown⌋₊ + 1) := by
  let within := startedWithin start window snapshot.fetches
  have inside : ∀ fetch ∈ within, start ≤ fetch.startedAt ∧ fetch.startedAt ≤ start + window := by
    intro fetch member
    simpa using (List.mem_filter.mp member).2
  have uncached : ((within.filter (!·.cached)).map Fetch.startedAt).length ≤ ⌊window / policy.ttl⌋₊ + 1 := by
    refine @length_le_of_spaced _ _ _ _ _ _ start _ ttl _ ?_ fun time member => ?_
    · refine List.pairwise_map.mpr ?_
      refine List.Pairwise.imp_of_mem ?_ ((spaced.uncached.filter _).filter _)
      intro later earlier isLater _ apart
      exact apart (by simpa using (List.mem_filter.mp isLater).2)
    · obtain ⟨fetch, isFetch, rfl⟩ := List.mem_map.mp member
      exact inside fetch (List.mem_of_mem_filter isFetch)
  have stamped : ((within.filter (·.cached)).map Fetch.startedAt).length ≤
      ⌊window / policy.cooldown⌋₊ + 1 := by
    refine @length_le_of_spaced _ _ _ _ _ _ start _ cooldown _ ?_ fun time member => ?_
    · refine List.pairwise_map.mpr ?_
      refine List.Pairwise.imp_of_mem ?_ ((spaced.stamped.filter _).filter _)
      intro later earlier isLater isEarlier apart
      exact apart (by simpa using (List.mem_filter.mp isLater).2)
        (by simpa using (List.mem_filter.mp isEarlier).2)
    · obtain ⟨fetch, isFetch, rfl⟩ := List.mem_map.mp member
      exact inside fetch (List.mem_of_mem_filter isFetch)
  rw [List.length_map] at uncached stamped
  have split := List.length_eq_length_filter_add (l := within) (·.cached)
  show within.length ≤ _
  omega

end Counting

end RefreshTimeline
