/-
**What a lock protects.**

A `Monitor` names a lock, a view of the shared state that only the holder of the lock changes, what is true
of it while the lock is free (`free`), and what is true at the suspensions of the holder (`busy`). The
suspensions inside the critical section are marked (`inside`).

`Guards` is the obligation of one process: outside it leaves view and lock alone except for taking a free
lock; inside it may rely on its view across suspensions, and it has to re-establish `free` before it
releases. `Meets` are the triples, with one rule for each construct of a coroutine. `run_guarded`: in every
run of such processes the lock is held by exactly the one task that is suspended inside, and `free` or
`busy` holds at every suspension.
-/

import McpAuth.Library.Ledger

namespace Cooperative

variable {σ ω π : Type} {ι : ω → Type} {ε ε' α β κ : Type}

/-- A lock, what it protects, and what holds of it while the lock is free or held. -/
structure Monitor (σ ω π : Type) where
  field : LockField σ ω
  ready : ω → σ → Bool
  inside : ω → Bool
  view : σ → π
  evolves : σ → σ → Prop
  free : σ → Prop
  busy : σ → Prop
  refl : ∀ state, evolves state state
  trans : ∀ {first second third}, evolves first second → evolves second third → evolves first third
  free_stable : ∀ {first second}, view second = view first → evolves first second →
    free first → free second
  busy_stable : ∀ {first second}, view second = view first → evolves first second →
    busy first → busy second
  get_set : ∀ lock state, field.get (field.set lock state) = lock
  view_set : ∀ lock state, view (field.set lock state) = view state
  evolves_set : ∀ lock state, evolves state (field.set lock state)
  turn_outside : ∀ ticket, inside (field.turn ticket) = false
  turn_ready : ∀ ticket state, ready (field.turn ticket) state = (field.get state).isTurn ticket

namespace Monitor

/-- The lock is held. -/
def locked (monitor : Monitor σ ω π) (state : σ) : Bool := (monitor.field.get state).locked

/-- What holds at every suspension. -/
structure Invariant (monitor : Monitor σ ω π) (state : σ) : Prop where
  free : monitor.locked state = false → monitor.free state
  busy : monitor.locked state = true → monitor.busy state

/-- **The obligation of one process**, which owns the lock or does not. -/
def Guards (monitor : Monitor σ ω π) (post : α → Bool → σ → Prop) :
    Process σ ω ι α → Bool → σ → Prop
  | .done result, owns, state => post result owns state
  | .access update next, owns, state =>
    monitor.evolves state (update state) ∧
      (owns = false → monitor.view (update state) = monitor.view state ∧
        (monitor.locked state = true → monitor.locked (update state) = true)) ∧
      (owns = true → monitor.locked (update state) = false → monitor.free (update state)) ∧
      Guards monitor post (next state)
        (monitor.locked (update state) && (owns || !monitor.locked state)) (update state)
  | .wait want next, owns, state =>
    monitor.inside want = owns ∧ (owns = true → monitor.busy state) ∧
      ∀ answer later, monitor.evolves state later → monitor.ready want later = true →
        monitor.Invariant later →
        (owns = true → monitor.locked later = true ∧ monitor.view later = monitor.view state) →
        Guards monitor post (next answer) owns later

section Rules

variable {monitor : Monitor σ ω π}

/-- Sequencing. -/
theorem guards_bind {post : β → Bool → σ → Prop} {process : Process σ ω ι α}
    {after : α → Process σ ω ι β} {owns : Bool} {state : σ} :
    Guards monitor post (process >>= after) owns state ↔
      Guards monitor (fun result => Guards monitor post (after result)) process owns state := by
  show Guards monitor post (process.bind after) owns state ↔ _
  induction process generalizing owns state with
  | done result => rfl
  | access update next ih =>
    exact and_congr_right fun _ => and_congr_right fun _ => and_congr_right fun _ => ih state
  | wait want next ih =>
    refine and_congr_right fun _ => and_congr_right fun _ => forall_congr' fun answer => ?_
    refine forall_congr' fun later => forall_congr' fun _ => forall_congr' fun _ => ?_
    exact forall_congr' fun _ => forall_congr' fun _ => ih answer

/-- A weaker postcondition holds a fortiori. -/
theorem Guards.mono {post post' : α → Bool → σ → Prop} {process : Process σ ω ι α} {owns : Bool}
    {state : σ} (weaker : ∀ result owns state, post result owns state → post' result owns state)
    (guards : Guards monitor post process owns state) : Guards monitor post' process owns state := by
  induction process generalizing owns state with
  | done result => exact weaker result owns state guards
  | access update next ih =>
    obtain ⟨moved, outside, released, rest⟩ := guards
    exact ⟨moved, outside, released, ih state rest⟩
  | wait want next ih =>
    obtain ⟨marked, busy, rest⟩ := guards
    exact ⟨marked, busy, fun answer later moved isReady kept own =>
      ih answer (rest answer later moved isReady kept own)⟩

/-- A fact that no step takes away is still there at the end. -/
theorem Guards.frame {post : α → Bool → σ → Prop} {fact : σ → Prop} {process : Process σ ω ι α}
    {owns : Bool} {state : σ} (stable : ∀ {first second}, monitor.evolves first second → fact first → fact second)
    (known : fact state) (guards : Guards monitor post process owns state) :
    Guards monitor (fun result owns state => post result owns state ∧ fact state) process owns state := by
  induction process generalizing owns state with
  | done result => exact ⟨guards, known⟩
  | access update next ih =>
    obtain ⟨moved, outside, released, rest⟩ := guards
    exact ⟨moved, outside, released, ih state (stable moved known) rest⟩
  | wait want next ih =>
    obtain ⟨marked, busy, rest⟩ := guards
    exact ⟨marked, busy, fun answer later moved isReady kept own =>
      ih answer (stable moved known) (rest answer later moved isReady kept own)⟩

end Rules

/-! ### Triples -/

/-- What a coroutine finds before each of its steps: its own lock, or the invariant. -/
def At (monitor : Monitor σ ω π) (owns : Bool) (state : σ) : Prop :=
  if owns then monitor.locked state = true else monitor.Invariant state

/-- **A body that starts and ends inside, or starts and ends outside.** -/
def Meets (monitor : Monitor σ ω π) (owns : Bool) (pre : σ → Prop) (returns : α → σ → Prop)
    (raises : σ → Prop) (body : Async σ ω ι ε α) : Prop :=
  ∀ state, monitor.At owns state → pre state →
    Guards monitor (fun outcome owned later => owned = owns ∧ monitor.At owns later ∧
      match outcome with
      | .ok result => returns result later
      | .error _ => raises later) body.run owns state

section Triples

variable {monitor : Monitor σ ω π} {owns : Bool} {pre : σ → Prop} {returns : α → σ → Prop}
  {raises : σ → Prop}

theorem Meets.pure {result : α} (holds : ∀ state, pre state → returns result state) :
    Meets monitor owns pre returns raises (Pure.pure result : Async σ ω ι ε α) :=
  fun state found start => ⟨rfl, found, holds state start⟩

theorem Meets.throw {error : ε} (holds : ∀ state, pre state → raises state) :
    Meets monitor owns pre returns raises (MonadExcept.throw error : Async σ ω ι ε α) :=
  fun state found start => ⟨rfl, found, holds state start⟩

theorem Meets.ofExcept {outcome : Except ε α}
    (normal : ∀ result, outcome = .ok result → ∀ state, pre state → returns result state)
    (raised : ∀ error, outcome = .error error → ∀ state, pre state → raises state) :
    Meets monitor owns pre returns raises (Async.ofExcept outcome : Async σ ω ι ε α) := by
  cases outcome with
  | ok result => exact .pure (normal result rfl)
  | error error => exact .throw (raised error rfl)

theorem Meets.weaken {pre' : σ → Prop} {returns' : α → σ → Prop} {raises' : σ → Prop}
    {body : Async σ ω ι ε α} (meets : Meets monitor owns pre returns raises body)
    (starts : ∀ state, pre' state → pre state)
    (ends : ∀ result state, returns result state → returns' result state)
    (fails : ∀ state, raises state → raises' state) :
    Meets monitor owns pre' returns' raises' body := by
  intro state found start
  refine (meets state found (starts state start)).mono ?_
  rintro (error | result) owned later ⟨same, foundLater, holds⟩
  · exact ⟨same, foundLater, fails later holds⟩
  · exact ⟨same, foundLater, ends result later holds⟩

theorem Meets.bind {returns' : β → σ → Prop} {body : Async σ ω ι ε α} {after : α → Async σ ω ι ε β}
    (first : Meets monitor owns pre returns raises body)
    (second : ∀ result, Meets monitor owns (returns result) returns' raises (after result)) :
    Meets monitor owns pre returns' raises (body >>= after) := by
  intro state found start
  refine guards_bind.mpr ((first state found start).mono ?_)
  rintro (error | result) owned later ⟨rfl, foundLater, holds⟩
  · exact ⟨rfl, foundLater, holds⟩
  · exact second result later foundLater holds

/-- A fact that no step takes away is still there at the end. -/
theorem Meets.frame {fact : σ → Prop} {body : Async σ ω ι ε α}
    (stable : ∀ {first second}, monitor.evolves first second → fact first → fact second)
    (meets : Meets monitor owns pre returns raises body) :
    Meets monitor owns (fun state => pre state ∧ fact state)
      (fun result state => returns result state ∧ fact state) raises body := by
  intro state found start
  refine ((meets state found start.1).frame stable start.2).mono ?_
  rintro (error | result) owned later ⟨⟨same, foundLater, holds⟩, known⟩
  · exact ⟨same, foundLater, holds⟩
  · exact ⟨same, foundLater, holds, known⟩

/-- `try: body / except …: raise convert(error)`. -/
theorem Meets.adapt {convert : ε → ε'} {body : Async σ ω ι ε α}
    (meets : Meets monitor owns pre returns raises body) :
    Meets monitor owns pre returns raises (body.adapt convert) := by
  intro state found start
  refine guards_bind.mpr ((meets state found start).mono ?_)
  rintro (error | result) owned later holds
  · exact holds
  · exact holds

/-- An access that leaves the lock alone, and outside also the view. -/
theorem Meets.access {update : σ → σ} {result : σ → α}
    (moves : ∀ state, monitor.evolves state (update state))
    (unlocked : ∀ state, monitor.locked (update state) = monitor.locked state)
    (untouched : owns = false → ∀ state, monitor.view (update state) = monitor.view state)
    (holds : ∀ state, pre state → monitor.At owns state → returns (result state) (update state)) :
    Meets monitor owns pre returns raises
      (Async.lift (.access update fun state => .done (result state)) : Async σ ω ι ε α) := by
  intro state found start
  cases owns with
  | false =>
    have same := untouched rfl state
    refine ⟨moves state, fun _ => ⟨same, fun held => (unlocked state).trans held⟩,
      (fun inside => by cases inside), ?_⟩
    have outside : (monitor.locked (update state) && (false || !monitor.locked state)) = false := by
      rw [unlocked]
      cases monitor.locked state <;> rfl
    rw [outside]
    have kept : monitor.Invariant state := found
    refine ⟨rfl, ⟨fun isFree => ?_, fun held => ?_⟩, holds state start found⟩
    · exact monitor.free_stable same (moves state) (kept.free (unlocked state ▸ isFree))
    · exact monitor.busy_stable same (moves state) (kept.busy (unlocked state ▸ held))
  | true =>
    have held : monitor.locked (update state) = true := (unlocked state).trans found
    refine ⟨moves state, (fun inside => by cases inside), fun _ isFree => ?_, ?_⟩
    · rw [held] at isFree
      cases isFree
    · have inside : (monitor.locked (update state) && (true || !monitor.locked state)) = true := by
        rw [held]
        rfl
      rw [inside]
      exact ⟨rfl, held, holds state start found⟩

/-- A suspension inside: the view is still the holder's. -/
theorem Meets.awaitInside {want : ω} {returns : ι want → σ → Prop} (marked : monitor.inside want = true)
    (busy : ∀ state, pre state → monitor.busy state)
    (answered : ∀ answer state later, pre state → monitor.evolves state later →
      monitor.view later = monitor.view state → returns answer later) :
    Meets monitor true pre returns raises
      (Async.lift (.await want) : Async σ ω ι ε (ι want)) := by
  intro state found start
  refine ⟨marked, fun _ => busy state start, fun answer later moved _ _ own => ?_⟩
  obtain ⟨held, same⟩ := own rfl
  exact ⟨rfl, held, answered answer state later start moved same⟩

/-- **`async with lock: body`.** The body starts and ends with what is true of a free lock. -/
theorem Meets.locked {body : Async σ ω ι ε α}
    (stable : ∀ {first second}, monitor.evolves first second → pre first → pre second)
    (released : ∀ lock result state, returns result state →
      returns result (monitor.field.set lock state))
    (raised : ∀ lock state, raises state → raises (monitor.field.set lock state))
    (inside : Meets monitor true (fun state => monitor.free state ∧ pre state)
      (fun result state => monitor.free state ∧ returns result state)
      (fun state => monitor.free state ∧ raises state) body) :
    Meets monitor false pre returns raises (monitor.field.locked body) := by
  have frees : ∀ lock state, monitor.free state → monitor.free (monitor.field.set lock state) :=
    fun lock state => monitor.free_stable (monitor.view_set lock state) (monitor.evolves_set lock state)
  have isLocked : ∀ lock state, monitor.locked (monitor.field.set lock state) = lock.locked :=
    fun lock state => congrArg AsyncLock.locked (monitor.get_set lock state)
  -- What is left to do once the lock was taken.
  have entered : ∀ state, monitor.locked state = false → monitor.free state → pre state →
      ∀ lock : AsyncLock, lock.locked = true →
        Guards monitor (fun outcome owned later => owned = false ∧ monitor.At false later ∧
            match outcome with
            | .ok result => returns result later
            | .error _ => raises later)
          (body.ensuring monitor.field.release).run true (monitor.field.set lock state) := by
    intro state _ isFree start lock held
    refine guards_bind.mpr ((inside (monitor.field.set lock state) ((isLocked lock state).trans held)
      ⟨frees lock state isFree, stable (monitor.evolves_set lock state) start⟩).mono ?_)
    rintro outcome owned later ⟨rfl, _, holds⟩
    have freeLater : monitor.free later := by
      cases outcome with
      | error error => exact holds.1
      | ok result => exact holds.1
    refine ⟨monitor.evolves_set _ later, (fun outside => by cases outside),
      fun _ _ => frees _ later freeLater, ?_⟩
    have outside : (monitor.locked (monitor.field.set { monitor.field.get later with locked := false } later)
        && (true || !monitor.locked later)) = false := by
      rw [isLocked]
      rfl
    rw [outside]
    refine ⟨rfl, ⟨fun _ => frees _ later freeLater, fun held => ?_⟩, ?_⟩
    · rw [isLocked] at held
      cases held
    · cases outcome with
      | error error => exact raised _ later holds.2
      | ok result => exact released _ result later holds.2
  intro state found start
  have kept : monitor.Invariant state := found
  have stays : ∀ state, (monitor.locked state && (false || !monitor.locked state)) = false := by
    intro state
    cases monitor.locked state <;> rfl
  have takes : ∀ lock state, monitor.locked state = false → lock.locked = true →
      (monitor.locked (monitor.field.set lock state) && (false || !monitor.locked state)) = true := by
    intro lock state unlocked held
    rw [isLocked, unlocked, held]
    rfl
  refine guards_bind.mpr (guards_bind.mpr (guards_bind.mpr ?_))
  refine ⟨monitor.refl state, fun _ => ⟨rfl, id⟩, (fun outside => by cases outside), ?_⟩
  rw [id, stays]
  by_cases isFree : (!(monitor.field.get state).locked && (monitor.field.get state).waiters.isEmpty) = true
  · -- A free lock without waiters is taken at once.
    have unlocked : monitor.locked state = false := by
      rw [Bool.and_eq_true, Bool.not_eq_true'] at isFree
      exact isFree.1
    simp only [Guards]
    rw [if_pos isFree]
    refine ⟨monitor.evolves_set _ state, fun _ => ⟨monitor.view_set _ state, fun held => ?_⟩,
      (fun outside => by cases outside), ?_⟩
    · rw [unlocked] at held
      cases held
    · rw [takes _ state unlocked rfl]
      exact entered state unlocked (kept.free unlocked) start _ rfl
  · -- Otherwise the task queues, and takes the lock when it is its turn.
    simp only [Guards]
    rw [if_neg isFree]
    refine guards_bind.mpr ⟨monitor.evolves_set _ state, fun _ => ⟨monitor.view_set _ state, fun held => ?_⟩,
      (fun outside => by cases outside), ?_⟩
    · exact (isLocked _ state).trans held
    have waits : (monitor.locked (monitor.field.set
        { monitor.field.get state with
          waiters := (monitor.field.get state).waiters ++ [(monitor.field.get state).nextTicket]
          nextTicket := (monitor.field.get state).nextTicket + 1 } state) &&
        (false || !monitor.locked state)) = false := by
      rw [isLocked]
      exact stays state
    rw [waits]
    refine guards_bind.mpr ⟨monitor.turn_outside _, (fun outside => by cases outside), ?_⟩
    intro answer later moved isReady keptLater _
    have unlocked : monitor.locked later = false := by
      rw [monitor.turn_ready, AsyncLock.isTurn, Bool.and_eq_true, Bool.not_eq_true'] at isReady
      exact isReady.1
    refine ⟨monitor.evolves_set _ later, fun _ => ⟨monitor.view_set _ later, fun held => ?_⟩,
      (fun outside => by cases outside), ?_⟩
    · rw [unlocked] at held
      cases held
    · rw [takes _ later unlocked rfl]
      exact entered later unlocked (keptLater.free unlocked)
        (stable (monitor.trans (monitor.evolves_set _ state) moved) start) _ rfl

/-- **A body that stays outside** and touches neither the lock nor what it protects. -/
theorem Meets.outside {body : Async σ ω ι ε α}
    (uses : Async.Uses (fun first second => monitor.evolves first second ∧
      monitor.locked second = monitor.locked first ∧ monitor.view second = monitor.view first)
      (fun want => monitor.inside want = false) body) :
    Meets monitor false (fun _ => True) (fun _ _ => True) (fun _ => True) body := by
  suffices all : ∀ (process : Process σ ω ι (Except ε α)) (state : σ), monitor.Invariant state →
      Uses (fun first second => monitor.evolves first second ∧
        monitor.locked second = monitor.locked first ∧ monitor.view second = monitor.view first)
        (fun want => monitor.inside want = false) process →
      Guards monitor (fun outcome owned later => owned = false ∧ monitor.At false later ∧
        match outcome with
        | .ok _ => True
        | .error _ => True) process false state from fun state found _ => all body.run state found uses
  intro process
  induction process with
  | done outcome =>
    intro state found _
    refine ⟨rfl, found, ?_⟩
    cases outcome <;> trivial
  | access update next ih =>
    intro state kept uses
    obtain ⟨⟨moved, sameLock, sameView⟩, rest⟩ := uses state
    refine ⟨moved, fun _ => ⟨sameView, fun held => sameLock.trans held⟩,
      (fun inside => by cases inside), ?_⟩
    have outside : (monitor.locked (update state) && (false || !monitor.locked state)) = false := by
      rw [sameLock]
      cases monitor.locked state <;> rfl
    rw [outside]
    refine ih state (update state) ⟨fun isFree => ?_, fun held => ?_⟩ rest
    · exact monitor.free_stable sameView moved (kept.free (sameLock ▸ isFree))
    · exact monitor.busy_stable sameView moved (kept.busy (sameLock ▸ held))
  | wait want next ih =>
    intro state _ uses
    exact ⟨uses.1, (fun inside => by cases inside), fun answer later _ _ kept _ =>
      ih answer later kept (uses.2 answer)⟩

/-- **A body that stays inside**, where nothing is protected but the lock itself. -/
theorem Meets.inside {body : Async σ ω ι ε α} (nothing : ∀ state, monitor.busy state)
    (uses : Async.Uses (fun first second => monitor.evolves first second ∧
      monitor.locked second = monitor.locked first) (fun want => monitor.inside want = true) body) :
    Meets monitor true (fun _ => True) (fun _ _ => True) (fun _ => True) body := by
  suffices all : ∀ (process : Process σ ω ι (Except ε α)) (state : σ), monitor.locked state = true →
      Uses (fun first second => monitor.evolves first second ∧
        monitor.locked second = monitor.locked first) (fun want => monitor.inside want = true) process →
      Guards monitor (fun outcome owned later => owned = true ∧ monitor.At true later ∧
        match outcome with
        | .ok _ => True
        | .error _ => True) process true state from fun state found _ => all body.run state found uses
  intro process
  induction process with
  | done outcome =>
    intro state held _
    refine ⟨rfl, held, ?_⟩
    cases outcome <;> trivial
  | access update next ih =>
    intro state held uses
    obtain ⟨⟨moved, sameLock⟩, rest⟩ := uses state
    have stillHeld : monitor.locked (update state) = true := sameLock.trans held
    refine ⟨moved, (fun outside => by cases outside), fun _ isFree => ?_, ?_⟩
    · rw [stillHeld] at isFree
      cases isFree
    · have inside : (monitor.locked (update state) && (true || !monitor.locked state)) = true := by
        rw [stillHeld]
        rfl
      rw [inside]
      exact ih state (update state) stillHeld rest
  | wait want next ih =>
    intro state _ uses
    exact ⟨uses.1, fun _ => nothing state, fun answer later _ _ _ own =>
      ih answer later (own rfl).1 (uses.2 answer)⟩

end Triples

/-- The monitor of a lock that keeps a view as it is while it is not held, and asks nothing of it. -/
def mutex (field : LockField σ ω) (ready : ω → σ → Bool) (inside : ω → Bool) (view : σ → π)
    (get_set : ∀ lock state, field.get (field.set lock state) = lock)
    (view_set : ∀ lock state, view (field.set lock state) = view state)
    (turn_outside : ∀ ticket, inside (field.turn ticket) = false)
    (turn_ready : ∀ ticket state, ready (field.turn ticket) state = (field.get state).isTurn ticket) :
    Monitor σ ω π where
  field := field
  ready := ready
  inside := inside
  view := view
  evolves _ _ := True
  free _ := True
  busy _ := True
  refl _ := trivial
  trans _ _ := trivial
  free_stable _ _ _ := trivial
  busy_stable _ _ _ := trivial
  get_set := get_set
  view_set := view_set
  evolves_set _ _ := trivial
  turn_outside := turn_outside
  turn_ready := turn_ready

/-! ### Runs -/

/-- A suspended process owns the lock when it is suspended inside. -/
def owns (monitor : Monitor σ ω π) : Process σ ω ι α → Bool
  | .wait want _ => monitor.inside want
  | _ => false

/-- The task at an index owns the lock. -/
def ownsAt (monitor : Monitor σ ω π) (pool : Pool σ ω ι κ α) (index : ℕ) : Bool :=
  (pool.tasks[index]?).any fun task => monitor.owns task.2

/-- What a finished process leaves: it owns nothing. -/
def Ends (_ : Monitor σ ω π) (post : α → σ → Prop) (result : α) (owns : Bool) (state : σ) : Prop :=
  owns = false ∧ post result state

/-- A task at rest guards, from a state that evolved into the shared one with the view it owns. -/
def TaskGuards (monitor : Monitor σ ω π) (post : α → σ → Prop) (process : Process σ ω ι α)
    (shared : σ) : Prop :=
  ∃ state, monitor.evolves state shared ∧
    (monitor.owns process = true → monitor.view shared = monitor.view state) ∧
    Guards monitor (monitor.Ends post) process (monitor.owns process) state

/-- A pool whose lock is held by exactly the task that is suspended inside. -/
structure Guarded (monitor : Monitor σ ω π) (post : ℕ → α → σ → Prop) (pool : Pool σ ω ι κ α) : Prop where
  invariant : monitor.Invariant pool.shared
  tasks : ∀ index task, pool.tasks[index]? = some task →
    TaskGuards monitor (post index) task.2 pool.shared
  unique : ∀ first second, monitor.ownsAt pool first = true → monitor.ownsAt pool second = true →
    first = second
  held : monitor.locked pool.shared = true ↔ ∃ index, monitor.ownsAt pool index = true

section Runs

variable {monitor : Monitor σ ω π}

/-- A coroutine that meets its triple from any state of the invariant is a program that guards. -/
theorem Meets.program {pre : σ → Prop} {returns : α → σ → Prop} {raises : σ → Prop}
    {body : Async σ ω ι ε α} (meets : Meets monitor false pre returns raises body)
    {post : Except ε α → σ → Prop} (normal : ∀ result state, returns result state → post (.ok result) state)
    (raised : ∀ error state, raises state → post (.error error) state) {state : σ}
    (kept : monitor.Invariant state) (start : pre state) :
    Guards monitor (monitor.Ends post) body.run false state := by
  refine (meets state kept start).mono ?_
  rintro (error | result) owned later ⟨rfl, -, holds⟩
  · exact ⟨rfl, raised error later holds⟩
  · exact ⟨rfl, normal result later holds⟩

/-- What a process does up to its next suspension while another task holds the lock. -/
theorem Guards.settleOutside {post : α → σ → Prop} {process : Process σ ω ι α} {state : σ}
    (guards : Guards monitor (monitor.Ends post) process false state)
    (held : monitor.locked state = true) :
    monitor.evolves state (process.settle state).1 ∧
      monitor.view (process.settle state).1 = monitor.view state ∧
      monitor.locked (process.settle state).1 = true ∧
      monitor.owns (process.settle state).2 = false ∧
      Guards monitor (monitor.Ends post) (process.settle state).2 false (process.settle state).1 := by
  induction process generalizing state with
  | done result => exact ⟨monitor.refl state, rfl, held, rfl, guards⟩
  | access update next ih =>
    obtain ⟨moved, outside, -, rest⟩ := guards
    obtain ⟨same, stillHeld⟩ := outside rfl
    rw [stillHeld held, held] at rest
    obtain ⟨movedOn, sameStill, heldStill, none, guardsStill⟩ := ih state rest (stillHeld held)
    exact ⟨monitor.trans moved movedOn, sameStill.trans same, heldStill, none, guardsStill⟩
  | wait want next ih => exact ⟨monitor.refl state, rfl, held, guards.1, guards⟩

/-- What a process does up to its next suspension when it holds the lock or nobody does. -/
theorem Guards.settle {post : α → σ → Prop} {process : Process σ ω ι α} {state : σ} {owns : Bool}
    (guards : Guards monitor (monitor.Ends post) process owns state)
    (own : owns = monitor.locked state) (free : owns = false → monitor.free state) :
    monitor.evolves state (process.settle state).1 ∧
      monitor.Invariant (process.settle state).1 ∧
      monitor.owns (process.settle state).2 = monitor.locked (process.settle state).1 ∧
      Guards monitor (monitor.Ends post) (process.settle state).2
        (monitor.owns (process.settle state).2) (process.settle state).1 := by
  induction process generalizing state owns with
  | done result =>
    obtain ⟨rfl, holds⟩ := guards
    refine ⟨monitor.refl state, ⟨fun _ => free rfl, fun held => ?_⟩, own, rfl, holds⟩
    cases own.trans held
  | access update next ih =>
    obtain ⟨moved, outside, released, rest⟩ := guards
    have owned : (monitor.locked (update state) && (owns || !monitor.locked state)) =
        monitor.locked (update state) := by
      rw [← own]
      cases owns <;> simp
    rw [owned] at rest
    have freeStill : monitor.locked (update state) = false → monitor.free (update state) := by
      intro unlocked
      cases owns with
      | true => exact released rfl unlocked
      | false => exact monitor.free_stable (outside rfl).1 moved (free rfl)
    obtain ⟨movedOn, kept, ownsStill, guardsStill⟩ := ih state rest rfl freeStill
    exact ⟨monitor.trans moved movedOn, kept, ownsStill, guardsStill⟩
  | wait want next ih =>
    obtain ⟨marked, busy, rest⟩ := guards
    subst marked
    refine ⟨monitor.refl state, ⟨fun unlocked => free (own.trans unlocked), fun held =>
      busy (own.trans held)⟩, own, rfl, busy, rest⟩

variable {system : System σ ω ι κ α} {post : ℕ → α → σ → Prop} {pool next last : Pool σ ω ι κ α}

theorem ownsAt_eq {index : ℕ} {task : κ × Process σ ω ι α} (found : pool.tasks[index]? = some task) :
    monitor.ownsAt pool index = monitor.owns task.2 := by
  simp [ownsAt, found]

/-- **The pool after one task went on.** -/
theorem Guarded.proceed (guarded : Guarded monitor post pool) {index : ℕ} {request : κ}
    {process : Process σ ω ι α}
    (guards : Guards monitor (monitor.Ends (post index)) process (monitor.ownsAt pool index) pool.shared)
    (shared : next.shared = (process.settle pool.shared).1)
    (own : next.tasks[index]? = some (request, (process.settle pool.shared).2))
    (others : ∀ other, other ≠ index → next.tasks[other]? = pool.tasks[other]?) :
    Guarded monitor post next ∧ monitor.evolves pool.shared next.shared := by
  have ownsOther : ∀ other, other ≠ index → monitor.ownsAt next other = monitor.ownsAt pool other := by
    intro other differs
    rw [ownsAt, ownsAt, others other differs]
  have ownsSelf : monitor.ownsAt next index = monitor.owns (process.settle pool.shared).2 :=
    ownsAt_eq own
  by_cases elsewhere : monitor.locked pool.shared = true ∧ monitor.ownsAt pool index = false
  · obtain ⟨held, outside⟩ := elsewhere
    rw [outside] at guards
    obtain ⟨moved, same, heldStill, none, rest⟩ := guards.settleOutside held
    rw [← shared] at moved same heldStill rest
    rw [none] at ownsSelf
    refine ⟨⟨⟨fun unlocked => ?_, fun _ => ?_⟩, fun other task found => ?_, fun first second => ?_, ?_⟩, moved⟩
    · rw [heldStill] at unlocked
      cases unlocked
    · exact monitor.busy_stable same moved (guarded.invariant.busy held)
    · by_cases isSelf : other = index
      · subst isSelf
        obtain rfl := Option.some.inj (own.symm.trans found)
        refine ⟨next.shared, monitor.refl _, fun _ => rfl, ?_⟩
        rw [none]
        exact rest
      · rw [others other isSelf] at found
        obtain ⟨state, before, sameView, guardsOther⟩ := guarded.tasks other task found
        exact ⟨state, monitor.trans before moved, fun owner => same.trans (sameView owner), guardsOther⟩
    · intro firstOwns secondOwns
      have notFirst : first ≠ index := fun isSelf => by rw [isSelf, ownsSelf] at firstOwns; cases firstOwns
      have notSecond : second ≠ index := fun isSelf => by
        rw [isSelf, ownsSelf] at secondOwns
        cases secondOwns
      rw [ownsOther first notFirst] at firstOwns
      rw [ownsOther second notSecond] at secondOwns
      exact guarded.unique first second firstOwns secondOwns
    · refine iff_of_true heldStill ?_
      obtain ⟨owner, owned⟩ := guarded.held.mp held
      have notSelf : owner ≠ index := fun isSelf => by rw [isSelf, outside] at owned; cases owned
      exact ⟨owner, (ownsOther owner notSelf).trans owned⟩
  · -- The task holds the lock, or nobody does; the others own nothing.
    have ownEq : monitor.ownsAt pool index = monitor.locked pool.shared := by
      cases held : monitor.locked pool.shared with
      | true => simpa [held] using elsewhere
      | false =>
        by_contra owned
        have isOwner : monitor.ownsAt pool index = true := by simpa using owned
        rw [guarded.held.mpr ⟨index, isOwner⟩] at held
        cases held
    have othersNot : ∀ other, other ≠ index → monitor.ownsAt next other = false := by
      intro other differs
      rw [ownsOther other differs]
      by_contra owned
      have isOwner : monitor.ownsAt pool other = true := by simpa using owned
      have held := guarded.held.mpr ⟨other, isOwner⟩
      exact differs (guarded.unique other index isOwner (ownEq.trans held))
    obtain ⟨moved, kept, ownsStill, rest⟩ := guards.settle ownEq fun outside =>
      guarded.invariant.free (ownEq.symm.trans outside)
    rw [← shared] at moved kept ownsStill rest
    refine ⟨⟨kept, fun other task found => ?_, fun first second => ?_, ?_⟩, moved⟩
    · by_cases isSelf : other = index
      · subst isSelf
        obtain rfl := Option.some.inj (own.symm.trans found)
        exact ⟨next.shared, monitor.refl _, fun _ => rfl, rest⟩
      · have outside : monitor.owns task.2 = false := (ownsAt_eq found).symm.trans (othersNot other isSelf)
        rw [others other isSelf] at found
        obtain ⟨state, before, sameView, guardsOther⟩ := guarded.tasks other task found
        refine ⟨state, monitor.trans before moved, fun owner => ?_, guardsOther⟩
        rw [outside] at owner
        cases owner
    · intro firstOwns secondOwns
      have single : ∀ other, monitor.ownsAt next other = true → other = index := by
        intro other owned
        by_contra differs
        rw [othersNot other differs] at owned
        cases owned
      exact (single first firstOwns).trans (single second secondOwns).symm
    · constructor
      · intro held
        exact ⟨index, ownsSelf.trans (ownsStill.trans held)⟩
      · rintro ⟨other, owned⟩
        by_cases isSelf : other = index
        · rw [isSelf, ownsSelf, ownsStill] at owned
          exact owned
        · rw [othersNot other isSelf] at owned
          cases owned

/-- Every program that a task from this index on may run guards, wherever in the run it is started. -/
def SystemGuards (monitor : Monitor σ ω π) (system : System σ ω ι κ α) (first : ℕ) (post : ℕ → α → σ → Prop) :
    Prop :=
  system.ready = monitor.ready ∧ ∀ request index, first ≤ index → ∀ state, monitor.Invariant state →
    Guards monitor (monitor.Ends (post index)) (system.program request) false state

/-- **What a step runs guards**, where it is started or resumed. -/
theorem Guarded.subject (sameReady : system.ready = monitor.ready) {action : Action ω ι κ}
    (spawns : ∀ request, action = .spawn request → monitor.Invariant pool.shared →
      Guards monitor (monitor.Ends (post pool.tasks.length)) (system.program request) false pool.shared)
    (performed : system.perform pool action = some next) (guarded : Guarded monitor post pool) :
    ∃ request process,
      Guards monitor (monitor.Ends (post (pool.subject action))) process
        (monitor.ownsAt pool (pool.subject action)) pool.shared ∧
      next.shared = (process.settle pool.shared).1 ∧
      next.tasks[pool.subject action]? = some (request, (process.settle pool.shared).2) := by
  rcases perform_cases performed with
    ⟨request, rfl, rfl⟩ | ⟨resumed, answer, request, want, continuation, rfl, found, isReady, rfl⟩
  · have fresh : monitor.ownsAt pool pool.tasks.length = false := by simp [ownsAt]
    refine ⟨request, system.program request, ?_, rfl, List.getElem?_concat_length⟩
    show Guards monitor _ _ (monitor.ownsAt pool pool.tasks.length) _
    rw [fresh]
    exact spawns request rfl guarded.invariant
  · have inside := (List.getElem?_eq_some_iff.mp found).1
    obtain ⟨state, before, sameView, waiting⟩ := guarded.tasks resumed _ found
    refine ⟨request, continuation (answer want), ?_, rfl, List.getElem?_set_self inside⟩
    show Guards monitor _ _ (monitor.ownsAt pool resumed) _
    rw [ownsAt_eq found]
    refine waiting.2.2 (answer want) pool.shared before (sameReady ▸ isReady) guarded.invariant
      fun owner => ⟨guarded.held.mpr ⟨resumed, (ownsAt_eq found).trans owner⟩, sameView owner⟩

/-- **One step of a schedule keeps the pool guarded**, when what it spawns guards. -/
theorem perform_guarded (sameReady : system.ready = monitor.ready) {action : Action ω ι κ}
    (spawns : ∀ request, action = .spawn request → monitor.Invariant pool.shared →
      Guards monitor (monitor.Ends (post pool.tasks.length)) (system.program request) false pool.shared)
    (performed : system.perform pool action = some next) (guarded : Guarded monitor post pool) :
    Guarded monitor post next ∧ monitor.evolves pool.shared next.shared := by
  obtain ⟨request, process, guards, shared, own⟩ := guarded.subject sameReady spawns performed
  exact guarded.proceed guards shared own fun other => perform_other performed

/-- **What the owner of the lock sees stays as it is** while other tasks run. -/
theorem perform_owned (guards : ∀ request index state, monitor.Invariant state →
      Guards monitor (monitor.Ends (post index)) (system.program request) false state)
    (sameReady : system.ready = monitor.ready) {action : Action ω ι κ}
    (performed : system.perform pool action = some next) (guarded : Guarded monitor post pool) {index : ℕ}
    (owner : monitor.ownsAt pool index = true) (other : index ≠ pool.subject action) :
    monitor.view next.shared = monitor.view pool.shared ∧ next.tasks[index]? = pool.tasks[index]? := by
  obtain ⟨request, process, rest, shared, -⟩ :=
    guarded.subject sameReady (fun request _ => guards request _ _) performed
  have outside : monitor.ownsAt pool (pool.subject action) = false := by
    by_contra owned
    exact other (guarded.unique index _ owner (by simpa using owned))
  rw [outside] at rest
  obtain ⟨-, same, -⟩ := rest.settleOutside (guarded.held.mpr ⟨index, owner⟩)
  exact ⟨shared ▸ same, perform_other performed other⟩

/-- **Every run keeps the pool guarded.** -/
theorem run_guarded {first : ℕ} (guards : SystemGuards monitor system first post)
    {actions : List (Action ω ι κ)} (ran : system.run pool actions = some last)
    (fresh : first ≤ pool.tasks.length) (guarded : Guarded monitor post pool) :
    Guarded monitor post last ∧ monitor.evolves pool.shared last.shared := by
  induction actions generalizing pool with
  | nil =>
    cases ran
    exact ⟨guarded, monitor.refl _⟩
  | cons action later ih =>
    obtain ⟨next, performed, rest⟩ := Option.bind_eq_some_iff.mp ran
    obtain ⟨guardedNext, moved⟩ := perform_guarded guards.1
      (fun request _ kept => guards.2 request _ fresh _ kept) performed guarded
    obtain ⟨guardedLast, movedOn⟩ := ih rest (fresh.trans (perform_length performed)) guardedNext
    exact ⟨guardedLast, monitor.trans moved movedOn⟩

/-- **In a run in which the owner of the lock is not resumed** it sees what it saw. -/
theorem run_owned (guards : SystemGuards monitor system 0 post) {actions : List (Action ω ι κ)}
    (ran : system.run pool actions = some last) (guarded : Guarded monitor post pool) {index : ℕ}
    (owner : monitor.ownsAt pool index = true) (waits : ∀ answer, .resume index answer ∉ actions) :
    monitor.view last.shared = monitor.view pool.shared ∧ last.tasks[index]? = pool.tasks[index]? := by
  induction actions generalizing pool with
  | nil =>
    cases ran
    exact ⟨rfl, rfl⟩
  | cons action later ih =>
    obtain ⟨next, performed, rest⟩ := Option.bind_eq_some_iff.mp ran
    have started : ∀ request index state, monitor.Invariant state →
        Guards monitor (monitor.Ends (post index)) (system.program request) false state :=
      fun request index => guards.2 request index (Nat.zero_le _)
    have other : index ≠ pool.subject action := by
      rintro rfl
      cases action with
      | spawn request => simp [Pool.subject, ownsAt] at owner
      | resume index answer => exact waits answer List.mem_cons_self
    obtain ⟨sameView, sameTask⟩ := perform_owned started guards.1 performed guarded owner other
    have guardedNext := (perform_guarded guards.1 (fun request _ => started request _ _) performed guarded).1
    have ownerNext : monitor.ownsAt next index = true := by rw [ownsAt, sameTask]; exact owner
    obtain ⟨viewRest, taskRest⟩ := ih rest guardedNext ownerNext fun answer member =>
      waits answer (List.mem_cons_of_mem _ member)
    exact ⟨viewRest.trans sameView, taskRest.trans sameTask⟩

/-- Other postconditions for tasks to come. -/
theorem Guarded.mono {post' : ℕ → α → σ → Prop} (guarded : Guarded monitor post pool)
    (weaker : ∀ index < pool.tasks.length, ∀ result state, post index result state →
      post' index result state) : Guarded monitor post' pool := by
  refine { guarded with tasks := fun index task found => ?_ }
  obtain ⟨state, before, sameView, guards⟩ := guarded.tasks index task found
  refine ⟨state, before, sameView, guards.mono fun result owned later holds => ⟨holds.1, ?_⟩⟩
  exact weaker index (List.getElem?_eq_some_iff.mp found).1 result later holds.2

/-- The pool at the start. -/
theorem Guarded.initial {shared : σ} (unlocked : monitor.locked shared = false)
    (free : monitor.free shared) : Guarded monitor post (⟨shared, []⟩ : Pool σ ω ι κ α) := by
  refine ⟨⟨fun _ => free, fun held => ?_⟩, fun index task found => ?_, fun first second owned => ?_, ?_⟩
  · rw [unlocked] at held
    cases held
  · simp at found
  · simp [ownsAt] at owned
  · simp [ownsAt, unlocked]

/-- **A finished task has its postcondition**, at a state that evolved into the last one. -/
theorem Guarded.finished (guarded : Guarded monitor post pool) {index : ℕ} {request : κ} {result : α}
    (found : pool.tasks[index]? = some (request, .done result)) :
    ∃ state, monitor.evolves state pool.shared ∧ post index result state := by
  obtain ⟨state, moved, -, holds⟩ := guarded.tasks index _ found
  exact ⟨state, moved, holds.2⟩

end Runs

end Monitor

end Cooperative
