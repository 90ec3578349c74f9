/-
**What tasks were answered, what they hold and how they fail.**

Judgements about the text of a process, next to the weakest preconditions of `Cooperative`:

* `Uses` — every access moves the state along a relation, and every suspension is of an allowed kind;
  `run_uses`: what the relation keeps holds in every run.
* `FailsClosed` — an answer that is a failure ends the task with an exception, and leaves what the failure
  must not touch as it was (`perform_failsClosed`).
* `Traced` — every suspension and every result agrees with the answers the task got before it. A schedule
  fixes these answers (`System.answersTo`), and `run_traced` says that every task of a pool is traced by
  them.
* `Balanced` — an amount kept in the shared state is moved by a task exactly as the weight of what it
  waits for. `run_balanced`: at every suspension the amount is the sum of these weights over the pool, and
  `perform_moves` says which step moves it.
-/

import Mathlib.Algebra.BigOperators.Group.List.Basic
import Mathlib.Tactic.Abel
import McpAuth.Library.Cooperative

namespace Cooperative

variable {σ ω : Type} {ι : ω → Type} {ε ε' α β κ : Type}

/-! ### Steps of a schedule -/

section Steps

variable {system : System σ ω ι κ α} {pool next last : Pool σ ω ι κ α} {action : Action ω ι κ}

/-- The pool after a new task ran up to its first suspension. -/
def System.spawned (system : System σ ω ι κ α) (pool : Pool σ ω ι κ α) (request : κ) :
    Pool σ ω ι κ α :=
  ⟨((system.program request).settle pool.shared).1,
    pool.tasks ++ [(request, ((system.program request).settle pool.shared).2)]⟩

/-- The pool after a task went on with a process. -/
def Pool.resumed (pool : Pool σ ω ι κ α) (index : ℕ) (request : κ) (process : Process σ ω ι α) :
    Pool σ ω ι κ α :=
  ⟨(process.settle pool.shared).1, pool.tasks.set index (request, (process.settle pool.shared).2)⟩

/-- **What one step does.** -/
theorem perform_cases (performed : system.perform pool action = some next) :
    (∃ request, action = .spawn request ∧ next = system.spawned pool request) ∨
      ∃ index answer request want continuation, action = .resume index answer ∧
        pool.tasks[index]? = some (request, .wait want continuation) ∧
        system.ready want pool.shared = true ∧
        next = pool.resumed index request (continuation (answer want)) := by
  cases action with
  | spawn request =>
    cases performed
    exact Or.inl ⟨request, rfl, rfl⟩
  | resume index answer =>
    simp only [System.perform] at performed
    split at performed
    · rename_i request want continuation found
      split at performed
      · rename_i isReady
        cases performed
        exact Or.inr ⟨index, answer, request, want, continuation, rfl, found, isReady, rfl⟩
      · cases performed
    · cases performed

/-- The task that a step runs. -/
def Pool.subject (pool : Pool σ ω ι κ α) : Action ω ι κ → ℕ
  | .spawn _ => pool.tasks.length
  | .resume index _ => index

/-- The other tasks stay as they are. -/
theorem perform_other (performed : system.perform pool action = some next) {index : ℕ}
    (other : index ≠ pool.subject action) : next.tasks[index]? = pool.tasks[index]? := by
  rcases perform_cases performed with
    ⟨request, rfl, rfl⟩ | ⟨resumed, answer, request, want, continuation, rfl, -, -, rfl⟩
  · simp only [Pool.subject] at other
    simp only [System.spawned, List.getElem?_append, List.getElem?_singleton]
    split
    · rfl
    · rw [if_neg (by omega), List.getElem?_eq_none (by omega)]
  · exact List.getElem?_set_ne fun same => other same.symm

/-- No step loses a task. -/
theorem perform_length (performed : system.perform pool action = some next) :
    pool.tasks.length ≤ next.tasks.length := by
  rcases perform_cases performed with
    ⟨request, rfl, rfl⟩ | ⟨resumed, answer, request, want, continuation, rfl, -, -, rfl⟩
  · simp [System.spawned]
  · simp [Pool.resumed]

/-- Where a settled process rests: at a suspension or at its end. -/
def Process.AtRest : Process σ ω ι α → Prop
  | .access _ _ => False
  | _ => True

theorem settle_atRest (process : Process σ ω ι α) (state : σ) : (process.settle state).2.AtRest := by
  induction process generalizing state with
  | done result => trivial
  | access update next ih => exact ih state (update state)
  | wait want next ih => trivial

theorem run_append (before after : List (Action ω ι κ)) (pool : Pool σ ω ι κ α) :
    system.run pool (before ++ after) =
      (system.run pool before).bind fun mid => system.run mid after := by
  induction before generalizing pool with
  | nil => rfl
  | cons action before ih => simp [System.run, Option.bind_assoc, ih]

end Steps

/-! ### Accesses and suspensions -/

/-- **Every access, from any state, is a move, and every suspension is allowed.** -/
def Uses (moves : σ → σ → Prop) (suspends : ω → Prop) : Process σ ω ι α → Prop
  | .done _ => True
  | .access update next => ∀ state, moves state (update state) ∧ Uses moves suspends (next state)
  | .wait want next => suspends want ∧ ∀ answer, Uses moves suspends (next answer)

section Uses

variable {moves : σ → σ → Prop} {suspends : ω → Prop}

theorem uses_bind {process : Process σ ω ι α} {after : α → Process σ ω ι β}
    (first : Uses moves suspends process) (second : ∀ result, Uses moves suspends (after result)) :
    Uses moves suspends (process >>= after) := by
  show Uses moves suspends (process.bind after)
  induction process with
  | done result => exact second result
  | access update next ih => exact fun state => ⟨(first state).1, ih state (first state).2⟩
  | wait want next ih => exact ⟨first.1, fun answer => ih answer (first.2 answer)⟩

theorem Uses.mono {moves' : σ → σ → Prop} {suspends' : ω → Prop} {process : Process σ ω ι α}
    (weaker : ∀ first second, moves first second → moves' first second)
    (more : ∀ want, suspends want → suspends' want) (uses : Uses moves suspends process) :
    Uses moves' suspends' process := by
  induction process with
  | done result => trivial
  | access update next ih => exact fun state => ⟨weaker _ _ (uses state).1, ih state (uses state).2⟩
  | wait want next ih => exact ⟨more want uses.1, fun answer => ih answer (uses.2 answer)⟩

/-- A coroutine that uses only this. -/
abbrev Async.Uses (moves : σ → σ → Prop) (suspends : ω → Prop) (body : Async σ ω ι ε α) : Prop :=
  Cooperative.Uses moves suspends body.run

namespace Async

variable {body : Async σ ω ι ε α}

theorem Uses.pure (result : α) : Uses moves suspends (Pure.pure result : Async σ ω ι ε α) := trivial

theorem Uses.throw (error : ε) : Uses moves suspends (MonadExcept.throw error : Async σ ω ι ε α) :=
  trivial

theorem Uses.ofExcept (outcome : Except ε α) :
    Uses moves suspends (Async.ofExcept outcome : Async σ ω ι ε α) := trivial

theorem Uses.access {update : σ → σ} {result : σ → α} (moved : ∀ state, moves state (update state)) :
    Uses moves suspends
      (Async.lift (.access update fun state => .done (result state)) : Async σ ω ι ε α) :=
  fun state => ⟨moved state, trivial⟩

theorem Uses.await {want : ω} (allowed : suspends want) :
    Uses moves suspends (Async.lift (.await want) : Async σ ω ι ε (ι want)) :=
  ⟨allowed, fun _ => trivial⟩

theorem Uses.bind {after : α → Async σ ω ι ε β} (first : Uses moves suspends body)
    (second : ∀ result, Uses moves suspends (after result)) :
    Uses moves suspends (body >>= after) := by
  refine uses_bind first fun outcome => ?_
  cases outcome with
  | error error => trivial
  | ok result => exact second result

theorem Uses.adapt {convert : ε → ε'} (uses : Uses moves suspends body) :
    Uses moves suspends (body.adapt convert) :=
  uses_bind uses fun _ => trivial

theorem Uses.locked {field : LockField σ ω} (sets : ∀ lock state, moves state (field.set lock state))
    (stays : ∀ state, moves state state) (turn : ∀ ticket, suspends (field.turn ticket))
    (uses : Uses moves suspends body) : Uses moves suspends (field.locked body) := by
  have acquires : Cooperative.Uses moves suspends (field.acquire : Process σ ω ι Unit) := by
    refine uses_bind (fun state => ⟨stays state, trivial⟩) fun state => ?_
    dsimp only
    split
    · exact fun later => ⟨sets _ later, trivial⟩
    · exact uses_bind (fun later => ⟨sets _ later, trivial⟩) fun _ =>
        uses_bind ⟨turn _, fun _ => trivial⟩ fun _ later => ⟨sets _ later, trivial⟩
  have releases : ∀ outcome : Except ε α, Cooperative.Uses moves suspends
      (field.release >>= fun _ => Process.done outcome : Process σ ω ι (Except ε α)) :=
    fun outcome => uses_bind (fun later => ⟨sets _ later, trivial⟩) fun _ => trivial
  exact Uses.bind (uses_bind acquires fun _ => trivial) fun _ => uses_bind uses releases

end Async

/-- What the moves keep, a process keeps up to its next suspension. -/
theorem Uses.settle {fact : σ → Prop} {process : Process σ ω ι α} {state : σ}
    (keeps : ∀ first second, moves first second → fact first → fact second)
    (uses : Uses moves suspends process) (holds : fact state) :
    fact (process.settle state).1 ∧ Uses moves suspends (process.settle state).2 := by
  induction process generalizing state with
  | done result => exact ⟨holds, trivial⟩
  | access update next ih => exact ih state (uses state).2 (keeps _ _ (uses state).1 holds)
  | wait want next ih => exact ⟨holds, uses⟩

variable {system : System σ ω ι κ α} {pool next last : Pool σ ω ι κ α}

/-- **What the moves keep holds in every run.** -/
theorem run_uses {fact : σ → Prop} (keeps : ∀ first second, moves first second → fact first → fact second)
    (programs : ∀ request, Uses moves suspends (system.program request))
    {actions : List (Action ω ι κ)} (ran : system.run pool actions = some last)
    (tasks : ∀ task ∈ pool.tasks, Uses moves suspends task.2) (holds : fact pool.shared) :
    fact last.shared ∧ ∀ task ∈ last.tasks, Uses moves suspends task.2 := by
  induction actions generalizing pool with
  | nil =>
    cases ran
    exact ⟨holds, tasks⟩
  | cons action later ih =>
    obtain ⟨next, performed, rest⟩ := Option.bind_eq_some_iff.mp ran
    rcases perform_cases performed with
      ⟨request, rfl, rfl⟩ | ⟨index, answer, request, want, continuation, rfl, found, -, rfl⟩
    · obtain ⟨kept, settled⟩ := (programs request).settle keeps holds
      refine ih rest (fun task member => ?_) kept
      rcases List.mem_append.mp member with old | new
      · exact tasks task old
      · rw [List.mem_singleton] at new
        subst new
        exact settled
    · have waiting := tasks _ (List.mem_of_getElem? found)
      obtain ⟨kept, settled⟩ := (waiting.2 (answer want)).settle keeps holds
      refine ih rest (fun task member => ?_) kept
      rcases List.mem_or_eq_of_mem_set member with old | rfl
      · exact tasks task old
      · exact settled

end Uses

/-! ### Failures -/

section Failures

/-- Sequencing, up to the next suspension. -/
theorem settle_bind_done {process : Process σ ω ι α} {after : α → Process σ ω ι β} {state : σ} {result : α}
    (ends : (process.settle state).2 = .done result) :
    (process.bind after).settle state = (after result).settle (process.settle state).1 := by
  induction process generalizing state with
  | done other =>
    cases ends
    rfl
  | access update next ih => exact ih state ends
  | wait want next ih => cases ends

/-- A coroutine with a result in its first turn goes on with what comes after it. -/
theorem settle_asyncBind_ok {body : Async σ ω ι ε α} {state later : σ} {result : α}
    (settles : body.run.settle state = (later, .done (.ok result))) (after : α → Async σ ω ι ε β) :
    (body >>= after).run.settle state = (after result).run.settle later := by
  have sequenced : (body >>= after).run.settle state = (after result).run.settle (body.run.settle state).1 :=
    settle_bind_done (congrArg Prod.snd settles)
  rw [sequenced, settles]

/-- An exception in the first turn ends the whole. -/
theorem settle_asyncBind_error {body : Async σ ω ι ε α} {state later : σ} {error : ε}
    (settles : body.run.settle state = (later, .done (.error error))) (after : α → Async σ ω ι ε β) :
    (body >>= after).run.settle state = (later, .done (.error error)) := by
  have sequenced : (body >>= after).run.settle state =
      (Process.done (Except.error error) : Process σ ω ι (Except ε β)).settle (body.run.settle state).1 :=
    settle_bind_done (congrArg Prod.snd settles)
  rw [sequenced, settles]
  rfl

/-- **A failure ends the task with an exception**, and keeps what it must not touch. -/
def FailsClosed (fails : Answered ω ι → Prop) (keeps : σ → σ → Prop) :
    Process σ ω ι (Except ε α) → Prop
  | .done _ => True
  | .access _ next => ∀ state, FailsClosed fails keeps (next state)
  | .wait want next =>
    (∀ answer, fails ⟨want, answer⟩ → ∀ state, keeps state ((next answer).settle state).1 ∧
      ∃ error, ((next answer).settle state).2 = .done (.error error)) ∧
      ∀ answer, FailsClosed fails keeps (next answer)

variable {fails : Answered ω ι → Prop} {keeps : σ → σ → Prop}

/-- What follows a body fails closed when it passes exceptions on. -/
theorem FailsClosed.bind {process : Process σ ω ι (Except ε α)}
    {after : Except ε α → Process σ ω ι (Except ε' β)} (first : FailsClosed fails keeps process)
    (second : ∀ outcome, FailsClosed fails keeps (after outcome))
    (passes : ∀ error before state, keeps before state →
      keeps before ((after (.error error)).settle state).1 ∧
        ∃ error', ((after (.error error)).settle state).2 = .done (.error error')) :
    FailsClosed fails keeps (process >>= after) := by
  show FailsClosed fails keeps (process.bind after)
  induction process with
  | done outcome => exact second outcome
  | access update next ih => exact fun state => ih state (first state)
  | wait want next ih =>
    refine ⟨fun answer failed state => ?_, fun answer => ih answer (first.2 answer)⟩
    obtain ⟨kept, error, raised⟩ := first.1 answer failed state
    show keeps state (((next answer).bind after).settle state).1 ∧
      ∃ error, (((next answer).bind after).settle state).2 = .done (.error error)
    rw [settle_bind_done raised]
    exact passes error state _ kept

/-- A first part without failures. -/
theorem FailsClosed.ofUses {process : Process σ ω ι α} {after : α → Process σ ω ι (Except ε β)}
    (uses : Uses (fun _ _ => True) (fun want => ∀ answer, ¬ fails ⟨want, answer⟩) process)
    (second : ∀ result, FailsClosed fails keeps (after result)) :
    FailsClosed fails keeps (process >>= after) := by
  show FailsClosed fails keeps (process.bind after)
  induction process with
  | done result => exact second result
  | access update next ih => exact fun state => ih state (uses state).2
  | wait want next ih =>
    exact ⟨fun answer failed => absurd failed (uses.1 answer), fun answer => ih answer (uses.2 answer)⟩

namespace Async

/-- A coroutine that fails closed. -/
abbrev FailsClosed (fails : Answered ω ι → Prop) (keeps : σ → σ → Prop) (body : Async σ ω ι ε α) : Prop :=
  Cooperative.FailsClosed fails keeps body.run

variable {body : Async σ ω ι ε α}

theorem FailsClosed.andThen {after : α → Async σ ω ι ε β} (first : FailsClosed fails keeps body)
    (second : ∀ result, FailsClosed fails keeps (after result)) :
    FailsClosed fails keeps (body >>= after) := by
  refine Cooperative.FailsClosed.bind first (fun outcome => ?_) fun error _ _ kept => ⟨kept, error, rfl⟩
  cases outcome with
  | error error => trivial
  | ok result => exact second result

theorem FailsClosed.adapt {convert : ε → ε'} (first : FailsClosed fails keeps body) :
    FailsClosed fails keeps (body.adapt convert) :=
  Cooperative.FailsClosed.bind first (fun _ => trivial) fun error _ _ kept => ⟨kept, convert error, rfl⟩

theorem FailsClosed.access {update : σ → σ} {result : σ → α} : FailsClosed fails keeps
    (Async.lift (.access update fun state => .done (result state)) : Async σ ω ι ε α) :=
  fun _ => trivial

/-- A lock, where waiting for it never fails and it is no part of what failures must not touch. -/
theorem FailsClosed.locked {field : LockField σ ω} (turn : ∀ ticket answer, ¬ fails ⟨field.turn ticket, answer⟩)
    (sets : ∀ before lock state, keeps before state → keeps before (field.set lock state))
    (inside : FailsClosed fails keeps body) : FailsClosed fails keeps (field.locked body) := by
  have acquires : FailsClosed fails keeps (Async.lift field.acquire : Async σ ω ι ε Unit) := by
    refine FailsClosed.ofUses (uses_bind (fun _ => ⟨trivial, trivial⟩) fun state => ?_) fun _ => trivial
    dsimp only
    split
    · exact fun _ => ⟨trivial, trivial⟩
    · exact uses_bind (fun _ => ⟨trivial, trivial⟩) fun _ =>
        uses_bind ⟨turn _, fun _ => trivial⟩ fun _ _ => ⟨trivial, trivial⟩
  refine acquires.andThen fun _ => ?_
  refine Cooperative.FailsClosed.bind inside (fun _ _ => trivial) fun error before state kept => ?_
  exact ⟨sets before _ state kept, error, rfl⟩

end Async

/-- A settled process still fails closed. -/
theorem FailsClosed.settle {process : Process σ ω ι (Except ε α)} (closed : FailsClosed fails keeps process)
    (state : σ) : FailsClosed fails keeps (process.settle state).2 := by
  induction process generalizing state with
  | done outcome => trivial
  | access update next ih => exact ih state (closed state) (update state)
  | wait want next ih => exact closed

variable {system : System σ ω ι κ (Except ε α)} {pool next last : Pool σ ω ι κ (Except ε α)}

theorem run_failsClosed (programs : ∀ request, FailsClosed fails keeps (system.program request))
    {actions : List (Action ω ι κ)} (ran : system.run pool actions = some last)
    (tasks : ∀ task ∈ pool.tasks, FailsClosed fails keeps task.2) :
    ∀ task ∈ last.tasks, FailsClosed fails keeps task.2 := by
  induction actions generalizing pool with
  | nil =>
    cases ran
    exact tasks
  | cons action later ih =>
    obtain ⟨next, performed, rest⟩ := Option.bind_eq_some_iff.mp ran
    refine ih rest fun task member => ?_
    rcases perform_cases performed with
      ⟨request, rfl, rfl⟩ | ⟨index, answer, request, want, continuation, rfl, found, -, rfl⟩
    · rcases List.mem_append.mp member with old | new
      · exact tasks task old
      · rw [List.mem_singleton] at new
        subst new
        exact (programs request).settle _
    · rcases List.mem_or_eq_of_mem_set member with old | rfl
      · exact tasks task old
      · exact ((tasks _ (List.mem_of_getElem? found)).2 (answer want)).settle _

/-- **A step that answers with a failure** raises in the task it resumes and keeps what it must not
touch. -/
theorem perform_failsClosed (tasks : ∀ task ∈ pool.tasks, FailsClosed fails keeps task.2) {index : ℕ}
    {answer : (want : ω) → ι want} (performed : system.perform pool (.resume index answer) = some next)
    {request : κ} {want : ω} {continuation : ι want → Process σ ω ι (Except ε α)}
    (found : pool.tasks[index]? = some (request, .wait want continuation))
    (failed : fails ⟨want, answer want⟩) :
    keeps pool.shared next.shared ∧
      ∃ error, next.tasks[index]? = some (request, .done (.error error)) := by
  rcases perform_cases performed with
    ⟨_, same, -⟩ | ⟨resumed, answered, other, wanted, continued, same, waiting, -, rfl⟩
  · cases same
  · cases same
    obtain ⟨rfl, same⟩ := Prod.mk.inj (Option.some.inj (waiting.symm.trans found))
    cases same
    have inside := (List.getElem?_eq_some_iff.mp found).1
    obtain ⟨kept, error, raised⟩ :=
      (tasks _ (List.mem_of_getElem? found)).1 (answer want) failed pool.shared
    refine ⟨kept, error, ?_⟩
    rw [Pool.resumed, List.getElem?_set_self inside, raised]

end Failures

/-! ### Histories -/

/-- **Every suspension and every result agrees with the answers before it.** -/
def Traced (suspends : List (Answered ω ι) → ω → Prop) (returns : List (Answered ω ι) → α → Prop) :
    Process σ ω ι α → List (Answered ω ι) → Prop
  | .done result, past => returns past result
  | .access _ next, past => ∀ state, Traced suspends returns (next state) past
  | .wait want next, past =>
    suspends past want ∧ ∀ answer, Traced suspends returns (next answer) (past ++ [⟨want, answer⟩])

section Histories

variable {suspends : List (Answered ω ι) → ω → Prop}

/-- Sequencing: the second part is traced by the answers to the first. -/
theorem traced_bind {returns : List (Answered ω ι) → β → Prop} {process : Process σ ω ι α}
    {after : α → Process σ ω ι β} {past : List (Answered ω ι)} :
    Traced suspends returns (process >>= after) past ↔
      Traced suspends (fun past result => Traced suspends returns (after result) past) process past := by
  show Traced suspends returns (process.bind after) past ↔ _
  induction process generalizing past with
  | done result => rfl
  | access update next ih => exact forall_congr' fun state => ih state
  | wait want next ih => exact and_congr_right fun _ => forall_congr' fun answer => ih answer

/-- Sequencing of coroutines that may raise. -/
theorem traced_asyncBind {returns : List (Answered ω ι) → Except ε β → Prop} {body : Async σ ω ι ε α}
    {after : α → Async σ ω ι ε β} {past : List (Answered ω ι)} :
    Traced suspends returns (body >>= after).run past ↔
      Traced suspends (fun past outcome => match outcome with
        | .ok result => Traced suspends returns (after result).run past
        | .error error => returns past (.error error)) body.run past := by
  refine traced_bind.trans (iff_of_eq ?_)
  congr 1
  funext past outcome
  cases outcome <;> rfl

variable {returns : List (Answered ω ι) → α → Prop}

/-- A traced process at a suspension or at its end. -/
def TracedAtRest (suspends : List (Answered ω ι) → ω → Prop)
    (returns : List (Answered ω ι) → α → Prop) :
    Process σ ω ι α → List (Answered ω ι) → Prop
  | .done result, past => returns past result
  | .access _ _, _ => False
  | .wait want next, past =>
    suspends past want ∧ ∀ answer, Traced suspends returns (next answer) (past ++ [⟨want, answer⟩])

theorem Traced.settle {process : Process σ ω ι α} {past : List (Answered ω ι)}
    (traced : Traced suspends returns process past) (state : σ) :
    TracedAtRest suspends returns (process.settle state).2 past := by
  induction process generalizing state with
  | done result => exact traced
  | access update next ih => exact ih state (traced state) (update state)
  | wait want next ih => exact traced

/-- What the answers show wherever a process rests. -/
theorem TracedAtRest.past {fact : List (Answered ω ι) → Prop} {process : Process σ ω ι α}
    {past : List (Answered ω ι)} (rests : TracedAtRest suspends returns process past)
    (suspended : ∀ past want, suspends past want → fact past)
    (returned : ∀ past result, returns past result → fact past) : fact past := by
  cases process with
  | done result => exact returned past result rests
  | access update next => exact rests.elim
  | wait want next => exact suspended past want rests.1

end Histories

/-- The answer that a step gives to a task. -/
def Pool.given (pool : Pool σ ω ι κ α) (index : ℕ) : Action ω ι κ → List (Answered ω ι)
  | .spawn _ => []
  | .resume resumed answer =>
    if resumed = index then
      match pool.tasks[index]? with
      | some (_, .wait want _) => [⟨want, answer want⟩]
      | _ => []
    else []

/-- **The answers that a schedule gives to a task.** -/
def System.answersTo (system : System σ ω ι κ α) (index : ℕ) :
    Pool σ ω ι κ α → List (Action ω ι κ) → List (Answered ω ι)
  | _, [] => []
  | pool, action :: later =>
    pool.given index action ++
      match system.perform pool action with
      | some next => system.answersTo index next later
      | none => []

section TracedRuns

variable {system : System σ ω ι κ α} {suspends : κ → List (Answered ω ι) → ω → Prop}
  {returns : κ → List (Answered ω ι) → α → Prop} {pool next last : Pool σ ω ι κ α}

/-- Every program is traced from no answers. -/
def System.Traced (system : System σ ω ι κ α) (suspends : κ → List (Answered ω ι) → ω → Prop)
    (returns : κ → List (Answered ω ι) → α → Prop) : Prop :=
  ∀ request, Cooperative.Traced (suspends request) (returns request) (system.program request) []

/-- Every task is traced by its past, and tasks to come have none. -/
structure Pool.Traced (suspends : κ → List (Answered ω ι) → ω → Prop)
    (returns : κ → List (Answered ω ι) → α → Prop) (past : ℕ → List (Answered ω ι))
    (pool : Pool σ ω ι κ α) : Prop where
  tasks : ∀ index request process, pool.tasks[index]? = some (request, process) →
    TracedAtRest (suspends request) (returns request) process (past index)
  fresh : ∀ index, pool.tasks.length ≤ index → past index = []

/-- **One step keeps the pool traced.** -/
theorem perform_traced (programs : system.Traced suspends returns) {past : ℕ → List (Answered ω ι)}
    {action : Action ω ι κ} (performed : system.perform pool action = some next)
    (traced : pool.Traced suspends returns past) :
    next.Traced suspends returns fun index => past index ++ pool.given index action := by
  rcases perform_cases performed with
    ⟨request, rfl, rfl⟩ | ⟨resumed, answer, request, want, continuation, rfl, found, -, rfl⟩
  · constructor
    · intro index other process member
      simp only [Pool.given, List.append_nil]
      simp only [System.spawned, List.getElem?_append] at member
      split at member
      · exact traced.tasks index other process member
      · rw [traced.fresh index (by omega)]
        obtain ⟨rfl, rfl⟩ := Prod.mk.inj (List.mem_singleton.mp (List.mem_of_getElem? member))
        exact (programs other).settle pool.shared
    · intro index beyond
      simp only [System.spawned, List.length_append] at beyond
      simpa [Pool.given] using traced.fresh index (by omega)
  · have inside := (List.getElem?_eq_some_iff.mp found).1
    constructor
    · intro index other process member
      by_cases same : resumed = index
      · subst same
        simp only [Pool.resumed, List.getElem?_set_self inside, Option.some.injEq,
          Prod.mk.injEq] at member
        obtain ⟨rfl, rfl⟩ := member
        simp only [Pool.given, if_true, found]
        exact ((traced.tasks resumed request _ found).2 (answer want)).settle pool.shared
      · simp only [Pool.given, if_neg same, List.append_nil]
        refine traced.tasks index other process ?_
        rwa [Pool.resumed, List.getElem?_set_ne same] at member
    · intro index beyond
      simp only [Pool.resumed, List.length_set] at beyond
      rw [traced.fresh index beyond, Pool.given, if_neg (by omega)]
      rfl

/-- **Every run keeps the pool traced**, by the answers of its schedule. -/
theorem run_traced (programs : system.Traced suspends returns) {past : ℕ → List (Answered ω ι)}
    {actions : List (Action ω ι κ)} (ran : system.run pool actions = some last)
    (traced : pool.Traced suspends returns past) :
    last.Traced suspends returns fun index => past index ++ system.answersTo index pool actions := by
  induction actions generalizing pool past with
  | nil =>
    cases ran
    simpa [System.answersTo] using traced
  | cons action later ih =>
    obtain ⟨next, performed, rest⟩ := Option.bind_eq_some_iff.mp ran
    have traced := ih rest (perform_traced programs performed traced)
    simpa [System.answersTo, performed, List.append_assoc] using traced

/-- A run from no tasks. -/
theorem run_traced_of_empty (programs : system.Traced suspends returns) {shared : σ}
    {actions : List (Action ω ι κ)} (ran : system.run ⟨shared, []⟩ actions = some last) {index : ℕ}
    {request : κ} {process : Process σ ω ι α} (found : last.tasks[index]? = some (request, process)) :
    TracedAtRest (suspends request) (returns request) process
      (system.answersTo index ⟨shared, []⟩ actions) := by
  have empty : (⟨shared, []⟩ : Pool σ ω ι κ α).Traced suspends returns fun _ => [] :=
    ⟨fun index request process member => by simp at member, fun _ _ => rfl⟩
  exact (run_traced programs ran empty).tasks index request process found

theorem answersTo_append {before after : List (Action ω ι κ)} {mid : Pool σ ω ι κ α}
    (ran : system.run pool before = some mid) (index : ℕ) :
    system.answersTo index pool (before ++ after) =
      system.answersTo index pool before ++ system.answersTo index mid after := by
  induction before generalizing pool with
  | nil =>
    cases ran
    rfl
  | cons action before ih =>
    obtain ⟨next, performed, rest⟩ := Option.bind_eq_some_iff.mp ran
    simp [System.answersTo, performed, ih rest]

/-- **A suspended task stays as it is until its suspension is answered.** -/
theorem run_suspended {actions : List (Action ω ι κ)} (ran : system.run pool actions = some last)
    {index : ℕ} {request : κ} {want : ω} {continuation : ι want → Process σ ω ι α}
    (found : pool.tasks[index]? = some (request, .wait want continuation)) :
    last.tasks[index]? = some (request, .wait want continuation) ∨
      ∃ answer rest, system.answersTo index pool actions = ⟨want, answer⟩ :: rest := by
  induction actions generalizing pool with
  | nil =>
    cases ran
    exact Or.inl found
  | cons action later ih =>
    obtain ⟨next, performed, rest⟩ := Option.bind_eq_some_iff.mp ran
    by_cases subject : index = pool.subject action
    · rcases perform_cases performed with
        ⟨fresh, rfl, -⟩ | ⟨resumed, answer, other, wanted, continued, rfl, waiting, -, -⟩
      · subst subject
        simp [Pool.subject] at found
      · simp only [Pool.subject] at subject
        subst subject
        exact Or.inr ⟨answer want, _, by simp [System.answersTo, Pool.given, found]; rfl⟩
    · have quiet : pool.given index action = [] := by
        cases action with
        | spawn request => rfl
        | resume resumed answer => exact if_neg fun same => subject same.symm
      have kept := ih rest ((perform_other performed subject).trans found)
      simpa [System.answersTo, performed, quiet] using kept

end TracedRuns

/-! ### Ledgers -/

section Ledgers

variable {γ : Type} [AddCommGroup γ]

/-- **The task moves the amount exactly as its holdings change**, and at a suspension it holds the weight
of what it waits for. -/
def Balanced (ready : ω → σ → Bool) (amount : σ → γ) (weight : ω → γ) (post : α → γ → Prop) : Process σ ω ι α → σ → γ → Prop
  | .done result, _, held => post result held
  | .access update next, state, held =>
    Balanced ready amount weight post (next state) (update state) (held + (amount (update state) - amount state))
  | .wait want next, _, held =>
    held = weight want ∧ ∀ answer later, ready want later = true →
      Balanced ready amount weight post (next answer) later held

/-- What a suspended task holds; a finished one holds nothing. -/
def Process.holding (weight : ω → γ) : Process σ ω ι α → γ
  | .wait want _ => weight want
  | _ => 0

@[simp] theorem holding_done (weight : ω → γ) (result : α) :
    (.done result : Process σ ω ι α).holding weight = 0 := rfl

@[simp] theorem holding_wait (weight : ω → γ) (want : ω) (next : ι want → Process σ ω ι α) :
    (Process.wait want next).holding weight = weight want := rfl

/-- What the task at an index holds. -/
def Pool.holdingAt (weight : ω → γ) (pool : Pool σ ω ι κ α) (index : ℕ) : γ :=
  ((pool.tasks[index]?).map fun task => task.2.holding weight).getD 0

/-- What all tasks hold. -/
def Pool.holding (weight : ω → γ) (pool : Pool σ ω ι κ α) : γ :=
  (pool.tasks.map fun task => task.2.holding weight).sum

variable {ready : ω → σ → Bool} {amount : σ → γ} {weight : ω → γ}

theorem Balanced.mono {post post' : α → γ → Prop} {process : Process σ ω ι α} {state : σ} {held : γ}
    (balanced : Balanced ready amount weight post process state held)
    (weaker : ∀ result held, post result held → post' result held) :
    Balanced ready amount weight post' process state held := by
  induction process generalizing state held with
  | done result => exact weaker result held balanced
  | access update next ih => exact ih state balanced
  | wait want next ih => exact ⟨balanced.1, fun answer later isReady =>
      ih answer (balanced.2 answer later isReady)⟩

@[simp] theorem balanced_pure {post : α → γ → Prop} {result : α} {state : σ} {held : γ} :
    Balanced ready amount weight post (pure result : Process σ ω ι α) state held ↔ post result held := Iff.rfl

@[simp] theorem balanced_read {post : σ → γ → Prop} {state : σ} {held : γ} :
    Balanced ready amount weight post (.read : Process σ ω ι σ) state held ↔ post state held := by
  simp [Process.read, Balanced]

@[simp] theorem balanced_write {post : Unit → γ → Prop} {update : σ → σ} {state : σ} {held : γ} :
    Balanced ready amount weight post (.write update : Process σ ω ι Unit) state held ↔
      post () (held + (amount (update state) - amount state)) := Iff.rfl

/-- Sequencing: the second part starts with what the first part holds at its end. -/
theorem Balanced.bind {post : β → γ → Prop} {process : Process σ ω ι α} {after : α → Process σ ω ι β}
    {state : σ} {held : γ}
    (first : Balanced ready amount weight (fun result held => ∀ state,
      Balanced ready amount weight post (after result) state held) process state held) :
    Balanced ready amount weight post (process >>= after) state held := by
  show Balanced ready amount weight post (process.bind after) state held
  induction process generalizing state held with
  | done result => exact first state
  | access update next ih => exact ih state first
  | wait want next ih => exact ⟨first.1, fun answer later isReady =>
      ih answer (first.2 answer later isReady)⟩

/-- Sequencing of coroutines that may raise. -/
theorem Balanced.asyncBind {post : Except ε β → γ → Prop} {body : Async σ ω ι ε α}
    {after : α → Async σ ω ι ε β} {state : σ} {held : γ}
    (first : Balanced ready amount weight (fun outcome held => match outcome with
      | .ok result => ∀ state, Balanced ready amount weight post (after result).run state held
      | .error error => post (.error error) held) body.run state held) :
    Balanced ready amount weight post (body >>= after).run state held := by
  refine Balanced.bind (Eq.mp ?_ first)
  congr 1
  funext outcome held'
  cases outcome with
  | ok result => rfl
  | error error => exact propext ⟨fun ends _ => ends, fun ends => ends state⟩

/-- A process that leaves the amount alone and suspends where it holds the same. -/
theorem Balanced.ofUses {process : Process σ ω ι α} {held : γ}
    (uses : Uses (fun first second => amount second = amount first) (fun want => weight want = held) process)
    (state : σ) : Balanced ready amount weight (fun _ rest => rest = held) process state held := by
  induction process generalizing state with
  | done result => rfl
  | access update next ih =>
    have same := (uses state).1
    show Balanced ready amount weight _ (next state) _ (held + (amount (update state) - amount state))
    rw [same, sub_self, add_zero]
    exact ih state (uses state).2 (update state)
  | wait want next ih => exact ⟨uses.1.symm, fun answer later _ => ih answer (uses.2 answer) later⟩

/-- A process that ends with nothing. -/
abbrev Process.Balances (ready : ω → σ → Bool) (amount : σ → γ) (weight : ω → γ) (process : Process σ ω ι α) (held : γ) : Prop :=
  ∀ state, Balanced ready amount weight (fun _ rest => rest = 0) process state held

/-- Sequencing of coroutines that start and end with nothing. -/
theorem balances_bind {body : Async σ ω ι ε α} {after : α → Async σ ω ι ε β}
    (first : body.run.Balances ready amount weight 0)
    (second : ∀ result, (after result).run.Balances ready amount weight 0) :
    (body >>= after).run.Balances ready amount weight 0 := by
  intro state
  refine Balanced.asyncBind ((first state).mono fun outcome held nothing => ?_)
  subst nothing
  cases outcome with
  | error error => rfl
  | ok result => exact second result

theorem Balanced.settle {process : Process σ ω ι α} {state : σ} {held : γ}
    (balanced : Balanced ready amount weight (fun _ rest => rest = 0) process state held) :
    amount (process.settle state).1 - amount state = (process.settle state).2.holding weight - held ∧
      (process.settle state).2.Balances ready amount weight ((process.settle state).2.holding weight) := by
  induction process generalizing state held with
  | done result =>
    have nothing : held = 0 := balanced
    subst nothing
    exact ⟨by simp [Process.settle], fun _ => rfl⟩
  | access update next ih =>
    obtain ⟨moved, rest⟩ := ih state balanced
    refine ⟨?_, rest⟩
    calc amount ((next state).settle (update state)).1 - amount state
        = amount ((next state).settle (update state)).1 - amount (update state)
            + (amount (update state) - amount state) := by rw [sub_add_sub_cancel]
      _ = ((next state).settle (update state)).2.holding weight - held := by
        rw [moved]
        abel
  | wait want next ih =>
    obtain ⟨rfl, rest⟩ := balanced
    exact ⟨by simp [Process.settle], fun _ => ⟨rfl, rest⟩⟩

variable {system : System σ ω ι κ α} {pool next last : Pool σ ω ι κ α} {action : Action ω ι κ}

/-- Every program starts and ends with nothing. -/
def System.Balances (system : System σ ω ι κ α) (amount : σ → γ) (weight : ω → γ) : Prop :=
  ∀ request, (system.program request).Balances system.ready amount weight 0

/-- Every task holds what its suspension weighs. -/
def Pool.Balances (ready : ω → σ → Bool) (amount : σ → γ) (weight : ω → γ) (pool : Pool σ ω ι κ α) : Prop :=
  ∀ task ∈ pool.tasks, task.2.Balances ready amount weight (task.2.holding weight)

/-- **A step moves the amount by what its task takes or gives back.** -/
theorem perform_moves (programs : system.Balances amount weight) (balances : pool.Balances system.ready amount weight)
    (performed : system.perform pool action = some next) :
    next.Balances system.ready amount weight ∧
      amount next.shared - amount pool.shared =
        next.holdingAt weight (pool.subject action) - pool.holdingAt weight (pool.subject action) ∧
      next.holding weight - pool.holding weight =
        next.holdingAt weight (pool.subject action) - pool.holdingAt weight (pool.subject action) := by
  rcases perform_cases performed with
    ⟨request, rfl, rfl⟩ | ⟨resumed, answer, request, want, continuation, rfl, found, isReady, rfl⟩
  · obtain ⟨moved, rest⟩ := (programs request pool.shared).settle
    refine ⟨fun task member => ?_, ?_, ?_⟩
    · rcases List.mem_append.mp member with old | new
      · exact balances task old
      · rw [List.mem_singleton] at new
        subst new
        exact rest
    · simpa [System.spawned, Pool.subject, Pool.holdingAt] using moved
    · simp [System.spawned, Pool.subject, Pool.holdingAt, Pool.holding]
  · obtain ⟨inside, same⟩ := List.getElem?_eq_some_iff.mp found
    have waiting := balances _ (List.mem_of_getElem? found)
    obtain ⟨moved, rest⟩ := ((waiting pool.shared).2 (answer want) pool.shared isReady).settle
    refine ⟨fun task member => ?_, ?_, ?_⟩
    · rcases List.mem_or_eq_of_mem_set member with old | rfl
      · exact balances task old
      · exact rest
    · simpa [Pool.resumed, Pool.subject, Pool.holdingAt, found, inside, same] using moved
    · simp only [Pool.resumed, Pool.subject, Pool.holdingAt, Pool.holding, List.map_set, found, inside,
        List.getElem?_set_self, Option.map_some, Option.getD_some]
      rw [List.sum_set', dif_pos (by simpa using inside)]
      simp [same]
      abel

/-- **At every suspension the amount is what the tasks hold.** -/
theorem run_balanced (programs : system.Balances amount weight) {actions : List (Action ω ι κ)}
    (ran : system.run pool actions = some last) (balances : pool.Balances system.ready amount weight)
    (exact : amount pool.shared = pool.holding weight) :
    last.Balances system.ready amount weight ∧ amount last.shared = last.holding weight := by
  induction actions generalizing pool with
  | nil =>
    cases ran
    exact ⟨balances, exact⟩
  | cons action later ih =>
    obtain ⟨next, performed, rest⟩ := Option.bind_eq_some_iff.mp ran
    obtain ⟨balancesNext, moved, held⟩ := perform_moves programs balances performed
    refine ih rest balancesNext ?_
    rw [← held, exact] at moved
    exact sub_left_inj.mp moved

end Ledgers

end Cooperative
