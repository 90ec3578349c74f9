/-
**Cooperative tasks over a shared state.**

A `Process` is one coroutine of a single-threaded event loop: it reads and updates the shared state
(`access`) and suspends (`wait`) until the outside answers. Between two suspensions it runs alone, so
`settle` executes everything up to the next one in one step. `Async` adds exceptions, and `AsyncLock`
is the loop's first-come-first-served mutex.

Two ways to run it:

* `System.run` — a pool of tasks under any schedule. A `Contract` is an invariant of the shared state at
  suspensions and a preorder along which every access moves it; `Holds` is the weakest precondition of a
  process under interference that respects the contract, computed through sequencing, exceptions and
  clean-up by `holds_bind`, `Async.holds_bind`, `Async.holds_ensuring`. `run_safe`: a system whose
  programs hold keeps its invariant in every run, and every finished task has its postcondition.
* `Process.drive` — one task alone in an adversarial world that changes the shared state and answers at
  will at each suspension. `drive_bind` splits a run at a sequencing point, and `Accounted` says that the
  task ends in an escaping exception exactly when one of the answers was a fault.
-/

import Mathlib.Data.List.Basic
import McpAuth.Library.Fallible

namespace Cooperative

/-! ### Processes -/

/-- A coroutine that suspends on a `want : ω` and is answered by an `ι want`. -/
inductive Process (σ ω : Type) (ι : ω → Type) (α : Type)
  | done (result : α)
  | access (update : σ → σ) (next : σ → Process σ ω ι α)
  | wait (want : ω) (next : ι want → Process σ ω ι α)

variable {σ ω : Type} {ι : ω → Type} {ε ε' α β κ : Type}

namespace Process

/-- Sequencing grafts the continuation onto the results. -/
def bind (process : Process σ ω ι α) (after : α → Process σ ω ι β) : Process σ ω ι β :=
  match process with
  | .done result => after result
  | .access update next => .access update fun state => (next state).bind after
  | .wait want next => .wait want fun answer => (next answer).bind after

instance : Monad (Process σ ω ι) where
  pure := .done
  bind := .bind

/-- The shared state. -/
def read : Process σ ω ι σ := .access id .done

/-- An update of the shared state. -/
def write (update : σ → σ) : Process σ ω ι Unit := .access update fun _ => .done ()

/-- A suspension. -/
def await (want : ω) : Process σ ω ι (ι want) := .wait want .done

/-- Everything up to the next suspension. -/
def settle : Process σ ω ι α → σ → σ × Process σ ω ι α
  | .done result, state => (state, .done result)
  | .access update next, state => (next state).settle (update state)
  | .wait want next, state => (state, .wait want next)

end Process

/-- A coroutine that may raise. -/
abbrev Async (σ ω : Type) (ι : ω → Type) (ε α : Type) := ExceptT ε (Process σ ω ι) α

/-- A process that does not raise. -/
def Async.lift (process : Process σ ω ι α) : Async σ ω ι ε α := ExceptT.lift process

/-- A computation without suspension. -/
def Async.ofExcept (outcome : Except ε α) : Async σ ω ι ε α := ExceptT.mk (pure outcome)

/-- `try: body / finally: cleanup`. -/
def Async.ensuring (cleanup : Process σ ω ι Unit) (body : Async σ ω ι ε α) : Async σ ω ι ε α :=
  ExceptT.mk do
    let outcome ← body.run
    cleanup
    pure outcome

/-! ### The lock of the event loop -/

/-- `asyncio.Lock`: waiters are served in the order of their tickets. -/
structure AsyncLock where
  locked : Bool := false
  waiters : List ℕ := []
  nextTicket : ℕ := 0
  deriving DecidableEq

/-- Where a lock lies in the shared state, and what a task waits for to be its turn. -/
structure LockField (σ ω : Type) where
  get : σ → AsyncLock
  set : AsyncLock → σ → σ
  turn : ℕ → ω

/-- The holder released the lock and the ticket is the first one waiting. -/
def AsyncLock.isTurn (lock : AsyncLock) (ticket : ℕ) : Bool :=
  !lock.locked && lock.waiters.head? == some ticket

namespace LockField

/-- `lock.acquire()`: a free lock is taken at once, without suspending. -/
def acquire (field : LockField σ ω) : Process σ ω ι Unit := do
  let lock := field.get (← .read)
  if !lock.locked && lock.waiters.isEmpty then
    .write fun state => field.set { field.get state with locked := true } state
  else
    .write fun state => field.set { lock with
      waiters := lock.waiters ++ [lock.nextTicket], nextTicket := lock.nextTicket + 1 } state
    let _ ← .await (field.turn lock.nextTicket)
    .write fun state => field.set { field.get state with
      locked := true, waiters := (field.get state).waiters.tail } state

/-- `lock.release()`. -/
def release (field : LockField σ ω) : Process σ ω ι Unit :=
  .write fun state => field.set { field.get state with locked := false } state

/-- `async with lock: body`. -/
def locked (field : LockField σ ω) (body : Async σ ω ι ε α) : Async σ ω ι ε α := do
  Async.lift field.acquire
  body.ensuring field.release

end LockField

/-! ### Pools and schedules -/

/-- The tasks a system may run, and when a suspension may end. -/
structure System (σ ω : Type) (ι : ω → Type) (κ α : Type) where
  program : κ → Process σ ω ι α
  ready : ω → σ → Bool

/-- The shared state and the tasks spawned so far, with their requests. -/
structure Pool (σ ω : Type) (ι : ω → Type) (κ α : Type) where
  shared : σ
  tasks : List (κ × Process σ ω ι α)

/-- One step of a schedule: a new task, or an answer to a suspended one. -/
inductive Action (ω : Type) (ι : ω → Type) (κ : Type)
  | spawn (request : κ)
  | resume (index : ℕ) (answer : (want : ω) → ι want)

namespace System

/-- The event loop performs one step, `none` where the schedule asks for an impossible one. -/
def perform (system : System σ ω ι κ α) (pool : Pool σ ω ι κ α) :
    Action ω ι κ → Option (Pool σ ω ι κ α)
  | .spawn request =>
    let settled := (system.program request).settle pool.shared
    some ⟨settled.1, pool.tasks ++ [(request, settled.2)]⟩
  | .resume index answer =>
    match pool.tasks[index]? with
    | some (request, .wait want next) =>
      if system.ready want pool.shared then
        let settled := (next (answer want)).settle pool.shared
        some ⟨settled.1, pool.tasks.set index (request, settled.2)⟩
      else none
    | _ => none

/-- A whole schedule. -/
def run (system : System σ ω ι κ α) (pool : Pool σ ω ι κ α) :
    List (Action ω ι κ) → Option (Pool σ ω ι κ α)
  | [] => some pool
  | action :: later => (system.perform pool action).bind fun next => system.run next later

end System

/-! ### Contracts -/

/-- What tasks may rely on: an invariant at every suspension and a preorder of all changes. -/
structure Contract (σ ω : Type) where
  ready : ω → σ → Bool
  invariant : σ → Prop
  evolves : σ → σ → Prop
  refl : ∀ state, evolves state state
  trans : ∀ {first second third}, evolves first second → evolves second third → evolves first third

/-- **The weakest precondition of a process** under interference that respects the contract. -/
def Holds (contract : Contract σ ω) (post : α → σ → Prop) : Process σ ω ι α → σ → Prop
  | .done result, state => post result state
  | .access update next, state =>
    contract.evolves state (update state) ∧ Holds contract post (next state) (update state)
  | .wait want next, state => contract.invariant state ∧ ∀ answer later,
      contract.evolves state later → contract.invariant later → contract.ready want later = true →
      Holds contract post (next answer) later

section Rules

variable {contract : Contract σ ω}

/-- **Sequencing.** The first part has to establish what the second needs. -/
theorem holds_bind {post : β → σ → Prop} {process : Process σ ω ι α}
    {after : α → Process σ ω ι β} {state : σ} :
    Holds contract post (process >>= after) state ↔
      Holds contract (fun result => Holds contract post (after result)) process state := by
  show Holds contract post (process.bind after) state ↔ _
  induction process generalizing state with
  | done result => rfl
  | access update next ih =>
    exact and_congr_right fun _ => ih state
  | wait want next ih =>
    refine and_congr_right fun _ => forall_congr' fun answer => forall_congr' fun later => ?_
    exact forall_congr' fun _ => forall_congr' fun _ => forall_congr' fun _ => ih answer

/-- A weaker postcondition holds a fortiori. -/
theorem Holds.mono {post post' : α → σ → Prop} {process : Process σ ω ι α} {state : σ}
    (weaker : ∀ result state, post result state → post' result state)
    (holds : Holds contract post process state) : Holds contract post' process state := by
  induction process generalizing state with
  | done result => exact weaker result state holds
  | access update next ih => exact ⟨holds.1, ih state holds.2⟩
  | wait want next ih =>
    exact ⟨holds.1, fun answer later moved kept isReady =>
      ih answer (holds.2 answer later moved kept isReady)⟩

/-- A fact that the contract never takes away is still there at the end. -/
theorem Holds.frame {post : α → σ → Prop} {fact : σ → Prop} {process : Process σ ω ι α} {state : σ}
    (stable : ∀ state later, contract.evolves state later → fact state → fact later)
    (known : fact state) (holds : Holds contract post process state) :
    Holds contract (fun result state => post result state ∧ fact state) process state := by
  induction process generalizing state with
  | done result => exact ⟨holds, known⟩
  | access update next ih => exact ⟨holds.1, ih state (stable _ _ holds.1 known) holds.2⟩
  | wait want next ih =>
    exact ⟨holds.1, fun answer later moved kept isReady =>
      ih answer (stable _ _ moved known) (holds.2 answer later moved kept isReady)⟩

@[simp] theorem holds_pure {post : α → σ → Prop} {result : α} {state : σ} :
    Holds contract post (pure result : Process σ ω ι α) state ↔ post result state := Iff.rfl

@[simp] theorem holds_read {post : σ → σ → Prop} {state : σ} :
    Holds contract post (.read : Process σ ω ι σ) state ↔ post state state :=
  and_iff_right (contract.refl state)

@[simp] theorem holds_write {post : Unit → σ → Prop} {update : σ → σ} {state : σ} :
    Holds contract post (.write update : Process σ ω ι Unit) state ↔
      contract.evolves state (update state) ∧ post () (update state) := Iff.rfl

theorem holds_await {want : ω} {post : ι want → σ → Prop} {state : σ} :
    Holds contract post (.await want : Process σ ω ι (ι want)) state ↔
      contract.invariant state ∧ ∀ answer later, contract.evolves state later →
        contract.invariant later → contract.ready want later = true → post answer later := Iff.rfl

/-- What a settled process still needs. -/
theorem Holds.settle {post : α → σ → Prop} {process : Process σ ω ι α} {state : σ}
    (holds : Holds contract (fun result state => contract.invariant state ∧ post result state)
      process state) :
    contract.evolves state (process.settle state).1 ∧ contract.invariant (process.settle state).1 ∧
      Holds contract (fun result state => contract.invariant state ∧ post result state)
        (process.settle state).2 (process.settle state).1 := by
  induction process generalizing state with
  | done result => exact ⟨contract.refl state, holds.1, holds⟩
  | access update next ih =>
    obtain ⟨moved, kept, rest⟩ := ih state holds.2
    exact ⟨contract.trans holds.1 moved, kept, rest⟩
  | wait want next ih => exact ⟨contract.refl state, holds.1, holds⟩

end Rules

/-! ### Exceptions -/

namespace Async

variable {contract : Contract σ ω}

/-- A postcondition for a normal result, with one for every exception. -/
def outcomePost (post : α → σ → Prop) (raised : ε → σ → Prop) : Except ε α → σ → Prop
  | .ok result => post result
  | .error error => raised error

/-- The weakest precondition of a coroutine that may raise. -/
def Holds (contract : Contract σ ω) (post : α → σ → Prop) (raised : ε → σ → Prop)
    (body : Async σ ω ι ε α) : σ → Prop :=
  Cooperative.Holds contract (outcomePost post raised) body.run

variable {raised : ε → σ → Prop} {state : σ}

@[simp] theorem holds_pure {post : α → σ → Prop} {result : α} :
    Holds contract post raised (pure result : Async σ ω ι ε α) state ↔ post result state := Iff.rfl

/-- A process without exceptions inside one with. -/
theorem holds_lift {post : α → σ → Prop} {process : Process σ ω ι α} :
    Holds contract post raised (lift process : Async σ ω ι ε α) state ↔
      Cooperative.Holds contract post process state :=
  Cooperative.holds_bind

theorem holds_bind {post : β → σ → Prop} {body : Async σ ω ι ε α} {after : α → Async σ ω ι ε β} :
    Holds contract post raised (body >>= after) state ↔
      Holds contract (fun result => Holds contract post raised (after result)) raised body state := by
  refine Cooperative.holds_bind.trans (iff_of_eq ?_)
  congr 1
  funext outcome
  cases outcome <;> rfl

/-- `try: body / except …: raise convert(error)`. -/
theorem holds_adapt {post : α → σ → Prop} {raised : ε' → σ → Prop} {convert : ε → ε'}
    {body : Async σ ω ι ε α} :
    Holds contract post raised (body.adapt convert) state ↔
      Holds contract post (fun error => raised (convert error)) body state := by
  refine Cooperative.holds_bind.trans (iff_of_eq ?_)
  congr 1
  funext outcome
  cases outcome <;> rfl

/-- `try: body / except …: handler`. -/
theorem holds_tryCatch {post : α → σ → Prop} {body : Async σ ω ι ε α}
    {handler : ε → Async σ ω ι ε α} :
    Holds contract post raised (tryCatch body handler) state ↔
      Holds contract post (fun error => Holds contract post raised (handler error)) body state := by
  refine Cooperative.holds_bind.trans (iff_of_eq ?_)
  congr 1
  funext outcome
  cases outcome <;> rfl

theorem holds_ensuring {post : α → σ → Prop} {cleanup : Process σ ω ι Unit}
    {body : Async σ ω ι ε α} :
    Holds contract post raised (body.ensuring cleanup) state ↔
      Holds contract (fun result => Cooperative.Holds contract (fun _ => post result) cleanup)
        (fun error => Cooperative.Holds contract (fun _ => raised error) cleanup) body state := by
  refine Cooperative.holds_bind.trans (iff_of_eq ?_)
  congr 1
  funext outcome state
  cases outcome <;> exact propext Cooperative.holds_bind

theorem Holds.mono {post post' : α → σ → Prop} {raised' : ε → σ → Prop} {body : Async σ ω ι ε α}
    (weaker : ∀ result state, post result state → post' result state)
    (weakerRaised : ∀ error state, raised error state → raised' error state)
    (holds : Holds contract post raised body state) : Holds contract post' raised' body state := by
  refine Cooperative.Holds.mono ?_ holds
  rintro (error | result) state
  · exact weakerRaised error state
  · exact weaker result state

/-! ### Triples -/

/-- **A body that keeps the invariant**, also where it raises, and returns what the postcondition says
when it starts from the precondition. -/
def Meets (contract : Contract σ ω) (pre : σ → Prop) (returns : α → σ → Prop)
    (body : Async σ ω ι ε α) : Prop :=
  ∀ state, contract.invariant state → pre state →
    Holds contract (fun result state => contract.invariant state ∧ returns result state)
      (fun _ => contract.invariant) body state

variable {pre : σ → Prop} {returns : α → σ → Prop}

theorem Meets.pure {result : α} (holds : ∀ state, contract.invariant state → pre state →
    returns result state) : Meets contract pre returns (Pure.pure result : Async σ ω ι ε α) :=
  fun state kept start => ⟨kept, holds state kept start⟩

theorem Meets.throw (error : ε) :
    Meets contract pre returns (MonadExcept.throw error : Async σ ω ι ε α) :=
  fun _ kept _ => kept

theorem Meets.ofExcept {outcome : Except ε α} (holds : ∀ result, outcome = .ok result →
    ∀ state, contract.invariant state → pre state → returns result state) :
    Meets contract pre returns (ofExcept outcome : Async σ ω ι ε α) := by
  cases outcome with
  | error error => exact .throw error
  | ok result => exact .pure (holds result rfl)

/-- One access of the shared state. -/
theorem Meets.access {update : σ → σ} {result : σ → α}
    (moves : ∀ state, contract.invariant state → pre state → contract.evolves state (update state) ∧
      contract.invariant (update state) ∧ returns (result state) (update state)) :
    Meets contract pre returns
      (lift (.access update fun state => .done (result state)) : Async σ ω ι ε α) := by
  intro state kept start
  obtain ⟨moved, keptAfter, holds⟩ := moves state kept start
  exact ⟨moved, keptAfter, holds⟩

/-- A suspension: what was known before is lost, unless it is framed. -/
theorem Meets.await {want : ω} {returns : ι want → σ → Prop}
    (answered : ∀ answer state, contract.invariant state → contract.ready want state = true →
      returns answer state) :
    Meets contract pre returns (lift (.await want) : Async σ ω ι ε (ι want)) :=
  fun _ kept _ => ⟨kept, fun answer later _ keptLater isReady =>
    ⟨keptLater, answered answer later keptLater isReady⟩⟩

theorem Meets.bind {returns' : β → σ → Prop} {body : Async σ ω ι ε α}
    {after : α → Async σ ω ι ε β} (first : Meets contract pre returns body)
    (second : ∀ result, Meets contract (returns result) returns' (after result)) :
    Meets contract pre returns' (body >>= after) := by
  intro state kept start
  rw [holds_bind]
  exact (first state kept start).mono (fun result later holds => second result later holds.1 holds.2)
    fun _ _ holds => holds

/-- Sequencing where nothing has to be remembered in between. -/
theorem Meets.bindAny {returns' : β → σ → Prop} {body : Async σ ω ι ε α}
    {after : α → Async σ ω ι ε β} (first : Meets contract pre (fun _ _ => True) body)
    (second : ∀ result, Meets contract (fun _ => True) returns' (after result)) :
    Meets contract pre returns' (body >>= after) :=
  first.bind second

theorem Meets.weaken {pre' : σ → Prop} {returns' : α → σ → Prop} {body : Async σ ω ι ε α}
    (meets : Meets contract pre returns body) (starts : ∀ state, pre' state → pre state)
    (ends : ∀ result state, returns result state → returns' result state) :
    Meets contract pre' returns' body := by
  intro state kept start
  exact (meets state kept (starts state start)).mono
    (fun result later holds => ⟨holds.1, ends result later holds.2⟩) fun _ _ holds => holds

theorem Meets.adapt {convert : ε → ε'} {body : Async σ ω ι ε α}
    (meets : Meets contract pre returns body) : Meets contract pre returns (body.adapt convert) := by
  intro state kept start
  rw [holds_adapt]
  exact meets state kept start

theorem Meets.tryCatch {body : Async σ ω ι ε α} {handler : ε → Async σ ω ι ε α}
    (meets : Meets contract pre returns body)
    (handles : ∀ error, Meets contract (fun _ => True) returns (handler error)) :
    Meets contract pre returns (MonadExcept.tryCatch body handler) := by
  intro state kept start
  rw [holds_tryCatch]
  exact (meets state kept start).mono (fun _ _ holds => holds)
    fun error later keptLater => handles error later keptLater trivial

/-- A fact that the contract never takes away is still there at the end. -/
theorem Meets.frame {fact : σ → Prop} {body : Async σ ω ι ε α}
    (stable : ∀ state later, contract.evolves state later → fact state → fact later)
    (meets : Meets contract pre returns body) :
    Meets contract (fun state => pre state ∧ fact state)
      (fun result state => returns result state ∧ fact state) body := by
  intro state kept start
  have framed := (meets state kept start.1 : Cooperative.Holds contract _ body.run state).frame stable
    start.2
  refine framed.mono ?_
  rintro (error | result) later ⟨holds, known⟩
  · exact holds
  · exact ⟨holds.1, holds.2, known⟩

/-- `async with lock: body`, where the lock is no part of what the invariant and the facts see. -/
theorem Meets.locked {field : LockField σ ω} {returns : α → σ → Prop} {body : Async σ ω ι ε α}
    (inert : ∀ lock state, contract.evolves state (field.set lock state) ∧
      (contract.invariant state → contract.invariant (field.set lock state)) ∧
      ∀ result, returns result state → returns result (field.set lock state))
    (meets : Meets contract (fun _ => True) returns body) :
    Meets contract pre returns (field.locked body) := by
  have acquires : Meets contract pre (fun _ _ => True)
      (lift field.acquire : Async σ ω ι ε Unit) := by
    intro state kept _
    rw [holds_lift, LockField.acquire, Cooperative.holds_bind, holds_read]
    dsimp only
    split
    · exact ⟨(inert _ state).1, (inert _ state).2.1 kept, trivial⟩
    · rw [Cooperative.holds_bind, holds_write]
      refine ⟨(inert _ state).1, ?_⟩
      rw [Cooperative.holds_bind, holds_await]
      refine ⟨(inert _ state).2.1 kept, fun answer later _ keptLater _ => ?_⟩
      exact ⟨(inert _ later).1, (inert _ later).2.1 keptLater, trivial⟩
  refine acquires.bind fun _ => ?_
  intro state kept _
  rw [holds_ensuring]
  refine (meets state kept trivial).mono (fun result later holds => ?_) fun error later keptLater => ?_
  · exact ⟨(inert _ later).1, (inert _ later).2.1 holds.1, (inert _ later).2.2 result holds.2⟩
  · exact ⟨(inert _ later).1, (inert _ later).2.1 keptLater⟩

end Async

/-! ### Runs of a system -/

section Runs

variable {contract : Contract σ ω} {system : System σ ω ι κ α} {post : κ → α → σ → Prop}

/-- Every program of the system holds from every state of the invariant. -/
def System.Meets (system : System σ ω ι κ α) (contract : Contract σ ω) (post : κ → α → σ → Prop) :
    Prop :=
  contract.ready = system.ready ∧ ∀ request state, contract.invariant state →
    Cooperative.Holds contract (fun result state => contract.invariant state ∧ post request result state)
      (system.program request) state

/-- The program of a call that meets its triple. -/
theorem Async.Meets.program {pre : σ → Prop} {returns : α → σ → Prop} {body : Async σ ω ι ε α} {state : σ}
    (meets : Async.Meets contract pre returns body) (kept : contract.invariant state) (start : pre state) :
    Cooperative.Holds contract (fun outcome state => contract.invariant state ∧
      ∀ result, outcome = .ok result → returns result state) body.run state := by
  have holds : Cooperative.Holds contract _ body.run state := meets state kept start
  refine holds.mono ?_
  rintro (error | result) later held
  · exact ⟨held, fun _ same => by cases same⟩
  · refine ⟨held.1, fun other same => ?_⟩
    cases same
    exact held.2

/-- **Calls that meet their triples make a system that does.** -/
theorem System.meets_of_calls {call : κ → Async σ ω ι ε α} {returns : κ → α → σ → Prop}
    (calls : ∀ request, Async.Meets contract (fun _ => True) (returns request) (call request)) :
    System.Meets ⟨fun request => (call request).run, contract.ready⟩ contract
      fun request outcome state => ∀ result, outcome = .ok result → returns request result state :=
  ⟨rfl, fun request _ kept => (calls request).program kept trivial⟩

/-- A task still holds, from a state that evolved into the shared one. -/
def TaskHolds (contract : Contract σ ω) (post : κ → α → σ → Prop) (shared : σ)
    (task : κ × Process σ ω ι α) : Prop :=
  ∃ state, contract.evolves state shared ∧ Cooperative.Holds contract
    (fun result state => contract.invariant state ∧ post task.1 result state) task.2 state

/-- A pool in which the invariant holds and every task holds. -/
structure Pool.Safe (contract : Contract σ ω) (post : κ → α → σ → Prop) (pool : Pool σ ω ι κ α) :
    Prop where
  invariant : contract.invariant pool.shared
  tasks : ∀ task ∈ pool.tasks, TaskHolds contract post pool.shared task

/-- A task bears every change the contract allows. -/
theorem TaskHolds.evolve {shared later : σ} {task : κ × Process σ ω ι α}
    (moved : contract.evolves shared later) (holds : TaskHolds contract post shared task) :
    TaskHolds contract post later task := by
  obtain ⟨state, before, rest⟩ := holds
  exact ⟨state, contract.trans before moved, rest⟩

/-- **One step of a schedule keeps the pool safe.** -/
theorem perform_safe (meets : system.Meets contract post) {pool next : Pool σ ω ι κ α}
    {action : Action ω ι κ} (performed : system.perform pool action = some next)
    (safe : pool.Safe contract post) :
    next.Safe contract post ∧ contract.evolves pool.shared next.shared := by
  cases action with
  | spawn request =>
    cases performed
    obtain ⟨moved, kept, rest⟩ := (meets.2 request pool.shared safe.invariant).settle
    refine ⟨⟨kept, fun task member => ?_⟩, moved⟩
    rcases List.mem_append.mp member with old | new
    · exact (safe.tasks task old).evolve moved
    · rw [List.mem_singleton] at new
      subst new
      exact ⟨_, contract.refl _, rest⟩
  | resume index answer =>
    simp only [System.perform] at performed
    split at performed
    · rename_i request want continuation found
      split at performed
      · rename_i isReady
        cases performed
        obtain ⟨state, before, holds⟩ := safe.tasks _ (List.mem_of_getElem? found)
        obtain ⟨moved, kept, rest⟩ := (holds.2 (answer want) pool.shared before safe.invariant
          (meets.1 ▸ isReady)).settle
        refine ⟨⟨kept, fun task member => ?_⟩, moved⟩
        rcases List.mem_or_eq_of_mem_set member with old | rfl
        · exact (safe.tasks task old).evolve moved
        · exact ⟨_, contract.refl _, rest⟩
      · cases performed
    · cases performed

/-- **Every run keeps the pool safe**, and moves the shared state along the contract. -/
theorem run_safe (meets : system.Meets contract post) {actions : List (Action ω ι κ)}
    {pool last : Pool σ ω ι κ α} (ran : system.run pool actions = some last)
    (safe : pool.Safe contract post) :
    last.Safe contract post ∧ contract.evolves pool.shared last.shared := by
  induction actions generalizing pool with
  | nil =>
    cases ran
    exact ⟨safe, contract.refl _⟩
  | cons action later ih =>
    obtain ⟨next, performed, rest⟩ := Option.bind_eq_some_iff.mp ran
    obtain ⟨safeNext, moved⟩ := perform_safe meets performed safe
    obtain ⟨safeLast, movedOn⟩ := ih rest safeNext
    exact ⟨safeLast, contract.trans moved movedOn⟩

end Runs

/-! ### One task in an adversarial world -/

/-- What happens while a lone task is suspended: the others leave a shared state, and an answer comes. -/
structure Turn (σ ω : Type) (ι : ω → Type) where
  shared : σ
  answer : (want : ω) → ι want

/-- A suspension with its answer. -/
abbrev Answered (ω : Type) (ι : ω → Type) := (want : ω) × ι want

/-- A completed run of one task: its result, the answers it got, and what it left. -/
structure Solo (σ ω : Type) (ι : ω → Type) (α : Type) where
  result : α
  answers : List (Answered ω ι)
  shared : σ
  later : ℕ → Turn σ ω ι

/-- **The run of one task**, one turn for each of its suspensions. It always completes. -/
def Process.drive : Process σ ω ι α → (ℕ → Turn σ ω ι) → σ → Solo σ ω ι α
  | .done result, turns, state => ⟨result, [], state, turns⟩
  | .access update next, turns, state => (next state).drive turns (update state)
  | .wait want next, turns, _ =>
    let answer := (turns 0).answer want
    let rest := (next answer).drive (fun turn => turns (turn + 1)) (turns 0).shared
    { rest with answers := ⟨want, answer⟩ :: rest.answers }

/-- **A run of a sequence is a run of the first part, then one of the second.** -/
theorem drive_bind (process : Process σ ω ι α) (after : α → Process σ ω ι β)
    (turns : ℕ → Turn σ ω ι) (state : σ) :
    (process >>= after).drive turns state =
      let first := process.drive turns state
      let second := (after first.result).drive first.later first.shared
      { second with answers := first.answers ++ second.answers } := by
  show (process.bind after).drive turns state = _
  induction process generalizing turns state with
  | done result => rfl
  | access update next ih => exact ih state turns (update state)
  | wait want next ih =>
    simp only [Process.bind, Process.drive]
    rw [ih]
    rfl

/-- The outcome of a run agrees with its answers: an exception escapes exactly when one was a fault. -/
def Verdict (escapes : ε → Prop) (fault : Answered ω ι → Prop) (returns : α → Prop) :
    Except ε α → List (Answered ω ι) → Prop
  | .ok result, answers => returns result ∧ ∀ answered ∈ answers, ¬ fault answered
  | .error error, answers => escapes error ↔ ∃ answered ∈ answers, fault answered

/-- **Every run accounts for its exceptions.** -/
def Accounted (escapes : ε → Prop) (fault : Answered ω ι → Prop) (returns : α → Prop)
    (body : Async σ ω ι ε α) : Prop :=
  ∀ turns state, Verdict escapes fault returns (body.run.drive turns state).result
    (body.run.drive turns state).answers

/-- A process none of whose answers can be a fault. -/
def Faultless (fault : Answered ω ι → Prop) (process : Process σ ω ι α) : Prop :=
  ∀ turns state, ∀ answered ∈ (process.drive turns state).answers, ¬ fault answered

section Accounting

variable {escapes : ε → Prop} {fault : Answered ω ι → Prop} {returns : α → Prop}

theorem Faultless.access {update : σ → σ} {next : σ → Process σ ω ι α}
    (each : ∀ state, Faultless fault (next state)) : Faultless fault (.access update next) :=
  fun turns state => each state turns (update state)

theorem Faultless.wait {want : ω} {next : ι want → Process σ ω ι α}
    (harmless : ∀ answer, ¬ fault ⟨want, answer⟩) (each : ∀ answer, Faultless fault (next answer)) :
    Faultless fault (.wait want next) := by
  intro turns state answered member
  rcases List.mem_cons.mp member with rfl | later
  · exact harmless _
  · exact each _ _ _ answered later

theorem Faultless.done (result : α) : Faultless fault (.done result : Process σ ω ι α) := by
  intro turns state answered member
  cases member

theorem Faultless.bind {process : Process σ ω ι α} {after : α → Process σ ω ι β}
    (first : Faultless fault process) (second : ∀ result, Faultless fault (after result)) :
    Faultless fault (process >>= after) := by
  intro turns state answered member
  rw [drive_bind] at member
  rcases List.mem_append.mp member with early | late
  · exact first turns state answered early
  · exact second _ _ _ answered late

theorem Faultless.read : Faultless fault (.read : Process σ ω ι σ) := .access fun _ => .done _

theorem Faultless.write (update : σ → σ) : Faultless fault (.write update : Process σ ω ι Unit) :=
  .access fun _ => .done _

theorem Faultless.await {want : ω} (harmless : ∀ answer, ¬ fault ⟨want, answer⟩) :
    Faultless fault (.await want : Process σ ω ι (ι want)) :=
  .wait harmless .done

/-- Taking a lock is faultless when waiting for it is. -/
theorem Faultless.acquire {field : LockField σ ω}
    (harmless : ∀ ticket answer, ¬ fault ⟨field.turn ticket, answer⟩) :
    Faultless fault (field.acquire : Process σ ω ι Unit) := by
  refine Faultless.read.bind fun state => ?_
  dsimp only
  split
  · exact .write _
  · refine (Faultless.write _).bind fun _ => ?_
    exact (Faultless.await (harmless _)).bind fun _ => .write _

theorem Accounted.ofExcept {outcome : Except ε α} (normal : ∀ result, outcome = .ok result → returns result)
    (caught : ∀ error, outcome = .error error → ¬ escapes error) :
    Accounted escapes fault returns (Async.ofExcept outcome : Async σ ω ι ε α) := by
  intro turns state
  cases outcome with
  | ok result =>
    refine ⟨normal result rfl, fun answered member => ?_⟩
    cases member
  | error error =>
    constructor
    · intro escape
      exact absurd escape (caught error rfl)
    · rintro ⟨answered, member, -⟩
      cases member

theorem Accounted.pure {result : α} (holds : returns result) :
    Accounted escapes fault returns (Pure.pure result : Async σ ω ι ε α) := by
  refine Accounted.ofExcept (fun other same => ?_) (fun error raised => ?_)
  · cases same
    exact holds
  · cases raised

theorem Accounted.throw {error : ε} (caught : ¬ escapes error) :
    Accounted escapes fault returns (MonadExcept.throw error : Async σ ω ι ε α) := by
  refine Accounted.ofExcept (fun result same => ?_) (fun other raised => ?_)
  · cases same
  · cases raised
    exact caught

theorem Accounted.lift {process : Process σ ω ι α} (faultless : Faultless fault process) :
    Accounted escapes fault (fun _ => True) (Async.lift process : Async σ ω ι ε α) := by
  intro turns state
  have split := drive_bind process (fun result => Process.done (Except.ok (ε := ε) result)) turns state
  show Verdict _ _ _ ((process >>= fun result => Process.done (Except.ok result)).drive turns state).result
    ((process >>= fun result => Process.done (Except.ok result)).drive turns state).answers
  rw [split]
  refine ⟨trivial, fun answered member => ?_⟩
  rcases List.mem_append.mp member with early | late
  · exact faultless turns state answered early
  · cases late

/-- **What follows a body accounts for the whole** when it does after each normal result and each caught
exception, and an escaping exception still escapes. -/
theorem Accounted.andThen {escapes' : ε' → Prop} {returns' : β → Prop} {body : Async σ ω ι ε α}
    {after : Except ε α → Async σ ω ι ε' β} (first : Accounted escapes fault returns body)
    (normal : ∀ result, returns result → Accounted escapes' fault returns' (after (.ok result)))
    (caught : ∀ error, ¬ escapes error → Accounted escapes' fault returns' (after (.error error)))
    (escaped : ∀ error, escapes error → ∀ turns state, ∃ error',
      ((after (.error error)).run.drive turns state).result = .error error' ∧ escapes' error') :
    Accounted escapes' fault returns' (ExceptT.mk (body.run >>= fun outcome => (after outcome).run)) := by
  intro turns state
  have verdict := first turns state
  show Verdict _ _ _ ((body.run >>= fun outcome => (after outcome).run).drive turns state).result
    ((body.run >>= fun outcome => (after outcome).run).drive turns state).answers
  rw [drive_bind]
  dsimp only
  generalize body.run.drive turns state = ran at verdict
  obtain ⟨outcome, answers, shared, later⟩ := ran
  have append : ∀ rest : List (Answered ω ι), (∀ answered ∈ answers, ¬ fault answered) →
      ∀ outcome', Verdict escapes' fault returns' outcome' rest →
        Verdict escapes' fault returns' outcome' (answers ++ rest) := by
    intro rest clean outcome' verdict'
    cases outcome' with
    | ok result =>
      refine ⟨verdict'.1, fun answered member => ?_⟩
      exact (List.mem_append.mp member).elim (clean answered) (verdict'.2 answered)
    | error error =>
      refine Iff.trans verdict' ⟨?_, ?_⟩
      · rintro ⟨answered, member, faulty⟩
        exact ⟨answered, List.mem_append_right _ member, faulty⟩
      · rintro ⟨answered, member, faulty⟩
        rcases List.mem_append.mp member with early | late
        · exact absurd faulty (clean answered early)
        · exact ⟨answered, late, faulty⟩
  cases outcome with
  | ok result => exact append _ verdict.2 _ (normal result verdict.1 later shared)
  | error error =>
    by_cases escape : escapes error
    · obtain ⟨error', raised, escape'⟩ := escaped error escape later shared
      obtain ⟨answered, member, faulty⟩ := verdict.mp escape
      rw [raised]
      exact iff_of_true escape' ⟨answered, List.mem_append_left _ member, faulty⟩
    · have clean : ∀ answered ∈ answers, ¬ fault answered :=
        fun answered member faulty => escape (verdict.mpr ⟨answered, member, faulty⟩)
      exact append _ clean _ (caught error escape later shared)

theorem Accounted.bind {returns' : β → Prop} {body : Async σ ω ι ε α}
    {after : α → Async σ ω ι ε β} (first : Accounted escapes fault returns body)
    (second : ∀ result, returns result → Accounted escapes fault returns' (after result)) :
    Accounted escapes fault returns' (body >>= after) := by
  let resumed : Except ε α → Async σ ω ι ε β
    | .ok result => after result
    | .error error => MonadExcept.throw error
  have same : body >>= after = ExceptT.mk (body.run >>= fun outcome => (resumed outcome).run) := by
    show ExceptT.mk _ = ExceptT.mk _
    congr 1
  rw [same]
  exact first.andThen second (fun error kept => Accounted.throw kept)
    fun error escape _ _ => ⟨error, rfl, escape⟩

/-- `try: body / except …: raise convert(error)`. -/
theorem Accounted.adapt {escapes' : ε' → Prop} {convert : ε → ε'} {body : Async σ ω ι ε α}
    (first : Accounted escapes fault returns body)
    (converts : ∀ error, escapes' (convert error) ↔ escapes error) :
    Accounted escapes' fault returns (body.adapt convert) := by
  intro turns state
  have verdict := first turns state
  have split : (body.adapt convert).run.drive turns state =
      { body.run.drive turns state with
        result := (body.run.drive turns state).result.mapError convert } := by
    refine (drive_bind body.run _ turns state).trans ?_
    show Solo.mk _ (_ ++ []) _ _ = _
    rw [List.append_nil]
    rfl
  rw [split]
  generalize body.run.drive turns state = ran at verdict
  obtain ⟨_ | result, answers, shared, later⟩ := ran
  · exact (converts _).trans verdict
  · exact verdict

/-- `try: body / except …: handler`. -/
theorem Accounted.tryCatch {escapes' : ε → Prop} {body : Async σ ω ι ε α}
    {handler : ε → Async σ ω ι ε α} (first : Accounted escapes fault returns body)
    (caught : ∀ error, ¬ escapes error → Accounted escapes' fault returns (handler error))
    (escaped : ∀ error, escapes error →
      escapes' error ∧ handler error = MonadExcept.throw error) :
    Accounted escapes' fault returns (MonadExcept.tryCatch body handler) := by
  let resumed : Except ε α → Async σ ω ι ε α
    | .ok result => Pure.pure result
    | .error error => handler error
  have same : MonadExcept.tryCatch body handler =
      ExceptT.mk (body.run >>= fun outcome => (resumed outcome).run) := by
    show ExceptT.mk _ = ExceptT.mk _
    congr 1
  rw [same]
  refine first.andThen (fun result holds => Accounted.pure holds) caught ?_
  intro error escape turns state
  refine ⟨error, ?_, (escaped error escape).1⟩
  show ((handler error).run.drive turns state).result = _
  rw [(escaped error escape).2]
  rfl

/-- `try: body / finally: cleanup`. -/
theorem Accounted.ensuring {cleanup : Process σ ω ι Unit} {body : Async σ ω ι ε α}
    (first : Accounted escapes fault returns body) (faultless : Faultless fault cleanup) :
    Accounted escapes fault returns (body.ensuring cleanup) := by
  have ran : ∀ (outcome : Except ε α) (turns : ℕ → Turn σ ω ι) (state : σ),
      (cleanup >>= fun _ => Process.done outcome).drive turns state =
        { cleanup.drive turns state with result := outcome } := by
    intro outcome turns state
    refine (drive_bind cleanup _ turns state).trans ?_
    show Solo.mk _ (_ ++ []) _ _ = _
    rw [List.append_nil]
    rfl
  let resumed (outcome : Except ε α) : Async σ ω ι ε α :=
    ExceptT.mk (cleanup >>= fun _ => Process.done outcome)
  refine @andThen _ _ _ _ _ _ _ _ _ _ _ _ body resumed first ?_ ?_ ?_
  · intro result holds turns state
    show Verdict _ _ _ ((cleanup >>= fun _ => Process.done (Except.ok result)).drive turns state).result
      ((cleanup >>= fun _ => Process.done (Except.ok result)).drive turns state).answers
    rw [ran]
    exact ⟨holds, faultless turns state⟩
  · intro error kept turns state
    show Verdict _ _ _ ((cleanup >>= fun _ => Process.done (Except.error error)).drive turns state).result
      ((cleanup >>= fun _ => Process.done (Except.error error)).drive turns state).answers
    rw [ran]
    refine iff_of_false kept ?_
    rintro ⟨answered, member, faulty⟩
    exact faultless turns state answered member faulty
  · intro error escape turns state
    refine ⟨error, ?_, escape⟩
    show ((cleanup >>= fun _ => Process.done (Except.error error)).drive turns state).result = _
    rw [ran]

/-- `async with lock: body`. -/
theorem Accounted.locked {field : LockField σ ω} {body : Async σ ω ι ε α}
    (harmless : ∀ ticket answer, ¬ fault ⟨field.turn ticket, answer⟩)
    (inside : Accounted escapes fault returns body) :
    Accounted escapes fault returns (field.locked body) :=
  (Accounted.lift (.acquire harmless)).bind fun _ _ => inside.ensuring (.write _)

end Accounting

end Cooperative
