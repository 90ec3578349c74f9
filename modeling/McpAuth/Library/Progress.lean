/-
**Every task can be finished.**

* `AtMost` — a bound on the suspensions of a process, with one rule for each construct of a coroutine.
* `mem_waiters_iff` — the tickets that wait at a lock are those of the tasks suspended at it, where the ledger of
  the lock is balanced, and `exists_ready`: where tasks only suspend inside a monitor or at its lock, one of them
  can go on.
* `run_completes` — from every reachable pool some schedule finishes all tasks, whatever the answers are.
-/

import Mathlib.Algebra.BigOperators.Pi
import Mathlib.Algebra.Order.BigOperators.Group.Finset
import Mathlib.Algebra.Order.BigOperators.Group.List
import Mathlib.Algebra.Order.Ring.Int
import McpAuth.Library.Monitor

namespace Cooperative

variable {σ ω π : Type} {ι : ω → Type} {ε ε' α β κ : Type}

/-! ### Bounded suspensions -/

/-- **The process suspends at most so often**, whatever it reads and is answered. -/
def AtMost : Process σ ω ι α → ℕ → Prop
  | .done _, _ => True
  | .access _ next, count => ∀ state, AtMost (next state) count
  | .wait _ next, count => 0 < count ∧ ∀ answer, AtMost (next answer) (count - 1)

section AtMost

variable {count more : ℕ}

theorem AtMost.mono {process : Process σ ω ι α} (bounded : AtMost process count) (le : count ≤ more) :
    AtMost process more := by
  induction process generalizing count more with
  | done result => trivial
  | access update next ih => exact fun state => ih state (bounded state) le
  | wait want next ih => exact ⟨by have := bounded.1; omega, fun answer => ih answer (bounded.2 answer) (by omega)⟩

theorem atMost_bind (count more : ℕ) {process : Process σ ω ι α} {after : α → Process σ ω ι β}
    (first : AtMost process count) (second : ∀ result, AtMost (after result) more) :
    AtMost (process >>= after) (count + more) := by
  show AtMost (process.bind after) (count + more)
  induction process generalizing count with
  | done result => exact (second result).mono (by omega)
  | access update next ih => exact fun state => ih state count (first state)
  | wait want next ih =>
    obtain ⟨positive, rest⟩ := first
    refine ⟨by omega, fun answer => ?_⟩
    rw [show count + more - 1 = count - 1 + more by omega]
    exact ih answer (count - 1) (rest answer)

/-- A process up to its next suspension. -/
theorem AtMost.settle {process : Process σ ω ι α} (bounded : AtMost process count) (state : σ) :
    AtMost (process.settle state).2 count := by
  induction process generalizing state with
  | done result => trivial
  | access update next ih => exact ih state (bounded state) (update state)
  | wait want next ih => exact bounded

/-- A coroutine with a bound on its suspensions. -/
abbrev Async.AtMost (body : Async σ ω ι ε α) (count : ℕ) : Prop := Cooperative.AtMost body.run count

namespace Async

variable {body : Async σ ω ι ε α}

theorem AtMost.pure (result : α) : AtMost (Pure.pure result : Async σ ω ι ε α) count := trivial

theorem AtMost.throw (error : ε) : AtMost (MonadExcept.throw error : Async σ ω ι ε α) count := trivial

theorem AtMost.access {update : σ → σ} {result : σ → α} : AtMost
    (Async.lift (.access update fun state => .done (result state)) : Async σ ω ι ε α) count :=
  fun _ => trivial

theorem AtMost.bind (count more : ℕ) {after : α → Async σ ω ι ε β} (first : AtMost body count)
    (second : ∀ result, AtMost (after result) more) : AtMost (body >>= after) (count + more) := by
  refine atMost_bind count more first fun outcome => ?_
  cases outcome with
  | error error => trivial
  | ok result => exact second result

theorem AtMost.adapt {convert : ε → ε'} (bounded : AtMost body count) :
    AtMost (body.adapt convert) count :=
  atMost_bind count 0 bounded fun _ => trivial

theorem AtMost.ofExcept (outcome : Except ε α) :
    AtMost (Async.ofExcept outcome : Async σ ω ι ε α) count := trivial

theorem AtMost.await {want : ω} : AtMost (Async.lift (.await want) : Async σ ω ι ε (ι want)) 1 :=
  ⟨Nat.one_pos, fun _ => trivial⟩

/-- Waiting for a lock is one suspension more. -/
theorem AtMost.locked {field : LockField σ ω} (bounded : AtMost body count) :
    AtMost (field.locked body) (count + 1) := by
  have acquires : Cooperative.AtMost (field.acquire : Process σ ω ι Unit) 1 := by
    refine atMost_bind 0 1 (fun _ => trivial) fun state => ?_
    dsimp only
    split
    · exact fun _ => trivial
    · refine atMost_bind 0 1 (fun _ => trivial) fun _ => ?_
      exact atMost_bind 1 0 ⟨Nat.one_pos, fun _ => trivial⟩ fun _ _ => trivial
  have taken : AtMost (Async.lift field.acquire : Async σ ω ι ε Unit) 1 :=
    atMost_bind 1 0 acquires fun _ => trivial
  rw [Nat.add_comm]
  refine taken.bind 1 count fun _ => atMost_bind count 0 bounded fun outcome => ?_
  exact atMost_bind 0 0 (fun _ => trivial) fun _ => trivial

end Async

end AtMost

/-! ### Queues -/

namespace Monitor

variable [DecidableEq ω] (monitor : Monitor σ ω π)

/-- How often each ticket waits at the lock. -/
def queued (state : σ) : ℕ → ℤ := fun ticket => ((monitor.field.get state).waiters.count ticket : ℤ)

/-- The ticket of a suspension at the lock. -/
def ticket (want : ω) : ℕ → ℤ := fun ticket => if want = monitor.field.turn ticket then 1 else 0

variable {monitor}

omit [DecidableEq ω] in
theorem queued_set (lock : AsyncLock) (state : σ) :
    monitor.queued (monitor.field.set lock state) = fun ticket => (lock.waiters.count ticket : ℤ) := by
  funext ticket
  rw [queued, monitor.get_set]

/-- A task queues with its ticket and takes it out of the queue when it is its turn. -/
theorem acquire_balanced (injective : Function.Injective monitor.field.turn) (state : σ) :
    Balanced monitor.ready monitor.queued monitor.ticket (fun _ held => held = 0)
      (monitor.field.acquire : Process σ ω ι Unit) state 0 := by
  have added : (0 : ℕ → ℤ) + (monitor.queued state - monitor.queued state) = 0 := by simp
  show Balanced _ _ _ _ (if _ then _ else _) state (0 + (monitor.queued state - monitor.queued state))
  rw [added]
  split
  · refine balanced_write.mpr ?_
    rw [queued_set]
    funext ticket
    simp [queued]
  · refine ⟨?_, fun answer later isTurn => ?_⟩
    · rw [queued_set]
      funext ticket
      by_cases same : (monitor.field.get state).nextTicket = ticket
      · simp [queued, Monitor.ticket, same]
      · simp [queued, Monitor.ticket, injective.eq_iff, same]
    · rw [monitor.turn_ready, AsyncLock.isTurn, Bool.and_eq_true, beq_iff_eq] at isTurn
      obtain ⟨older, isHead⟩ := List.head?_eq_some_iff.mp isTurn.2
      refine balanced_write.mpr ?_
      rw [queued_set, queued_set]
      funext ticket
      simp [queued, isHead, List.count_cons]

/-- A body that leaves the queue alone. -/
theorem ofUses_balances {body : Async σ ω ι ε α}
    (uses : Async.Uses (fun first second => monitor.queued second = monitor.queued first)
      (fun want => monitor.ticket want = 0) body) :
    body.run.Balances monitor.ready monitor.queued monitor.ticket 0 :=
  fun state => Balanced.ofUses uses state

/-- **A critical section queues and leaves the queue.** -/
theorem locked_balances (injective : Function.Injective monitor.field.turn) {body : Async σ ω ι ε α}
    (uses : Async.Uses (fun first second => monitor.queued second = monitor.queued first)
      (fun want => monitor.ticket want = 0) body) :
    (monitor.field.locked body).run.Balances monitor.ready monitor.queued monitor.ticket 0 := by
  intro state
  refine Balanced.asyncBind (Balanced.bind ?_)
  refine (acquire_balanced injective state).mono fun _ held nothing later => ?_
  subst nothing
  show ∀ state, _
  intro state
  refine Balanced.bind ((Balanced.ofUses uses state).mono fun outcome held nothing ending => ?_)
  subst nothing
  refine Balanced.bind (balanced_write.mpr fun _ => ?_)
  rw [queued_set]
  exact add_eq_left.mpr (sub_eq_zero.mpr rfl)

variable {system : System σ ω ι κ α} {pool : Pool σ ω ι κ α} {post : ℕ → α → σ → Prop}

theorem holding_apply (pool : Pool σ ω ι κ α) (ticket : ℕ) :
    pool.holding monitor.ticket ticket =
      (pool.tasks.map fun task => task.2.holding monitor.ticket ticket).sum := by
  rw [Pool.holding, Pi.list_sum_apply, List.map_map]
  rfl

/-- A ticket waits exactly where some task is suspended with it. -/
theorem mem_waiters_iff (queues : monitor.queued pool.shared = pool.holding monitor.ticket) (ticket : ℕ) :
    ticket ∈ (monitor.field.get pool.shared).waiters ↔ ∃ (index : ℕ) (request : κ)
      (continuation : ι (monitor.field.turn ticket) → Process σ ω ι α),
      pool.tasks[index]? = some (request, .wait (monitor.field.turn ticket) continuation) := by
  have counted : ((monitor.field.get pool.shared).waiters.count ticket : ℤ) =
      (pool.tasks.map fun task => task.2.holding monitor.ticket ticket).sum := by
    rw [← holding_apply, ← queues]
    rfl
  have weighs : ∀ process : Process σ ω ι α, process.holding monitor.ticket ticket = 1 ∧
      (∃ continuation, process = .wait (monitor.field.turn ticket) continuation) ∨
      process.holding monitor.ticket ticket = 0 := by
    intro process
    rcases process with result | ⟨update, next⟩ | ⟨want, next⟩
    · exact Or.inr rfl
    · exact Or.inr rfl
    · by_cases same : want = monitor.field.turn ticket
      · subst same
        exact Or.inl ⟨by simp [Monitor.ticket], next, rfl⟩
      · exact Or.inr (by simp [Monitor.ticket, same])
  constructor
  · intro waits
    have positive := List.count_pos_iff.mpr waits
    have some' : (pool.tasks.map fun task => task.2.holding monitor.ticket ticket).sum ≠ 0 := by omega
    obtain ⟨weight, member, differs⟩ := List.exists_mem_ne_zero_of_sum_ne_zero some'
    obtain ⟨⟨request, process⟩, isTask, rfl⟩ := List.mem_map.mp member
    rcases weighs process with ⟨-, continuation, rfl⟩ | none
    · obtain ⟨index, found⟩ := List.mem_iff_getElem?.mp isTask
      exact ⟨index, request, continuation, found⟩
    · exact absurd none differs
  · rintro ⟨index, request, continuation, found⟩
    have all : ∀ weight ∈ pool.tasks.map fun task => task.2.holding monitor.ticket ticket, 0 ≤ weight := by
      intro weight member
      obtain ⟨task, -, rfl⟩ := List.mem_map.mp member
      rcases weighs task.2 with ⟨one, -⟩ | none <;> omega
    have own := List.single_le_sum all _ (List.mem_map_of_mem (List.mem_of_getElem? found))
    rw [← counted] at own
    simp only [holding_wait, Monitor.ticket, if_true] at own
    exact List.count_pos_iff.mp (by omega)

/-- **Some task can go on**, where the tasks suspend inside or at the lock and a suspension inside may end
at any time. -/
theorem exists_ready (sameReady : system.ready = monitor.ready) (guarded : Guarded monitor post pool)
    (queues : monitor.queued pool.shared = pool.holding monitor.ticket)
    (inside : ∀ want state, monitor.inside want = true → monitor.ready want state = true)
    {index : ℕ} {request : κ} {want : ω} {continuation : ι want → Process σ ω ι α}
    (found : pool.tasks[index]? = some (request, .wait want continuation))
    (suspends : monitor.inside want = true ∨ ∃ ticket, want = monitor.field.turn ticket) :
    ∃ (index : ℕ) (request : κ) (want : ω) (continuation : ι want → Process σ ω ι α),
      pool.tasks[index]? = some (request, .wait want continuation) ∧
        system.ready want pool.shared = true := by
  rw [sameReady]
  rcases suspends with isInside | ⟨ticket, rfl⟩
  · exact ⟨index, request, want, continuation, found, inside want _ isInside⟩
  by_cases held : monitor.locked pool.shared = true
  · -- The holder of the lock is suspended inside.
    obtain ⟨owner, owned⟩ := guarded.held.mp held
    obtain ⟨⟨holder, process⟩, isOwner, owns⟩ := (Option.any_eq_true _ _).mp owned
    cases process with
    | done result => cases owns
    | access update next => cases owns
    | wait want next => exact ⟨owner, holder, want, next, isOwner, inside want _ owns⟩
  · -- The first ticket in the queue belongs to a suspended task.
    have queued := (mem_waiters_iff queues ticket).mpr ⟨index, request, continuation, found⟩
    obtain ⟨first, older, isQueue⟩ := List.exists_cons_of_ne_nil (List.ne_nil_of_mem queued)
    obtain ⟨next, other, continued, waits⟩ :=
      (mem_waiters_iff queues first).mp (isQueue ▸ List.mem_cons_self)
    refine ⟨next, other, _, continued, waits, ?_⟩
    have unlocked : (monitor.field.get pool.shared).locked = false := Bool.eq_false_iff.mpr held
    rw [monitor.turn_ready, AsyncLock.isTurn, unlocked, isQueue]
    simp

end Monitor

/-! ### Finishing -/

/-- Every task is done. -/
def Pool.Finished (pool : Pool σ ω ι κ α) : Prop :=
  ∀ task ∈ pool.tasks, ∃ result, task.2 = .done result

/-- Every task is at rest, with a bound on the suspensions it has left. -/
def Pool.Bounded (bounds : ℕ → ℕ) (pool : Pool σ ω ι κ α) : Prop :=
  ∀ index request process, pool.tasks[index]? = some (request, process) →
    process.AtRest ∧ AtMost process (bounds index)

section Completion

variable {system : System σ ω ι κ α} {pool next last : Pool σ ω ι κ α} {bounds : ℕ → ℕ} {count : ℕ}

/-- The bounds after a step: a new task has its own, a resumed one has one less. -/
def Pool.boundsAfter (pool : Pool σ ω ι κ α) (count : ℕ) (bounds : ℕ → ℕ) : Action ω ι κ → ℕ → ℕ
  | .spawn _ => Function.update bounds pool.tasks.length count
  | .resume index _ => Function.update bounds index (bounds index - 1)

/-- **A step uses up one suspension of the task it resumes.** -/
theorem perform_bounded (programs : ∀ request, AtMost (system.program request) count)
    {action : Action ω ι κ} (performed : system.perform pool action = some next)
    (bounded : pool.Bounded bounds) : next.Bounded (pool.boundsAfter count bounds action) := by
  have others := fun other => @perform_other _ _ _ _ _ _ _ _ _ performed other
  intro index request process found
  by_cases own : index = pool.subject action
  · subst own
    rcases perform_cases performed with
      ⟨spawned, rfl, rfl⟩ | ⟨resumed, answer, other, want, continuation, rfl, waiting, -, rfl⟩
    · obtain ⟨rfl, rfl⟩ := Prod.mk.inj (Option.some.inj
        (List.getElem?_concat_length.symm.trans found))
      exact ⟨settle_atRest _ _, by simpa [Pool.boundsAfter, Pool.subject] using (programs _).settle _⟩
    · have inside := (List.getElem?_eq_some_iff.mp waiting).1
      obtain ⟨rfl, rfl⟩ := Prod.mk.inj (Option.some.inj
        ((List.getElem?_set_self inside).symm.trans found))
      have rest := (bounded _ _ _ waiting).2.2 (answer want)
      exact ⟨settle_atRest _ _, by simpa [Pool.boundsAfter, Pool.subject] using rest.settle _⟩
  · rw [others index own] at found
    have same : pool.boundsAfter count bounds action index = bounds index := by
      cases action <;> exact Function.update_of_ne own _ _
    rw [same]
    exact bounded index request process found

theorem run_bounded (programs : ∀ request, AtMost (system.program request) count)
    {actions : List (Action ω ι κ)} (ran : system.run pool actions = some last)
    (bounded : pool.Bounded bounds) : ∃ bounds', last.Bounded bounds' := by
  induction actions generalizing pool bounds with
  | nil =>
    cases ran
    exact ⟨bounds, bounded⟩
  | cons action later ih =>
    obtain ⟨next, performed, rest⟩ := Option.bind_eq_some_iff.mp ran
    exact ih rest (perform_bounded programs performed bounded)

/-- **From every reachable pool some schedule finishes all tasks**, when a pool with a suspended task always
has one that can go on. -/
theorem run_completes (programs : ∀ request, AtMost (system.program request) count)
    {reachable : Pool σ ω ι κ α → Prop} (answer : (want : ω) → ι want)
    (keeps : ∀ {pool next index}, reachable pool → system.perform pool (.resume index answer) = some next →
      reachable next)
    (goesOn : ∀ {pool : Pool σ ω ι κ α} {index : ℕ} {request : κ} {want : ω}
      {continuation : ι want → Process σ ω ι α}, reachable pool →
      pool.tasks[index]? = some (request, .wait want continuation) →
      ∃ (index : ℕ) (request : κ) (want : ω) (continuation : ι want → Process σ ω ι α),
        pool.tasks[index]? = some (request, .wait want continuation) ∧ system.ready want pool.shared = true)
    (start : reachable pool) (bounded : pool.Bounded bounds) :
    ∃ (indices : List ℕ) (last : Pool σ ω ι κ α),
      system.run pool (indices.map fun index => .resume index answer) = some last ∧ last.Finished := by
  induction total : ∑ index ∈ Finset.range pool.tasks.length, bounds index
    using Nat.strong_induction_on generalizing pool bounds with
  | _ left ih =>
    by_cases finished : pool.Finished
    · exact ⟨[], pool, rfl, finished⟩
    obtain ⟨⟨request, process⟩, member, unfinished⟩ : ∃ task ∈ pool.tasks, ∀ result, task.2 ≠ .done result := by
      simpa [Pool.Finished] using finished
    obtain ⟨index, found⟩ := List.mem_iff_getElem?.mp member
    obtain ⟨rests, -⟩ := bounded index request process found
    rcases process with result | ⟨update, next⟩ | ⟨want, next⟩
    · exact absurd rfl (unfinished result)
    · exact rests.elim
    obtain ⟨resumed, other, wanted, continuation, waiting, isReady⟩ := goesOn start found
    have performed : system.perform pool (.resume resumed answer) =
        some (pool.resumed resumed other (continuation (answer wanted))) := by
      simp [System.perform, waiting, isReady, Pool.resumed]
    have inside := (List.getElem?_eq_some_iff.mp waiting).1
    have positive := (bounded _ _ _ waiting).2.1
    have less : ∑ index ∈ Finset.range (pool.resumed resumed other (continuation (answer wanted))).tasks.length,
        Function.update bounds resumed (bounds resumed - 1) index < left := by
      rw [← total, Pool.resumed, List.length_set]
      refine Finset.sum_lt_sum (fun index _ => ?_) ⟨resumed, Finset.mem_range.mpr inside, ?_⟩
      · by_cases same : index = resumed
        · subst same
          simp
        · rw [Function.update_of_ne same]
      · rw [Function.update_self]
        omega
    obtain ⟨indices, last, ran, all⟩ := ih _ less (keeps start performed)
      (perform_bounded programs performed bounded) rfl
    exact ⟨resumed :: indices, last, by simp [System.run, performed, ran], all⟩

end Completion

end Cooperative
