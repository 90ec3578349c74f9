/-
**What one turn of a task does to the shared state.**

Between two suspensions a task runs alone, so that what it does there is one move of the shared state, from the state
it was resumed in to the one it suspends in. `Blocks` is the obligation of one process: each of these moves is a `moves`,
where the others may have left any state that `resumes` when it goes on, and each suspension is allowed.

A contract of `Cooperative` speaks of the moves of all tasks alike and has to be a preorder; `moves` is neither, so that
it can say exactly what one turn does. `blocks_bind`, `blocks_asyncBind` and `blocks_locked` compute it, and
`Blocks.settle` reads the move of a turn off it.

`Pool.total` adds up what the tasks have by any measure of a process. A step changes it by what its own task has more or
less than before (`perform_total`).
-/

import McpAuth.Library.Ledger

namespace Cooperative

variable {σ ω : Type} {ι : ω → Type} {ε α β κ : Type}

/-- **The moves of a process**, each from the state where its turn began. -/
def Blocks (resumes : σ → Prop) (moves : σ → σ → Prop) (suspends : ω → Prop) (returns : α → σ → σ → Prop) :
    Process σ ω ι α → σ → σ → Prop
  | .done result, began, state => returns result began state
  | .access update next, began, state => Blocks resumes moves suspends returns (next state) began (update state)
  | .wait want next, began, state => moves began state ∧ suspends want ∧
      ∀ answer later, resumes later → Blocks resumes moves suspends returns (next answer) later later

section Rules

variable {resumes : σ → Prop} {moves : σ → σ → Prop} {suspends : ω → Prop} {began state : σ}

theorem blocks_bind {returns : β → σ → σ → Prop} {process : Process σ ω ι α} {after : α → Process σ ω ι β} :
    Blocks resumes moves suspends returns (process >>= after) began state ↔
      Blocks resumes moves suspends (fun result => Blocks resumes moves suspends returns (after result))
        process began state := by
  show Blocks resumes moves suspends returns (process.bind after) began state ↔ _
  induction process generalizing began state with
  | done result => rfl
  | access update next ih => exact ih state
  | wait want next ih =>
    refine and_congr_right fun _ => and_congr_right fun _ => ?_
    exact forall_congr' fun answer => forall_congr' fun later => forall_congr' fun _ => ih answer

/-- Sequencing of coroutines that may raise. -/
theorem blocks_asyncBind {returns : Except ε β → σ → σ → Prop} {body : Async σ ω ι ε α} {after : α → Async σ ω ι ε β} :
    Blocks resumes moves suspends returns (body >>= after).run began state ↔
      Blocks resumes moves suspends (fun outcome began state => match outcome with
        | .ok result => Blocks resumes moves suspends returns (after result).run began state
        | .error error => returns (.error error) began state) body.run began state := by
  refine blocks_bind.trans (iff_of_eq ?_)
  congr 1
  funext outcome began state
  cases outcome <;> rfl

theorem Blocks.mono {returns returns' : α → σ → σ → Prop} {process : Process σ ω ι α}
    (weaker : ∀ result began state, returns result began state → returns' result began state)
    (blocks : Blocks resumes moves suspends returns process began state) :
    Blocks resumes moves suspends returns' process began state := by
  induction process generalizing began state with
  | done result => exact weaker result began state blocks
  | access update next ih => exact ih state blocks
  | wait want next ih =>
    exact ⟨blocks.1, blocks.2.1, fun answer later resumed => ih answer (blocks.2.2 answer later resumed)⟩

/-- A lock that nobody holds or waits for is taken and given back within the turn. -/
theorem blocks_locked {field : LockField σ ω} {returns : Except ε α → σ → σ → Prop} {body : Async σ ω ι ε α}
    (free : (field.get state).locked = false ∧ (field.get state).waiters = [])
    (inside : Blocks resumes moves suspends (fun outcome began state =>
      returns outcome began (field.set { field.get state with locked := false } state))
      body.run began (field.set { field.get state with locked := true } state)) :
    Blocks resumes moves suspends returns (field.locked body).run began state := by
  have released : Blocks resumes moves suspends returns (body.ensuring field.release).run began
      (field.set { field.get state with locked := true } state) :=
    blocks_bind.mpr (inside.mono fun outcome began later holds => holds)
  have isFree : (!(field.get state).locked && (field.get state).waiters.isEmpty) = true := by
    simp [free.1, free.2]
  refine blocks_asyncBind.mpr (blocks_bind.mpr (blocks_bind.mpr ?_))
  show Blocks _ _ _ _ (if _ then _ else _) _ _
  rw [if_pos isFree]
  exact released

/-- What the suspended process still has to do. -/
def Process.Resumable (resumes : σ → Prop) (moves : σ → σ → Prop) (suspends : ω → Prop) : Process σ ω ι α → Prop
  | .done _ => True
  | .access _ _ => False
  | .wait want next => suspends want ∧
      ∀ answer later, resumes later → Blocks resumes moves suspends (fun _ => moves) (next answer) later later

/-- **The turn that a process is in ends with a move.** -/
theorem Blocks.settle {process : Process σ ω ι α}
    (blocks : Blocks resumes moves suspends (fun _ => moves) process began state) :
    moves began (process.settle state).1 ∧ (process.settle state).2.Resumable resumes moves suspends := by
  induction process generalizing state with
  | done result => exact ⟨blocks, trivial⟩
  | access update next ih => exact ih state blocks
  | wait want next ih => exact blocks

end Rules

/-! ### Totals -/

section Totals

variable {γ : Type} [AddCommMonoid γ] {system : System σ ω ι κ α} {pool next : Pool σ ω ι κ α}

/-- The tasks after a step are those before it and the one that it ran. -/
theorem perform_mem {action : Action ω ι κ} (performed : system.perform pool action = some next)
    {own : κ × Process σ ω ι α} (found : next.tasks[pool.subject action]? = some own) :
    ∀ task ∈ next.tasks, task ∈ pool.tasks ∨ task = own := by
  intro task member
  obtain ⟨index, isTask⟩ := List.mem_iff_getElem?.mp member
  by_cases isSubject : index = pool.subject action
  · subst isSubject
    exact Or.inr (Option.some.inj (isTask.symm.trans found))
  · rw [perform_other performed isSubject] at isTask
    exact Or.inl (List.mem_of_getElem? isTask)

/-- What the tasks of a pool have together. -/
def Pool.total (measure : Process σ ω ι α → γ) (pool : Pool σ ω ι κ α) : γ :=
  (pool.tasks.map fun task => measure task.2).sum

/-- What the task at an index has. -/
def Pool.totalAt (measure : Process σ ω ι α → γ) (pool : Pool σ ω ι κ α) (index : ℕ) : γ :=
  ((pool.tasks[index]?).map fun task => measure task.2).getD 0

/-- Replacing an element changes a sum by the difference of the two. -/
theorem sum_map_set {τ : Type} (measure : τ → γ) {tasks : List τ} {index : ℕ} {task : τ}
    (found : tasks[index]? = some task) (other : τ) :
    ((tasks.set index other).map measure).sum + measure task = (tasks.map measure).sum + measure other := by
  induction tasks generalizing index with
  | nil => simp at found
  | cons first later ih =>
    cases index with
    | zero =>
      rw [List.getElem?_cons_zero, Option.some.injEq] at found
      subst found
      simp only [List.set_cons_zero, List.map_cons, List.sum_cons]
      abel
    | succ index =>
      have rest := ih (by simpa using found)
      simp only [List.set_cons_succ, List.map_cons, List.sum_cons]
      rw [add_assoc, rest, ← add_assoc]

/-- **A step changes the total by what its task has.** -/
theorem perform_total (measure : Process σ ω ι α → γ) {action : Action ω ι κ}
    (performed : system.perform pool action = some next) :
    next.total measure + pool.totalAt measure (pool.subject action) =
      pool.total measure + next.totalAt measure (pool.subject action) := by
  rcases perform_cases performed with
    ⟨request, rfl, rfl⟩ | ⟨index, answer, request, want, continuation, rfl, found, -, rfl⟩
  · simp [Pool.total, Pool.totalAt, Pool.subject, System.spawned]
  · have inside := (List.getElem?_eq_some_iff.mp found).1
    have sums := sum_map_set (fun task => measure task.2) found
      (request, ((continuation (answer want)).settle pool.shared).2)
    simpa [Pool.total, Pool.totalAt, Pool.subject, Pool.resumed, found, List.getElem?_set_self inside] using sums

end Totals

/-! ### Records -/

section Records

variable {ρ : Type} {system : System σ ω ι κ α}

/-- What the steps of a schedule leave on record, in order. -/
def System.record (system : System σ ω ι κ α) (notes : Pool σ ω ι κ α → Action ω ι κ → Pool σ ω ι κ α → List ρ) :
    Pool σ ω ι κ α → List (Action ω ι κ) → List ρ
  | _, [] => []
  | pool, action :: later => match system.perform pool action with
    | none => []
    | some next => notes pool action next ++ system.record notes next later

variable {notes : Pool σ ω ι κ α → Action ω ι κ → Pool σ ω ι κ α → List ρ}

theorem record_cons {pool next : Pool σ ω ι κ α} {action : Action ω ι κ}
    (performed : system.perform pool action = some next) (later : List (Action ω ι κ)) :
    system.record notes pool (action :: later) = notes pool action next ++ system.record notes next later := by
  rw [System.record, performed]

end Records

end Cooperative
