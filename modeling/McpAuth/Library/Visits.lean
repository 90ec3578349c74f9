/-
**What holds at the moment a task suspends.**

`Visits` joins the weakest preconditions of `Cooperative` with the histories of `Ledger`: whenever a task
suspends, a fact holds of the answers it got so far, of what it waits for, and of the shared state at that
moment. In between the shared state may move along the contract.

`visits_bind`, `visits_asyncBind` and `visits_locked` compute it through sequencing, exceptions and a lock
that nobody holds; `perform_visits` is the step lemma, and `run_visits` says that every suspension that a
run reaches is visited with its fact.
-/

import McpAuth.Library.Ledger

namespace Cooperative

variable {σ ω : Type} {ι : ω → Type} {ε α β κ : Type}

/-- **Every suspension and every result has its fact**, under interference that respects the contract. -/
def Visits (contract : Contract σ ω) (visits : List (Answered ω ι) → ω → σ → Prop)
    (returns : List (Answered ω ι) → α → σ → Prop) :
    Process σ ω ι α → List (Answered ω ι) → σ → Prop
  | .done result, past, state => returns past result state
  | .access update next, past, state =>
    contract.evolves state (update state) ∧ Visits contract visits returns (next state) past (update state)
  | .wait want next, past, state => contract.invariant state ∧ visits past want state ∧
      ∀ answer later, contract.evolves state later → contract.invariant later →
        contract.ready want later = true →
        Visits contract visits returns (next answer) (past ++ [⟨want, answer⟩]) later

section Rules

variable {contract : Contract σ ω} {visits : List (Answered ω ι) → ω → σ → Prop}

/-- Sequencing: the second part starts with the answers to the first. -/
theorem visits_bind {returns : List (Answered ω ι) → β → σ → Prop} {process : Process σ ω ι α}
    {after : α → Process σ ω ι β} {past : List (Answered ω ι)} {state : σ} :
    Visits contract visits returns (process >>= after) past state ↔
      Visits contract visits (fun past result => Visits contract visits returns (after result) past)
        process past state := by
  show Visits contract visits returns (process.bind after) past state ↔ _
  induction process generalizing past state with
  | done result => rfl
  | access update next ih => exact and_congr_right fun _ => ih state
  | wait want next ih =>
    refine and_congr_right fun _ => and_congr_right fun _ => ?_
    refine forall_congr' fun answer => forall_congr' fun later => ?_
    exact forall_congr' fun _ => forall_congr' fun _ => forall_congr' fun _ => ih answer

/-- Sequencing of coroutines that may raise. -/
theorem visits_asyncBind {returns : List (Answered ω ι) → Except ε β → σ → Prop} {body : Async σ ω ι ε α}
    {after : α → Async σ ω ι ε β} {past : List (Answered ω ι)} {state : σ} :
    Visits contract visits returns (body >>= after).run past state ↔
      Visits contract visits (fun past outcome state => match outcome with
        | .ok result => Visits contract visits returns (after result).run past state
        | .error error => returns past (.error error) state) body.run past state := by
  refine visits_bind.trans (iff_of_eq ?_)
  congr 1
  funext past outcome state
  cases outcome <;> rfl

theorem Visits.mono {returns returns' : List (Answered ω ι) → α → σ → Prop} {process : Process σ ω ι α}
    {past : List (Answered ω ι)} {state : σ}
    (weaker : ∀ past result state, returns past result state → returns' past result state)
    (holds : Visits contract visits returns process past state) :
    Visits contract visits returns' process past state := by
  induction process generalizing past state with
  | done result => exact weaker past result state holds
  | access update next ih => exact ⟨holds.1, ih state holds.2⟩
  | wait want next ih =>
    exact ⟨holds.1, holds.2.1, fun answer later moved kept isReady =>
      ih answer (holds.2.2 answer later moved kept isReady)⟩

/-- A lock that nobody holds or waits for is taken without suspending, and given back. -/
theorem visits_locked {field : LockField σ ω} {returns : List (Answered ω ι) → Except ε α → σ → Prop}
    {body : Async σ ω ι ε α} {past : List (Answered ω ι)} {state : σ}
    (sets : ∀ lock state, contract.evolves state (field.set lock state))
    (free : (field.get state).locked = false ∧ (field.get state).waiters = [])
    (inside : Visits contract visits (fun past outcome state =>
      returns past outcome (field.set { field.get state with locked := false } state))
      body.run past (field.set { field.get state with locked := true } state)) :
    Visits contract visits returns (field.locked body).run past state := by
  have released : Visits contract visits returns (body.ensuring field.release).run past
      (field.set { field.get state with locked := true } state) := by
    refine visits_bind.mpr (inside.mono fun past outcome later holds => ?_)
    exact ⟨sets _ later, holds⟩
  have isFree : (!(field.get state).locked && (field.get state).waiters.isEmpty) = true := by
    simp [free.1, free.2]
  refine visits_asyncBind.mpr (visits_bind.mpr (visits_bind.mpr ⟨contract.refl state, ?_⟩))
  show Visits _ _ _ (if _ then _ else _) _ _
  rw [if_pos isFree]
  exact ⟨sets _ state, released⟩

/-- What a settled process still visits, and where it is. -/
theorem Visits.settle {returns : List (Answered ω ι) → α → σ → Prop} {process : Process σ ω ι α}
    {past : List (Answered ω ι)} {state : σ}
    (holds : Visits contract visits (fun past result state =>
      contract.invariant state ∧ returns past result state) process past state) :
    contract.evolves state (process.settle state).1 ∧ contract.invariant (process.settle state).1 ∧
      Visits contract visits (fun past result state => contract.invariant state ∧ returns past result state)
        (process.settle state).2 past (process.settle state).1 := by
  induction process generalizing state with
  | done result => exact ⟨contract.refl state, holds.1, holds⟩
  | access update next ih =>
    obtain ⟨moved, kept, rest⟩ := ih state holds.2
    exact ⟨contract.trans holds.1 moved, kept, rest⟩
  | wait want next ih => exact ⟨contract.refl state, holds.1, holds⟩

end Rules

/-! ### Runs -/

section Runs

variable {contract : Contract σ ω} {system : System σ ω ι κ α}
  {visits : κ → List (Answered ω ι) → ω → σ → Prop} {returns : κ → List (Answered ω ι) → α → σ → Prop}
  {pool next last : Pool σ ω ι κ α}

/-- A task visits its suspensions, and keeps the invariant to its end. -/
abbrev TaskVisits (contract : Contract σ ω) (visits : κ → List (Answered ω ι) → ω → σ → Prop)
    (returns : κ → List (Answered ω ι) → α → σ → Prop) (request : κ) :
    Process σ ω ι α → List (Answered ω ι) → σ → Prop :=
  Visits contract (visits request) fun past result state =>
    contract.invariant state ∧ returns request past result state

/-- Every program visits its suspensions, wherever in the run it is started. -/
def System.Visits (system : System σ ω ι κ α) (contract : Contract σ ω)
    (visits : κ → List (Answered ω ι) → ω → σ → Prop)
    (returns : κ → List (Answered ω ι) → α → σ → Prop) : Prop :=
  contract.ready = system.ready ∧ ∀ request state, contract.invariant state →
    TaskVisits contract visits returns request (system.program request) [] state

/-- Every task goes on visiting its suspensions, from a state that evolved into the shared one. -/
structure Pool.Visited (contract : Contract σ ω) (visits : κ → List (Answered ω ι) → ω → σ → Prop)
    (returns : κ → List (Answered ω ι) → α → σ → Prop) (past : ℕ → List (Answered ω ι))
    (pool : Pool σ ω ι κ α) : Prop where
  invariant : contract.invariant pool.shared
  tasks : ∀ index request process, pool.tasks[index]? = some (request, process) →
    ∃ state, contract.evolves state pool.shared ∧
      TaskVisits contract visits returns request process (past index) state
  rests : ∀ (index : ℕ) (request : κ) (process : Process σ ω ι α),
    pool.tasks[index]? = some (request, process) → process.AtRest
  fresh : ∀ index, pool.tasks.length ≤ index → past index = []

/-- **What a step runs visits its suspensions**, up to the one it leaves the task at. -/
theorem Pool.Visited.subject (programs : system.Visits contract visits returns)
    {past : ℕ → List (Answered ω ι)} {action : Action ω ι κ}
    (performed : system.perform pool action = some next) (visited : pool.Visited contract visits returns past) :
    ∃ request process, TaskVisits contract visits returns request process
        (past (pool.subject action) ++ pool.given (pool.subject action) action) pool.shared ∧
      next.shared = (process.settle pool.shared).1 ∧
      next.tasks[pool.subject action]? = some (request, (process.settle pool.shared).2) := by
  rcases perform_cases performed with
    ⟨request, rfl, rfl⟩ | ⟨resumed, answer, request, want, continuation, rfl, found, isReady, rfl⟩
  · refine ⟨request, system.program request, ?_, rfl, List.getElem?_concat_length⟩
    have none : past pool.tasks.length = [] := visited.fresh _ le_rfl
    simp only [Pool.subject, Pool.given, none, List.append_nil]
    exact programs.2 request pool.shared visited.invariant
  · have inside := (List.getElem?_eq_some_iff.mp found).1
    obtain ⟨state, moved, -, -, goesOn⟩ := visited.tasks resumed request _ found
    refine ⟨request, continuation (answer want), ?_, rfl, List.getElem?_set_self inside⟩
    simp only [Pool.subject, Pool.given, if_true, found]
    exact goesOn (answer want) pool.shared moved visited.invariant (programs.1 ▸ isReady)

/-- **One step keeps the pool visited**, and where it leaves its task the task is visited. -/
theorem perform_visits (programs : system.Visits contract visits returns)
    {past : ℕ → List (Answered ω ι)} {action : Action ω ι κ}
    (performed : system.perform pool action = some next) (visited : pool.Visited contract visits returns past) :
    next.Visited contract visits returns (fun index => past index ++ pool.given index action) ∧
      ∀ request process, next.tasks[pool.subject action]? = some (request, process) →
        TaskVisits contract visits returns request process
          (past (pool.subject action) ++ pool.given (pool.subject action) action) next.shared := by
  obtain ⟨request, process, holds, shared, own⟩ := visited.subject programs performed
  obtain ⟨moved, kept, rest⟩ := holds.settle
  rw [← shared] at moved kept rest
  have visitsOwn : ∀ other process', next.tasks[pool.subject action]? = some (other, process') →
      TaskVisits contract visits returns other process'
        (past (pool.subject action) ++ pool.given (pool.subject action) action) next.shared := by
    intro other process' found
    obtain ⟨rfl, rfl⟩ := Prod.mk.inj (Option.some.inj (own.symm.trans found))
    exact rest
  have quiet : ∀ index, index ≠ pool.subject action → pool.given index action = [] := by
    intro index differs
    cases action with
    | spawn request => rfl
    | resume resumed answer => exact if_neg fun same => differs same.symm
  refine ⟨⟨kept, fun index other process' found => ?_, fun index other process' found => ?_,
    fun index beyond => ?_⟩, visitsOwn⟩
  · by_cases isSubject : index = pool.subject action
    · subst isSubject
      exact ⟨next.shared, contract.refl _, visitsOwn other process' found⟩
    · rw [perform_other performed isSubject] at found
      obtain ⟨state, before, waits⟩ := visited.tasks index other process' found
      refine ⟨state, contract.trans before moved, ?_⟩
      rw [quiet index isSubject, List.append_nil]
      exact waits
  · by_cases isSubject : index = pool.subject action
    · subst isSubject
      obtain ⟨rfl, rfl⟩ := Prod.mk.inj (Option.some.inj (own.symm.trans found))
      exact settle_atRest process pool.shared
    · rw [perform_other performed isSubject] at found
      exact visited.rests index other process' found
  · have differs : index ≠ pool.subject action := by
      rintro rfl
      rw [List.getElem?_eq_none beyond] at own
      cases own
    rw [quiet index differs, List.append_nil]
    exact visited.fresh index ((perform_length performed).trans beyond)

/-- **Every run keeps the pool visited**, by the answers of its schedule. -/
theorem run_visited (programs : system.Visits contract visits returns) {past : ℕ → List (Answered ω ι)}
    {actions : List (Action ω ι κ)} (ran : system.run pool actions = some last)
    (visited : pool.Visited contract visits returns past) :
    last.Visited contract visits returns fun index => past index ++ system.answersTo index pool actions := by
  induction actions generalizing pool past with
  | nil =>
    cases ran
    simpa [System.answersTo] using visited
  | cons action later ih =>
    obtain ⟨next, performed, rest⟩ := Option.bind_eq_some_iff.mp ran
    have visited := ih rest (perform_visits programs performed visited).1
    simpa [System.answersTo, performed, List.append_assoc] using visited

/-- A pool without tasks. -/
theorem visited_empty {shared : σ} (initial : contract.invariant shared) :
    (⟨shared, []⟩ : Pool σ ω ι κ α).Visited contract visits returns fun _ => [] :=
  ⟨initial, fun index request process member => by simp at member,
    fun index request process member => by simp at member, fun _ _ => rfl⟩

/-- **Where a run leaves a task**: at a suspension that was visited, or with a result that was returned. -/
theorem run_rests (programs : system.Visits contract visits returns) {shared : σ}
    (initial : contract.invariant shared) {actions : List (Action ω ι κ)}
    (ran : system.run ⟨shared, []⟩ actions = some last) {index : ℕ} {request : κ}
    {process : Process σ ω ι α} (found : last.tasks[index]? = some (request, process)) :
    (∃ want continuation state, process = .wait want continuation ∧
      visits request (system.answersTo index ⟨shared, []⟩ actions) want state) ∨
    ∃ result state, process = .done result ∧
      returns request (system.answersTo index ⟨shared, []⟩ actions) result state := by
  have visited := run_visited programs ran (visited_empty initial)
  simp only [List.nil_append] at visited
  obtain ⟨state, -, holds⟩ := visited.tasks index request process found
  cases process with
  | done result => exact Or.inr ⟨result, state, rfl, holds.2⟩
  | access update next => exact absurd (visited.rests index request _ found) id
  | wait want continuation => exact Or.inl ⟨want, continuation, state, rfl, holds.2.1⟩

/-- **The step that brings a task to a suspension visits it** with its fact, and the invariant holds
there. -/
theorem run_visits (programs : system.Visits contract visits returns) {shared : σ}
    (initial : contract.invariant shared) {actions : List (Action ω ι κ)}
    (ran : system.run ⟨shared, []⟩ actions = some pool) {action : Action ω ι κ}
    (performed : system.perform pool action = some next) {request : κ} {want : ω}
    {continuation : ι want → Process σ ω ι α}
    (suspended : next.tasks[pool.subject action]? = some (request, .wait want continuation)) :
    contract.invariant next.shared ∧
      visits request (system.answersTo (pool.subject action) ⟨shared, []⟩ (actions ++ [action])) want
        next.shared := by
  have visited := run_visited programs ran (visited_empty initial)
  have answers : system.answersTo (pool.subject action) ⟨shared, []⟩ (actions ++ [action]) =
      [] ++ system.answersTo (pool.subject action) ⟨shared, []⟩ actions ++
        pool.given (pool.subject action) action := by
    rw [answersTo_append ran]
    simp [System.answersTo, performed]
  obtain ⟨kept, holds, -⟩ := (perform_visits programs performed visited).2 request _ suspended
  rw [answers]
  exact ⟨kept, holds⟩

end Runs

end Cooperative
