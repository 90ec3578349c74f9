/-
**History variables.**

A `Recorder` says what a new task and an answer add to a history. `Process.chronicle` is a process that keeps
the history next to the shared state, and `run_chronicle` that this changes no run: the history is a function
of the schedule (`System.history`).

So contracts may speak of the history. `Records` are the triples of chronicled coroutines, and
`subject_records` gives the postcondition of a task in the very step that ends it.
-/

import McpAuth.Library.Ledger

namespace Cooperative

variable {σ ω η : Type} {ι : ω → Type} {ε ε' α β κ : Type}

/-- What the history keeps of a step: that a task started, or the answer to a suspension. -/
structure Recorder (σ ω : Type) (ι : ω → Type) (η : Type) where
  starts : σ → η → η
  answers : (want : ω) → ι want → σ → η → η

variable (recorder : Recorder σ ω ι η)

/-- The process over a state with a history. -/
def Process.chronicle : Process σ ω ι α → Process (σ × η) ω ι α
  | .done result => .done result
  | .access update next => .access (Prod.map update id) fun state => (next state.1).chronicle
  | .wait want next => .wait want fun answer =>
    .access (fun state => (state.1, recorder.answers want answer state.1 state.2)) fun _ =>
      (next answer).chronicle

/-- A chronicled task first records that it started. -/
def System.chronicle (system : System σ ω ι κ α) : System (σ × η) ω ι κ α where
  program request := .access (fun state => (state.1, recorder.starts state.1 state.2)) fun _ =>
    (system.program request).chronicle recorder
  ready want state := system.ready want state.1

def Pool.chronicle (pool : Pool σ ω ι κ α) (history : η) : Pool (σ × η) ω ι κ α :=
  ⟨(pool.shared, history), pool.tasks.map fun task => (task.1, task.2.chronicle recorder)⟩

/-- The history after one step. -/
def Recorder.after (pool : Pool σ ω ι κ α) (history : η) : Action ω ι κ → η
  | .spawn _ => recorder.starts pool.shared history
  | .resume index answer =>
    match pool.tasks[index]? with
    | some (_, .wait want _) => recorder.answers want (answer want) pool.shared history
    | _ => history

/-- **The history of a schedule.** -/
def System.history (system : System σ ω ι κ α) : Pool σ ω ι κ α → List (Action ω ι κ) → η → η
  | _, [], history => history
  | pool, action :: later, history =>
    match system.perform pool action with
    | some next => system.history next later (recorder.after pool history action)
    | none => history

section Runs

variable {recorder} {system : System σ ω ι κ α} {pool next last : Pool σ ω ι κ α} {history : η}

theorem settle_chronicle (process : Process σ ω ι α) (state : σ) (history : η) :
    (process.chronicle recorder).settle (state, history) =
      (((process.settle state).1, history), (process.settle state).2.chronicle recorder) := by
  induction process generalizing state with
  | done result => rfl
  | access update next ih => exact ih state (update state)
  | wait want next ih => rfl

/-- A step of the chronicled system is a step of the system. -/
theorem perform_chronicle {action : Action ω ι κ} (performed : system.perform pool action = some next) :
    (system.chronicle recorder).perform (pool.chronicle recorder history) action =
      some (next.chronicle recorder (recorder.after pool history action)) := by
  rcases perform_cases performed with
    ⟨request, rfl, rfl⟩ | ⟨resumed, answer, request, want, continuation, rfl, found, isReady, rfl⟩
  · have settled := @settle_chronicle _ _ _ _ _ recorder (system.program request) pool.shared
      (recorder.starts pool.shared history)
    simp only [System.perform, System.chronicle, Pool.chronicle, Process.settle, settled, System.spawned,
      Recorder.after, List.map_append, List.map_cons, List.map_nil]
  · have settled := @settle_chronicle _ _ _ _ _ recorder (continuation (answer want)) pool.shared
      (recorder.answers want (answer want) pool.shared history)
    have waiting : (pool.tasks.map fun task => (task.1, task.2.chronicle recorder))[resumed]? =
        some (request, (Process.wait want continuation).chronicle recorder) := by
      rw [List.getElem?_map, found]
      rfl
    simp only [System.perform, System.chronicle, Pool.chronicle, waiting, Process.chronicle, isReady, if_true,
      Process.settle, settled, Pool.resumed, Recorder.after, found, List.map_set]

/-- **A run of the system is a run of the chronicled one**, with its history. -/
theorem run_chronicle {actions : List (Action ω ι κ)} (ran : system.run pool actions = some last) :
    (system.chronicle recorder).run (pool.chronicle recorder history) actions =
      some (last.chronicle recorder (system.history recorder pool actions history)) := by
  induction actions generalizing pool history with
  | nil =>
    cases ran
    rfl
  | cons action later ih =>
    obtain ⟨next, performed, rest⟩ := Option.bind_eq_some_iff.mp ran
    rw [System.run, perform_chronicle performed, Option.bind_some, ih rest, System.history, performed]

end Runs

/-! ### Triples -/

/-- A chronicled coroutine. -/
def Async.chronicle (body : Async σ ω ι ε α) : Async (σ × η) ω ι ε α :=
  ExceptT.mk (body.run.chronicle recorder)

/-- **A coroutine that meets a triple about the shared state and the history.** -/
def Records (contract : Contract (σ × η) ω) (pre : σ × η → Prop) (returns : α → σ × η → Prop)
    (body : Async σ ω ι ε α) : Prop :=
  Async.Meets contract pre returns (body.chronicle recorder)

section Triples

variable {recorder} {contract : Contract (σ × η) ω} {pre : σ × η → Prop} {returns : α → σ × η → Prop}

theorem chronicle_bind (process : Process σ ω ι α) (after : α → Process σ ω ι β) :
    (process >>= after).chronicle recorder =
      process.chronicle recorder >>= fun result => (after result).chronicle recorder := by
  show (process.bind after).chronicle recorder =
    (process.chronicle recorder).bind fun result => (after result).chronicle recorder
  induction process with
  | done result => rfl
  | access update next ih =>
    simp only [Process.bind, Process.chronicle]
    congr 1
    funext state
    exact ih state.1
  | wait want next ih =>
    simp only [Process.bind, Process.chronicle]
    congr 1
    funext answer
    congr 1
    funext _
    exact ih answer

theorem Async.chronicle_bind (body : Async σ ω ι ε α) (after : α → Async σ ω ι ε β) :
    (body >>= after).chronicle recorder =
      body.chronicle recorder >>= fun result => (after result).chronicle recorder := by
  refine (Cooperative.chronicle_bind body.run _).trans ?_
  show _ >>= _ = _ >>= _
  congr 1
  funext outcome
  cases outcome <;> rfl

theorem Records.pure {result : α} (holds : ∀ state, contract.invariant state → pre state →
    returns result state) : Records recorder contract pre returns (Pure.pure result : Async σ ω ι ε α) :=
  Async.Meets.pure holds

theorem Records.throw (error : ε) :
    Records recorder contract pre returns (MonadExcept.throw error : Async σ ω ι ε α) :=
  Async.Meets.throw error

theorem Records.ofExcept {outcome : Except ε α} (holds : ∀ result, outcome = .ok result →
    ∀ state, contract.invariant state → pre state → returns result state) :
    Records recorder contract pre returns (Async.ofExcept outcome : Async σ ω ι ε α) := by
  cases outcome with
  | error error => exact .throw error
  | ok result => exact .pure (holds result rfl)

theorem Records.weaken {pre' : σ × η → Prop} {returns' : α → σ × η → Prop} {body : Async σ ω ι ε α}
    (records : Records recorder contract pre returns body) (starts : ∀ state, pre' state → pre state)
    (ends : ∀ result state, returns result state → returns' result state) :
    Records recorder contract pre' returns' body :=
  Async.Meets.weaken records starts ends

/-- One access of the shared state. -/
theorem Records.access {update : σ → σ} {result : σ → α}
    (moves : ∀ state history, contract.invariant (state, history) → pre (state, history) →
      contract.evolves (state, history) (update state, history) ∧
        contract.invariant (update state, history) ∧ returns (result state) (update state, history)) :
    Records recorder contract pre returns
      (Async.lift (.access update fun state => .done (result state)) : Async σ ω ι ε α) :=
  fun state kept start => moves state.1 state.2 kept start

/-- A suspension, and what its answer adds to the history. -/
theorem Records.await {want : ω} {returns : ι want → σ × η → Prop}
    (answered : ∀ answer state history, contract.invariant (state, history) →
      contract.ready want (state, history) = true →
        contract.evolves (state, history) (state, recorder.answers want answer state history) ∧
        contract.invariant (state, recorder.answers want answer state history) ∧
        returns answer (state, recorder.answers want answer state history)) :
    Records recorder contract pre returns (Async.lift (.await want) : Async σ ω ι ε (ι want)) :=
  fun _ kept _ => ⟨kept, fun answer later _ keptLater isReady =>
    answered answer later.1 later.2 keptLater isReady⟩

theorem Records.bind {returns' : β → σ × η → Prop} {body : Async σ ω ι ε α}
    {after : α → Async σ ω ι ε β} (first : Records recorder contract pre returns body)
    (second : ∀ result, Records recorder contract (returns result) returns' (after result)) :
    Records recorder contract pre returns' (body >>= after) := by
  rw [Records, Async.chronicle_bind]
  exact Async.Meets.bind first second

/-- `try: body / except …: raise convert(error)`. -/
theorem Records.adapt {convert : ε → ε'} {body : Async σ ω ι ε α}
    (records : Records recorder contract pre returns body) :
    Records recorder contract pre returns (body.adapt convert) := by
  have same : Async.chronicle recorder (body.adapt convert) = (body.chronicle recorder).adapt convert :=
    Cooperative.chronicle_bind body.run _
  rw [Records, same]
  exact Async.Meets.adapt records

/-- **`async with lock: body`**, where the lock is no part of what the invariant and the facts see. The
body starts from the precondition, or from what is true after its turn came. -/
theorem Records.locked {field : LockField σ ω} {body : Async σ ω ι ε α}
    (inert : ∀ lock state history, contract.evolves (state, history) (field.set lock state, history) ∧
      (contract.invariant (state, history) → contract.invariant (field.set lock state, history)) ∧
      (pre (state, history) → pre (field.set lock state, history)) ∧
      ∀ result, returns result (state, history) → returns result (field.set lock state, history))
    (turn : ∀ ticket answer state history, contract.invariant (state, history) →
      contract.evolves (state, history) (state, recorder.answers (field.turn ticket) answer state history) ∧
      contract.invariant (state, recorder.answers (field.turn ticket) answer state history) ∧
      pre (state, recorder.answers (field.turn ticket) answer state history))
    (records : Records recorder contract pre returns body) :
    Records recorder contract pre returns (field.locked body) := by
  have acquires : ∀ state history, contract.invariant (state, history) → pre (state, history) →
      Holds contract (fun _ state => contract.invariant state ∧ pre state)
        ((field.acquire : Process σ ω ι Unit).chronicle recorder) (state, history) := by
    intro state history kept start
    rw [LockField.acquire, Cooperative.chronicle_bind]
    refine Cooperative.holds_bind.mpr ⟨contract.refl _, ?_⟩
    show Holds contract _ ((if _ then _ else _ : Process σ ω ι Unit).chronicle recorder) (state, history)
    split
    · exact ⟨(inert _ state history).1, (inert _ state history).2.1 kept, (inert _ state history).2.2.1 start⟩
    · refine ⟨(inert _ state history).1, (inert _ state history).2.1 kept, ?_⟩
      rintro answer ⟨later, past⟩ _ keptLater _
      obtain ⟨moved, keptStill, starts⟩ := turn _ answer later past keptLater
      exact ⟨moved, (inert _ later _).1, (inert _ later _).2.1 keptStill, (inert _ later _).2.2.1 starts⟩
  have acquired : Records recorder contract pre (fun _ => pre)
      (Async.lift field.acquire : Async σ ω ι ε Unit) := by
    rintro ⟨state, history⟩ kept start
    show Holds contract _ ((field.acquire >>= fun _ => Process.done (Except.ok ())).chronicle recorder) _
    rw [Cooperative.chronicle_bind]
    exact Cooperative.holds_bind.mpr ((acquires state history kept start).mono fun _ _ holds => holds)
  refine acquired.bind fun _ state kept start => ?_
  show Holds contract _ ((body.run >>= fun outcome => field.release >>= fun _ => Process.done outcome).chronicle
    recorder) state
  rw [Cooperative.chronicle_bind]
  have inside : Holds contract (Async.outcomePost (fun result state => contract.invariant state ∧
      returns result state) fun _ => contract.invariant) (body.run.chronicle recorder) state :=
    records state kept start
  refine Cooperative.holds_bind.mpr (inside.mono ?_)
  rintro (error | result) ⟨later, past⟩ holds
  · exact ⟨(inert _ later past).1, (inert _ later past).2.1 holds⟩
  · exact ⟨(inert _ later past).1, (inert _ later past).2.1 holds.1, (inert _ later past).2.2.2 result holds.2⟩

end Triples

/-! ### Ends of tasks -/

section Ends

variable {recorder} {contract : Contract (σ × η) ω} {pre : σ × η → Prop}

/-- The task a step runs holds from the very state the step leaves. -/
theorem subject_holds {contract : Contract σ ω} {system : System σ ω ι κ α} {post : κ → α → σ → Prop}
    (meets : system.Meets contract post) {pool next : Pool σ ω ι κ α} {action : Action ω ι κ}
    (performed : system.perform pool action = some next) (safe : pool.Safe contract post)
    {task : κ × Process σ ω ι α} (found : next.tasks[pool.subject action]? = some task) :
    Holds contract (fun result state => contract.invariant state ∧ post task.1 result state) task.2
      next.shared := by
  rcases perform_cases performed with
    ⟨request, rfl, rfl⟩ | ⟨resumed, answer, request, want, continuation, rfl, waiting, isReady, rfl⟩
  · obtain rfl := Option.some.inj (List.getElem?_concat_length.symm.trans found)
    exact (meets.2 request pool.shared safe.invariant).settle.2.2
  · have inside := (List.getElem?_eq_some_iff.mp waiting).1
    obtain rfl := Option.some.inj ((List.getElem?_set_self inside).symm.trans found)
    obtain ⟨state, before, holds⟩ := safe.tasks _ (List.mem_of_getElem? waiting)
    exact (holds.2 (answer want) pool.shared before safe.invariant (meets.1 ▸ isReady)).settle.2.2

/-- The history of a schedule in two parts. -/
theorem history_append {system : System σ ω ι κ α} {pool mid : Pool σ ω ι κ α} {history : η}
    {before after : List (Action ω ι κ)} (ran : system.run pool before = some mid) :
    system.history recorder pool (before ++ after) history =
      system.history recorder mid after (system.history recorder pool before history) := by
  induction before generalizing pool history with
  | nil =>
    cases ran
    rfl
  | cons first before ih =>
    obtain ⟨second, performedFirst, rest⟩ := Option.bind_eq_some_iff.mp ran
    simp only [List.cons_append, System.history, performedFirst]
    exact ih rest

theorem history_concat {system : System σ ω ι κ α} {pool mid next : Pool σ ω ι κ α} {history : η}
    {before : List (Action ω ι κ)} {action : Action ω ι κ} (ran : system.run pool before = some mid)
    (performed : system.perform mid action = some next) :
    system.history recorder pool (before ++ [action]) history =
      recorder.after mid (system.history recorder pool before history) action := by
  rw [history_append ran, System.history, performed]
  rfl

/-- **A task that a step ends has its postcondition right after this step**, with the history so far. -/
theorem subject_records {call : κ → Async σ ω ι ε α} {returns : κ → α → σ × η → Prop}
    {ready : ω → σ → Bool} (sameReady : contract.ready = fun want state => ready want state.1)
    (starts : ∀ state history, contract.invariant (state, history) →
      contract.evolves (state, history) (state, recorder.starts state history) ∧
        contract.invariant (state, recorder.starts state history) ∧
        pre (state, recorder.starts state history))
    (calls : ∀ request, Records recorder contract pre (returns request) (call request))
    {shared : σ} {history : η} (initially : contract.invariant (shared, history))
    {before : List (Action ω ι κ)} {action : Action ω ι κ} {pool next : Pool σ ω ι κ (Except ε α)}
    (ran : System.run ⟨fun request => (call request).run, ready⟩ ⟨shared, []⟩ before = some pool)
    (performed : System.perform ⟨fun request => (call request).run, ready⟩ pool action = some next)
    {request : κ} {result : α}
    (ended : next.tasks[pool.subject action]? = some (request, .done (.ok result))) :
    returns request result (next.shared, System.history recorder
      ⟨fun request => (call request).run, ready⟩ ⟨shared, []⟩ (before ++ [action]) history) := by
  let system : System σ ω ι κ (Except ε α) := ⟨fun request => (call request).run, ready⟩
  have meets : (system.chronicle recorder).Meets contract
      fun request outcome state => ∀ result, outcome = .ok result → returns request result state := by
    refine ⟨sameReady, fun request state kept => ?_⟩
    obtain ⟨moved, keptStill, start⟩ := starts state.1 state.2 kept
    refine ⟨moved, ?_⟩
    refine Cooperative.Holds.mono ?_ (calls request _ keptStill start : Holds contract _ _ _)
    rintro (error | result) later holds
    · exact ⟨holds, fun _ same => by cases same⟩
    · refine ⟨holds.1, fun other same => ?_⟩
      cases same
      exact holds.2
  have chronicled : (system.chronicle recorder).run (Pool.chronicle recorder ⟨shared, []⟩ history) before = _ :=
    run_chronicle ran
  have safe := (run_safe meets chronicled ⟨initially, by simp [Pool.chronicle]⟩).1
  have found : (next.chronicle recorder (recorder.after pool (system.history recorder ⟨shared, []⟩ before history)
      action)).tasks[(pool.chronicle recorder (system.history recorder ⟨shared, []⟩ before history)).subject
        action]? = some (request, .done (.ok result)) := by
    have same : (pool.chronicle recorder (system.history recorder ⟨shared, []⟩ before history)).subject action =
        pool.subject action := by
      cases action <;> simp [Pool.subject, Pool.chronicle]
    rw [same, Pool.chronicle, List.getElem?_map, ended]
    rfl
  rw [history_concat ran performed]
  exact (subject_holds meets (perform_chronicle performed) safe found).2 result rfl

end Ends

end Cooperative
