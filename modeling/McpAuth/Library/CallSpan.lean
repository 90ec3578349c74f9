/-
**One call of a run, from the step that starts it to the step that ends it.**

A task of a run was spawned by one action and, when it is done, ended by one step (`run_spawned`,
`run_ended`). A `CallSpan` is the part of the schedule between them; `exists_callSpan` finds it for every done
task. `CallSpan.holds` gives a call a postcondition of its own, which may speak of the state the call started
in.
-/

import Mathlib.Data.List.Induction
import McpAuth.Library.Ledger

namespace Cooperative

variable {σ ω : Type} {ι : ω → Type} {κ α : Type} {system : System σ ω ι κ α} {pool last : Pool σ ω ι κ α}
  {actions : List (Action ω ι κ)} {index : ℕ} {request : κ} {process : Process σ ω ι α} {result : α}

/-- A step keeps the request of a task. -/
theorem perform_request {next : Pool σ ω ι κ α} {action : Action ω ι κ}
    (performed : system.perform pool action = some next)
    (found : pool.tasks[index]? = some (request, process)) :
    ∃ later, next.tasks[index]? = some (request, later) := by
  by_cases subject : index = pool.subject action
  · rcases perform_cases performed with
      ⟨fresh, rfl, -⟩ | ⟨resumed, answer, other, want, continuation, rfl, waiting, -, rfl⟩
    · subst subject
      simp [Pool.subject] at found
    · have inside := (List.getElem?_eq_some_iff.mp found).1
      simp only [Pool.subject] at subject
      subst subject
      cases found.symm.trans waiting
      exact ⟨_, List.getElem?_set_self inside⟩
  · exact ⟨process, (perform_other performed subject).trans found⟩

/-- A run keeps the request of a task. -/
theorem run_request (ran : system.run pool actions = some last)
    (found : pool.tasks[index]? = some (request, process)) :
    ∃ later, last.tasks[index]? = some (request, later) := by
  induction actions generalizing pool process with
  | nil =>
    cases ran
    exact ⟨process, found⟩
  | cons action steps ih =>
    obtain ⟨next, performed, rest⟩ := Option.bind_eq_some_iff.mp ran
    obtain ⟨later, kept⟩ := perform_request performed found
    exact ih rest kept

/-- **A task that was not there before was spawned.** -/
theorem run_spawned (ran : system.run pool actions = some last)
    (found : last.tasks[index]? = some (request, process)) (fresh : pool.tasks.length ≤ index) :
    ∃ before after called, actions = before ++ .spawn request :: after ∧
      system.run pool before = some called ∧ called.tasks.length = index := by
  induction actions generalizing pool with
  | nil =>
    cases ran
    rw [List.getElem?_eq_none fresh] at found
    cases found
  | cons action later ih =>
    obtain ⟨next, performed, rest⟩ := Option.bind_eq_some_iff.mp ran
    by_cases still : next.tasks.length ≤ index
    · obtain ⟨before, after, called, rfl, reached, length⟩ := ih rest still
      exact ⟨action :: before, after, called, rfl, by simp [System.run, performed, reached], length⟩
    · -- The step itself spawned the task.
      rcases perform_cases performed with
        ⟨spawned, rfl, rfl⟩ | ⟨resumed, answer, other, want, continuation, rfl, -, -, rfl⟩
      · have length : pool.tasks.length = index := by
          simp only [System.spawned, List.length_append, List.length_singleton] at still
          omega
        subst length
        have atSpawn : (system.spawned pool spawned).tasks[pool.tasks.length]? = some (spawned, _) :=
          List.getElem?_concat_length
        obtain ⟨still, kept⟩ := run_request rest atSpawn
        cases found.symm.trans kept
        exact ⟨[], later, pool, rfl, rfl, rfl⟩
      · simp only [Pool.resumed, List.length_set] at still
        omega

/-- **A done task was ended by one step.** -/
theorem run_ended (ran : system.run pool actions = some last)
    (done : last.tasks[index]? = some (request, .done result)) (fresh : pool.tasks.length ≤ index) :
    ∃ before action after mid next, actions = before ++ action :: after ∧
      system.run pool before = some mid ∧ system.perform mid action = some next ∧
      mid.subject action = index ∧ next.tasks[index]? = some (request, .done result) := by
  induction actions using List.reverseRecOn generalizing last with
  | nil =>
    cases ran
    rw [List.getElem?_eq_none fresh] at done
    cases done
  | append_singleton earlier action ih =>
    rw [run_append] at ran
    obtain ⟨mid, reached, step⟩ := Option.bind_eq_some_iff.mp ran
    obtain ⟨next, performed, rfl⟩ : ∃ next, system.perform mid action = some next ∧ next = last := by
      simpa [System.run] using step
    by_cases subject : index = mid.subject action
    · exact ⟨earlier, action, [], mid, next, rfl, reached, performed, subject.symm, done⟩
    · obtain ⟨before, ending, after, state, later, rfl, rest⟩ :=
        ih reached ((perform_other performed subject).symm.trans done)
      exact ⟨before, ending, after ++ [action], state, later, by simp, rest⟩

/-- **The part of a schedule in which one call runs**, from the action that starts it to the one that ends
it, with the pools around these. -/
structure CallSpan (system : System σ ω ι κ α) (pool : Pool σ ω ι κ α) (actions : List (Action ω ι κ))
    (request : κ) (result : α) where
  before : List (Action ω ι κ)
  during : List (Action ω ι κ)
  action : Action ω ι κ
  after : List (Action ω ι κ)
  called : Pool σ ω ι κ α
  ending : Pool σ ω ι κ α
  ended : Pool σ ω ι κ α
  split : actions = before ++ (during ++ action :: after)
  spawns : (during ++ [action]).head? = some (.spawn request)
  reached : system.run pool before = some called
  ran : system.run called during = some ending
  performed : system.perform ending action = some ended
  subject : ending.subject action = called.tasks.length
  returned : ended.tasks[called.tasks.length]? = some (request, .done result)

/-- **Every done task of a run has its call.** -/
theorem exists_callSpan (ran : system.run pool actions = some last) (empty : pool.tasks = [])
    (member : (request, .done result) ∈ last.tasks) :
    Nonempty (CallSpan system pool actions request result) := by
  obtain ⟨index, found⟩ := List.mem_iff_getElem?.mp member
  have fresh : pool.tasks.length ≤ index := by simp [empty]
  obtain ⟨earlier, action, after, ending, ended, rfl, reached, performed, subject, returned⟩ :=
    run_ended ran found fresh
  have ranEnded : system.run pool (earlier ++ [action]) = some ended := by
    simp [run_append, reached, System.run, performed]
  obtain ⟨before, rest, called, same, reachedCalled, rfl⟩ := run_spawned ranEnded returned fresh
  -- What follows the spawning action up to the ending one.
  obtain ⟨during, isEarlier, isRest⟩ : ∃ during, earlier = before ++ during ∧
      .spawn request :: rest = during ++ [action] := by
    rcases List.eq_nil_or_concat rest with rfl | ⟨steps, final, rfl⟩
    · obtain ⟨rfl, last⟩ := List.append_inj' same rfl
      exact ⟨[], by simp, by simpa using last.symm⟩
    · have same : earlier ++ [action] = (before ++ .spawn request :: steps) ++ [final] := by simpa using same
      obtain ⟨rfl, last⟩ := List.append_inj' same rfl
      exact ⟨.spawn request :: steps, rfl, by simpa using last.symm⟩
  subst isEarlier
  have ranDuring : system.run called during = some ending := by
    rwa [run_append, reachedCalled] at reached
  exact ⟨⟨before, during, action, after, called, ending, ended, by simp, by rw [← isRest]; rfl,
    reachedCalled, ranDuring, performed, subject, returned⟩⟩

/-- The steps of the call. -/
theorem CallSpan.ranCall (span : CallSpan system pool actions request result) :
    system.run span.called (span.during ++ [span.action]) = some span.ended := by
  simp [run_append, span.ran, System.run, span.performed]

/-! ### A postcondition of one call -/

section Posts

variable {contract : Contract σ ω} {post own : κ → α → σ → Prop}

/-- One task keeps what it holds. -/
theorem perform_taskHolds (meets : system.Meets contract post) (safe : pool.Safe contract post)
    {next : Pool σ ω ι κ α} {action : Action ω ι κ} (performed : system.perform pool action = some next)
    (found : pool.tasks[index]? = some (request, process))
    (holds : TaskHolds contract own pool.shared (request, process)) :
    ∃ later, next.tasks[index]? = some (request, later) ∧
      TaskHolds contract own next.shared (request, later) := by
  by_cases subject : index = pool.subject action
  · rcases perform_cases performed with
      ⟨fresh, rfl, -⟩ | ⟨resumed, answer, other, want, continuation, rfl, waiting, isReady, rfl⟩
    · subst subject
      simp [Pool.subject] at found
    · have inside := (List.getElem?_eq_some_iff.mp found).1
      simp only [Pool.subject] at subject
      subst subject
      cases found.symm.trans waiting
      obtain ⟨state, moved, rest⟩ := holds
      have settled := (rest.2 (answer want) pool.shared moved safe.invariant (meets.1 ▸ isReady)).settle
      exact ⟨_, List.getElem?_set_self inside, _, contract.refl _, settled.2.2⟩
  · exact ⟨process, (perform_other performed subject).trans found,
      holds.evolve (perform_safe meets performed safe).2⟩

/-- One task keeps what it holds, in every run. -/
theorem run_taskHolds (meets : system.Meets contract post) (safe : pool.Safe contract post)
    (ran : system.run pool actions = some last) (found : pool.tasks[index]? = some (request, process))
    (holds : TaskHolds contract own pool.shared (request, process)) :
    ∃ later, last.tasks[index]? = some (request, later) ∧
      TaskHolds contract own last.shared (request, later) := by
  induction actions generalizing pool process with
  | nil =>
    cases ran
    exact ⟨process, found, holds⟩
  | cons action steps ih =>
    obtain ⟨next, performed, rest⟩ := Option.bind_eq_some_iff.mp ran
    obtain ⟨later, kept, stillHolds⟩ := perform_taskHolds meets safe performed found holds
    exact ih (perform_safe meets performed safe).1 rest kept stillHolds

/-- **A call has a postcondition of its own**, which its program meets from the state it started in. -/
theorem CallSpan.holds (span : CallSpan system pool actions request result)
    (meets : system.Meets contract post) (safe : pool.Safe contract post)
    (own : α → σ → Prop) (starts : contract.invariant span.called.shared →
      Cooperative.Holds contract (fun result state => contract.invariant state ∧ own result state)
        (system.program request) span.called.shared) :
    ∃ state, contract.evolves state span.ended.shared ∧ own result state := by
  have safeCalled := (run_safe meets span.reached safe).1
  obtain ⟨later, isSpawn⟩ : ∃ later, span.during ++ [span.action] = .spawn request :: later := by
    have head := span.spawns
    cases steps : span.during ++ [span.action] with
    | nil => simp at steps
    | cons action later =>
      rw [steps] at head
      exact ⟨later, by rw [Option.some.inj head]⟩
  have ran := span.ranCall
  rw [isSpawn] at ran
  obtain ⟨next, performed, rest⟩ := Option.bind_eq_some_iff.mp ran
  have safeNext := (perform_safe meets performed safeCalled).1
  cases performed
  have settled := (starts safeCalled.invariant).settle
  have atSpawn : (system.spawned span.called request).tasks[span.called.tasks.length]? = some (request, _) :=
    List.getElem?_concat_length
  have begun : TaskHolds contract (fun _ => own) (system.spawned span.called request).shared
      (request, ((system.program request).settle span.called.shared).2) := ⟨_, contract.refl _, settled.2.2⟩
  obtain ⟨process, found, state, moved, holds⟩ := run_taskHolds meets safeNext rest atSpawn begun
  cases span.returned.symm.trans found
  exact ⟨state, moved, holds.2⟩

end Posts

end Cooperative
