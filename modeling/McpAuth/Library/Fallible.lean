/-
**Raising computations — `Except` as Python exceptions.**

The inversion lemmas of a sequence: a value comes out of `x >>= f` exactly when both parts yield one
(`bind_eq_ok`), out of a check when the check passes (`guard_eq_ok`, `check_eq_ok`), and an error exactly when one part
raises it (`bind_eq_error`). A loop yields exactly when it does for every element (`forM_eq_ok`,
`exists_mapM_eq_ok`).
-/

import Mathlib.Init

namespace Fallible

variable {ε ε' α β : Type}

/-- **A sequence yields a value exactly when both parts do.** -/
theorem bind_eq_ok {first : Except ε α} {next : α → Except ε β} {result : β} :
    (first >>= next) = .ok result ↔ ∃ value, first = .ok value ∧ next value = .ok result := by
  cases first with
  | error error =>
    constructor
    · intro yields
      cases yields
    · rintro ⟨value, yields, -⟩
      cases yields
  | ok value =>
    constructor
    · intro yields
      exact ⟨value, rfl, yields⟩
    · rintro ⟨other, same, yields⟩
      cases same
      exact yields

/-- A check in front passes. -/
theorem guard_eq_ok {fails : Prop} [Decidable fails] {error : ε} {next : Except ε β} {result : β} :
    (if fails then .error error else next) = .ok result ↔ ¬ fails ∧ next = .ok result := by
  by_cases failed : fails
  · rw [if_pos failed]
    exact iff_of_false (fun yields => nomatch yields) fun passed => passed.1 failed
  · rw [if_neg failed]
    exact (and_iff_right failed).symm

/-- The value, or an exception where there is none. -/
def required (error : ε) : Option α → Except ε α
  | some value => .ok value
  | none => .error error

theorem required_eq_ok {error : ε} {option : Option α} {value : α} :
    required error option = .ok value ↔ option = some value := by
  cases option <;> simp [required]

/-- `if not passes: raise error`. -/
def check (error : ε) (passes : Bool) : Except ε Unit := if passes then .ok () else .error error

theorem check_eq_ok {error : ε} {passes : Bool} {done : Unit} : check error passes = .ok done ↔ passes = true := by
  cases passes <;> simp [check]

/-- A sequence raises exactly when one part does. -/
theorem bind_eq_error {first : Except ε α} {next : α → Except ε β} {raised : ε} :
    (first >>= next) = .error raised ↔
      first = .error raised ∨ ∃ value, first = .ok value ∧ next value = .error raised := by
  cases first with
  | error error =>
    constructor
    · intro raises
      cases raises
      exact Or.inl rfl
    · rintro (same | ⟨value, yields, -⟩)
      · cases same
        rfl
      · cases yields
  | ok value =>
    constructor
    · intro raises
      exact Or.inr ⟨value, rfl, raises⟩
    · rintro (raises | ⟨other, same, raises⟩)
      · cases raises
      · cases same
        exact raises

theorem mapError_eq_ok {computation : Except ε α} {convert : ε → ε'} {value : α} :
    computation.mapError convert = .ok value ↔ computation = .ok value := by
  cases computation with
  | error error =>
    constructor <;> intro yields <;> cases yields
  | ok other =>
    constructor <;> intro yields <;> cases yields <;> rfl

theorem toOption_eq_some {computation : Except ε α} {value : α} :
    computation.toOption = some value ↔ computation = .ok value := by
  cases computation with
  | error error => simp [Except.toOption]
  | ok other => simp [Except.toOption]

/-- Every result of a successful `mapM` comes from an element. -/
theorem mem_of_mapM_eq_ok {convert : α → Except ε β} {values : List α} {results : List β}
    (yields : values.mapM convert = .ok results) {result : β} (member : result ∈ results) :
    ∃ value ∈ values, convert value = .ok result := by
  induction values generalizing results with
  | nil =>
    cases yields
    cases member
  | cons head tail ih =>
    rw [List.mapM_cons] at yields
    obtain ⟨first, converted, yields⟩ := bind_eq_ok.mp yields
    obtain ⟨rest, collected, yields⟩ := bind_eq_ok.mp yields
    cases yields
    rcases List.mem_cons.mp member with rfl | later
    · exact ⟨head, List.mem_cons_self, converted⟩
    · obtain ⟨value, inside, converts⟩ := ih collected later
      exact ⟨value, List.mem_cons_of_mem _ inside, converts⟩

/-- **A loop of checks passes exactly when every element does.** -/
theorem forM_eq_ok {check : α → Except ε Unit} {values : List α} {done : Unit} :
    values.forM check = .ok done ↔ ∀ value ∈ values, check value = .ok () := by
  induction values with
  | nil =>
    constructor
    · intro _ value member
      cases member
    · intro _
      rfl
  | cons head tail ih =>
    rw [List.forM, bind_eq_ok]
    simp only [ih, List.mem_cons, forall_eq_or_imp]
    constructor
    · rintro ⟨⟨⟩, first, later⟩
      exact ⟨first, later⟩
    · rintro ⟨first, later⟩
      exact ⟨⟨⟩, first, later⟩

/-- **A loop yields exactly when every element does.** -/
theorem exists_mapM_eq_ok {convert : α → Except ε β} {values : List α} :
    (∃ results, values.mapM convert = .ok results) ↔
      ∀ value ∈ values, ∃ result, convert value = .ok result := by
  induction values with
  | nil =>
    constructor
    · intro _ value member
      cases member
    · intro _
      exact ⟨[], rfl⟩
  | cons head tail ih =>
    simp only [List.mapM_cons, bind_eq_ok, List.mem_cons, forall_eq_or_imp, ← ih]
    constructor
    · rintro ⟨_, first, converted, rest, collected, -⟩
      exact ⟨⟨first, converted⟩, rest, collected⟩
    · rintro ⟨⟨first, converted⟩, rest, collected⟩
      exact ⟨first :: rest, first, converted, rest, collected, rfl⟩

/-- A loop whose results are known yields all of them. -/
theorem mapM_eq_ok_map {convert : α → Except ε β} {result : α → β} {values : List α}
    (yields : ∀ value ∈ values, convert value = .ok (result value)) : values.mapM convert = .ok (values.map result) := by
  induction values with
  | nil => rfl
  | cons head tail ih =>
    rw [List.forall_mem_cons] at yields
    rw [List.mapM_cons, yields.1, ih yields.2]
    rfl

end Fallible
