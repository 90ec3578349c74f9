/-
**Step-up — how a caller that lacks permissions is told which ones to obtain.**

A caller holds a finite set `granted` of permissions; an operation asks for every set of a list of
requirements. A requirement that is not met is answered with the whole requirement:

* `supplement required granted` — what one requirement asks a caller for;
* `challenge requirements granted` — the union over all requirements.

`challenge_eq_empty_iff`: nothing is asked exactly when every requirement is met.
`challenge_settled`: a caller that adds what it was asked for is asked for nothing more.
`challenge_anti`: a caller with more permissions is never asked for more.
-/

import Mathlib.Data.Finset.Lattice.Basic
import Mathlib.Data.Finset.Lattice.Lemmas

namespace StepUp

variable {α : Type*} [DecidableEq α]

/-! ### One requirement -/

/-- What one requirement asks of a caller holding `granted`. -/
def supplement (required granted : Finset α) : Finset α :=
  if required ⊆ granted then ∅ else required

theorem supplement_of_subset {required granted : Finset α} (met : required ⊆ granted) :
    supplement required granted = ∅ := if_pos met

theorem supplement_of_not_subset {required granted : Finset α} (unmet : ¬ required ⊆ granted) :
    supplement required granted = required := if_neg unmet

/-- **A requirement asks for nothing exactly when it is met.** -/
theorem supplement_eq_empty_iff {required granted : Finset α} :
    supplement required granted = ∅ ↔ required ⊆ granted := by
  constructor
  · intro empty
    by_contra unmet
    rw [supplement_of_not_subset unmet] at empty
    exact unmet (empty ▸ Finset.empty_subset _)
  · exact supplement_of_subset

/-- A caller with more permissions is asked for no more. -/
theorem supplement_anti {required granted larger : Finset α} (grows : granted ⊆ larger) :
    supplement required larger ⊆ supplement required granted := by
  by_cases met : required ⊆ larger
  · rw [supplement_of_subset met]
    exact Finset.empty_subset _
  · have unmet : ¬ required ⊆ granted := fun inside => met (inside.trans grows)
    rw [supplement_of_not_subset met, supplement_of_not_subset unmet]

/-- A caller that holds what it was asked for meets the requirement. -/
theorem subset_of_supplement {required granted larger : Finset α} (grows : granted ⊆ larger)
    (obtained : supplement required granted ⊆ larger) : required ⊆ larger := by
  by_cases met : required ⊆ granted
  · exact met.trans grows
  · rwa [supplement_of_not_subset met] at obtained

/-! ### A list of requirements -/

/-- What a list of requirements asks of a caller holding `granted`. -/
def challenge (requirements : List (Finset α)) (granted : Finset α) : Finset α :=
  requirements.foldr (fun required rest => supplement required granted ∪ rest) ∅

@[simp] theorem challenge_nil (granted : Finset α) : challenge [] granted = ∅ := rfl

@[simp] theorem challenge_cons (required : Finset α) (rest : List (Finset α)) (granted : Finset α) :
    challenge (required :: rest) granted = supplement required granted ∪ challenge rest granted := rfl

theorem mem_challenge {requirements : List (Finset α)} {granted : Finset α} {permission : α} :
    permission ∈ challenge requirements granted ↔
      ∃ required ∈ requirements, ¬ required ⊆ granted ∧ permission ∈ required := by
  induction requirements with
  | nil => simp
  | cons required rest ih =>
    rw [challenge_cons, Finset.mem_union, ih, List.exists_mem_cons_iff]
    by_cases met : required ⊆ granted
    · simp [supplement_of_subset met, met]
    · simp [supplement_of_not_subset met, met]

/-- **Nothing is asked exactly when every requirement is met.** -/
theorem challenge_eq_empty_iff {requirements : List (Finset α)} {granted : Finset α} :
    challenge requirements granted = ∅ ↔ ∀ required ∈ requirements, required ⊆ granted := by
  induction requirements with
  | nil => simp
  | cons required rest ih =>
    rw [challenge_cons, Finset.union_eq_empty, supplement_eq_empty_iff, ih, List.forall_mem_cons]

/-- **A caller with more permissions is never asked for more.** -/
theorem challenge_anti {requirements : List (Finset α)} {granted larger : Finset α}
    (grows : granted ⊆ larger) : challenge requirements larger ⊆ challenge requirements granted := by
  induction requirements with
  | nil => exact Finset.empty_subset _
  | cons required rest ih => exact Finset.union_subset_union (supplement_anti grows) ih

/-- **One round trip settles.** A caller that adds everything it was asked for is asked for nothing
more. -/
theorem challenge_settled {requirements : List (Finset α)} {granted larger : Finset α}
    (grows : granted ⊆ larger) (obtained : challenge requirements granted ⊆ larger) :
    challenge requirements larger = ∅ := by
  rw [challenge_eq_empty_iff]
  intro required member
  refine subset_of_supplement grows fun permission asked => obtained ?_
  have unmet : ¬ required ⊆ granted := fun met => by
    rw [supplement_of_subset met] at asked
    exact absurd asked (Finset.notMem_empty _)
  rw [supplement_of_not_subset unmet] at asked
  exact mem_challenge.mpr ⟨required, member, unmet, asked⟩

end StepUp
