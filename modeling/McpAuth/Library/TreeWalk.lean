/-
**Walks over trees — breadth first from a queue, and from a stack.**

A tree is a type with the children of each node. `walkFrom` takes a node from the front of the queue and puts its
children at the end; `drainFrom` takes it from the end as well. `mem_walkFrom` and `mem_drainFrom`: with fuel for all the
nodes below what is pending the walk meets each of them.
-/

import Mathlib.Algebra.GroupWithZero.Nat
import Mathlib.Algebra.BigOperators.Group.List.Basic

namespace TreeWalk

variable {α : Type} (children : α → List α)

/-- A node is another one or below it. -/
inductive Within : α → α → Prop
  | refl (node : α) : Within node node
  | under {node child parent : α} (isChild : child ∈ children parent) (within : Within node child) : Within node parent

/-- The nodes in the order in which they leave the queue. -/
def walkFrom : ℕ → List α → List α
  | 0, _ => []
  | _ + 1, [] => []
  | fuel + 1, node :: queue => node :: walkFrom fuel (queue ++ children node)

/-- The nodes in the order in which they leave a stack, the last one in first. -/
def drainFrom : ℕ → List α → List α
  | 0, _ => []
  | fuel + 1, pending => match pending.getLast? with
    | none => []
    | some node => node :: drainFrom fuel (pending.dropLast ++ children node)

/-- A size that counts the nodes. -/
def Counts (size : α → ℕ) : Prop := ∀ node, size node = 1 + ((children node).map size).sum

variable {children}

theorem within_iff {node parent : α} :
    Within children node parent ↔ node = parent ∨ ∃ child ∈ children parent, Within children node child := by
  constructor
  · intro within
    cases within with
    | refl => exact Or.inl rfl
    | under isChild within => exact Or.inr ⟨_, isChild, within⟩
  · rintro (rfl | ⟨child, isChild, within⟩)
    · exact .refl _
    · exact .under isChild within

/-- **The walk meets what is in the queue and below.** -/
theorem mem_walkFrom {size : α → ℕ} (counts : Counts children size) {fuel : ℕ} {queue : List α}
    (enough : (queue.map size).sum ≤ fuel) {node : α} :
    node ∈ walkFrom children fuel queue ↔ ∃ root ∈ queue, Within children node root := by
  induction fuel generalizing queue with
  | zero =>
    have none : queue = [] := by
      cases queue with
      | nil => rfl
      | cons first later =>
        rw [List.map_cons, List.sum_cons, counts first] at enough
        omega
    simp [none, walkFrom]
  | succ fuel ih =>
    cases queue with
    | nil => simp [walkFrom]
    | cons first later =>
      have rest : ((later ++ children first).map size).sum ≤ fuel := by
        rw [List.map_cons, List.sum_cons, counts first] at enough
        rw [List.map_append, List.sum_append]
        omega
      rw [walkFrom, List.mem_cons, ih rest, List.exists_mem_cons_iff, within_iff]
      simp only [List.mem_append, or_and_right, exists_or]
      rw [or_assoc]
      exact or_congr_right or_comm

/-- **The walk meets what is on the stack and below.** -/
theorem mem_drainFrom {size : α → ℕ} (bounds : ∀ node, 1 + ((children node).map size).sum ≤ size node) {fuel : ℕ}
    {pending : List α} (enough : (pending.map size).sum ≤ fuel) {node : α} :
    node ∈ drainFrom children fuel pending ↔ ∃ root ∈ pending, Within children node root := by
  induction fuel generalizing pending with
  | zero =>
    have none : pending = [] := by
      cases pending with
      | nil => rfl
      | cons first later =>
        have positive := bounds first
        rw [List.map_cons, List.sum_cons] at enough
        omega
    simp [none, drainFrom]
  | succ fuel ih =>
    rcases List.eq_nil_or_concat pending with rfl | ⟨others, last, rfl⟩
    · simp [drainFrom]
    · have rest : ((others ++ children last).map size).sum ≤ fuel := by
        have bound := bounds last
        rw [List.concat_eq_append, List.map_append, List.sum_append, List.map_singleton, List.sum_singleton] at enough
        rw [List.map_append, List.sum_append]
        omega
      have top : (others.concat last).getLast? = some last := by simp
      have below : (others.concat last).dropLast = others := by simp
      rw [drainFrom, top, below, List.mem_cons, ih rest]
      simp only [List.concat_eq_append, List.mem_append, List.mem_singleton, or_and_right, exists_or, exists_eq_left]
      rw [@within_iff α children node last, or_left_comm]

end TreeWalk
