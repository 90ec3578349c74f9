/-
**Names in one namespace, canonical by tagging.**

Some names are qualified already, the others are put into a default namespace by a tag. `canon` keeps a
qualified name and tags any other.

* `canon_idem_iff` — canonical names are fixed exactly when a tagged name is qualified or its own tag;
* `canon_injOn` — on unqualified names `canon` is as injective as the tag;
* `canon_mem_image_iff` — which names are canonically among the canonical ones, in terms of the names.
-/

import Mathlib.Data.Set.Function

namespace Tagging

variable {α : Type} (qualified : α → Prop) [DecidablePred qualified] (tag : α → α)

/-- A qualified name is kept, any other is tagged. -/
def canon (name : α) : α := if qualified name then name else tag name

variable {qualified tag}

theorem canon_of_qualified {name : α} (isQualified : qualified name) : canon qualified tag name = name :=
  if_pos isQualified

theorem canon_of_short {name : α} (short : ¬ qualified name) : canon qualified tag name = tag name :=
  if_neg short

/-- **When canonical names are fixed.** -/
theorem canon_idem_iff {name : α} : canon qualified tag (canon qualified tag name) = canon qualified tag name ↔
    qualified name ∨ qualified (tag name) ∨ tag (tag name) = tag name := by
  by_cases isQualified : qualified name
  · simp [canon, isQualified]
  · by_cases tagged : qualified (tag name)
    · simp [canon, isQualified, tagged]
    · simp [canon, isQualified, tagged]

/-- On unqualified names nothing is merged that the tag does not merge. -/
theorem canon_injOn (injective : Function.Injective tag) :
    Set.InjOn (canon qualified tag) { name | ¬ qualified name } := by
  intro first short second shortSecond same
  rw [canon_of_short short, canon_of_short shortSecond] at same
  exact injective same

/-- **Which names are canonically among the given ones**, when a tag qualifies: an unqualified name that is
given, short or tagged, and a qualified one that is given or is the tag of a short one. -/
theorem canon_mem_image_iff (injective : Function.Injective tag) {name : α} {given : Set α}
    (tagged : ¬ qualified name → qualified (tag name)) :
    canon qualified tag name ∈ canon qualified tag '' given ↔
      if qualified name then name ∈ given ∨ ∃ short ∈ given, ¬ qualified short ∧ name = tag short
      else name ∈ given ∨ tag name ∈ given := by
  by_cases isQualified : qualified name
  · rw [if_pos isQualified, canon_of_qualified isQualified]
    constructor
    · rintro ⟨other, member, same⟩
      by_cases otherQualified : qualified other
      · rw [canon_of_qualified otherQualified] at same
        exact Or.inl (same ▸ member)
      · rw [canon_of_short otherQualified] at same
        exact Or.inr ⟨other, member, otherQualified, same.symm⟩
    · rintro (member | ⟨short, member, isShort, rfl⟩)
      · exact ⟨name, member, canon_of_qualified isQualified⟩
      · exact ⟨short, member, canon_of_short isShort⟩
  · rw [if_neg isQualified, canon_of_short isQualified]
    constructor
    · rintro ⟨other, member, same⟩
      by_cases otherQualified : qualified other
      · rw [canon_of_qualified otherQualified] at same
        exact Or.inr (same ▸ member)
      · rw [canon_of_short otherQualified] at same
        exact Or.inl (injective same ▸ member)
    · rintro (member | member)
      · exact ⟨name, member, canon_of_short isQualified⟩
      · exact ⟨tag name, member, canon_of_qualified (tagged isQualified)⟩

end Tagging
