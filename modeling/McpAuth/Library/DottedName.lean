/-
**Dotted names — identifiers with a dot between each two.**

An `Identifier` is not empty and holds no dot. `dotted` writes a name out; `split_dotted` reads its identifiers back.
`below_iff`: a written name is an entry, or starts with it and a dot, exactly when the parts of the entry are the first
parts of the name.
-/

import McpAuth.Library.PyText

namespace DottedName

open PyText

/-- A part of a dotted name. -/
structure Identifier where
  text : String
  nonempty : text ≠ ""
  noDot : '.' ∉ text.toList
  deriving DecidableEq

/-- The texts of a name's identifiers. -/
def texts (name : List Identifier) : List String := name.map Identifier.text

/-- A list of texts as a dotted name. -/
def dotted (name : List String) : String := joinWith '.' name

/-- Texts that identifiers can have. -/
def AreParts (name : List String) : Prop := ∀ part ∈ name, part ≠ "" ∧ '.' ∉ part.toList

theorem areParts_texts (name : List Identifier) : AreParts (texts name) := by
  intro part member
  obtain ⟨identifier, -, rfl⟩ := List.mem_map.mp member
  exact ⟨identifier.nonempty, identifier.noDot⟩

theorem AreParts.append {first second : List String} (isFirst : AreParts first) (isSecond : AreParts second) :
    AreParts (first ++ second) :=
  List.forall_mem_append.mpr ⟨isFirst, isSecond⟩

theorem AreParts.singleton (identifier : Identifier) : AreParts [identifier.text] := by
  intro part member
  rw [List.mem_singleton.mp member]
  exact ⟨identifier.nonempty, identifier.noDot⟩

theorem split_dotted {name : List String} (nonempty : name ≠ []) (parts : AreParts name) :
    splitOnChar '.' (dotted name) = name :=
  splitOnChar_joinWith '.' name nonempty fun part member => (parts part member).2

theorem dotted_ne_empty {name : List String} (nonempty : name ≠ []) (parts : AreParts name) : dotted name ≠ "" := by
  intro empty
  have back := split_dotted nonempty parts
  rw [empty] at back
  exact (parts "" (back ▸ by decide)).1 rfl

theorem dotted_split (text : String) : dotted (splitOnChar '.' text) = text := joinWith_splitOnChar '.' text

theorem dotted_append {first second : List String} (isFirst : first ≠ []) (isSecond : second ≠ []) :
    dotted (first ++ second) = dotted first ++ "." ++ dotted second := by
  induction first with
  | nil => exact absurd rfl isFirst
  | cons head later ih =>
    obtain ⟨next, rest, rfl⟩ := List.exists_cons_of_ne_nil isSecond
    cases later with
    | nil =>
      apply String.toList_injective
      simp [dotted, joinWith, List.intercalate]
    | cons other later =>
      have inner := ih (List.cons_ne_nil _ _)
      apply String.toList_injective
      have inner := congrArg String.toList inner
      simp only [dotted, joinWith, String.toList_ofList, String.toList_append, List.cons_append, List.map_cons,
        intercalate_cons_cons] at inner ⊢
      rw [inner]
      simp

/-- **A written name is an entry or below it exactly when the parts of the entry come first.** -/
theorem below_iff {name : List String} (nonempty : name ≠ []) (parts : AreParts name) (entry : String) :
    dotted name = entry ∨ (entry ++ ".").toList <+: (dotted name).toList ↔ splitOnChar '.' entry <+: name := by
  constructor
  · rintro (rfl | ⟨rest, chars⟩)
    · rw [split_dotted nonempty parts]
    · rw [← split_dotted nonempty parts, splitOnChar, splitOnChar, ← chars, String.toList_append]
      refine ⟨(rest.splitOn '.').map String.ofList, ?_⟩
      have split := List.splitOn_append_cons_self (a := '.') entry.toList rest
      rw [List.append_assoc, ← List.map_append, ← split]
      rfl
  · rintro ⟨later, rfl⟩
    by_cases isEntry : later = []
    · subst isEntry
      exact Or.inl (by rw [List.append_nil, dotted_split])
    · refine Or.inr ⟨(dotted later).toList, ?_⟩
      rw [dotted_append (splitOnChar_ne_nil '.' entry) isEntry, dotted_split, ← String.toList_append]

end DottedName
