/-
**What an import denotes, and what the check of a boundary makes of it.**

`Node.denotes` follows the import rules: of the dots before a name the first stands for the importing package, each
further one for the package around, and there is none above the outermost. The importing package is known there with
all the packages around the boundary.

The check knows it from the directory of the boundary on, and keeps nothing where the dots go above. `boundary_sound_iff`:
each statement that denotes something denied is reported exactly when no statement of the tree `Escapes`, as one with
dots above the boundary does when all the names behind its dots are allowed as they are written.
-/

import McpAuth.Scripts.ArchitectureBoundary

namespace McpAuth

open DottedName PyText TreeWalk

/-! ### Import rules -/

/-- The dotted name of the boundary. -/
def Boundary.packageName (boundary : Boundary) : List String := texts (boundary.parents ++ [boundary.name])

/-- The package that a module of the boundary is in, or is where it is an `__init__`. -/
def importingPackage (boundary : Boundary) (file : ModuleFile) : List String :=
  texts (boundary.parents ++ boundary.name :: file.packages)

/-- The part of a name after `import`; `*` stands for what is in the module. -/
def namePart (name : Identifier) : List String := if name.text = "*" then [] else [name.text]

/-- **The modules and names that a statement denotes.** -/
def Node.denotes (package : List String) : Node → List (List String)
  | .importModules _ names => names.map ModuleName.parts
  | .importFrom _ 0 module names => names.map fun name => texts module ++ namePart name
  | .importFrom _ (climbed + 1) module names =>
    if climbed < package.length then
      names.map fun name => package.take (package.length - climbed) ++ texts module ++ namePart name
    else []
  | _ => []

/-! ### Targets -/

section Targets

variable {boundary : Boundary} {file : ModuleFile}

/-- Where the dots stay below the boundary, what is denoted is inside. -/
theorem inside_of_denotes {line climbed : ℕ} {module names : List Identifier} (stays : climbed < file.packages.length + 1)
    {name : List String}
    (denoted : name ∈ (Node.importFrom line (climbed + 1) module names).denotes (importingPackage boundary file)) :
    boundary.packageName <+: name := by
  have package : importingPackage boundary file = boundary.packageName ++ texts file.packages := by
    simp [importingPackage, Boundary.packageName, texts]
  have lengths : (importingPackage boundary file).length = boundary.packageName.length + file.packages.length := by
    rw [package, List.length_append, texts, List.length_map]
  have kept : boundary.packageName <+: (importingPackage boundary file).take
      ((importingPackage boundary file).length - climbed) := by
    rw [List.prefix_take_iff, package]
    exact ⟨List.prefix_append _ _, by rw [← package, lengths]; omega⟩
  rw [Node.denotes] at denoted
  split at denoted
  · obtain ⟨imported, -, rfl⟩ := List.mem_map.mp denoted
    exact (kept.trans (List.prefix_append _ _)).trans (List.prefix_append _ _)
  · cases denoted

/-- Without dots, or with dots above the boundary, the check computes the names as they are written. -/
theorem computedTarget_written {level : ℕ} (written : level = 0 ∨ file.packages.length + 1 < level)
    (module : List Identifier) :
    computedTarget (texts (boundary.name :: file.packages)) level module = texts module := by
  unfold computedTarget
  rcases written with none | above
  · rw [if_neg (not_not.mpr none)]
  · have nothing : (texts (boundary.name :: file.packages)).length - (level - 1) = 0 := by
      rw [texts, List.length_map, List.length_cons]
      omega
    rw [nothing, List.take_zero, List.nil_append, if_pos (by omega)]

end Targets

/-! ### Statements -/

section Statements

variable [StandardLibrary] (boundary : Boundary) (file : ModuleFile)

/-- Outside the boundary, and not admitted by its entries. -/
def Boundary.Denied (name : List String) : Prop :=
  ¬ boundary.packageName <+: name ∧ ¬ Admitted boundary.allowedImports name

/-- The check of the tree has a violation for the statement: at its line, with a name of it. -/
def Reported (tree node : Node) : Prop :=
  ∃ violations, validateBoundaryFile boundary file (.tree tree) = .ok violations ∧
    ∃ found ∈ importedBy (texts (boundary.name :: file.packages)) node, deniedImport boundary file found ∈ violations

/-- **A statement that gets past the check**: its dots go above the directory of the boundary, or it is an absolute one
with `*`; it denotes something denied, and all its names are admitted as they are written without the dots. -/
def Escapes : Node → Prop
  | .importFrom line level module names =>
    (file.packages.length + 1 < level ∨ level = 0 ∧ ∃ name ∈ names, name.text = "*") ∧
      (∃ name ∈ (Node.importFrom line level module names).denotes (importingPackage boundary file), boundary.Denied name) ∧
      ∀ name ∈ names, Admitted boundary.allowedImports (texts module ++ [name.text])
  | _ => False

variable {boundary file}

/-- **A statement is reported exactly when a name that is computed from it is not admitted.** -/
theorem reported_iff {tree node : Node} (inTree : Within Node.children node tree) :
    Reported boundary file tree node ↔ match node with
      | .importModules _ names => ∃ name ∈ names, ¬ Admitted boundary.allowedImports name.parts
      | .importFrom _ level module names => ∃ name ∈ names, ¬ Admitted boundary.allowedImports
          (computedTarget (texts (boundary.name :: file.packages)) level module ++ [name.text])
      | _ => False := by
  have foundIff : Reported boundary file tree node ↔
      ∃ found ∈ importedBy (texts (boundary.name :: file.packages)) node,
        found.2 ≠ "" ∧ isAllowed found.2 boundary.allowedImports = false := by
    constructor
    · rintro ⟨violations, checked, found, computed, reported⟩
      exact ⟨found, computed, ((reports_iff checked).mp reported).2⟩
    · rintro ⟨found, computed, denied⟩
      exact ⟨_, rfl, found, computed, (reports_iff rfl).mpr ⟨⟨node, inTree, computed⟩, denied⟩⟩
  have deniedIff : ∀ {name : List String}, name ≠ [] → AreParts name →
      (dotted name ≠ "" ∧ isAllowed (dotted name) boundary.allowedImports = false ↔
        ¬ Admitted boundary.allowedImports name) := by
    intro name nonempty parts
    rw [and_iff_right (dotted_ne_empty nonempty parts), ← Bool.not_eq_true, isAllowed_iff nonempty parts]
  rw [foundIff]
  cases node with
  | importModules line names =>
    simp only [importedBy, List.mem_map, exists_exists_and_eq_and]
    refine exists_congr fun name => and_congr_right fun _ => deniedIff (List.cons_ne_nil _ _) (areParts_texts _)
  | importFrom line level module names =>
    have inPackage : AreParts (texts (boundary.name :: file.packages)) := areParts_texts _
    rw [importedBy_from inPackage]
    simp only [List.mem_map, exists_exists_and_eq_and]
    refine exists_congr fun name => and_congr_right fun _ => deniedIff (by simp) ?_
    exact (areParts_computedTarget inPackage level module).append (AreParts.singleton name)
  | _ => simp [importedBy]

/-- **Everything denied is reported exactly when no statement escapes.** -/
theorem boundary_sound_iff (boundary : Boundary) (file : ModuleFile) (tree : Node) :
    (∀ node, Within Node.children node tree →
      (∃ name ∈ node.denotes (importingPackage boundary file), boundary.Denied name) →
        Reported boundary file tree node) ↔
      ∀ node, Within Node.children node tree → ¬ Escapes boundary file node := by
  refine forall_congr' fun node => forall_congr' fun inTree => ?_
  rw [reported_iff inTree]
  cases node with
  | importModules line names =>
    refine iff_of_true ?_ id
    rintro ⟨_, denoted, denied⟩
    obtain ⟨name, member, rfl⟩ := List.mem_map.mp denoted
    exact ⟨name, member, denied.2⟩
  | importFrom line level module names =>
    constructor
    · rintro reported ⟨way, denied, admitted⟩
      obtain ⟨name, member, notAdmitted⟩ := reported denied
      rw [computedTarget_written (way.symm.imp_left And.left)] at notAdmitted
      exact notAdmitted (admitted name member)
    · rintro noEscape ⟨denoted, member, denied⟩
      by_contra unreported
      push Not at unreported
      by_cases above : file.packages.length + 1 < level
      · rw [computedTarget_written (Or.inr above)] at unreported
        exact noEscape ⟨Or.inl above, ⟨denoted, member, denied⟩, unreported⟩
      cases level with
      | zero =>
        rw [computedTarget_written (Or.inl rfl)] at unreported
        obtain ⟨name, isName, rfl⟩ := List.mem_map.mp member
        by_cases star : name.text = "*"
        · exact noEscape ⟨Or.inr ⟨rfl, name, isName, star⟩, ⟨_, member, denied⟩, unreported⟩
        · rw [namePart, if_neg star] at denied
          exact denied.2 (unreported name isName)
      | succ climbed => exact denied.1 (inside_of_denotes (by omega) member)
  | _ =>
    refine iff_of_true ?_ id
    rintro ⟨_, denoted, -⟩
    cases denoted

end Statements

/-! ### An import that escapes -/

/-- The boundary `src/service/domain`, with `stdlib` only. -/
def domainBoundary : Boundary :=
  ⟨["src"], [⟨"service", by decide, by decide⟩], ⟨"domain", by decide, by decide⟩, ["stdlib"], true⟩

/-- `from .. import json` -/
def importAbove : Node := .importFrom 1 2 [] [⟨"json", by decide, by decide⟩]

/-- In `service.domain.model` the statement denotes `service.json`, and the check takes it for `json`. -/
theorem import_above_escapes :
    ¬ ∀ [StandardLibrary] (boundary : Boundary) (file : ModuleFile) (tree node : Node),
      Within Node.children node tree →
        (∃ name ∈ node.denotes (importingPackage boundary file), boundary.Denied name) →
          Reported boundary file tree node := by
  intro always
  let _ : StandardLibrary := ⟨["ast", "json", "pathlib", "sys"]⟩
  let file : ModuleFile := ⟨[], ⟨"model", by decide, by decide⟩⟩
  have denoted : ["service", "json"] ∈ importAbove.denotes (importingPackage domainBoundary file) := by decide
  have outside : ¬ domainBoundary.packageName <+: ["service", "json"] := by decide
  have notAdmitted : ¬ Admitted domainBoundary.allowedImports ["service", "json"] := by
    rintro (⟨-, first, isFirst, inLibrary⟩ | ⟨entry, isEntry, other, -⟩)
    · cases isFirst
      exact absurd inLibrary (by decide)
    · exact other (List.mem_singleton.mp isEntry)
  obtain ⟨violations, checked, found, -, reported⟩ :=
    always domainBoundary file (.other [importAbove]) importAbove (.under List.mem_cons_self (.refl _))
      ⟨_, denoted, outside, notAdmitted⟩
  have nothing : validateBoundaryFile domainBoundary file (.tree (.other [importAbove])) = .ok [] := by decide +kernel
  rw [nothing] at checked
  cases checked
  cases reported

end McpAuth
