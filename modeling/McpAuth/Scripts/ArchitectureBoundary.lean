/-
**Package boundaries — which modules of a package import what.**

A boundary is a package below a source root with the imports that its modules may have. The check of a module computes
a name for each import statement of its syntax tree and compares it with these. It knows the module by its path from
the directory of the boundary: `currentModule` starts with the name of that directory, and not with the packages around.

`isAllowed_iff`: a dotted name is allowed exactly when its parts start with those of an entry, or with a module of the
standard library where the entries have `stdlib`. `reports_iff`: the violations of the check name what is computed and
not allowed.

The parser of the source and `sys.stdlib_module_names` are parameters.
-/

import Mathlib.Data.List.Sort
import McpAuth.Library.DottedName
import McpAuth.Library.TreeWalk

namespace McpAuth

open DottedName PyText TreeWalk

/-! ### Syntax trees -/

/-- The name of a module, as an `import` statement has it. -/
structure ModuleName where
  first : Identifier
  later : List Identifier
  deriving DecidableEq

def ModuleName.parts (name : ModuleName) : List String := texts (name.first :: name.later)

/-- A node of a syntax tree. The names after `from … import` are identifiers or `*`; `module` is empty where there is
none behind the dots. -/
inductive Node
  | importModules (line : ℕ) (names : List ModuleName)
  | importFrom (line level : ℕ) (module : List Identifier) (names : List Identifier)
  | name (id : String)
  | attributeOf (value : Node) (attr : String)
  | call (line : ℕ) (func : Node) (arguments : List Node)
  | other (children : List Node)

/-- `ast.iter_child_nodes`, of the nodes that matter. -/
def Node.children : Node → List Node
  | .attributeOf value _ => [value]
  | .call _ func arguments => func :: arguments
  | .other children => children
  | _ => []

mutual

/-- The number of nodes. -/
def Node.size : Node → ℕ
  | .attributeOf value _ => 1 + value.size
  | .call _ func arguments => 1 + (func.size + sizes arguments)
  | .other children => 1 + sizes children
  | _ => 1

def sizes : List Node → ℕ
  | [] => 0
  | node :: later => node.size + sizes later

end

/-- `ast.walk`. -/
def walk (tree : Node) : List Node := walkFrom Node.children tree.size [tree]

/-! ### Boundaries -/

/-- A default-deny import policy rooted at one package path, `sourceRoot/parents/name`. -/
structure Boundary where
  sourceRoot : List String
  parents : List Identifier
  name : Identifier
  allowedImports : List String
  denyDynamicImports : Bool

/-- A module file of a boundary: the packages below the boundary, and the name of the file before `.py`. -/
structure ModuleFile where
  packages : List Identifier
  stem : Identifier

/-- Represent one architecture dependency violation. The path is in its posix form. -/
structure Violation where
  path : String
  line : ℕ
  message : String
  deriving DecidableEq

/-- What reading and parsing a file did: a tree, an `OSError` or `SyntaxError`, or another exception. -/
inductive ParsedSource
  | tree (root : Node)
  | invalid (line : Option ℕ) (exception : String)
  | raised (exception : String)

/-- `PurePath.with_suffix("")` of a last component. -/
def withoutSuffix (name : String) : String :=
  let suffix := name.toList.reverse.takeWhile (· ≠ '.')
  let stem := (name.toList.reverse.dropWhile (· ≠ '.')).tail.reverse
  if suffix = [] ∨ stem = [] then name else String.ofList stem

/-- `path.relative_to(root).as_posix()`. -/
def relativePath (boundary : Boundary) (file : ModuleFile) : String :=
  joinWith '/' (boundary.sourceRoot ++ texts boundary.parents ++ boundary.name.text :: texts file.packages ++
    [file.stem.text ++ ".py"])

/-- `(package, *module)`. -/
def currentModule (boundary : Boundary) (file : ModuleFile) : List String :=
  boundary.name.text :: (texts file.packages ++ [withoutSuffix (file.stem.text ++ ".py")])

/-! ### Imports -/

/-- The names of one node, each with the line. -/
def importedBy (currentPackage : List String) : Node → List (ℕ × String)
  | .importModules line names => names.map fun name => (line, dotted name.parts)
  | .importFrom line level module names =>
    let moduleParts := if module = [] then [] else splitOnChar '.' (dotted (texts module))
    -- `max(0, len(current_package) - (node.level - 1))`, as subtraction of natural numbers
    let retained := currentPackage.length - (level - 1)
    let targetParts := if level ≠ 0 then currentPackage.take retained ++ moduleParts else moduleParts
    let base := joinWith '.' (targetParts.filter (· ≠ ""))
    names.map fun name => (line, joinWith '.' ([base, name.text].filter (· ≠ "")))
  | _ => []

/-- The order of pairs of a line and a name. -/
def importOrder (first second : ℕ × String) : Prop := first.1 < second.1 ∨ first.1 = second.1 ∧ first.2 ≤ second.2

instance (first second : ℕ × String) : Decidable (importOrder first second) := inferInstanceAs (Decidable (_ ∨ _ ∧ _))

/-- `imported_modules`. -/
def importedModules (tree : Node) (currentModule : List String) : List (ℕ × String) :=
  ((walk tree).flatMap (importedBy currentModule.dropLast)).insertionSort importOrder

/-- `sys.stdlib_module_names`. -/
class StandardLibrary where
  moduleNames : List String

/-- `_is_allowed`. -/
def isAllowed [StandardLibrary] (module : String) (allowed : List String) : Bool :=
  let first := (splitOnChar '.' module).headD ""
  ("stdlib" ∈ allowed && first ∈ StandardLibrary.moduleNames) ||
    allowed.any fun item => item != "stdlib" && (module == item || startsWithText (item ++ ".") module)

/-! ### The check -/

/-- `_call_name`. -/
def callName : Node → Option String
  | .name id => some id
  | .attributeOf (.name id) attr => some (id ++ "." ++ attr)
  | _ => none

def dynamicImports : List String := ["__import__", "importlib.import_module"]

/-- `repr` of a dotted name, which holds no quote, backslash or unprintable character. -/
def nameRepr (name : String) : String := "'" ++ name ++ "'"

section Check

variable (boundary : Boundary) (file : ModuleFile)

/-- The start of a message. -/
def moduleLabel : String := "module " ++ dotted (currentModule boundary file)

def deniedImport (found : ℕ × String) : Violation :=
  ⟨relativePath boundary file, found.1, moduleLabel boundary file ++ (" imports denied module " ++ nameRepr found.2)⟩

/-- The violation of a call, where it is one of `DYNAMIC_IMPORTS`. -/
def dynamicImport : Node → Option Violation
  | .call line func _ =>
    match callName func with
    | some name =>
      if name ∈ dynamicImports then
        some ⟨relativePath boundary file, line,
          moduleLabel boundary file ++ (" uses denied dynamic import " ++ nameRepr name)⟩
      else none
    | none => none
  | _ => none

/-- The order of violations. -/
def violationOrder (first second : Violation) : Prop :=
  first.path < second.path ∨ first.path = second.path ∧
    (first.line < second.line ∨ first.line = second.line ∧ first.message ≤ second.message)

instance (first second : Violation) : Decidable (violationOrder first second) :=
  inferInstanceAs (Decidable (_ ∨ _ ∧ (_ ∨ _ ∧ _)))

/-- `validate_boundary_file`. -/
def validateBoundaryFile [StandardLibrary] : ParsedSource → Except String (List Violation)
  | .raised exception => .error exception
  | .invalid line exception =>
    .ok [⟨relativePath boundary file, if line.getD 1 = 0 then 1 else line.getD 1,
      "cannot parse " ++ moduleLabel boundary file ++ ": " ++ exception⟩]
  | .tree root =>
    let denied := (importedModules root (currentModule boundary file)).filter fun found =>
      found.2 != "" && !isAllowed found.2 boundary.allowedImports
    let dynamic := if boundary.denyDynamicImports then (walk root).filterMap (dynamicImport boundary file) else []
    .ok ((denied.map (deniedImport boundary file) ++ dynamic).insertionSort violationOrder)

end Check

/-! ### Names and entries -/

theorem counts_size : Counts Node.children Node.size := by
  have sizesEq : ∀ nodes : List Node, sizes nodes = (nodes.map Node.size).sum := by
    intro nodes
    induction nodes with
    | nil => rfl
    | cons node later ih => rw [sizes, ih, List.map_cons, List.sum_cons]
  intro node
  cases node with
  | attributeOf value attr => rfl
  | call line func arguments => rw [Node.size, sizesEq]; rfl
  | other children => rw [Node.size, sizesEq]; rfl
  | _ => rfl

theorem mem_walk {tree node : Node} : node ∈ walk tree ↔ Within Node.children node tree := by
  rw [walk, mem_walkFrom counts_size (by simp)]
  simp

/-- **The entries admit a name**: one of the standard library where they have `stdlib`, or an entry or one below. -/
def Admitted [StandardLibrary] (entries : List String) (name : List String) : Prop :=
  ("stdlib" ∈ entries ∧ ∃ first ∈ name.head?, first ∈ StandardLibrary.moduleNames) ∨
    ∃ entry ∈ entries, entry ≠ "stdlib" ∧ splitOnChar '.' entry <+: name

theorem isAllowed_iff [StandardLibrary] {entries name : List String} (nonempty : name ≠ []) (parts : AreParts name) :
    isAllowed (dotted name) entries = true ↔ Admitted entries name := by
  obtain ⟨first, later, rfl⟩ := List.exists_cons_of_ne_nil nonempty
  have entryIff : ∀ entry, dotted (first :: later) = entry ∨
      startsWithText (entry ++ ".") (dotted (first :: later)) = true ↔ splitOnChar '.' entry <+: first :: later := by
    intro entry
    rw [startsWithText, List.isPrefixOf_iff_prefix]
    exact below_iff nonempty parts entry
  unfold isAllowed Admitted
  simp only [Bool.or_eq_true, Bool.and_eq_true, List.any_eq_true, decide_eq_true_eq, bne_iff_ne, beq_iff_eq,
    split_dotted nonempty parts, List.headD_cons, List.head?_cons, Option.mem_some_iff, exists_eq_left', entryIff]

theorem withoutSuffix_stem (stem : Identifier) : withoutSuffix (stem.text ++ ".py") = stem.text := by
  have nonempty : stem.text.toList ≠ [] := fun none => stem.nonempty (String.toList_eq_nil_iff.mp none)
  simp [withoutSuffix, nonempty]

theorem currentModule_eq (boundary : Boundary) (file : ModuleFile) :
    currentModule boundary file = boundary.name.text :: texts file.packages ++ [file.stem.text] := by
  rw [currentModule, withoutSuffix_stem, List.cons_append]

theorem dropLast_currentModule (boundary : Boundary) (file : ModuleFile) :
    (currentModule boundary file).dropLast = texts (boundary.name :: file.packages) := by
  rw [currentModule_eq, List.dropLast_concat]
  rfl

/-! ### What is computed -/

/-- The target of a `from` statement before its names, as the check computes it. -/
def computedTarget (currentPackage : List String) (level : ℕ) (module : List Identifier) : List String :=
  if level ≠ 0 then currentPackage.take (currentPackage.length - (level - 1)) ++ texts module else texts module

theorem filter_parts {name : List String} (parts : AreParts name) : name.filter (· ≠ "") = name :=
  List.filter_eq_self.mpr fun part member => decide_eq_true (parts part member).1

theorem areParts_computedTarget {currentPackage : List String} (parts : AreParts currentPackage) (level : ℕ)
    (module : List Identifier) : AreParts (computedTarget currentPackage level module) := by
  unfold computedTarget
  split
  · exact AreParts.append (fun part member => parts part (List.mem_of_mem_take member)) (areParts_texts module)
  · exact areParts_texts module

theorem join_target {target : List String} (parts : AreParts target) (name : Identifier) :
    joinWith '.' ([dotted target, name.text].filter (· ≠ "")) = dotted (target ++ [name.text]) := by
  by_cases none : target = []
  · have kept : [dotted [], name.text].filter (· ≠ "") = [name.text] := by
      have empty : dotted ([] : List String) = "" := rfl
      simp [empty, name.nonempty]
    rw [none, kept, List.nil_append, dotted]
  · have text := dotted_ne_empty none parts
    have kept : [dotted target, name.text].filter (· ≠ "") = [dotted target, name.text] := by
      simp [text, name.nonempty]
    rw [kept, dotted_append none (List.cons_ne_nil _ _)]
    apply String.toList_injective
    simp [dotted, joinWith, List.intercalate]

/-- **The name that the check computes is the target with the name behind.** -/
theorem importedBy_from {currentPackage : List String} (parts : AreParts currentPackage) (line level : ℕ)
    (module names : List Identifier) :
    importedBy currentPackage (.importFrom line level module names) =
      names.map fun name => (line, dotted (computedTarget currentPackage level module ++ [name.text])) := by
  have moduleParts : (if module = [] then [] else splitOnChar '.' (dotted (texts module))) = texts module := by
    by_cases none : module = []
    · rw [if_pos none, none]
      rfl
    · rw [if_neg none, split_dotted (by simpa [texts] using none) (areParts_texts module)]
  have targetParts := areParts_computedTarget parts level module
  have base : joinWith '.' ((computedTarget currentPackage level module).filter (· ≠ "")) =
      dotted (computedTarget currentPackage level module) := by
    rw [filter_parts targetParts, dotted]
  rw [importedBy, moduleParts]
  show (names.map fun name => (line, joinWith '.'
    ([joinWith '.' ((computedTarget currentPackage level module).filter (· ≠ "")), name.text].filter (· ≠ "")))) = _
  rw [base]
  exact List.map_congr_left fun name _ => congrArg (Prod.mk line) (join_target targetParts name)

/-! ### What is reported -/

section Reports

variable {boundary : Boundary} {file : ModuleFile}

theorem deniedImport_injective : Function.Injective (deniedImport boundary file) := by
  rintro ⟨line, name⟩ ⟨otherLine, otherName⟩ same
  rw [deniedImport, deniedImport, Violation.mk.injEq] at same
  obtain ⟨-, rfl, message⟩ := same
  have chars := congrArg String.toList message
  simp only [nameRepr, String.toList_append] at chars
  have names := List.append_cancel_left (List.append_cancel_left chars)
  rw [String.toList_injective (List.append_cancel_left (List.append_cancel_right names))]

/-- A dynamic import has another message. -/
theorem deniedImport_ne_dynamic (found : ℕ × String) (node : Node) :
    dynamicImport boundary file node ≠ some (deniedImport boundary file found) := by
  intro same
  unfold dynamicImport at same
  split at same
  · split at same
    · split at same
      · rw [deniedImport, Option.some.injEq, Violation.mk.injEq] at same
        have chars := congrArg String.toList same.2.2
        simp only [String.toList_append] at chars
        have behind := congrArg (fun chars : List Char => chars[1]?) (List.append_cancel_left chars)
        exact absurd (show some 'u' = some 'i' from behind) (by decide)
      · cases same
    · cases same
  · cases same

/-- **What is reported is what is computed and not allowed.** -/
theorem reports_iff [StandardLibrary] {tree : Node} {violations : List Violation}
    (checked : validateBoundaryFile boundary file (.tree tree) = .ok violations) {found : ℕ × String} :
    deniedImport boundary file found ∈ violations ↔
      (∃ node, Within Node.children node tree ∧ found ∈ importedBy (texts (boundary.name :: file.packages)) node) ∧
        found.2 ≠ "" ∧ isAllowed found.2 boundary.allowedImports = false := by
  rw [validateBoundaryFile, Except.ok.injEq] at checked
  have computed : found ∈ importedModules tree (currentModule boundary file) ↔
      ∃ node, Within Node.children node tree ∧ found ∈ importedBy (texts (boundary.name :: file.packages)) node := by
    rw [importedModules, List.mem_insertionSort, List.mem_flatMap, dropLast_currentModule]
    simp only [mem_walk]
  have notDynamic : deniedImport boundary file found ∉
      if boundary.denyDynamicImports then (walk tree).filterMap (dynamicImport boundary file) else [] := by
    split
    · intro member
      obtain ⟨node, -, same⟩ := List.mem_filterMap.mp member
      exact deniedImport_ne_dynamic found node same
    · exact List.not_mem_nil
  rw [← checked, List.mem_insertionSort, List.mem_append, or_iff_left notDynamic,
    List.mem_map_of_injective deniedImport_injective, List.mem_filter, computed]
  simp

end Reports

end McpAuth
