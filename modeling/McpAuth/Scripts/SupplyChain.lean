/-
**`validate_supply_chain.py` — the checks of one workflow file.**

The script reads a workflow as text: regular expressions find the rows of `permissions:` mappings and of
`uses:` references, and loops over `text.splitlines()` read the rows below them by their indentation. A row is
numbered by the line feeds before it and looked up among the lines.

`validateWorkflow_eq_nil_iff`: a file has no errors exactly when its top-level mapping, each permissions block
and each reference is accepted.
-/

import McpAuth.Library.Multidict
import McpAuth.Library.PyNumbers
import McpAuth.Library.TextRows
import McpAuth.Library.UrlSplit

namespace McpAuth

open PyText PyNumbers TextRows UrlSplit

/-! ### Permissions -/

/-- A match of `PERMISSIONS_HEADER`: its row, its indentation and the value behind it. -/
structure PermissionBlock where
  row : ℕ
  indent : ℕ
  value : Row
  deriving DecidableEq

/-- `PERMISSIONS_HEADER` at a row. The pattern is anchored at the start of a row and cannot leave it. -/
def permissionsHeader (index : ℕ) (row : Row) : Option PermissionBlock :=
  (afterPrefix "permissions:".toList (row.drop (indentOf row))).map fun rest =>
    ⟨index, indentOf row, (rest.dropWhile fun char => char == ' ' || char == '\t').takeWhile (· != '#')⟩

/-- `list(PERMISSIONS_HEADER.finditer(text))`. -/
def permissionBlocks (rows : List Row) : List PermissionBlock :=
  rows.zipIdx.filterMap fun numbered => permissionsHeader numbered.2 numbered.1

def isNameChar (char : Char) : Bool := ('a' ≤ char && char ≤ 'z') || char == '-'

/-- `PERMISSION_ENTRY.fullmatch`. -/
def permissionEntry (text : Row) : Option (String × String) :=
  let name := text.takeWhile isNameChar
  match afterPrefix [':'] (text.drop name.length) with
  | none => none
  | some rest =>
    let access := String.ofList ((rest.dropWhile isSpace).rdropWhile isSpace)
    if name ≠ [] ∧ (access = "read" ∨ access = "write" ∨ access = "none") then some (String.ofList name, access)
    else none

/-- The loop of `_permission_entries`. -/
def entriesFrom (indent : ℕ) (entries : List (String × String)) : List Row → List (String × String)
  | [] => entries
  | line :: later =>
    if isSkipped line then entriesFrom indent entries later
    else if indentOf line ≤ indent then entries
    else match permissionEntry (beforeComment (stripRow line)) with
      | some entry => entriesFrom indent (Multidict.put Prod.fst entry entries) later
      | none => entriesFrom indent entries later

/-- `_permission_entries`. -/
def permissionEntries (lines : List Row) (start indent : ℕ) : List (String × String) :=
  entriesFrom indent [] (lines.drop (start + 1))

def isJobChar (char : Char) : Bool := isAlpha char || isDigit char || char == '_' || char == '-'

/-- `JOB_HEADER.fullmatch`. -/
def jobHeader (line : Row) : Option String :=
  match line with
  | ' ' :: ' ' :: rest =>
    let name := rest.takeWhile isJobChar
    match afterPrefix [':'] (rest.drop name.length) with
    | none => none
    | some tail =>
      let comment := tail.dropWhile isSpace
      if name ≠ [] ∧ (comment = [] ∨ comment.head? = some '#') then some (String.ofList name) else none
  | _ => none

/-- The loop of `_permission_job` over the lines before a block, last one first. -/
def jobAbove : List Row → Option String
  | [] => none
  | line :: earlier =>
    if line = "jobs:".toList then none
    else match jobHeader line with
      | some name => some name
      | none => jobAbove earlier

/-- `_permission_job`. -/
def permissionJob (lines : List Row) (start indent : ℕ) : Option String :=
  if indent ≠ 4 then none else jobAbove (lines.take start).reverse

/-- `WORKFLOW_JOB_WRITE_PERMISSIONS`. -/
def workflowJobWritePermissions : List (String × List (String × List String)) :=
  [(".github/workflows/release-artifacts.yml",
      [("build-python-artifacts", ["artifact-metadata", "attestations", "id-token"]),
        ("publish-container", ["artifact-metadata", "attestations", "id-token", "packages"]),
        ("publish-github-release", ["contents"])]),
    (".github/workflows/publish-mcp-registry.yml", [("publish", ["id-token"])])]

/-- `WORKFLOW_JOB_WRITE_PERMISSIONS.get(display, {}).get(job, set())`, empty without a job. -/
def allowedWritePermissions (display : String) (job : Option String) : List String :=
  match job with
  | some name => (((workflowJobWritePermissions.lookup display).getD []).lookup name).getD []
  | none => []

/-- The errors about the top-level mapping. -/
def topLevelErrors (display : String) (lines : List Row) (blocks : List PermissionBlock) : List String :=
  match blocks.find? (·.indent = 0) with
  | none => [display ++ ": top-level permissions mapping is required"]
  | some block =>
    if stripRow block.value ≠ [] then [display ++ ": top-level permissions must be an explicit mapping"]
    else if (permissionEntries lines block.row 0).lookup "contents" ≠ some "read" then
      [display ++ ": top-level permissions must include contents: read"]
    else []

/-- The errors about one block. -/
def blockErrors (display : String) (lines : List Row) (block : PermissionBlock) : List String :=
  let value := String.ofList (stripRow block.value)
  if value = "write-all" ∨ value = "read-all" then
    [display ++ ": aggregate permission '" ++ value ++ "' is not allowed"]
  else if value ≠ "" then [display ++ ": permissions must use an explicit mapping"]
  else
    let job := permissionJob lines block.row block.indent
    let written := (permissionEntries lines block.row block.indent).filter fun entry =>
      entry.2 = "write" ∧ entry.1 ∉ allowedWritePermissions display job
    written.map fun entry =>
      display ++ ": write permission is outside the job allowlist (" ++ job.getD "workflow" ++ ": " ++
        entry.1 ++ ": write)"

/-! ### References -/

/-- A character of a reference: `[^\s#]`. -/
def isReferenceChar (char : Char) : Bool := !isSpace char && char != '#'

/-- `(?:-\s*)?`. -/
def behindDash : List Char → List Char
  | '-' :: later => later.dropWhile isSpace
  | rest => rest

/-- `uses:\s*(?P<reference>[^\s#]+)`: the reference and the text behind it. -/
def matchUses (text : List Char) : Option (Row × List Char) :=
  match afterPrefix "uses:".toList text with
  | none => none
  | some rest =>
    let rest := rest.dropWhile isSpace
    let reference := rest.takeWhile isReferenceChar
    if reference = [] then none else some (reference, rest.dropWhile isReferenceChar)

/-- `ACTION_REFERENCE` at the start of a row. -/
def matchReference (text : List Char) : Option (Row × List Char) :=
  matchUses (behindDash (text.dropWhile isSpace))

/-- `ACTION_REFERENCE.finditer(text)` from a row on, with the row of each match. A match may take several rows,
and the next one starts at a row below its last. -/
def findReferences : ℕ → ℕ → List Row → List (ℕ × Row)
  | _, _, [] => []
  | taken + 1, index, _ :: later => findReferences taken (index + 1) later
  | 0, index, row :: later =>
    match matchReference (joinRows (row :: later)) with
    | none => findReferences 0 (index + 1) later
    | some (reference, rest) =>
      (index, reference) ::
        findReferences ((joinRows (row :: later)).count '\n' - rest.count '\n') (index + 1) later

/-- A line that disables the persistence of credentials. -/
def isDiscardLine (line : Row) : Bool := beforeComment (stripRow line) == "persist-credentials: false".toList

/-- The loop of `_checkout_discards_credentials`. -/
def discardsFrom (usesIndent : ℕ) : List Row → Bool
  | [] => false
  | line :: later =>
    if isSkipped line then discardsFrom usesIndent later
    else if indentOf line < usesIndent then false
    else if isDiscardLine line then true
    else discardsFrom usesIndent later

/-- `_checkout_discards_credentials`. -/
def checkoutDiscardsCredentials (lines : List Row) (usesLine : ℕ) : Bool :=
  discardsFrom (indentOf (lines.getD usesLine [])) (lines.drop (usesLine + 1))

def isLowerHex (char : Char) : Bool := isDigit char || ('a' ≤ char && char ≤ 'f')

/-- `FULL_COMMIT_SHA.fullmatch`. -/
def isFullCommitSha (revision : Row) : Bool := revision.length == 40 && revision.all isLowerHex

/-- `CONTAINER_DIGEST.fullmatch`. -/
def isContainerDigest (digest : Row) : Bool :=
  match afterPrefix "sha256:".toList digest with
  | some digits => digits.length == 64 && digits.all isLowerHex
  | none => false

/-- `reference.rpartition("@")[0]`. -/
def actionOf (reference : Row) : Row := beforeLast '@' reference

/-- A third-party reference that is pinned to a commit. -/
def isPinned (reference : Row) : Bool :=
  reference.contains '@' && (actionOf reference).contains '/' && isFullCommitSha (afterLast '@' reference)

/-- The errors about one reference. -/
def referenceErrors (display : String) (lines : List Row) (found : ℕ × Row) : List String :=
  let (row, reference) := found
  let place := display ++ ":" ++ toString (row + 1)
  if "./".toList.isPrefixOf reference then []
  else if "docker://".toList.isPrefixOf reference then
    if !reference.contains '@' || !isContainerDigest (after '@' reference) then
      [place ++ ": container action must be pinned by sha256 digest"]
    else []
  else
    (if isPinned reference then [] else [place ++ ": third-party action must use a full commit SHA"]) ++
      if actionOf reference = "actions/checkout".toList ∧ checkoutDiscardsCredentials lines row = false then
        [place ++ ": checkout must set persist-credentials: false"]
      else []

/-! ### The workflow -/

/-- `validate_workflow` of the display path and of what reading the file gave: its text, or the text of an
`OSError`. -/
def validateWorkflow (display : String) (file : Except String String) : List String :=
  match file with
  | .error exception => [display ++ ": could not read workflow: " ++ exception]
  | .ok text =>
    let rows := rowsOf text.toList
    let lines := splitLines text.toList
    let blocks := permissionBlocks rows
    topLevelErrors display lines blocks ++ blocks.flatMap (blockErrors display lines) ++
      (findReferences 0 0 rows).flatMap (referenceErrors display lines)

/-! ### Acceptance -/

/-- The first block without indentation is an explicit mapping in which `contents` is read as `read`. -/
def TopLevelAccepted (lines : List Row) (blocks : List PermissionBlock) : Prop :=
  ∃ block, blocks.find? (·.indent = 0) = some block ∧ stripRow block.value = [] ∧
    (permissionEntries lines block.row 0).lookup "contents" = some "read"

/-- The block is an explicit mapping, and what is read as `write` in it is allowed for the job above it. -/
def BlockAccepted (display : String) (lines : List Row) (block : PermissionBlock) : Prop :=
  stripRow block.value = [] ∧ ∀ entry ∈ permissionEntries lines block.row block.indent, entry.2 = "write" →
    entry.1 ∈ allowedWritePermissions display (permissionJob lines block.row block.indent)

/-- The reference is local, a container with a digest, or pinned to a commit. -/
inductive PinnedReference (reference : Row) : Prop
  | inRepository : "./".toList.isPrefixOf reference = true → PinnedReference reference
  | container : "docker://".toList.isPrefixOf reference = true → '@' ∈ reference →
      isContainerDigest (after '@' reference) = true → PinnedReference reference
  | commit : "docker://".toList.isPrefixOf reference = false → isPinned reference = true → PinnedReference reference

/-- After a line, one that discards credentials comes before the first one that is indented less. -/
def Covered (lines : List Row) (start : ℕ) : Prop :=
  ∃ between line later, lines.drop (start + 1) = between ++ line :: later ∧ isDiscardLine line = true ∧
    ∀ other ∈ between ++ [line], isSkipped other = false → indentOf (lines.getD start []) ≤ indentOf other

/-- The reference is pinned, and a checkout is covered. -/
def ReferenceAccepted (lines : List Row) (found : ℕ × Row) : Prop :=
  PinnedReference found.2 ∧ (actionOf found.2 = "actions/checkout".toList → Covered lines found.1)

theorem topLevelErrors_eq_nil_iff {display : String} {lines : List Row} {blocks : List PermissionBlock} :
    topLevelErrors display lines blocks = [] ↔ TopLevelAccepted lines blocks := by
  unfold topLevelErrors TopLevelAccepted
  cases blocks.find? (·.indent = 0) with
  | none => simp
  | some block =>
    by_cases value : stripRow block.value = []
    · by_cases reads : (permissionEntries lines block.row 0).lookup "contents" = some "read"
      · simp [value, reads]
      · simp [value, reads]
    · simp [value]

theorem blockErrors_eq_nil_iff {display : String} {lines : List Row} {block : PermissionBlock} :
    blockErrors display lines block = [] ↔ BlockAccepted display lines block := by
  have blank : String.ofList (stripRow block.value) = "" ↔ stripRow block.value = [] := by
    rw [← String.toList_inj, String.toList_ofList]
    rfl
  unfold blockErrors BlockAccepted
  dsimp only
  by_cases aggregate : String.ofList (stripRow block.value) = "write-all" ∨
      String.ofList (stripRow block.value) = "read-all"
  · rw [if_pos aggregate, ← blank]
    refine iff_of_false (List.cons_ne_nil _ _) fun accepted => ?_
    rw [accepted.1] at aggregate
    revert aggregate
    decide
  · rw [if_neg aggregate]
    by_cases value : String.ofList (stripRow block.value) = ""
    · rw [if_neg (not_not.mpr value), List.map_eq_nil_iff, List.filter_eq_nil_iff]
      simp [blank.mp value]
    · rw [if_pos value, ← blank]
      exact iff_of_false (List.cons_ne_nil _ _) fun accepted => value accepted.1

/-- A line that discards credentials is neither blank nor a comment. -/
theorem not_isSkipped_of_isDiscardLine {line : Row} (discards : isDiscardLine line = true) :
    isSkipped line = false := by
  have isText : beforeComment (stripRow line) = "persist-credentials: false".toList := by
    simpa [isDiscardLine] using discards
  unfold isSkipped
  cases stripped : stripRow line with
  | nil =>
    rw [stripped] at isText
    exact absurd isText (by decide)
  | cons first rest =>
    by_cases comment : first = '#'
    · subst comment
      rw [stripped] at isText
      have starts := congrArg List.head? isText
      simp [beforeComment] at starts
    · simpa using comment

theorem discardsFrom_iff {indent : ℕ} {lines : List Row} :
    discardsFrom indent lines = true ↔ ∃ between line later, lines = between ++ line :: later ∧
      isDiscardLine line = true ∧ ∀ other ∈ between ++ [line], isSkipped other = false → indent ≤ indentOf other := by
  induction lines with
  | nil =>
    refine iff_of_false (by simp [discardsFrom]) ?_
    rintro ⟨between, line, later, same, -⟩
    simp at same
  | cons first rest ih =>
    rw [discardsFrom]
    constructor
    · intro found
      split at found
      · rename_i skipped
        obtain ⟨between, line, later, rfl, discards, indented⟩ := ih.mp found
        refine ⟨first :: between, line, later, rfl, discards, ?_⟩
        rw [List.cons_append, List.forall_mem_cons]
        exact ⟨fun content => absurd (skipped.symm.trans content) (by decide), indented⟩
      · split at found
        · cases found
        rename_i deep
        split at found
        · rename_i discards
          exact ⟨[], first, rest, rfl, discards, by simpa using fun _ => not_lt.mp deep⟩
        · obtain ⟨between, line, later, rfl, discards, indented⟩ := ih.mp found
          refine ⟨first :: between, line, later, rfl, discards, ?_⟩
          rw [List.cons_append, List.forall_mem_cons]
          exact ⟨fun _ => not_lt.mp deep, indented⟩
    · rintro ⟨between, line, later, same, discards, indented⟩
      cases between with
      | nil =>
        rw [List.nil_append, List.cons.injEq] at same
        obtain ⟨rfl, rfl⟩ := same
        have content := not_isSkipped_of_isDiscardLine discards
        have deep := indented first (by simp) content
        rw [content, if_neg Bool.false_ne_true, if_neg (not_lt.mpr deep), if_pos discards]
      | cons first' between =>
        rw [List.cons_append, List.cons.injEq] at same
        obtain ⟨rfl, rfl⟩ := same
        rw [List.cons_append, List.forall_mem_cons] at indented
        have found := ih.mpr ⟨between, line, later, rfl, discards, indented.2⟩
        by_cases skipped : isSkipped first = true
        · rw [if_pos skipped, found]
        · rw [if_neg skipped, if_neg (not_lt.mpr (indented.1 (by simpa using skipped))), found]
          split <;> rfl

theorem checkoutDiscardsCredentials_iff {lines : List Row} {start : ℕ} :
    checkoutDiscardsCredentials lines start = true ↔ Covered lines start :=
  discardsFrom_iff

theorem head_of_checkout {reference : Row} (checkout : actionOf reference = "actions/checkout".toList) :
    reference.head? = some 'a' := by
  have within : actionOf reference <+: reference := by
    have suffix := (List.drop_suffix 1 (reference.reverse.dropWhile (· ≠ '@'))).trans (List.dropWhile_suffix _)
    have reversed := List.reverse_prefix.mpr suffix
    rwa [List.reverse_reverse] at reversed
  rw [checkout] at within
  obtain ⟨rest, rfl⟩ := within
  rfl

theorem referenceErrors_eq_nil_iff {display : String} {lines : List Row} {found : ℕ × Row} :
    referenceErrors display lines found = [] ↔ ReferenceAccepted lines found := by
  obtain ⟨row, reference⟩ := found
  have noCheckout : ∀ start : Row, start.isPrefixOf reference = true → start.head? ≠ some 'a' → start ≠ [] →
      actionOf reference ≠ "actions/checkout".toList := by
    intro start starts other nonempty checkout
    obtain ⟨rest, rfl⟩ := List.isPrefixOf_iff_prefix.mp starts
    have head := head_of_checkout checkout
    rw [List.head?_append_of_ne_nil _ nonempty] at head
    exact other head
  unfold referenceErrors ReferenceAccepted
  dsimp only
  by_cases isLocal : "./".toList.isPrefixOf reference = true
  · rw [if_pos isLocal]
    have other := noCheckout _ isLocal (by decide) (by decide)
    exact iff_of_true rfl ⟨.inRepository isLocal, fun checkout => absurd checkout other⟩
  rw [if_neg isLocal]
  by_cases isContainer : "docker://".toList.isPrefixOf reference = true
  · rw [if_pos isContainer]
    have other := noCheckout _ isContainer (by decide) (by decide)
    by_cases digest : '@' ∈ reference ∧ isContainerDigest (after '@' reference) = true
    · rw [if_neg (by simp [digest.1, digest.2])]
      exact iff_of_true rfl ⟨.container isContainer digest.1 digest.2, fun checkout => absurd checkout other⟩
    · rw [if_pos (by simpa [imp_iff_not_or] using digest)]
      refine iff_of_false (List.cons_ne_nil _ _) ?_
      rintro ⟨pinned, -⟩
      cases pinned with
      | inRepository isLocal' => exact isLocal isLocal'
      | container _ at' isDigest => exact digest ⟨at', isDigest⟩
      | commit noContainer _ => exact Bool.false_ne_true (noContainer.symm.trans isContainer)
  · rw [if_neg isContainer, List.append_eq_nil_iff]
    have commit_iff : PinnedReference reference ↔ isPinned reference = true := by
      constructor
      · intro pinned
        cases pinned with
        | inRepository isLocal' => exact absurd isLocal' isLocal
        | container isContainer' _ _ => exact absurd isContainer' isContainer
        | commit _ isCommit => exact isCommit
      · exact .commit (eq_false_of_ne_true isContainer)
    rw [commit_iff, ← checkoutDiscardsCredentials_iff]
    refine and_congr ?_ ?_
    · cases isPinned reference <;> simp
    · by_cases checkout : actionOf reference = "actions/checkout".toList
      · cases discards : checkoutDiscardsCredentials lines row with
        | false =>
          rw [if_pos ⟨checkout, rfl⟩]
          exact iff_of_false (List.cons_ne_nil _ _) fun covered => Bool.false_ne_true (covered checkout)
        | true =>
          rw [if_neg fun both => Bool.false_ne_true both.2.symm]
          exact iff_of_true rfl fun _ => rfl
      · rw [if_neg fun both => checkout both.1]
        exact iff_of_true rfl fun isCheckout => absurd isCheckout checkout

/-- **When a workflow has no errors.** -/
theorem validateWorkflow_eq_nil_iff {display text : String} :
    validateWorkflow display (.ok text) = [] ↔
      TopLevelAccepted (splitLines text.toList) (permissionBlocks (rowsOf text.toList)) ∧
        (∀ block ∈ permissionBlocks (rowsOf text.toList), BlockAccepted display (splitLines text.toList) block) ∧
        ∀ found ∈ findReferences 0 0 (rowsOf text.toList), ReferenceAccepted (splitLines text.toList) found := by
  unfold validateWorkflow
  dsimp only
  rw [List.append_eq_nil_iff, List.append_eq_nil_iff, List.flatMap_eq_nil_iff, List.flatMap_eq_nil_iff,
    topLevelErrors_eq_nil_iff, and_assoc]
  simp only [blockErrors_eq_nil_iff, referenceErrors_eq_nil_iff]

end McpAuth
