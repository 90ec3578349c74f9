/-
**The permissions of a workflow, and what the scanner sees of them.**

A workflow in block style has permissions mappings at its top level and in its jobs. Keys are plain; the value of an
entry is a scalar in one of the styles of YAML, behind the key or on a row below it, or anything else over several
rows.

`permissions_sound_iff`: the errors of `validate_workflow` are sound for the permissions exactly when, as soon as an
entry writes what is not listed for its job or the top level does not read the contents, a write is noticed, no row
below a top-level `permissions:` says `contents: read`, or the workflow is rejected for something else.

A write is noticed when it is written `name: write` on one row, with a name of lowercase letters and hyphens and a
comment only behind a space (`plainWrite_of_read`), below `permissions:` without white space in front of the colon, and
when no row of its mapping further down gives the name another access. In the fourth column the job whose header is
the lowest one above must not list it; in another column nothing is listed. A quoted `"write"`, a value on the row
below its key, a key with a space before its colon or an uppercase letter are not noticed.
-/

import McpAuth.Scripts.PermissionBlocks

namespace McpAuth

open PyText TextRows YamlScalar

/-! ### Mappings -/

/-- The value of an entry, from behind its colon. -/
inductive EntryValue
  /-- A scalar on the row of the key. -/
  | behind (separation : Row) (scalar : Scalar) (trailing : Row)
  /-- A scalar on a row of its own. -/
  | below (trailing : Row) (skipped : List Row) (indent : ℕ) (scalar : Scalar) (trailing' : Row)
  /-- Nothing, a mapping or a sequence, or a scalar that is folded over several rows. -/
  | other (trailing : Row) (rows : List Row)
  deriving DecidableEq

/-- The row of the key behind its colon. -/
def EntryValue.keyRow : EntryValue → Row
  | .behind separation scalar trailing => separation ++ scalar.text ++ trailing
  | .below trailing .. => trailing
  | .other trailing _ => trailing

/-- The rows below the key. -/
def EntryValue.rowsBelow : EntryValue → List Row
  | .behind .. => []
  | .below _ skipped indent scalar trailing => skipped ++ [spaces indent ++ scalar.text ++ trailing]
  | .other _ rows => rows

def EntryValue.value : EntryValue → Option Row
  | .behind _ scalar _ => some scalar.value
  | .below _ _ _ scalar _ => some scalar.value
  | .other .. => none

/-- A key with its value, below blank rows and comments. -/
structure MappingEntry where
  skipped : List Row
  name : Row
  gap : Row
  value : EntryValue
  deriving DecidableEq

/-- A permissions mapping: what is around the colon of its header, the column of its entries, and these. -/
structure PermissionMapping where
  gap : Row
  trailing : Row
  column : ℕ
  entries : List MappingEntry
  deriving DecidableEq

def MappingEntry.rows (column : ℕ) (entry : MappingEntry) : List Row :=
  entry.skipped ++ keyRow column entry.name entry.gap entry.value.keyRow :: entry.value.rowsBelow

def PermissionMapping.rows (column : ℕ) (mapping : PermissionMapping) : List Row :=
  keyRow column "permissions".toList mapping.gap mapping.trailing ::
    mapping.entries.flatMap (MappingEntry.rows mapping.column)

/-- The names of the entries whose value is the string. -/
def PermissionMapping.granted (access : String) (mapping : PermissionMapping) : List String :=
  (mapping.entries.filter (·.value.value = some access.toList)).map (String.ofList ·.name)

/-! ### Workflows -/

/-- A row of a job that is not part of its permissions, or these. -/
inductive JobPart
  | row (row : Row)
  | permissions (mapping : PermissionMapping)
  deriving DecidableEq

/-- A job: its name, what is around the colon, the column of its keys, and these. -/
structure Job where
  name : Row
  gap : Row
  trailing : Row
  column : ℕ
  parts : List JobPart
  deriving DecidableEq

/-- A row outside the permissions and jobs, the permissions, or the jobs. -/
inductive TopPart
  | row (row : Row)
  | permissions (mapping : PermissionMapping)
  | jobs (gap trailing : Row) (skipped : List Row) (column : ℕ) (members : List Job)
  deriving DecidableEq

/-- A workflow with its keys in a column. -/
structure Workflow where
  column : ℕ
  parts : List TopPart
  deriving DecidableEq

def JobPart.rows (column : ℕ) : JobPart → List Row
  | .row line => [line]
  | .permissions mapping => mapping.rows column

def Job.rows (column : ℕ) (job : Job) : List Row :=
  keyRow column job.name job.gap job.trailing :: job.parts.flatMap (JobPart.rows job.column)

def TopPart.rows (column : ℕ) : TopPart → List Row
  | .row line => [line]
  | .permissions mapping => mapping.rows column
  | .jobs gap trailing skipped jobColumn members =>
    keyRow column "jobs".toList gap trailing :: (skipped ++ members.flatMap (Job.rows jobColumn))

def Workflow.rows (workflow : Workflow) : List Row := workflow.parts.flatMap (TopPart.rows workflow.column)

def Workflow.text (workflow : Workflow) : String := String.ofList (joinRows workflow.rows)

/-- The entries of the jobs and of the top level with that access: the job, and the name. -/
def TopPart.granted (access : String) : TopPart → List (Option String × String)
  | .row _ => []
  | .permissions mapping => (mapping.granted access).map (none, ·)
  | .jobs _ _ _ _ members => members.flatMap fun job => job.parts.flatMap fun part =>
    match part with
    | .row _ => []
    | .permissions mapping => (mapping.granted access).map (some (String.ofList job.name), ·)

def Workflow.granted (access : String) (workflow : Workflow) : List (Option String × String) :=
  workflow.parts.flatMap (TopPart.granted access)

/-! ### Block style -/

/-- Rows of content are in a column or deeper. -/
def Deep (column : ℕ) (row : Row) : Prop := '\n' ∉ row ∧ (isSkipped row = false → column ≤ indentOf row)

/-- Blank rows and comments. -/
def Skippable (rows : List Row) : Prop := ∀ row ∈ rows, '\n' ∉ row ∧ isSkipped row = true

/-- What is around the colon behind a plain key. -/
structure KeyWellFormed (name gap : Row) : Prop where
  name : IsPlain name
  gap : ∀ char ∈ gap, isWhite char = true

def EntryValue.WellFormed (column : ℕ) : EntryValue → Prop
  | .behind separation scalar trailing =>
    separation ≠ [] ∧ (∀ char ∈ separation, isWhite char = true) ∧ scalar.WellFormed ∧ Trailing trailing
  | .below trailing skipped indent scalar trailing' =>
    Trailing trailing ∧ Skippable skipped ∧ column < indent ∧ scalar.WellFormed ∧ Trailing trailing'
  | .other trailing rows => '\n' ∉ trailing ∧ ∀ row ∈ rows, Deep column row

structure MappingEntry.WellFormed (column : ℕ) (entry : MappingEntry) : Prop where
  skipped : Skippable entry.skipped
  key : KeyWellFormed entry.name entry.gap
  value : entry.value.WellFormed column

structure PermissionMapping.WellFormed (column : ℕ) (mapping : PermissionMapping) : Prop where
  key : KeyWellFormed "permissions".toList mapping.gap
  trailing : Trailing mapping.trailing
  deeper : column < mapping.column
  entries : ∀ entry ∈ mapping.entries, entry.WellFormed mapping.column

def JobPart.WellFormed (column : ℕ) : JobPart → Prop
  | .row line => Deep column line
  | .permissions mapping => mapping.WellFormed column

structure Job.WellFormed (column : ℕ) (job : Job) : Prop where
  key : KeyWellFormed job.name job.gap
  trailing : Trailing job.trailing
  deeper : column < job.column
  parts : ∀ part ∈ job.parts, part.WellFormed job.column

def TopPart.WellFormed (column : ℕ) : TopPart → Prop
  | .row line => Deep column line
  | .permissions mapping => mapping.WellFormed column
  | .jobs gap trailing skipped jobColumn members => KeyWellFormed "jobs".toList gap ∧ Trailing trailing ∧
    Skippable skipped ∧ column < jobColumn ∧ ∀ job ∈ members, job.WellFormed jobColumn

/-- A workflow in block style. -/
def Workflow.WellFormed (workflow : Workflow) : Prop := ∀ part ∈ workflow.parts, part.WellFormed workflow.column

/-! ### Soundness -/

/-- The permission is listed for the job. -/
def Listed (display : String) (write : Option String × String) : Prop :=
  ∃ job, write.1 = some job ∧ write.2 ∈ allowedWritePermissions display (some job)

/-- **No errors, and every entry that writes is listed for its job, and the top level reads the contents.** -/
def PermissionsSound (display : String) (workflow : Workflow) : Prop :=
  validateWorkflow display (.ok workflow.text) = [] →
    (∀ write ∈ workflow.granted "write", Listed display write) ∧ (none, "contents") ∈ workflow.granted "read"

/-! ### Where mappings and their entries stand -/

/-- The row of the key of an entry. -/
def MappingEntry.row (column : ℕ) (entry : MappingEntry) : Row :=
  keyRow column entry.name entry.gap entry.value.keyRow

/-- A mapping of the workflow: the column of its header, the rows above it and those below its entries. -/
inductive MappingAt (workflow : Workflow) : ℕ → List Row → PermissionMapping → List Row → Prop
  | top {before after : List TopPart} {mapping : PermissionMapping} :
      workflow.parts = before ++ .permissions mapping :: after →
      MappingAt workflow workflow.column (before.flatMap (TopPart.rows workflow.column)) mapping
        (after.flatMap (TopPart.rows workflow.column))
  | job {before after : List TopPart} {gap trailing : Row} {skipped : List Row} {column : ℕ} {first later : List Job}
      {job : Job} {upper lower : List JobPart} {mapping : PermissionMapping} :
      workflow.parts = before ++ .jobs gap trailing skipped column (first ++ job :: later) :: after →
      job.parts = upper ++ .permissions mapping :: lower →
      MappingAt workflow job.column
        (before.flatMap (TopPart.rows workflow.column) ++ keyRow workflow.column "jobs".toList gap trailing ::
          (skipped ++ first.flatMap (Job.rows column)) ++ keyRow column job.name job.gap job.trailing ::
            upper.flatMap (JobPart.rows job.column)) mapping
        (lower.flatMap (JobPart.rows job.column) ++ later.flatMap (Job.rows column) ++
          after.flatMap (TopPart.rows workflow.column))

/-- An entry of a mapping, and the rows below it. -/
def EntryAt (workflow : Workflow) (column : ℕ) (above : List Row) (mapping : PermissionMapping) (entry : MappingEntry)
    (below : List Row) : Prop :=
  ∃ first later rest, MappingAt workflow column above mapping rest ∧ mapping.entries = first ++ entry :: later ∧
    below = later.flatMap (MappingEntry.rows mapping.column) ++ rest

/-- The only line boundary is `\n`. -/
def Workflow.PlainRows (workflow : Workflow) : Prop := ∀ row ∈ workflow.rows, ∀ char ∈ row, isLineBreak char = false

/-! ### What is noticed -/

/-- An entry written `name: write`, with lowercase letters and hyphens for its name. -/
structure MappingEntry.PlainWrite (entry : MappingEntry) : Prop where
  name : ∀ char ∈ entry.name, isNameChar char = true
  gap : entry.gap = []
  value : ∃ separation trailing, (∀ char ∈ separation, isWhite char = true) ∧ PlainTrailing trailing ∧
    entry.value = .behind separation (.plain "write".toList) trailing

/-- Behind another access that is read under the name, a write is read under it. -/
def EndsInWrite (name : String) (read : List (String × String)) : Prop :=
  ∀ upper other more, read = upper ++ other :: more → other.1 = name → other ≠ (name, "write") → (name, "write") ∈ more

/-- **A write that is an error**: a plain spelling below a plain header, not read again with another access below, and
in the fourth column not allowed for the job whose header is the lowest one above. -/
structure Noticed (display : String) (column : ℕ) (above : List Row) (mapping : PermissionMapping)
    (entry : MappingEntry) (below : List Row) : Prop where
  header : mapping.gap = []
  write : entry.PlainWrite
  last : EndsInWrite (String.ofList entry.name) (readEntries column below)
  owner : column = 4 → ∀ name, OwnerAbove above name →
    String.ofList entry.name ∉ allowedWritePermissions display (some (String.ofList name))

/-- A write of the workflow is noticed. -/
def NoticedWrite (display : String) (workflow : Workflow) : Prop :=
  workflow.PlainRows ∧ ∃ column above mapping entry below, EntryAt workflow column above mapping entry below ∧
    Noticed display column above mapping entry below

/-- Below an unindented `permissions:`, a row is read as `contents: read`. -/
def ContentsRead (rows : List Row) : Prop :=
  ∃ above header below, rows = above ++ header :: below ∧ "permissions:".toList <+: header ∧
    ("contents", "read") ∈ readEntries 0 below

/-- What a workflow is rejected for other than a noticed write, and other than for no row `contents: read`. -/
inductive RejectedBesides (display : String) (workflow : Workflow) : Prop
  | topLevel : (workflow.PlainRows → ContentsRead workflow.rows) →
      ¬ TopLevelAccepted (splitLines workflow.text.toList) (permissionBlocks (rowsOf workflow.text.toList)) →
      RejectedBesides display workflow
  | value {block : PermissionBlock} : block ∈ permissionBlocks (rowsOf workflow.text.toList) →
      stripRow block.value ≠ [] → RejectedBesides display workflow
  /-- Not the row of an entry that YAML reads as the write. -/
  | otherRow {block : PermissionBlock} {name : String} : block ∈ permissionBlocks (rowsOf workflow.text.toList) →
      ReadsLast (splitLines workflow.text.toList) block.row block.indent name "write" →
      name ∉ allowedWritePermissions display
        (permissionJob (splitLines workflow.text.toList) block.row block.indent) →
      (workflow.PlainRows → ∀ column above mapping entry below, EntryAt workflow column above mapping entry below →
        above.length = block.row → entry.value.value = some "write".toList → String.ofList entry.name = name →
        readEntry (entry.row mapping.column) ≠ some (name, "write")) →
      RejectedBesides display workflow
  | reference {found : ℕ × Row} : found ∈ findReferences 0 0 (rowsOf workflow.text.toList) →
      ¬ ReferenceAccepted (splitLines workflow.text.toList) found → RejectedBesides display workflow

theorem listed_iff {display : String} {write : Option String × String} :
    Listed display write ↔ write.2 ∈ allowedWritePermissions display write.1 := by
  obtain ⟨job, name⟩ := write
  cases job with
  | none => exact iff_of_false (fun ⟨_, same, _⟩ => by cases same) (List.not_mem_nil)
  | some job => exact ⟨fun ⟨_, same, member⟩ => by cases same; exact member, fun member => ⟨job, rfl, member⟩⟩

/-! ### The rows of a workflow -/

theorem le_indentOf_spaces (count : ℕ) (rest : Row) : count ≤ indentOf (spaces count ++ rest) := by
  have isSpaces : ∀ char ∈ spaces count, (char == ' ') = true := by
    intro char member
    rw [List.eq_of_mem_replicate member]
    rfl
  rw [indentOf, List.takeWhile_append_of_pos isSpaces, List.length_append, spaces, List.length_replicate]
  exact Nat.le_add_right _ _

theorem le_indentOf_keyRow (column : ℕ) (name gap rest : Row) : column ≤ indentOf (keyRow column name gap rest) := by
  unfold keyRow
  simp only [List.append_assoc]
  exact le_indentOf_spaces column _

/-- **The rows of an entry are in its column or deeper.** -/
theorem MappingEntry.WellFormed.deep {column : ℕ} {entry : MappingEntry} (wellFormed : entry.WellFormed column) :
    ∀ row ∈ entry.rows column, isSkipped row = false → column ≤ indentOf row := by
  intro row member content
  rcases List.mem_append.mp member with skipped | inValue
  · exact absurd ((wellFormed.skipped row skipped).2.symm.trans content) (by decide)
  rcases List.mem_cons.mp inValue with rfl | below
  · exact le_indentOf_keyRow _ _ _ _
  · have value := wellFormed.value
    cases shape : entry.value with
    | behind separation scalar trailing =>
      rw [shape] at below
      cases below
    | below trailing skipped indent scalar trailing' =>
      rw [shape] at below value
      obtain ⟨-, skippable, deeperValue, -, -⟩ := value
      rcases List.mem_append.mp below with isSkippable | isValue
      · exact absurd ((skippable row isSkippable).2.symm.trans content) (by decide)
      · rw [List.mem_singleton.mp isValue, List.append_assoc]
        exact deeperValue.le.trans (le_indentOf_spaces _ _)
    | other trailing rows =>
      rw [shape] at below value
      exact (value.2 row below).2 content

theorem PermissionMapping.WellFormed.deep {column : ℕ} {mapping : PermissionMapping}
    (wellFormed : mapping.WellFormed column) {entries : List MappingEntry} (inside : entries ⊆ mapping.entries) :
    ∀ row ∈ entries.flatMap (MappingEntry.rows mapping.column), isSkipped row = false → column < indentOf row := by
  intro row member content
  obtain ⟨entry, isEntry, inEntry⟩ := List.mem_flatMap.mp member
  exact wellFormed.deeper.trans_le ((wellFormed.entries entry (inside isEntry)).deep row inEntry content)

/-- **The rows of a job are in the column of its keys or deeper.** -/
theorem JobPart.WellFormed.deep {column : ℕ} {part : JobPart} (wellFormed : part.WellFormed column) :
    ∀ row ∈ part.rows column, isSkipped row = false → column ≤ indentOf row := by
  intro row member content
  cases part with
  | row line =>
    cases List.mem_singleton.mp member
    exact wellFormed.2 content
  | permissions mapping =>
    rcases List.mem_cons.mp member with rfl | inEntries
    · exact le_indentOf_keyRow _ _ _ _
    · exact (PermissionMapping.WellFormed.deep wellFormed (List.Subset.refl _) row inEntries content).le

/-- The rows of a workflow around one of its mappings. -/
theorem MappingAt.rows_eq {workflow : Workflow} {column : ℕ} {above below : List Row} {mapping : PermissionMapping}
    (at' : MappingAt workflow column above mapping below) :
    workflow.rows = above ++ keyRow column "permissions".toList mapping.gap mapping.trailing ::
      (mapping.entries.flatMap (MappingEntry.rows mapping.column) ++ below) := by
  cases at' with
  | top split => simp [Workflow.rows, split, TopPart.rows, PermissionMapping.rows]
  | job split inJob =>
    simp [Workflow.rows, split, TopPart.rows, Job.rows, inJob, JobPart.rows, PermissionMapping.rows]

theorem MappingAt.wellFormed {workflow : Workflow} {column : ℕ} {above below : List Row} {mapping : PermissionMapping}
    (at' : MappingAt workflow column above mapping below) (wellFormed : workflow.WellFormed) :
    mapping.WellFormed column := by
  cases at' with
  | top split => exact wellFormed (.permissions mapping) (by simp [split])
  | @job before after gap trailing skipped jobColumn first later job upper lower _ split inJob =>
    obtain ⟨-, -, -, -, jobs⟩ := wellFormed (.jobs gap trailing skipped jobColumn (first ++ job :: later))
      (by simp [split])
    exact (jobs job (by simp)).parts (.permissions mapping) (by simp [inJob])

/-- The rows of the text of a workflow are its rows. -/
theorem Workflow.PlainRows.rowsOf_text {workflow : Workflow} (plain : workflow.PlainRows) (nonempty : workflow.rows ≠ []) :
    rowsOf workflow.text.toList = workflow.rows := by
  have free : ∀ row ∈ workflow.rows, '\n' ∉ row := fun row isRow feed =>
    absurd (plain row isRow _ feed) (by decide)
  rw [Workflow.text, String.toList_ofList, rowsOf_joinRows nonempty free]

/-- **A mapping is read in the rows as it is in the lines.** -/
theorem Workflow.PlainRows.readEntries_lines {workflow : Workflow} (plain : workflow.PlainRows)
    (nonempty : workflow.rows ≠ []) (indent start : ℕ) :
    readEntries indent ((splitLines workflow.text.toList).drop start) = readEntries indent (workflow.rows.drop start) := by
  obtain ⟨tail, split, blank⟩ := lines_of_rows nonempty plain
  rw [Workflow.text, String.toList_ofList, readEntries, readEntries]
  conv_rhs => rw [split, List.drop_append, mappingLines_blank fun row member => blank row (List.mem_of_mem_drop member)]

/-- The lines above a row that is not empty are the rows above it. -/
theorem Workflow.PlainRows.take_lines {workflow : Workflow} (plain : workflow.PlainRows) {above below : List Row}
    {row : Row} (split : workflow.rows = above ++ row :: below) (content : row ≠ []) :
    (splitLines workflow.text.toList).take above.length = above := by
  obtain ⟨tail, whole, blank⟩ := lines_of_rows (by simp [split]) plain
  rw [Workflow.text, String.toList_ofList]
  have inside : above.length < (splitLines (joinRows workflow.rows)).length := by
    by_contra outside
    have here : workflow.rows[above.length]? = some row := by simp [split]
    rw [whole, List.getElem?_append_right (not_lt.mp outside)] at here
    exact content (blank row (List.mem_of_getElem? here))
  have taken := congrArg (List.take above.length) whole
  rw [List.take_append_of_le_length inside.le] at taken
  conv at taken =>
    lhs
    rw [split, List.take_left]
  exact taken.symm

/-! ### Which writes are noticed -/

/-- A comment behind a tab would be read as text. -/
theorem plainTrailing_of_read {first trailing : Row} (isTrailing : Trailing trailing) (noHash : '#' ∉ first)
    (read : '#' ∉ stripRow (beforeComment ((first ++ trailing).rdropWhile isSpace))) : PlainTrailing trailing := by
  have split := List.takeWhile_append_dropWhile (p := isWhite) (l := trailing)
  have isBlank : ∀ char ∈ trailing.takeWhile isWhite, isWhite char = true := fun char => List.mem_takeWhile_imp
  have noHashBlank : '#' ∉ trailing.takeWhile isWhite := fun member => absurd (isBlank _ member) (by decide)
  cases rest : trailing.dropWhile isWhite with
  | nil =>
    rw [rest, List.append_nil] at split
    exact ⟨trailing, split ▸ isBlank, Or.inl rfl⟩
  | cons hash comment =>
    cases isTrailing.comment hash (by rw [rest]; rfl)
    rw [rest] at split
    rcases List.eq_nil_or_concat (trailing.takeWhile isWhite) with none | ⟨blank, white, shape⟩
    · rw [none, List.nil_append] at split
      exact absurd (isTrailing.begins '#' (by rw [← split]; rfl)) (by decide)
    · rw [List.concat_eq_append] at shape
      rw [shape] at split isBlank noHashBlank
      by_cases space : white = ' '
      · subst space
        exact ⟨blank, fun char member => isBlank char (by simp [member]), Or.inr ⟨comment, by simp [← split]⟩⟩
      · refine absurd (mem_stripRow (by decide) ?_) read
        have ends : (first ++ (blank ++ [white]) ++ ['#']).getLast? = some '#' := List.getLast?_concat
        have kept := rdropWhile_append comment ends (by decide : isSpace '#' = false)
        have whole : first ++ trailing = first ++ (blank ++ [white]) ++ ['#'] ++ comment := by simp [← split]
        rw [whole, kept, List.append_assoc, List.singleton_append, beforeComment_hash]
        · simp
        · simp only [List.mem_append, not_or] at noHashBlank ⊢
          exact ⟨noHash, noHashBlank⟩
        · rw [← List.append_assoc, List.getLast?_concat]
          exact fun same => space (Option.some.inj same)

/-- **An entry that YAML reads as a write, and the scanner too, is spelled plainly.** -/
theorem plainWrite_of_read {column : ℕ} {entry : MappingEntry} (wellFormed : entry.WellFormed column)
    (writes : entry.value.value = some "write".toList)
    (read : readEntry (entry.row column) = some (String.ofList entry.name, "write")) : entry.PlainWrite := by
  obtain ⟨chars, noGap, spelled⟩ := spelled_of_readEntry wellFormed.key.name.nonempty wellFormed.key.gap read
  have begins : 'w' ∈ (entry.value.keyRow.dropWhile isSpace).head? := head_of_stripRow (by rw [spelled]; rfl)
  refine ⟨chars, noGap, ?_⟩
  have value := wellFormed.value
  cases shape : entry.value with
  | behind separation scalar trailing =>
    rw [shape] at begins value spelled writes
    obtain ⟨-, separates, -, isTrailing⟩ := value
    have blank : ∀ char ∈ separation, isSpace char = true := fun char member => isSpace_of_isWhite (separates char member)
    have isValue : scalar.value = "write".toList := Option.some.inj writes
    rw [EntryValue.keyRow, List.append_assoc, List.dropWhile_append_of_pos blank] at begins
    -- A scalar in quotes begins with its quote.
    obtain rfl : scalar = .plain "write".toList := by
      cases scalar with
      | plain content => rw [← isValue]; rfl
      | single content => cases begins
      | double pieces => cases begins
    refine ⟨separation, trailing, separates, @plainTrailing_of_read (separation ++ "write".toList) _ isTrailing ?_ ?_, rfl⟩
    · rw [List.mem_append, not_or]
      exact ⟨fun member => absurd (separates _ member) (by decide), by decide⟩
    · have noHash : '#' ∉ "write".toList := by decide
      rwa [← spelled] at noHash
  | below trailing skipped indent scalar trailing' =>
    rw [shape] at begins value
    exact absurd (value.1.hash 'w' begins) (by decide)
  | other trailing rows =>
    rw [shape] at writes
    cases writes

theorem MappingEntry.PlainWrite.read {column : ℕ} {entry : MappingEntry} (write : entry.PlainWrite)
    (wellFormed : entry.WellFormed column) :
    readEntry (entry.row column) = some (String.ofList entry.name, "write") := by
  obtain ⟨separation, trailing, separates, isTrailing, value⟩ := write.value
  rw [MappingEntry.row, write.gap, value]
  exact readEntry_plain wellFormed.key.name.nonempty write.name separates (by decide) isTrailing

/-- **A plain write is read last** exactly when what is read below it ends in a write of its name. -/
theorem readsLast_iff {workflow : Workflow} {column : ℕ} {above below : List Row} {mapping : PermissionMapping}
    {entry : MappingEntry} (wellFormed : workflow.WellFormed) (plain : workflow.PlainRows)
    (at' : EntryAt workflow column above mapping entry below) (write : entry.PlainWrite) :
    ReadsLast (splitLines workflow.text.toList) above.length column (String.ofList entry.name) "write" ↔
      EndsInWrite (String.ofList entry.name) (readEntries column below) := by
  obtain ⟨first, later, rest, mappingAt, split, rfl⟩ := at'
  have mappingWellFormed := mappingAt.wellFormed wellFormed
  have entryWellFormed := mappingWellFormed.entries entry (by simp [split])
  obtain ⟨separation, trailing, -, -, value⟩ := write.value
  have oneRow : entry.rows mapping.column = entry.skipped ++ [entry.row mapping.column] := by
    rw [MappingEntry.rows, MappingEntry.row, value]
    rfl
  have skipped : entry.skipped.filter (!isSkipped ·) = [] :=
    List.filter_eq_nil_iff.mpr fun row member => by simp [(entryWellFormed.skipped row member).2]
  have content : isSkipped (entry.row mapping.column) = false :=
    content_keyRow entryWellFormed.key.name.nonempty write.name
  have deep := @PermissionMapping.WellFormed.deep _ _ mappingWellFormed (first ++ [entry]) (by simp [split])
  have rows := mappingAt.rows_eq
  have below : workflow.rows.drop (above.length + 1) = (first ++ [entry]).flatMap (MappingEntry.rows mapping.column) ++
      (later.flatMap (MappingEntry.rows mapping.column) ++ rest) := by
    rw [rows, List.drop_append, split]
    simp
  have read : readEntries column (workflow.rows.drop (above.length + 1)) =
      ((first.flatMap (MappingEntry.rows mapping.column)).filter (!isSkipped ·)).filterMap readEntry ++
        (String.ofList entry.name, "write") ::
          readEntries column (later.flatMap (MappingEntry.rows mapping.column) ++ rest) := by
    rw [below, readEntries, mappingLines_append _ deep, List.flatMap_append, List.flatMap_singleton, oneRow,
      List.filter_append, List.filter_append, skipped, List.nil_append, List.filter_cons_of_pos (by simp [content]),
      List.filter_nil, List.append_assoc, List.singleton_append, List.filterMap_append,
      List.filterMap_cons_some (write.read entryWellFormed)]
    rfl
  rw [ReadsLast, plain.readEntries_lines (by simp [rows]), read]
  exact Multidict.getLast?_under_iff rfl

/-- The job of a mapping: none outside the fourth column, and there the one whose header is the lowest above. -/
theorem permissionJob_mapping {workflow : Workflow} {column : ℕ} {above below : List Row} {mapping : PermissionMapping}
    (plain : workflow.PlainRows) (at' : MappingAt workflow column above mapping below) {name : String} :
    permissionJob (splitLines workflow.text.toList) above.length column = some name ↔
      column = 4 ∧ OwnerAbove above name.toList := by
  have rows := at'.rows_eq
  by_cases fourth : column = 4
  · subst fourth
    rw [and_iff_right rfl]
    exact permissionJob_iff (plain.take_lines rows (by simp [keyRow]))
  · rw [permissionJob, if_pos fourth]
    exact iff_of_false (by simp) fun both => fourth both.1

/-- **A noticed write is an error.** -/
theorem errors_of_noticed {display : String} {workflow : Workflow} (wellFormed : workflow.WellFormed)
    (noticed : NoticedWrite display workflow) : validateWorkflow display (.ok workflow.text) ≠ [] := by
  obtain ⟨plain, column, above, mapping, entry, below, at', isNoticed⟩ := noticed
  intro noErrors
  obtain ⟨-, blocks, -⟩ := validateWorkflow_eq_nil_iff.mp noErrors
  have reads := (readsLast_iff wellFormed plain at' isNoticed.write).mpr isNoticed.last
  obtain ⟨first, later, rest, mappingAt, -, -⟩ := at'
  have rows := mappingAt.rows_eq
  rw [isNoticed.header] at rows
  obtain ⟨block, found, row, indent⟩ := permissionsHeader_plain column mapping.trailing above.length
  have here : workflow.rows[above.length]? = some (keyRow column "permissions".toList [] mapping.trailing) := by
    simp [rows]
  have member : block ∈ permissionBlocks (rowsOf workflow.text.toList) := by
    rw [plain.rowsOf_text (by simp [rows])]
    exact List.mem_filterMap.mpr ⟨_, List.mk_mem_zipIdx_iff_getElem?.mpr here, found⟩
  rw [← row, ← indent] at reads
  have allowed := (blockAccepted_iff.mp (blocks block member)).2 _ reads
  rw [row, indent] at allowed
  cases job : permissionJob (splitLines workflow.text.toList) above.length column with
  | none =>
    rw [job] at allowed
    cases allowed
  | some name =>
    obtain ⟨fourth, owner⟩ := (permissionJob_mapping plain mappingAt).mp job
    refine isNoticed.owner fourth name.toList owner ?_
    rwa [String.ofList_toList, ← job]

/-- **An entry that writes is noticed when the scanner reads it last**, for a job that does not list it. -/
theorem noticed_of_read {display : String} {workflow : Workflow} {column : ℕ} {above below : List Row}
    {mapping : PermissionMapping} {entry : MappingEntry} {block : PermissionBlock} (wellFormed : workflow.WellFormed)
    (plain : workflow.PlainRows) (at' : EntryAt workflow column above mapping entry below)
    (writes : entry.value.value = some "write".toList)
    (read : readEntry (entry.row mapping.column) = some (String.ofList entry.name, "write"))
    (member : block ∈ permissionBlocks (rowsOf workflow.text.toList)) (isRow : above.length = block.row)
    (last : ReadsLast (splitLines workflow.text.toList) block.row block.indent (String.ofList entry.name) "write")
    (unlisted : String.ofList entry.name ∉ allowedWritePermissions display
      (permissionJob (splitLines workflow.text.toList) block.row block.indent)) : NoticedWrite display workflow := by
  obtain ⟨first, later, rest, mappingAt, split, isBelow⟩ := id at'
  have mappingWellFormed := mappingAt.wellFormed wellFormed
  have rows := mappingAt.rows_eq
  obtain ⟨header, here, found⟩ := mem_permissionBlocks member
  rw [plain.rowsOf_text (by simp [rows]), ← isRow, rows] at here
  obtain rfl : keyRow column "permissions".toList mapping.gap mapping.trailing = header := by simpa using here
  obtain ⟨noGap, indent⟩ := gap_of_permissionsHeader mappingWellFormed.key.gap found
  have write := plainWrite_of_read (mappingWellFormed.entries entry (by simp [split])) writes read
  rw [← isRow, indent] at last unlisted
  refine ⟨plain, column, above, mapping, entry, below, at', noGap, write,
    (readsLast_iff wellFormed plain at' write).mp last, fun fourth name owner listed => unlisted ?_⟩
  have job := (permissionJob_mapping plain mappingAt).mpr ⟨fourth, (String.toList_ofList (l := name)).symm ▸ owner⟩
  rwa [job]

/-- **A top-level mapping that is accepted has a row `contents: read`.** -/
theorem contentsRead_of_topLevel {workflow : Workflow} (plain : workflow.PlainRows)
    (accepted : TopLevelAccepted (splitLines workflow.text.toList) (permissionBlocks (rowsOf workflow.text.toList))) :
    ContentsRead workflow.rows := by
  obtain ⟨block, first, -, reads⟩ := accepted
  have indent : block.indent = 0 := by simpa using List.find?_some first
  obtain ⟨header, here, found⟩ := mem_permissionBlocks (List.mem_of_find?_eq_some first)
  obtain ⟨-, isIndent, starts⟩ := permissionsHeader_some found
  rw [← isIndent, indent, List.drop_zero] at starts
  have nonempty : workflow.rows ≠ [] := by
    intro empty
    rw [Workflow.text, empty] at here
    obtain ⟨rest, rfl⟩ := starts
    simp [joinRows, rowsOf, List.getElem?_singleton] at here
  rw [plain.rowsOf_text nonempty] at here
  obtain ⟨inside, isHeader⟩ := List.getElem?_eq_some_iff.mp here
  refine ⟨workflow.rows.take block.row, header, workflow.rows.drop (block.row + 1), ?_, starts, ?_⟩
  · rw [← isHeader, List.cons_getElem_drop_succ, List.take_append_drop]
  · have member : ("contents", "read") ∈ permissionEntries (splitLines workflow.text.toList) block.row 0 := by
      obtain ⟨before, after, split, -⟩ := List.lookup_eq_some_iff.mp reads
      simp [split]
    have last := List.mem_of_getLast? (mem_permissionEntries_iff.mp member)
    rw [plain.readEntries_lines nonempty] at last
    exact (Multidict.mem_under.mp last).1

theorem not_rejectedBesides {display : String} {workflow : Workflow}
    (noErrors : validateWorkflow display (.ok workflow.text) = []) : ¬ RejectedBesides display workflow := by
  obtain ⟨topLevel, blocks, references⟩ := validateWorkflow_eq_nil_iff.mp noErrors
  intro rejected
  cases rejected with
  | topLevel _ other => exact other topLevel
  | value member other => exact other (blocks _ member).1
  | otherRow member reads other _ => exact other ((blockAccepted_iff.mp (blocks _ member)).2 _ reads)
  | reference member other => exact other (references _ member)

/-- Without a noticed write and with a row `contents: read`, only something else is an error. -/
theorem noErrors_of_unnoticed {display : String} {workflow : Workflow} (wellFormed : workflow.WellFormed)
    (unnoticed : ¬ NoticedWrite display workflow) (contents : workflow.PlainRows → ContentsRead workflow.rows)
    (accepted : ¬ RejectedBesides display workflow) : validateWorkflow display (.ok workflow.text) = [] := by
  rw [validateWorkflow_eq_nil_iff]
  refine ⟨by_contra fun other => accepted (.topLevel contents other), fun block member =>
    blockAccepted_iff.mpr ⟨by_contra fun other => accepted (.value member other), fun name reads => ?_⟩,
    fun found member => by_contra fun other => accepted (.reference member other)⟩
  by_contra unlisted
  refine accepted (.otherRow member reads unlisted fun plain column above mapping entry below at' isRow writes same read =>
    unnoticed ?_)
  subst same
  exact noticed_of_read wellFormed plain at' writes read member isRow reads unlisted

/-- **The errors are sound for the permissions exactly when**, as soon as an entry writes what is not listed or the
top level does not read the contents, a write is noticed, no row says `contents: read`, or the workflow is rejected
for something else. -/
theorem permissions_sound_iff {display : String} {workflow : Workflow} (wellFormed : workflow.WellFormed) :
    PermissionsSound display workflow ↔
      ((∃ write ∈ workflow.granted "write", ¬ Listed display write) ∨
          (none, "contents") ∉ workflow.granted "read" →
        NoticedWrite display workflow ∨ (workflow.PlainRows ∧ ¬ ContentsRead workflow.rows) ∨
          RejectedBesides display workflow) := by
  constructor
  · intro sound violated
    by_contra passes
    simp only [not_or, not_and, not_not] at passes
    obtain ⟨listed, reads⟩ := sound (noErrors_of_unnoticed wellFormed passes.1 passes.2.1 passes.2.2)
    rcases violated with ⟨write, member, unlisted⟩ | missing
    · exact unlisted (listed write member)
    · exact missing reads
  · intro rejects noErrors
    have passes : ¬ (NoticedWrite display workflow ∨ (workflow.PlainRows ∧ ¬ ContentsRead workflow.rows) ∨
        RejectedBesides display workflow) := by
      rintro (noticed | ⟨plain, unread⟩ | rejected)
      · exact errors_of_noticed wellFormed noticed noErrors
      · exact unread (contentsRead_of_topLevel plain (validateWorkflow_eq_nil_iff.mp noErrors).1)
      · exact not_rejectedBesides noErrors rejected
    have fine := not_or.mp (mt rejects passes)
    exact ⟨fun write member => by_contra fun unlisted => fine.1 ⟨write, member, unlisted⟩, not_not.mp fine.2⟩

/-! ### Jobs two columns deep -/

/-- **Where jobs are two columns deep and their keys four**, a plain write that is not listed is noticed when none of
its name is read below it with another access. -/
theorem noticed_of_plain {display : String} {workflow : Workflow} {before after : List TopPart} {gap trailing : Row}
    {skipped : List Row} {first later : List Job} {job : Job} {upper lower : List JobPart} {mapping : PermissionMapping}
    {entry : MappingEntry} {entries entries' : List MappingEntry} (wellFormed : workflow.WellFormed)
    (plain : workflow.PlainRows)
    (split : workflow.parts = before ++ .jobs gap trailing skipped 2 (first ++ job :: later) :: after)
    (inJob : job.parts = upper ++ .permissions mapping :: lower) (chars : ∀ char ∈ job.name, isJobChar char = true)
    (noGap : job.gap = []) (column : job.column = 4) (header : mapping.gap = [])
    (inMapping : mapping.entries = entries ++ entry :: entries') (write : entry.PlainWrite)
    (last : EndsInWrite (String.ofList entry.name) (readEntries 4 (entries'.flatMap (MappingEntry.rows mapping.column) ++
      (lower.flatMap (JobPart.rows 4) ++ later.flatMap (Job.rows 2) ++
        after.flatMap (TopPart.rows workflow.column)))))
    (unlisted : ¬ Listed display (some (String.ofList job.name), String.ofList entry.name)) :
    NoticedWrite display workflow := by
  have at' := MappingAt.job split inJob
  rw [column, noGap] at at'
  refine ⟨plain, 4, _, mapping, entry, _, ⟨entries, entries', _, at', inMapping, rfl⟩, header, write, last,
    fun _ name owner listed => unlisted ?_⟩
  obtain ⟨-, -, -, -, jobs⟩ := wellFormed (.jobs gap trailing skipped 2 (first ++ job :: later)) (by simp [split])
  have jobWellFormed := jobs job (by simp)
  have deep : ∀ row ∈ upper.flatMap (JobPart.rows 4), isSkipped row = false → 3 ≤ indentOf row := by
    intro row isRow content
    obtain ⟨part, isPart, inPart⟩ := List.mem_flatMap.mp isRow
    have partWellFormed := jobWellFormed.parts part (by simp [inJob, isPart])
    rw [column] at partWellFormed
    have indented := partWellFormed.deep row inPart content
    omega
  have isHeader : IsJobHeader job.name (keyRow 2 job.name [] job.trailing) :=
    ⟨job.trailing, rfl, jobWellFormed.key.name.nonempty, chars, jobWellFormed.trailing.hash⟩
  rw [owner.unique (ownerAbove_deep isHeader deep)] at listed
  exact ⟨_, rfl, listed⟩

/-! ### A quoted write -/

/-- `name: value` on one row. -/
def plainEntry (name : String) (value : Scalar) : MappingEntry := ⟨[], name.toList, [], .behind [' '] value []⟩

/-- A job that writes its token, in the spelling of the scalar. -/
def tokenWrite (value : Scalar) : Workflow where
  column := 0
  parts :=
    [.permissions ⟨[], [], 2, [plainEntry "contents" (.plain "read".toList)]⟩,
      .jobs [] [] [] 2
        [⟨"build".toList, [], [], 4,
          [.permissions ⟨[], [], 6, [plainEntry "id-token" value]⟩, .row "    runs-on: ubuntu-latest".toList]⟩]]

/-- A job whose token can be written, with the quotes of YAML. -/
def quotedWrite : Workflow := tokenWrite (.double ("write".toList.map .literal))

theorem plainEntry_wellFormed {column : ℕ} {name : String} {value : Scalar} (isPlain : IsPlain name.toList)
    (wellFormed : value.WellFormed) : (plainEntry name value).WellFormed column where
  skipped := fun _ member => absurd member List.not_mem_nil
  key := ⟨isPlain, fun _ member => absurd member List.not_mem_nil⟩
  value := ⟨List.cons_ne_nil _ _, by decide, wellFormed, .nil⟩

theorem tokenWrite_wellFormed {value : Scalar} (wellFormed : value.WellFormed) : (tokenWrite value).WellFormed := by
  have noGap : ∀ char ∈ ([] : Row), isWhite char = true := fun _ member => absurd member List.not_mem_nil
  have isPermissions : KeyWellFormed "permissions".toList [] :=
    ⟨⟨by decide, by decide, by decide, by decide, by decide⟩, noGap⟩
  have isJobs : KeyWellFormed "jobs".toList [] := ⟨⟨by decide, by decide, by decide, by decide, by decide⟩, noGap⟩
  have isBuild : KeyWellFormed "build".toList [] := ⟨⟨by decide, by decide, by decide, by decide, by decide⟩, noGap⟩
  have runsOn : Deep 4 "    runs-on: ubuntu-latest".toList := ⟨by decide, by decide⟩
  intro part member
  rcases List.mem_pair.mp member with rfl | rfl
  · refine ⟨isPermissions, .nil, (by decide : 0 < 2), fun entry isEntry => ?_⟩
    rw [List.mem_singleton.mp isEntry]
    exact plainEntry_wellFormed ⟨by decide, by decide, by decide, by decide, by decide⟩
      ⟨by decide, by decide, by decide, by decide, by decide⟩
  · refine ⟨isJobs, .nil, fun _ isRow => absurd isRow List.not_mem_nil, (by decide : 0 < 2), fun job isJob => ?_⟩
    rw [List.mem_singleton.mp isJob]
    refine ⟨isBuild, .nil, (by decide : 2 < 4), fun part isPart => ?_⟩
    rcases List.mem_pair.mp isPart with rfl | rfl
    · refine ⟨isPermissions, .nil, (by decide : 4 < 6), fun entry isEntry => ?_⟩
      rw [List.mem_singleton.mp isEntry]
      exact plainEntry_wellFormed ⟨by decide, by decide, by decide, by decide, by decide⟩ wellFormed
    · exact runsOn

theorem quotedWrite_wellFormed : quotedWrite.WellFormed := by
  refine tokenWrite_wellFormed fun piece isPiece => ?_
  obtain ⟨char, isChar, rfl⟩ := List.mem_map.mp isPiece
  have plain : ∀ char ∈ "write".toList, char ≠ '"' ∧ char ≠ '\\' ∧ char ≠ '\n' := by decide
  exact plain char isChar

theorem quotedWrite_unlisted :
    (some "build", "id-token") ∈ quotedWrite.granted "write" ∧ ¬ Listed "workflow.yml" (some "build", "id-token") := by
  rw [listed_iff]
  decide +kernel

theorem quotedWrite_unsound : ¬ PermissionsSound "workflow.yml" quotedWrite := by
  intro sound
  have accepted : validateWorkflow "workflow.yml" (.ok quotedWrite.text) = [] := by decide +kernel
  exact quotedWrite_unlisted.2 ((sound accepted).1 _ quotedWrite_unlisted.1)

/-- **An unlisted write passes in quotes.** -/
theorem quoted_write_passes :
    ¬ ∀ display (workflow : Workflow), workflow.WellFormed → PermissionsSound display workflow := fun sound =>
  quotedWrite_unsound (sound "workflow.yml" quotedWrite quotedWrite_wellFormed)

/-- The write is not noticed in quotes, and is noticed without them. -/
theorem permission_unnoticed :
    (∃ write ∈ quotedWrite.granted "write", ¬ Listed "workflow.yml" write) ∧
      ¬ NoticedWrite "workflow.yml" quotedWrite ∧
        PermissionsSound "workflow.yml" (tokenWrite (.plain "write".toList)) := by
  have unnoticed := mt (permissions_sound_iff quotedWrite_wellFormed).mpr quotedWrite_unsound
  rw [Classical.not_imp, not_or] at unnoticed
  refine ⟨⟨_, quotedWrite_unlisted⟩, unnoticed.2.1, ?_⟩
  have wellFormed : (tokenWrite (.plain "write".toList)).WellFormed :=
    tokenWrite_wellFormed ⟨by decide, by decide, by decide, by decide, by decide⟩
  refine (permissions_sound_iff wellFormed).mpr fun _ => Or.inl ?_
  have unlisted : ¬ Listed "workflow.yml" (some "build", "id-token") := quotedWrite_unlisted.2
  have blank : ∀ char ∈ [' '], isWhite char = true := by decide
  have noOther : readEntries 4 ["    runs-on: ubuntu-latest".toList] = [] := by decide
  refine @noticed_of_plain _ _ [_] [] _ _ _ [] [] _ [] [_] _ _ [] [] wellFormed (by unfold Workflow.PlainRows; decide)
    rfl rfl (by decide) rfl rfl rfl rfl ?_ (fun upper other more split => ?_) unlisted
  · exact ⟨by decide, rfl, [' '], [], blank, ⟨[], fun _ member => absurd member List.not_mem_nil, Or.inl rfl⟩, rfl⟩
  · exact absurd (noOther.symm.trans split) (by simp)

end McpAuth
