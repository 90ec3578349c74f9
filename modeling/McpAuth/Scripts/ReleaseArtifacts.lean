/-
**Release artifacts — the members of a wheel and of a source distribution.**

An archive is a list of members in order, each with its name, its type and what reading it does. The loops of
`validate_wheel` and `validate_sdist` go over them with an accumulator. `scanSdistMember_ok_iff` and
`scanWheelMember_ok_iff` say which member one turn accepts and what it adds; `validateSdist_ok_iff` and
`validateWheel_ok_iff` say what is accepted as a whole.

The reader of the archive and of its metadata is a parameter: what opening it and reading a member yields, and the
headers that `email.parser.BytesParser` finds.
-/

import McpAuth.Library.DistinctFold
import McpAuth.Library.Multidict
import McpAuth.Library.RelativePath
import McpAuth.Scripts.VulnerabilityPolicy

namespace McpAuth

open DistinctFold Multidict PyText RelativePath

/-! ### Errors and readers -/

/-- Raised when a release artifact violates the package integrity contract. -/
structure ReleaseArtifactError where
  message : String
  deriving DecidableEq

/-- What leaves a validation: the release error, or another exception by its text. -/
inductive ArtifactFailure
  | release (error : ReleaseArtifactError)
  | uncaught (exception : String)
  deriving DecidableEq

/-- `raise ReleaseArtifactError(message)`. -/
def releaseError {α : Type} (message : String) : Except ArtifactFailure α := .error (.release ⟨message⟩)

/-- What a read did: its value, the text of an exception that the validation catches, or another exception. -/
inductive ReadResult (α : Type)
  | read (value : α)
  | invalid (exception : String)
  | raised (exception : String)
  deriving DecidableEq

def ReadResult.value {α : Type} : ReadResult α → Option α
  | .read value => some value
  | _ => none

/-- The value, or the error with the context of the validation. -/
def ReadResult.orRaise {α : Type} (context : String) : ReadResult α → Except ArtifactFailure α
  | .read value => .ok value
  | .invalid exception => releaseError (context ++ exception)
  | .raised exception => .error (.uncaught exception)

/-- A path as it is shown, and its last component. -/
structure ArtifactPath where
  text : String
  name : String

/-- Expected package identity loaded from pyproject.toml. -/
structure ProjectIdentity where
  name : String
  module : String
  version : String

def allowedSdistRootFiles : Finset String :=
  {".gitignore", "CHANGELOG.md", "LICENSE", "PKG-INFO", "README.md", "README.pt-BR.md", "pyproject.toml"}

def maxArchiveMembers : ℕ := 10000

def maxMetadataBytes : ℕ := 1024 * 1024

/-! ### Metadata -/

/-- What `metadata.get` returns for a header that is there: whether it is a `str`, its text, and its `repr`. -/
structure HeaderValue where
  isText : Bool
  text : String
  shown : String

/-- `BytesParser().parsebytes(raw).get(name)`. -/
class MessageParser where
  header : Bytes → String → Option HeaderValue

/-- `re.sub(r"[-_.]+", "-", value)`. -/
def collapseSeparators : List Char → List Char
  | [] => []
  | char :: later =>
    let isSeparator := fun other : Char => other == '-' || other == '_' || other == '.'
    if isSeparator char then
      if later.head?.any isSeparator then collapseSeparators later else '-' :: collapseSeparators later
    else char :: collapseSeparators later

/-- `_canonical_name`. -/
def canonicalName [UnicodeTables] (value : String) : String :=
  lower (String.ofList (collapseSeparators value.toList))

section Validation

variable [TextRepr] [MessageParser] [UnicodeTables]

/-- `_validate_metadata`. -/
def validateMetadata (raw : Bytes) (identity : ProjectIdentity) (context : String) : Except ArtifactFailure Unit :=
  let version := MessageParser.header raw "Version"
  if (MessageParser.header raw "Name").all fun name =>
      !name.isText || canonicalName name.text != canonicalName identity.name then
    releaseError (context ++ ": package Name does not match " ++ TextRepr.quoted identity.name)
  else if version.map HeaderValue.text ≠ some identity.version then
    releaseError (context ++ ": package Version must be " ++ TextRepr.quoted identity.version ++ ", got " ++
      (version.map HeaderValue.shown).getD "None")
  else .ok ()

end Validation

/-! ### Member names -/

/-- `name[:-1] if name.endswith("/") else name`. -/
def cleanName (name : String) : String :=
  if name.toList.getLast? = some '/' then String.ofList name.toList.dropLast else name

/-- The condition under which `_safe_parts` rejects a name. -/
def isUnsafe (name : String) : Bool :=
  cleanName name == "" || isAbsolute (cleanName name) || contains "\\" (cleanName name) ||
    (segments (cleanName name)).any fun part => part == "" || part == "." || part == ".."

/-- `_safe_parts`. -/
def safeParts [TextRepr] (name context : String) : Except ArtifactFailure (List String) :=
  if isUnsafe name then releaseError (context ++ ": unsafe archive path " ++ TextRepr.quoted name)
  else .ok (segments (cleanName name))

/-! ### Source distributions -/

/-- The types of `TarInfo`. -/
inductive TarType
  | regular
  | directory
  | symlink
  | hardlink
  | special
  deriving DecidableEq

/-- A member of a tar archive. `data` is what reading it does, where `extractfile` finds a file to read. -/
structure TarMember where
  name : String
  type : TarType
  size : ℕ
  data : ReadResult Bytes
  deriving DecidableEq

/-- What the loop of `validate_sdist` has found. -/
structure SdistScan where
  seen : Finset String
  rootFiles : Finset String
  sourceSeen : Bool
  metadata : Option Bytes

def SdistScan.start : SdistScan := ⟨∅, ∅, false, none⟩

/-- `{identity.module}-{identity.version}`. -/
def ProjectIdentity.root (identity : ProjectIdentity) : String := identity.module ++ "-" ++ identity.version

/-- `PKG-INFO` is read. -/
def readPkgInfo (path : ArtifactPath) (scan : SdistScan) (member : TarMember) : Except ArtifactFailure SdistScan :=
  if maxMetadataBytes < member.size then releaseError (path.text ++ ": PKG-INFO is too large")
  else if member.type ≠ .regular then releaseError (path.text ++ ": could not read PKG-INFO")
  else do
    let raw ← member.data.orRaise (path.text ++ ": invalid sdist archive: ")
    .ok { scan with metadata := some raw }

section Sdist

variable [TextRepr]

/-- The turn for a member at `relative` below the root. -/
def scanRelative (path : ArtifactPath) (identity : ProjectIdentity) (scan : SdistScan) (member : TarMember) :
    List String → Except ArtifactFailure SdistScan
  | [] => .ok scan
  | [file] =>
    if file ∈ allowedSdistRootFiles then
      let scan := { scan with rootFiles := insert file scan.rootFiles }
      if file = "PKG-INFO" then readPkgInfo path scan member else .ok scan
    else releaseError (path.text ++ ": unexpected sdist content " ++ TextRepr.quoted file)
  | first :: second :: rest =>
    if first = "src" ∧ second = identity.module then
      .ok { scan with sourceSeen := scan.sourceSeen || member.type = .regular }
    else
      releaseError (path.text ++ ": unexpected sdist content " ++
        TextRepr.quoted (joinWith '/' (first :: second :: rest)))

/-- One turn of the loop of `validate_sdist`. -/
def scanSdistMember (path : ArtifactPath) (identity : ProjectIdentity) (scan : SdistScan) (member : TarMember) :
    Except ArtifactFailure SdistScan := do
  let parts ← safeParts member.name path.text
  let normalized := joinWith '/' parts
  if normalized ∈ scan.seen then
    releaseError (path.text ++ ": duplicate sdist member " ++ TextRepr.quoted normalized)
  else
    let scan := { scan with seen := insert normalized scan.seen }
    if member.type ≠ .regular ∧ member.type ≠ .directory then
      releaseError (path.text ++ ": only regular files/directories are allowed")
    else if parts.headD "" ≠ identity.root then
      releaseError (path.text ++ ": unexpected archive root " ++ TextRepr.quoted (parts.headD ""))
    else scanRelative path identity scan member parts.tail

/-- `validate_sdist`. -/
def validateSdist [MessageParser] [UnicodeTables] (path : ArtifactPath) (identity : ProjectIdentity)
    (archive : ReadResult (List TarMember)) : Except ArtifactFailure Unit :=
  let expectedName := identity.root ++ ".tar.gz"
  if path.name ≠ expectedName then releaseError (path.text ++ ": sdist filename must be " ++ expectedName)
  else do
    let members ← archive.orRaise (path.text ++ ": invalid sdist archive: ")
    if maxArchiveMembers < members.length then releaseError (path.text ++ ": sdist has too many members")
    else
      let scan ← members.foldlM (scanSdistMember path identity) .start
      let missing := allowedSdistRootFiles \ scan.rootFiles
      if missing ≠ ∅ then
        releaseError (path.text ++ ": required sdist files are missing: " ++ listRepr (sorted missing))
      else if !scan.sourceSeen then releaseError (path.text ++ ": sdist package source is missing")
      else match scan.metadata with
        | none => releaseError (path.text ++ ": PKG-INFO is missing")
        | some raw => validateMetadata raw identity "PKG-INFO"

end Sdist

/-! ### Wheels -/

/-- A member of a zip archive. -/
structure ZipMember where
  filename : String
  externalAttr : ℕ
  fileSize : ℕ
  data : ReadResult Bytes
  deriving DecidableEq

/-- `(external_attr >> 16) & 0o170000 == stat.S_IFLNK`. -/
def ZipMember.isSymlink (member : ZipMember) : Bool := (member.externalAttr >>> 16) &&& 0o170000 == 0o120000

/-- What the loop of `validate_wheel` has found. -/
structure WheelScan where
  seen : Finset String
  metadata : Option Bytes

def WheelScan.start : WheelScan := ⟨∅, none⟩

def ProjectIdentity.distInfo (identity : ProjectIdentity) : String := identity.root ++ ".dist-info"

def ProjectIdentity.metadataName (identity : ProjectIdentity) : String := identity.distInfo ++ "/METADATA"

section Wheel

variable [TextRepr]

/-- One turn of the loop of `validate_wheel`. -/
def scanWheelMember (path : ArtifactPath) (identity : ProjectIdentity) (scan : WheelScan) (member : ZipMember) :
    Except ArtifactFailure WheelScan := do
  let parts ← safeParts member.filename path.text
  let normalized := joinWith '/' parts
  if normalized ∈ scan.seen then
    releaseError (path.text ++ ": duplicate wheel member " ++ TextRepr.quoted normalized)
  else
    let scan := { scan with seen := insert normalized scan.seen }
    if member.isSymlink then releaseError (path.text ++ ": symbolic links are not allowed")
    else if parts.headD "" ≠ identity.module ∧ parts.headD "" ≠ identity.distInfo then
      releaseError (path.text ++ ": unexpected wheel content " ++ TextRepr.quoted member.filename)
    else if normalized = identity.metadataName then
      if maxMetadataBytes < member.fileSize then releaseError (path.text ++ ": wheel METADATA is too large")
      else do
        let raw ← member.data.orRaise (path.text ++ ": invalid wheel archive: ")
        .ok { scan with metadata := some raw }
    else .ok scan

/-- `validate_wheel`. -/
def validateWheel [MessageParser] [UnicodeTables] (path : ArtifactPath) (identity : ProjectIdentity)
    (archive : ReadResult (List ZipMember)) : Except ArtifactFailure Unit :=
  let expectedName := identity.root ++ "-py3-none-any.whl"
  if path.name ≠ expectedName then releaseError (path.text ++ ": wheel filename must be " ++ expectedName)
  else do
    let members ← archive.orRaise (path.text ++ ": invalid wheel archive: ")
    if maxArchiveMembers < members.length then releaseError (path.text ++ ": wheel has too many members")
    else
      let scan ← members.foldlM (scanWheelMember path identity) .start
      match scan.metadata with
      | none => releaseError (path.text ++ ": wheel METADATA is missing")
      | some raw =>
        if ¬ ∃ name ∈ scan.seen, startsWithText (identity.module ++ "/") name = true then
          releaseError (path.text ++ ": wheel package content is missing")
        else validateMetadata raw identity identity.metadataName

end Wheel

/-! ### Safe names -/

/-- **A name of plain segments without a backslash.** -/
structure IsSafe (name : String) : Prop where
  plain : ∀ segment ∈ segments (cleanName name), IsPlain segment
  noBackslash : contains "\\" (cleanName name) = false

theorem isUnsafe_iff {name : String} : isUnsafe name = false ↔ IsSafe name := by
  have plainIff : ((segments (cleanName name)).any fun part => part == "" || part == "." || part == "..") = false ↔
      ∀ segment ∈ segments (cleanName name), IsPlain segment := by
    simp [IsPlain, and_assoc]
  constructor
  · intro safe
    simp only [isUnsafe, Bool.or_eq_false_iff] at safe
    exact ⟨plainIff.mp safe.2, safe.1.2⟩
  · intro safe
    simp only [isUnsafe, Bool.or_eq_false_iff]
    exact ⟨⟨⟨beq_false_of_ne (ne_empty_plain safe.plain), isAbsolute_plain safe.plain⟩, safe.noBackslash⟩,
      plainIff.mpr safe.plain⟩

theorem safeParts_ok_iff [TextRepr] {name context : String} {parts : List String} :
    safeParts name context = .ok parts ↔ IsSafe name ∧ parts = segments (cleanName name) := by
  unfold safeParts
  rw [← isUnsafe_iff]
  cases isUnsafe name with
  | false =>
    rw [if_neg Bool.false_ne_true, Except.ok.injEq]
    exact ⟨fun same => ⟨rfl, same.symm⟩, fun safe => safe.2.symm⟩
  | true => exact iff_of_false (fun yields => nomatch yields) fun safe => nomatch safe.1

/-- **A safe name leads to its segments.** -/
theorem IsSafe.resolve {name : String} (safe : IsSafe name) : resolve name = some (segments (cleanName name)) := by
  by_cases slash : name.toList.getLast? = some '/'
  · have nonempty : name.toList ≠ [] := by
      intro none
      rw [none] at slash
      cases slash
    have last : name.toList.getLast nonempty = '/' := by
      rw [List.getLast?_eq_some_getLast nonempty, Option.some.injEq] at slash
      exact slash
    have whole : name = cleanName name ++ "/" := by
      rw [cleanName, if_pos slash, ← String.toList_inj, String.toList_append, String.toList_ofList]
      have chars := List.dropLast_concat_getLast nonempty
      rw [last] at chars
      exact chars.symm
    have led := resolve_slash safe.plain
    rwa [← whole] at led
  · have whole : cleanName name = name := if_neg slash
    have led := resolve_plain safe.plain
    rwa [whole] at led ⊢

/-! ### What the loops accept -/

/-- The segments of a member's name. -/
def TarMember.parts (member : TarMember) : List String := segments (cleanName member.name)

def ZipMember.parts (member : ZipMember) : List String := segments (cleanName member.filename)

/-- A place below the root of a source distribution for a member. -/
inductive SdistPlace (identity : ProjectIdentity) (member : TarMember) : List String → Prop
  | root : SdistPlace identity member []
  | file {file : String} (allowed : file ∈ allowedSdistRootFiles)
      (isRead : file = "PKG-INFO" → member.size ≤ maxMetadataBytes ∧ member.type = .regular ∧
        ∃ raw, member.data = .read raw) : SdistPlace identity member [file]
  | source (rest : List String) : SdistPlace identity member ("src" :: identity.module :: rest)

/-- **A member that one turn of `validate_sdist` accepts**, were its name new. -/
structure SdistMember (identity : ProjectIdentity) (member : TarMember) : Prop where
  safe : IsSafe member.name
  type : member.type = .regular ∨ member.type = .directory
  root : member.parts.head? = some identity.root
  place : SdistPlace identity member member.parts.tail

theorem SdistMember.parts_eq {identity : ProjectIdentity} {member : TarMember} (admitted : SdistMember identity member) :
    member.parts = identity.root :: member.parts.tail :=
  (List.cons_head?_tail admitted.root).symm

/-- The relative path is `src/<module>` or below. -/
def underSource (identity : ProjectIdentity) (relative : List String) : Bool :=
  ["src", identity.module].isPrefixOf relative

/-- What a member at `relative` adds. -/
def SdistScan.addRelative (identity : ProjectIdentity) (scan : SdistScan) (member : TarMember)
    (relative : List String) : SdistScan where
  seen := scan.seen
  rootFiles := match relative with
    | [file] => insert file scan.rootFiles
    | _ => scan.rootFiles
  sourceSeen := scan.sourceSeen || (underSource identity relative && member.type = .regular)
  metadata := if relative = ["PKG-INFO"] then member.data.value else scan.metadata

/-- What a member adds. -/
def SdistScan.add (identity : ProjectIdentity) (scan : SdistScan) (member : TarMember) : SdistScan :=
  { scan with seen := insert (cleanName member.name) scan.seen }.addRelative identity member member.parts.tail

theorem orRaise_ok_iff {α : Type} {result : ReadResult α} {context : String} {value : α} :
    result.orRaise context = .ok value ↔ result = .read value := by
  cases result with
  | read other => rw [ReadResult.orRaise, Except.ok.injEq, ReadResult.read.injEq]
  | _ => exact iff_of_false (fun yields => nomatch yields) fun same => nomatch same

theorem value_eq_some {α : Type} {result : ReadResult α} {value : α} :
    result.value = some value ↔ result = .read value := by
  cases result <;> simp [ReadResult.value]

theorem readPkgInfo_ok_iff {path : ArtifactPath} {scan next : SdistScan} {member : TarMember} :
    readPkgInfo path scan member = .ok next ↔ (member.size ≤ maxMetadataBytes ∧ member.type = .regular ∧
      ∃ raw, member.data = .read raw) ∧ next = { scan with metadata := member.data.value } := by
  unfold readPkgInfo
  by_cases large : maxMetadataBytes < member.size
  · rw [if_pos large]
    exact iff_of_false (fun yields => nomatch yields) fun accepted => absurd large accepted.1.1.not_gt
  by_cases regular : member.type = .regular
  · rw [if_neg large, if_neg (not_not.mpr regular), Fallible.bind_eq_ok]
    constructor
    · rintro ⟨raw, isRead, yields⟩
      rw [orRaise_ok_iff] at isRead
      cases yields
      exact ⟨⟨not_lt.mp large, regular, raw, isRead⟩, by rw [isRead]; rfl⟩
    · rintro ⟨⟨-, -, raw, isRead⟩, rfl⟩
      exact ⟨raw, orRaise_ok_iff.mpr isRead, by rw [isRead]; rfl⟩
  · rw [if_neg large, if_pos regular]
    exact iff_of_false (fun yields => nomatch yields) fun accepted => regular accepted.1.2.1

theorem scanRelative_ok_iff [TextRepr] {path : ArtifactPath} {identity : ProjectIdentity} {scan next : SdistScan}
    {member : TarMember} {relative : List String} :
    scanRelative path identity scan member relative = .ok next ↔
      SdistPlace identity member relative ∧ next = scan.addRelative identity member relative := by
  match relative with
  | [] =>
    have same : scan.addRelative identity member [] = scan := by
      simp [SdistScan.addRelative, underSource]
    rw [scanRelative, Except.ok.injEq, same]
    exact ⟨fun same => ⟨.root, same.symm⟩, fun accepted => accepted.2.symm⟩
  | [file] =>
    rw [scanRelative]
    by_cases allowed : file ∈ allowedSdistRootFiles
    · rw [if_pos allowed]
      have notSource : underSource identity [file] = false := by simp [underSource, List.isPrefixOf]
      by_cases isInfo : file = "PKG-INFO"
      · have same : scan.addRelative identity member [file] =
            { scan with rootFiles := insert file scan.rootFiles, metadata := member.data.value } := by
          rw [SdistScan.addRelative, notSource, Bool.false_and, Bool.or_false, if_pos (congrArg (fun name => [name]) isInfo)]
        rw [if_pos isInfo, readPkgInfo_ok_iff, same]
        refine and_congr_left fun _ => ⟨fun isRead => .file allowed fun _ => isRead, ?_⟩
        intro place
        cases place with
        | file _ isRead => exact isRead isInfo
      · have same : scan.addRelative identity member [file] =
            { scan with rootFiles := insert file scan.rootFiles } := by
          simp [SdistScan.addRelative, notSource, isInfo]
        rw [if_neg isInfo, Except.ok.injEq, same]
        exact ⟨fun same => ⟨.file allowed fun info => absurd info isInfo, same.symm⟩, fun accepted => accepted.2.symm⟩
    · rw [if_neg allowed]
      refine iff_of_false (fun yields => nomatch yields) ?_
      rintro ⟨place, -⟩
      cases place with
      | file isAllowed _ => exact allowed isAllowed
  | first :: second :: rest =>
    rw [scanRelative]
    by_cases isSource : first = "src" ∧ second = identity.module
    · obtain ⟨rfl, rfl⟩ := isSource
      have same : scan.addRelative identity member ("src" :: identity.module :: rest) =
          { scan with sourceSeen := scan.sourceSeen || member.type = .regular } := by
        simp [SdistScan.addRelative, underSource]
      rw [if_pos ⟨rfl, rfl⟩, Except.ok.injEq, same]
      exact ⟨fun same => ⟨.source rest, same.symm⟩, fun accepted => accepted.2.symm⟩
    · rw [if_neg isSource]
      refine iff_of_false (fun yields => nomatch yields) ?_
      rintro ⟨place, -⟩
      cases place with
      | source _ => exact isSource ⟨rfl, rfl⟩

/-- **What one turn accepts, and what it adds.** -/
theorem scanSdistMember_ok_iff [TextRepr] {path : ArtifactPath} {identity : ProjectIdentity} {scan next : SdistScan}
    {member : TarMember} :
    scanSdistMember path identity scan member = .ok next ↔
      SdistMember identity member ∧ cleanName member.name ∉ scan.seen ∧ next = scan.add identity member := by
  unfold scanSdistMember
  rw [Fallible.bind_eq_ok]
  simp only [safeParts_ok_iff]
  have headIff : member.parts.headD "" = identity.root ↔ member.parts.head? = some identity.root := by
    obtain ⟨first, later, parts⟩ := List.exists_cons_of_ne_nil (segments_ne_nil (cleanName member.name))
    rw [TarMember.parts, parts, List.headD_cons, List.head?_cons, Option.some.injEq]
  constructor
  · rintro ⟨parts, ⟨safe, rfl⟩, yields⟩
    rw [join_segments] at yields
    split at yields
    · cases yields
    · rename_i fresh
      split at yields
      · cases yields
      · rename_i type
        split at yields
        · cases yields
        · rename_i root
          obtain ⟨place, added⟩ := scanRelative_ok_iff.mp yields
          refine ⟨⟨safe, ?_, headIff.mp (not_not.mp root), place⟩, fresh, added⟩
          tauto
  · rintro ⟨admitted, fresh, rfl⟩
    refine ⟨_, ⟨admitted.safe, rfl⟩, ?_⟩
    have type : ¬ (member.type ≠ .regular ∧ member.type ≠ .directory) := by
      have := admitted.type
      tauto
    have root : (segments (cleanName member.name)).headD "" = identity.root := headIff.mpr admitted.root
    rw [join_segments, if_neg fresh, if_neg type, if_neg (not_not.mpr root)]
    exact scanRelative_ok_iff.mpr ⟨admitted.place, rfl⟩

theorem sdist_distinctStep [TextRepr] (path : ArtifactPath) (identity : ProjectIdentity) :
    DistinctStep (scanSdistMember path identity) (fun member : TarMember => cleanName member.name) SdistScan.seen
      (SdistMember identity) (SdistScan.add identity) where
  accepts _ _ _ := scanSdistMember_ok_iff
  sees _ _ := rfl

section SdistFold

variable {identity : ProjectIdentity} {members : List TarMember}

theorem mem_rootFiles_foldl {scan : SdistScan} {file : String} :
    file ∈ (members.foldl (SdistScan.add identity) scan).rootFiles ↔
      file ∈ scan.rootFiles ∨ ∃ member ∈ members, member.parts.tail = [file] := by
  induction members generalizing scan with
  | nil => simp
  | cons first later ih =>
    have added : file ∈ (scan.add identity first).rootFiles ↔ file ∈ scan.rootFiles ∨ first.parts.tail = [file] := by
      unfold SdistScan.add SdistScan.addRelative
      match first.parts.tail with
      | [] => simp
      | [other] => simp [eq_comm, or_comm]
      | _ :: _ :: _ => simp
    rw [List.foldl_cons, ih, added, List.exists_mem_cons_iff, or_assoc]

theorem sourceSeen_foldl {scan : SdistScan} :
    (members.foldl (SdistScan.add identity) scan).sourceSeen = true ↔ scan.sourceSeen = true ∨
      ∃ member ∈ members, underSource identity member.parts.tail = true ∧ member.type = .regular := by
  induction members generalizing scan with
  | nil => simp
  | cons first later ih =>
    have added : (scan.add identity first).sourceSeen = true ↔ scan.sourceSeen = true ∨
        underSource identity first.parts.tail = true ∧ first.type = .regular := by
      simp [SdistScan.add, SdistScan.addRelative]
    rw [List.foldl_cons, ih, added, List.exists_mem_cons_iff, or_assoc]

/-- The metadata is that of the one member at `PKG-INFO`. -/
theorem metadata_iff (admitted : ∀ member ∈ members, SdistMember identity member)
    (distinct : (members.map fun member => cleanName member.name).Nodup) {raw : Bytes} :
    (members.foldl (SdistScan.add identity) .start).metadata = some raw ↔
      ∃ member ∈ members, member.parts.tail = ["PKG-INFO"] ∧ member.data = .read raw := by
  rw [foldl_last (fun member : TarMember => member.parts.tail) (SdistScan.add identity) SdistScan.metadata
    (fun _ _ isInfo => if_pos isInfo) (fun _ _ isOther => if_neg isOther)]
  constructor
  · intro found
    split at found
    · rename_i member isLast
      obtain ⟨inside, isInfo⟩ := mem_under.mp (List.mem_of_getLast? isLast)
      exact ⟨member, inside, isInfo, value_eq_some.mp found⟩
    · cases found
  · rintro ⟨member, inside, isInfo, isRead⟩
    have alone : under (fun member : TarMember => member.parts.tail) ["PKG-INFO"] members = [member] := by
      rw [← under_eq_singleton distinct inside]
      refine List.filter_congr fun other isOther => decide_eq_decide.mpr ?_
      show other.parts.tail = ["PKG-INFO"] ↔ cleanName other.name = cleanName member.name
      constructor
      · intro otherInfo
        have parts : other.parts = member.parts := by
          rw [(admitted other isOther).parts_eq, (admitted member inside).parts_eq, otherInfo, isInfo]
        exact segments_injective parts
      · intro same
        have parts : other.parts = member.parts := congrArg segments same
        rw [parts, isInfo]
    rw [alone]
    exact value_eq_some.mpr isRead

end SdistFold

/-- **A member that one turn of `validate_wheel` accepts**, were its name new. -/
structure WheelMember (identity : ProjectIdentity) (member : ZipMember) : Prop where
  safe : IsSafe member.filename
  noSymlink : member.isSymlink = false
  top : member.parts.head? = some identity.module ∨ member.parts.head? = some identity.distInfo
  isRead : cleanName member.filename = identity.metadataName →
    member.fileSize ≤ maxMetadataBytes ∧ ∃ raw, member.data = .read raw

/-- What a member adds. -/
def WheelScan.add (identity : ProjectIdentity) (scan : WheelScan) (member : ZipMember) : WheelScan where
  seen := insert (cleanName member.filename) scan.seen
  metadata := if cleanName member.filename = identity.metadataName then member.data.value else scan.metadata

/-- **What one turn accepts, and what it adds.** -/
theorem scanWheelMember_ok_iff [TextRepr] {path : ArtifactPath} {identity : ProjectIdentity} {scan next : WheelScan}
    {member : ZipMember} :
    scanWheelMember path identity scan member = .ok next ↔
      WheelMember identity member ∧ cleanName member.filename ∉ scan.seen ∧ next = scan.add identity member := by
  unfold scanWheelMember WheelScan.add
  rw [Fallible.bind_eq_ok]
  simp only [safeParts_ok_iff]
  have headIff : ∀ name, (segments (cleanName member.filename)).headD "" = name ↔ member.parts.head? = some name := by
    intro name
    obtain ⟨first, later, parts⟩ := List.exists_cons_of_ne_nil (segments_ne_nil (cleanName member.filename))
    rw [ZipMember.parts, parts, List.headD_cons, List.head?_cons, Option.some.injEq]
  constructor
  · rintro ⟨parts, ⟨safe, rfl⟩, yields⟩
    rw [join_segments] at yields
    split at yields
    · cases yields
    · rename_i fresh
      split at yields
      · cases yields
      · rename_i noSymlink
        split at yields
        · cases yields
        · rename_i top
          rw [ne_eq, ne_eq, headIff, headIff, ← not_or, not_not] at top
          rw [Bool.not_eq_true] at noSymlink
          split at yields
          · rename_i isMetadata
            split at yields
            · cases yields
            · rename_i small
              obtain ⟨raw, isRead, yields⟩ := Fallible.bind_eq_ok.mp yields
              rw [orRaise_ok_iff] at isRead
              cases yields
              refine ⟨⟨safe, noSymlink, top, fun _ => ⟨not_lt.mp small, raw, isRead⟩⟩, fresh, ?_⟩
              rw [if_pos isMetadata, isRead]
              rfl
          · rename_i isOther
            cases yields
            exact ⟨⟨safe, noSymlink, top, fun isMetadata => absurd isMetadata isOther⟩, fresh, by rw [if_neg isOther]⟩
  · rintro ⟨admitted, fresh, rfl⟩
    refine ⟨_, ⟨admitted.safe, rfl⟩, ?_⟩
    have top : ¬ ((segments (cleanName member.filename)).headD "" ≠ identity.module ∧
        (segments (cleanName member.filename)).headD "" ≠ identity.distInfo) := by
      rw [ne_eq, ne_eq, headIff, headIff, ← not_or, not_not]
      exact admitted.top
    rw [join_segments, if_neg fresh, admitted.noSymlink, if_neg Bool.false_ne_true, if_neg top]
    by_cases isMetadata : cleanName member.filename = identity.metadataName
    · obtain ⟨small, raw, isRead⟩ := admitted.isRead isMetadata
      rw [if_pos isMetadata, if_pos isMetadata, if_neg small.not_gt, isRead]
      rfl
    · rw [if_neg isMetadata, if_neg isMetadata]

theorem wheel_distinctStep [TextRepr] (path : ArtifactPath) (identity : ProjectIdentity) :
    DistinctStep (scanWheelMember path identity) (fun member : ZipMember => cleanName member.filename) WheelScan.seen
      (WheelMember identity) (WheelScan.add identity) where
  accepts _ _ _ := scanWheelMember_ok_iff
  sees _ _ := rfl

/-- The metadata is that of the one member `METADATA`. -/
theorem wheel_metadata_iff {identity : ProjectIdentity} {members : List ZipMember}
    (distinct : (members.map fun member => cleanName member.filename).Nodup) {raw : Bytes} :
    (members.foldl (WheelScan.add identity) .start).metadata = some raw ↔
      ∃ member ∈ members, cleanName member.filename = identity.metadataName ∧ member.data = .read raw := by
  rw [foldl_last (fun member : ZipMember => cleanName member.filename) (WheelScan.add identity) WheelScan.metadata
    (fun _ _ isMetadata => if_pos isMetadata) (fun _ _ isOther => if_neg isOther)]
  constructor
  · intro found
    split at found
    · rename_i member isLast
      obtain ⟨inside, isMetadata⟩ := mem_under.mp (List.mem_of_getLast? isLast)
      exact ⟨member, inside, isMetadata, value_eq_some.mp found⟩
    · cases found
  · rintro ⟨member, inside, isMetadata, isRead⟩
    rw [← isMetadata, under_eq_singleton distinct inside]
    exact value_eq_some.mpr isRead

section Accepted

variable [TextRepr] [MessageParser] [UnicodeTables] (path : ArtifactPath) (identity : ProjectIdentity)

/-- **What `validate_sdist` accepts.** -/
structure SdistPasses (members : List TarMember) : Prop where
  named : path.name = identity.root ++ ".tar.gz"
  few : members.length ≤ maxArchiveMembers
  admitted : ∀ member ∈ members, SdistMember identity member
  distinct : (members.map fun member => cleanName member.name).Nodup
  complete : ∀ file ∈ allowedSdistRootFiles, ∃ member ∈ members, member.parts.tail = [file]
  sourced : ∃ member ∈ members, underSource identity member.parts.tail = true ∧ member.type = .regular
  described : ∃ member ∈ members, member.parts.tail = ["PKG-INFO"] ∧
    ∃ raw, member.data = .read raw ∧ validateMetadata raw identity "PKG-INFO" = .ok ()

theorem validateSdist_ok_iff {members : List TarMember} :
    validateSdist path identity (.read members) = .ok () ↔ SdistPasses path identity members := by
  unfold validateSdist
  by_cases named : path.name = identity.root ++ ".tar.gz"
  swap
  · rw [if_pos named]
    exact iff_of_false (fun yields => nomatch yields) fun passes => named passes.named
  rw [if_neg (not_not.mpr named), Fallible.bind_eq_ok]
  simp only [orRaise_ok_iff, ReadResult.read.injEq, exists_eq_left']
  by_cases few : maxArchiveMembers < members.length
  · rw [if_pos few]
    exact iff_of_false (fun yields => nomatch yields) fun passes => absurd few passes.few.not_gt
  rw [if_neg few, Fallible.bind_eq_ok]
  constructor
  · rintro ⟨scan, scanned, yields⟩
    obtain ⟨admitted, distinct, -, rfl⟩ := (foldlM_ok_iff (sdist_distinctStep path identity)).mp scanned
    split at yields
    · cases yields
    · rename_i missing
      split at yields
      · cases yields
      · rename_i source
        split at yields
        · cases yields
        · rename_i raw found
          refine ⟨named, not_lt.mp few, admitted, distinct, ?_, ?_, ?_⟩
          · intro file allowed
            have present := Finset.sdiff_eq_empty_iff_subset.mp (not_not.mp missing) allowed
            exact (mem_rootFiles_foldl.mp present).resolve_left (Finset.notMem_empty _)
          · have seen := Bool.not_eq_false _ ▸ (Bool.not_eq_true' _ ▸ source)
            exact (sourceSeen_foldl.mp seen).resolve_left Bool.false_ne_true
          · obtain ⟨member, inside, isInfo, isRead⟩ := (metadata_iff admitted distinct).mp found
            exact ⟨member, inside, isInfo, raw, isRead, yields⟩
  · intro passes
    refine ⟨_, (foldlM_ok_iff (sdist_distinctStep path identity)).mpr
      ⟨passes.admitted, passes.distinct, fun _ _ => Finset.notMem_empty _, rfl⟩, ?_⟩
    have missing : allowedSdistRootFiles \ (members.foldl (SdistScan.add identity) .start).rootFiles = ∅ := by
      refine Finset.sdiff_eq_empty_iff_subset.mpr fun file allowed => ?_
      exact mem_rootFiles_foldl.mpr (Or.inr (passes.complete file allowed))
    have source : (members.foldl (SdistScan.add identity) .start).sourceSeen = true :=
      sourceSeen_foldl.mpr (Or.inr passes.sourced)
    obtain ⟨member, inside, isInfo, raw, isRead, valid⟩ := passes.described
    have found := (metadata_iff passes.admitted passes.distinct).mpr ⟨member, inside, isInfo, isRead⟩
    rw [if_neg (not_not.mpr missing), source, found]
    exact valid

/-- **What `validate_wheel` accepts.** -/
structure WheelPasses (members : List ZipMember) : Prop where
  named : path.name = identity.root ++ "-py3-none-any.whl"
  few : members.length ≤ maxArchiveMembers
  admitted : ∀ member ∈ members, WheelMember identity member
  distinct : (members.map fun member => cleanName member.filename).Nodup
  packaged : ∃ member ∈ members, startsWithText (identity.module ++ "/") (cleanName member.filename) = true
  described : ∃ member ∈ members, cleanName member.filename = identity.metadataName ∧
    ∃ raw, member.data = .read raw ∧ validateMetadata raw identity identity.metadataName = .ok ()

theorem validateWheel_ok_iff {members : List ZipMember} :
    validateWheel path identity (.read members) = .ok () ↔ WheelPasses path identity members := by
  unfold validateWheel
  by_cases named : path.name = identity.root ++ "-py3-none-any.whl"
  swap
  · rw [if_pos named]
    exact iff_of_false (fun yields => nomatch yields) fun passes => named passes.named
  rw [if_neg (not_not.mpr named), Fallible.bind_eq_ok]
  simp only [orRaise_ok_iff, ReadResult.read.injEq, exists_eq_left']
  by_cases few : maxArchiveMembers < members.length
  · rw [if_pos few]
    exact iff_of_false (fun yields => nomatch yields) fun passes => absurd few passes.few.not_gt
  rw [if_neg few, Fallible.bind_eq_ok]
  have seenIff : ∀ name, name ∈ (members.foldl (WheelScan.add identity) .start).seen ↔
      ∃ member ∈ members, cleanName member.filename = name := by
    intro name
    exact (mem_seen_foldl (wheel_distinctStep path identity)).trans (or_iff_right (Finset.notMem_empty _))
  constructor
  · rintro ⟨scan, scanned, yields⟩
    obtain ⟨admitted, distinct, -, rfl⟩ := (foldlM_ok_iff (wheel_distinctStep path identity)).mp scanned
    split at yields
    · cases yields
    · rename_i raw found
      split at yields
      · cases yields
      · rename_i packaged
        obtain ⟨name, seen, inModule⟩ := not_not.mp packaged
        obtain ⟨content, isContent, rfl⟩ := (seenIff name).mp seen
        obtain ⟨member, inside, isMetadata, isRead⟩ := (wheel_metadata_iff distinct).mp found
        exact ⟨named, not_lt.mp few, admitted, distinct, ⟨content, isContent, inModule⟩,
          member, inside, isMetadata, raw, isRead, yields⟩
  · intro passes
    refine ⟨_, (foldlM_ok_iff (wheel_distinctStep path identity)).mpr
      ⟨passes.admitted, passes.distinct, fun _ _ => Finset.notMem_empty _, rfl⟩, ?_⟩
    obtain ⟨content, isContent, inModule⟩ := passes.packaged
    obtain ⟨member, inside, isMetadata, raw, isRead, valid⟩ := passes.described
    have found := (wheel_metadata_iff passes.distinct).mpr ⟨member, inside, isMetadata, isRead⟩
    have packaged : ∃ name ∈ (members.foldl (WheelScan.add identity) .start).seen,
        startsWithText (identity.module ++ "/") name = true :=
      ⟨_, (seenIff _).mpr ⟨content, isContent, rfl⟩, inModule⟩
    rw [found]
    exact (if_neg (not_not.mpr packaged)).trans valid

end Accepted

end McpAuth
