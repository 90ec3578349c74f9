/-
**`prepare_release_artifacts.py` — two builds, one trusted set and its checksums.**

Directories are what they hold at the time of the run: under each name a file with its bytes, a symbolic link, or
something else. `prepareReleaseArtifacts` returns what it did and what it left in the output directory.

`prepareReleaseArtifacts_ok_iff`: a set is trusted exactly when both directories hold a valid wheel and a valid source
distribution of the tagged version, and nothing else, with the same digests. The output is then one build and a line for
each file of it.
-/

import McpAuth.Library.DigestLines
import McpAuth.Library.JsonValue
import McpAuth.Library.Rearrangement
import McpAuth.Scripts.ReleaseArtifacts

namespace McpAuth

open DigestLines Fallible JsonText PyText Sha256

/-! ### Directories -/

/-- A file: its bytes, and the error of reading it where it cannot be read. -/
structure StoredFile where
  bytes : Bytes
  unreadable : Option String

/-- What is under a name: a file, a symbolic link, or something else with the error of reading it. -/
inductive DirectoryEntry
  | file (stored : StoredFile)
  | symlink
  | other (exception : String)

/-- The entries of a directory: each name once, and no name with a slash. -/
structure DirectoryListing where
  entries : List (String × DirectoryEntry)
  unique : (entries.map Prod.fst).Nodup
  plain : ∀ entry ∈ entries, '/' ∉ entry.1.toList

/-- A directory with its listing, or the error of it. -/
structure ReleaseDirectory where
  path : String
  listing : ReadResult DirectoryListing

/-- A regular file. -/
structure ReleaseFile where
  path : ArtifactPath
  stored : StoredFile

/-- What reading a file yields. -/
def StoredFile.content (stored : StoredFile) : ReadResult Bytes :=
  match stored.unreadable with
  | none => .read stored.bytes
  | some exception => .invalid exception

theorem content_eq_read {stored : StoredFile} {raw : Bytes} : stored.content = .read raw ↔ stored = ⟨raw, none⟩ := by
  obtain ⟨bytes, _ | exception⟩ := stored <;> simp [StoredFile.content]

/-- `str(directory / name)`. -/
def joinPath (directory name : String) : String :=
  if directory = "." then name else if directory = "/" then "/" ++ name else directory ++ "/" ++ name

/-- `sorted(directory.iterdir())`. -/
def DirectoryListing.sorted (listing : DirectoryListing) : List (String × DirectoryEntry) :=
  listing.entries.insertionSort fun first second => first.1 ≤ second.1

def DirectoryEntry.isSymlink : DirectoryEntry → Bool
  | .symlink => true
  | _ => false

def DirectoryEntry.isFile : DirectoryEntry → Bool
  | .file _ => true
  | _ => false

/-- The regular file of an entry. -/
def ReleaseDirectory.fileOf (directory : ReleaseDirectory) : String × DirectoryEntry → Option ReleaseFile
  | (name, .file stored) => some ⟨⟨joinPath directory.path name, name⟩, stored⟩
  | _ => none

/-- What a read yields, read further. -/
def ReadResult.andThen {α β : Type} (next : α → ReadResult β) : ReadResult α → ReadResult β
  | .read value => next value
  | .invalid exception => .invalid exception
  | .raised exception => .raised exception

/-- A read whose errors nobody catches. -/
def ReadResult.orUncaught {α : Type} : ReadResult α → Except ArtifactFailure α
  | .read value => .ok value
  | .invalid exception | .raised exception => .error (.uncaught exception)

theorem orUncaught_ok_iff {α : Type} {result : ReadResult α} {value : α} :
    result.orUncaught = .ok value ↔ result = .read value := by
  cases result <;> simp [ReadResult.orUncaught]

/-- The archives that a file can be opened as. -/
class ArchiveReader where
  wheel : Bytes → ReadResult (List ZipMember)
  sdist : Bytes → ReadResult (List TarMember)

/-! ### The project -/

namespace ReleaseArtifacts

/-- `_required_string`. -/
def requiredString (document : JsonObject) (field context : String) : Except ArtifactFailure String :=
  required (.release ⟨context ++ ": " ++ field ++ " must be a non-empty string"⟩)
    (((get document field).asText.map strip).filter (· != ""))

end ReleaseArtifacts

/-- Runs of some characters with a mark in place of each. -/
def collapseRuns (isRun : Char → Bool) (mark : Char) : List Char → List Char
  | [] => []
  | char :: later =>
    if isRun char then
      if later.head?.any isRun then collapseRuns isRun mark later else mark :: collapseRuns isRun mark later
    else char :: collapseRuns isRun mark later

/-- `re.sub(r"[-.]+", "_", name).lower()`. -/
def moduleOf [UnicodeTables] (name : String) : String :=
  lower (String.ofList (collapseRuns (fun char => char == '-' || char == '.') '_' name.toList))

/-- `[a-z0-9_]`. -/
def isModuleChar (char : Char) : Bool := ('a' ≤ char && char ≤ 'z') || ('0' ≤ char && char ≤ '9') || char == '_'

/-- `[a-z][a-z0-9_]*`. -/
def isModule : List Char → Bool
  | [] => false
  | first :: rest => ('a' ≤ first && first ≤ 'z') && rest.all isModuleChar

/-- `load_project_identity`, for what `tomllib` reads of the file. -/
def loadProjectIdentity [UnicodeTables] (path : String) (pyproject : ReadResult JsonObject) :
    Except ArtifactFailure ProjectIdentity := do
  let document ← pyproject.orRaise (path ++ ": invalid project metadata: ")
  let project ← required (.release ⟨path ++ ": project table is required"⟩) (get document "project").asObject
  let name ← ReleaseArtifacts.requiredString project "name" path
  let version ← ReleaseArtifacts.requiredString project "version" path
  check (.release ⟨path ++ ": project name cannot map to a safe module path"⟩) (isModule (moduleOf name).toList)
  .ok ⟨name, moduleOf name, version⟩

def ProjectIdentity.wheelName (identity : ProjectIdentity) : String := identity.root ++ "-py3-none-any.whl"

def ProjectIdentity.sdistName (identity : ProjectIdentity) : String := identity.root ++ ".tar.gz"

/-- The names of a build. -/
def ProjectIdentity.artifactNames (identity : ProjectIdentity) : Finset String := {identity.wheelName, identity.sdistName}

/-! ### Builds -/

/-- The marker that the build tool leaves. -/
def checkSentinel (directory : ReleaseDirectory) (entry : String × DirectoryEntry) : Except ArtifactFailure Unit := do
  let sentinel := joinPath directory.path entry.1
  let unreadable := fun exception => ArtifactFailure.release ⟨sentinel ++ ": could not read uv sentinel: " ++ exception⟩
  match entry.2 with
  | .file stored =>
    let raw ← stored.content.orRaise (sentinel ++ ": could not read uv sentinel: ")
    let text ← required (.uncaught "UnicodeDecodeError") (decodeAscii raw)
    check (.release ⟨sentinel ++ ": unexpected uv sentinel content"⟩) (text == "*")
  | .other exception => .error (unreadable exception)
  | .symlink => .ok ()

section Builds

variable [TextRepr]

/-- `_artifact_paths`. -/
def artifactPaths (directory : ReleaseDirectory) (identity : ProjectIdentity) :
    Except ArtifactFailure (List ReleaseFile) := do
  let listing ← directory.listing.orRaise (directory.path ++ ": could not read build directory: ")
  let allPaths := listing.sorted
  check (.release ⟨directory.path ++ ": artifact symlinks are not allowed"⟩)
    !(allPaths.any fun entry => entry.2.isSymlink)
  (allPaths.filter fun entry => entry.1 == ".gitignore").forM (checkSentinel directory)
  let others := allPaths.filter fun entry => entry.1 != ".gitignore"
  let nonFiles := (others.filter fun entry => !entry.2.isFile).map Prod.fst
  check (.release ⟨directory.path ++ ": unexpected build entries: " ++ listRepr nonFiles⟩) nonFiles.isEmpty
  let actual := (others.map Prod.fst).toFinset
  check (.release ⟨directory.path ++ ": expected exactly " ++ listRepr (sorted identity.artifactNames) ++ ", got " ++
    listRepr (sorted actual)⟩) (actual == identity.artifactNames)
  .ok (others.filterMap directory.fileOf)

/-- `files[name]`. -/
def fileNamed (files : List ReleaseFile) (name : String) : Except ArtifactFailure ReleaseFile :=
  required (.uncaught ("KeyError: " ++ TextRepr.quoted name)) (files.find? fun file => file.path.name == name)

variable [ArchiveReader] [MessageParser] [UnicodeTables]

/-- The wheel and the source distribution of a build. -/
def validateBuild (identity : ProjectIdentity) (files : List ReleaseFile) : Except ArtifactFailure Unit := do
  let wheel ← fileNamed files identity.wheelName
  validateWheel wheel.path identity (wheel.stored.content.andThen ArchiveReader.wheel)
  let sdist ← fileNamed files identity.sdistName
  validateSdist sdist.path identity (sdist.stored.content.andThen ArchiveReader.sdist)

/-- A file of two builds, with the bytes of the first. -/
def compareBuilds (first second : List ReleaseFile) (name : String) : Except ArtifactFailure (String × Bytes) := do
  let file ← fileNamed first name
  let raw ← file.stored.content.orUncaught
  let again ← fileNamed second name
  let rawAgain ← again.stored.content.orUncaught
  check (.release ⟨name ++ ": repeated builds are not byte-for-byte reproducible"⟩) (hexdigest raw == hexdigest rawAgain)
  .ok (name, raw)

/-- `output.mkdir(parents=True, exist_ok=True)`, and the check that nothing is in it. -/
def checkOutput (output : ReleaseDirectory) : Except ArtifactFailure Unit := do
  let listing ← output.listing.orUncaught
  check (.release ⟨output.path ++ ": output directory must be empty"⟩) listing.entries.isEmpty

/-- Everything before the first file is written: the project, and the files of the trusted build. -/
def trustedBuild (rootPath : String) (pyproject : ReadResult JsonObject) (first second output : ReleaseDirectory)
    (tag : String) : Except ArtifactFailure (ProjectIdentity × List (String × Bytes)) := do
  let identity ← loadProjectIdentity rootPath pyproject
  let expectedTag := "v" ++ identity.version
  check (.release ⟨"release tag must be " ++ TextRepr.quoted expectedTag ++ ", got " ++ TextRepr.quoted tag⟩)
    (tag == expectedTag)
  let firstFiles ← artifactPaths first identity
  let secondFiles ← artifactPaths second identity
  [firstFiles, secondFiles].forM (validateBuild identity)
  let artifacts ← (sorted identity.artifactNames).mapM (compareBuilds firstFiles secondFiles)
  checkOutput output
  .ok (identity, artifacts)

/-! ### The preparation -/

/-- The digests of files by their names. -/
def digestsOf (files : List (String × Bytes)) : List (String × String) := files.map fun file => (file.1, hexdigest file.2)

/-- What `prepare_release_artifacts` returns. -/
structure PreparedArtifacts where
  digests : List (String × String)
  project : String
  tag : String
  version : String
  deriving DecidableEq

/-- What a preparation did: its result, and the files it left in the output directory. -/
structure Preparation (ε α : Type) where
  result : Except ε α
  written : List (String × Bytes)

/-- `prepare_release_artifacts`. -/
def prepareReleaseArtifacts (rootPath : String) (pyproject : ReadResult JsonObject)
    (first second output : ReleaseDirectory) (tag : String) : Preparation ArtifactFailure PreparedArtifacts :=
  match trustedBuild rootPath pyproject first second output tag with
  | .error failure => ⟨.error failure, []⟩
  | .ok (identity, artifacts) =>
    match encodeAscii (fileText (digestsOf artifacts)) with
    -- the manifest is opened before its text is encoded
    | none => ⟨.error (.uncaught "UnicodeEncodeError"), artifacts ++ [("SHA256SUMS", [])]⟩
    | some manifest =>
      ⟨.ok ⟨digestsOf artifacts, identity.name, tag, identity.version⟩, artifacts ++ [("SHA256SUMS", manifest)]⟩

/-! ### What is trusted -/

/-- **A directory that holds one build**: a wheel and a source distribution that pass, and no more than the marker. -/
structure HoldsBuild (directory : ReleaseDirectory) (identity : ProjectIdentity) (wheel sdist : Bytes) : Prop where
  listed : ∃ listing, directory.listing = .read listing ∧
    (identity.wheelName, .file ⟨wheel, none⟩) ∈ listing.entries ∧
    (identity.sdistName, .file ⟨sdist, none⟩) ∈ listing.entries ∧
    ∀ name entry, (name, entry) ∈ listing.entries → name ∈ identity.artifactNames ∨
      name = ".gitignore" ∧ entry = .file ⟨asciiBytes "*", none⟩
  wheel : ∃ members, ArchiveReader.wheel wheel = .read members ∧
    WheelPasses ⟨joinPath directory.path identity.wheelName, identity.wheelName⟩ identity members
  sdist : ∃ members, ArchiveReader.sdist sdist = .read members ∧
    SdistPasses ⟨joinPath directory.path identity.sdistName, identity.sdistName⟩ identity members

end Builds

/-! ### Names -/

theorem getLast?_append_text (first : String) {last : String} {char : Char} (isLast : last.toList.getLast? = some char) :
    (first ++ last).toList.getLast? = some char := by
  simp [isLast]

/-- The two names of a build and the name of the marker are different. -/
theorem artifactNames_distinct (identity : ProjectIdentity) :
    identity.wheelName ≠ identity.sdistName ∧ identity.wheelName ≠ ".gitignore" ∧ identity.sdistName ≠ ".gitignore" := by
  have wheelEnd : identity.wheelName.toList.getLast? = some 'l' := getLast?_append_text _ (by decide)
  have sdistEnd : identity.sdistName.toList.getLast? = some 'z' := getLast?_append_text _ (by decide)
  have markerEnd : ".gitignore".toList.getLast? = some 'e' := by decide
  refine ⟨?_, ?_, ?_⟩
  · intro same
    rw [same, sdistEnd] at wheelEnd
    exact absurd wheelEnd (by decide)
  · intro same
    rw [same, markerEnd] at wheelEnd
    exact absurd wheelEnd (by decide)
  · intro same
    rw [same, markerEnd] at sdistEnd
    exact absurd sdistEnd (by decide)

/-! ### Listings -/

section Listings

variable {directory : ReleaseDirectory} {listing : DirectoryListing} {identity : ProjectIdentity}

theorem mem_sorted_listing {entry : String × DirectoryEntry} : entry ∈ listing.sorted ↔ entry ∈ listing.entries :=
  List.mem_insertionSort _

theorem nodup_sorted_listing (listing : DirectoryListing) : (listing.sorted.map Prod.fst).Nodup :=
  ((List.perm_insertionSort _ listing.entries).map Prod.fst).nodup_iff.mpr listing.unique

/-- A name has one entry. -/
theorem DirectoryListing.entry_unique (listing : DirectoryListing) {name : String} {entry other : DirectoryEntry}
    (member : (name, entry) ∈ listing.entries) (member' : (name, other) ∈ listing.entries) : entry = other :=
  (Prod.mk.inj (List.inj_on_of_nodup_map listing.unique member member' rfl)).2

theorem mem_artifactNames {name : String} :
    name ∈ identity.artifactNames ↔ name = identity.wheelName ∨ name = identity.sdistName := by
  simp [ProjectIdentity.artifactNames]

/-- The files of a listing apart from the marker. -/
def artifactFiles (directory : ReleaseDirectory) (listing : DirectoryListing) : List ReleaseFile :=
  (listing.sorted.filter fun entry => entry.1 != ".gitignore").filterMap directory.fileOf

theorem fileOf_eq_some {entry : String × DirectoryEntry} {file : ReleaseFile} :
    directory.fileOf entry = some file ↔
      ∃ stored, entry.2 = .file stored ∧ file = ⟨⟨joinPath directory.path entry.1, entry.1⟩, stored⟩ := by
  obtain ⟨name, _ | _ | _⟩ := entry <;> simp [ReleaseDirectory.fileOf, eq_comm]

theorem mem_artifactFiles {file : ReleaseFile} :
    file ∈ artifactFiles directory listing ↔ ∃ name stored, (name, .file stored) ∈ listing.entries ∧
      name ≠ ".gitignore" ∧ file = ⟨⟨joinPath directory.path name, name⟩, stored⟩ := by
  simp only [artifactFiles, List.mem_filterMap, List.mem_filter, mem_sorted_listing, fileOf_eq_some]
  constructor
  · rintro ⟨⟨name, entry⟩, ⟨member, other⟩, stored, rfl, rfl⟩
    exact ⟨name, stored, member, by simpa using other, rfl⟩
  · rintro ⟨name, stored, member, other, rfl⟩
    exact ⟨_, ⟨member, by simpa using other⟩, stored, rfl, rfl⟩

/-- Files of entries with different names have different names. -/
theorem nodup_filterMap_fileOf {entries : List (String × DirectoryEntry)} (unique : (entries.map Prod.fst).Nodup) :
    ((entries.filterMap directory.fileOf).map fun file => file.path.name).Nodup := by
  have names : ∀ entry file, directory.fileOf entry = some file → file.path.name = entry.1 := by
    intro entry file isFile
    obtain ⟨stored, -, rfl⟩ := fileOf_eq_some.mp isFile
    rfl
  have sub : ((entries.filterMap directory.fileOf).map fun file => file.path.name).Sublist (entries.map Prod.fst) := by
    clear unique
    induction entries with
    | nil => exact .slnil
    | cons entry later ih =>
      rw [List.filterMap_cons, List.map_cons]
      cases isFile : directory.fileOf entry with
      | none => exact ih.cons _
      | some file =>
        rw [List.map_cons, names entry file isFile]
        exact ih.cons_cons _
  exact unique.sublist sub

/-- No two files have one name. -/
theorem nodup_artifactFiles : ((artifactFiles directory listing).map fun file => file.path.name).Nodup :=
  nodup_filterMap_fileOf ((nodup_sorted_listing listing).sublist (List.filter_sublist.map _))

/-- What is found under a name. -/
theorem fileNamed_ok_iff [TextRepr] {name : String} {file : ReleaseFile} (other : name ≠ ".gitignore") :
    fileNamed (artifactFiles directory listing) name = .ok file ↔
      ∃ stored, (name, .file stored) ∈ listing.entries ∧ file = ⟨⟨joinPath directory.path name, name⟩, stored⟩ := by
  rw [fileNamed, required_eq_ok, Rearrangement.find?_eq_some_iff_of_nodup nodup_artifactFiles, mem_artifactFiles]
  constructor
  · rintro ⟨⟨name, stored, member, -, rfl⟩, rfl⟩
    exact ⟨stored, member, rfl⟩
  · rintro ⟨stored, member, rfl⟩
    exact ⟨⟨name, stored, member, other, rfl⟩, rfl⟩

theorem decodeAscii_star {raw : Bytes} : decodeAscii raw = some "*" ↔ raw = asciiBytes "*" := by
  have encoded : encodeAscii "*" = some (asciiBytes "*") := by decide
  constructor
  · intro decoded
    have again := encodeAscii_decodeAscii decoded
    rw [encoded, Option.some.injEq] at again
    exact again.symm
  · rintro rfl
    exact decodeAscii_encodeAscii encoded

theorem checkSentinel_ok_iff {entry : String × DirectoryEntry} {done : Unit} :
    checkSentinel directory entry = .ok done ↔
      entry.2 = .symlink ∨ entry.2 = .file ⟨asciiBytes "*", none⟩ := by
  obtain ⟨name, stored | _ | exception⟩ := entry
  · simp only [checkSentinel, bind_eq_ok, orRaise_ok_iff, content_eq_read, required_eq_ok, check_eq_ok, beq_iff_eq]
    constructor
    · rintro ⟨raw, rfl, text, decoded, rfl⟩
      exact Or.inr (by rw [decodeAscii_star.mp decoded])
    · rintro (⟨⟨⟩⟩ | same)
      cases same
      exact ⟨_, rfl, _, decodeAscii_star.mpr rfl, rfl⟩
  · simp [checkSentinel]
  · simp [checkSentinel]

/-- **What `_artifact_paths` accepts.** -/
structure IsTidy (listing : DirectoryListing) (identity : ProjectIdentity) : Prop where
  files : ∀ name entry, (name, entry) ∈ listing.entries → name ≠ ".gitignore" → ∃ stored, entry = .file stored
  sentinel : ∀ entry, (".gitignore", entry) ∈ listing.entries → entry = .file ⟨asciiBytes "*", none⟩
  names : ∀ name, name ∈ identity.artifactNames ↔ name ≠ ".gitignore" ∧ ∃ entry, (name, entry) ∈ listing.entries

theorem artifactPaths_ok_iff [TextRepr] {files : List ReleaseFile} :
    artifactPaths directory identity = .ok files ↔ ∃ listing, directory.listing = .read listing ∧
      IsTidy listing identity ∧ files = artifactFiles directory listing := by
  simp only [artifactPaths, bind_eq_ok, orRaise_ok_iff, check_eq_ok, forM_eq_ok, exists_const, Except.ok.injEq]
  refine exists_congr fun listing => and_congr_right fun _ => ?_
  have memNames : ∀ name, name ∈ ((listing.sorted.filter fun entry => entry.1 != ".gitignore").map Prod.fst).toFinset ↔
      name ≠ ".gitignore" ∧ ∃ entry, (name, entry) ∈ listing.entries := by
    intro name
    simp [mem_sorted_listing]
    tauto
  constructor
  · rintro ⟨noSymlink, sentinel, files, names, rfl⟩
    refine ⟨⟨?_, ?_, ?_⟩, rfl⟩
    · intro name entry member other
      have isFile : entry.isFile = true := by
        by_contra notFile
        have nonFile : (name, entry) ∈ (listing.sorted.filter fun entry => entry.1 != ".gitignore").filter
            fun entry => !entry.2.isFile := by
          simpa [mem_sorted_listing, member, other] using notFile
        rw [List.map_eq_nil_iff.mp (List.isEmpty_iff.mp files)] at nonFile
        cases nonFile
      cases entry with
      | file stored => exact ⟨stored, rfl⟩
      | symlink => cases isFile
      | other exception => cases isFile
    · intro entry member
      have isStar := checkSentinel_ok_iff.mp (sentinel (".gitignore", entry) (by simp [mem_sorted_listing, member]))
      refine isStar.resolve_left ?_
      rintro rfl
      have isSymlink : (listing.sorted.any fun entry => entry.2.isSymlink) = true :=
        List.any_eq_true.mpr ⟨_, mem_sorted_listing.mpr member, rfl⟩
      simp [isSymlink] at noSymlink
    · intro name
      rw [← memNames, beq_iff_eq.mp names]
  · rintro ⟨tidy, rfl⟩
    have isFile : ∀ name entry, (name, entry) ∈ listing.entries → entry.isFile = true := by
      intro name entry member
      by_cases marker : name = ".gitignore"
      · subst marker
        rw [tidy.sentinel entry member]
        rfl
      · obtain ⟨stored, rfl⟩ := tidy.files name entry member marker
        rfl
    refine ⟨?_, ?_, ?_, ?_, rfl⟩
    · rw [Bool.not_eq_true', List.any_eq_false]
      rintro ⟨name, entry⟩ member
      have file := isFile name entry (mem_sorted_listing.mp member)
      cases entry with
      | symlink => cases file
      | _ => simp [DirectoryEntry.isSymlink]
    · rintro ⟨name, entry⟩ member
      rw [List.mem_filter, mem_sorted_listing] at member
      obtain rfl : name = ".gitignore" := by simpa using member.2
      exact checkSentinel_ok_iff.mpr (Or.inr (tidy.sentinel entry member.1))
    · rw [List.isEmpty_iff, List.map_eq_nil_iff, List.filter_eq_nil_iff]
      rintro ⟨name, entry⟩ member
      rw [List.mem_filter, mem_sorted_listing] at member
      simp [isFile name entry member.1]
    · rw [beq_iff_eq]
      ext name
      rw [memNames, tidy.names]

end Listings

/-! ### Builds that are trusted -/

section Trusted

variable [TextRepr] [ArchiveReader] [MessageParser] [UnicodeTables] {directory : ReleaseDirectory}
  {identity : ProjectIdentity} {wheel sdist : Bytes}

omit [ArchiveReader] in
theorem validateWheel_archive_iff {path : ArtifactPath} {archive : ReadResult (List ZipMember)} {done : Unit} :
    validateWheel path identity archive = .ok done ↔ ∃ members, archive = .read members ∧ WheelPasses path identity members := by
  constructor
  · intro passes
    obtain ⟨-, accepted⟩ := guard_eq_ok.mp passes
    obtain ⟨members, opened, -⟩ := bind_eq_ok.mp accepted
    obtain rfl := orRaise_ok_iff.mp opened
    exact ⟨members, rfl, (validateWheel_ok_iff path identity).mp passes⟩
  · rintro ⟨members, rfl, passes⟩
    exact (validateWheel_ok_iff path identity).mpr passes

omit [ArchiveReader] in
theorem validateSdist_archive_iff {path : ArtifactPath} {archive : ReadResult (List TarMember)} {done : Unit} :
    validateSdist path identity archive = .ok done ↔ ∃ members, archive = .read members ∧ SdistPasses path identity members := by
  constructor
  · intro passes
    obtain ⟨-, accepted⟩ := guard_eq_ok.mp passes
    obtain ⟨members, opened, -⟩ := bind_eq_ok.mp accepted
    obtain rfl := orRaise_ok_iff.mp opened
    exact ⟨members, rfl, (validateSdist_ok_iff path identity).mp passes⟩
  · rintro ⟨members, rfl, passes⟩
    exact (validateSdist_ok_iff path identity).mpr passes

/-- The bytes of a file of a build. -/
def ReadsAs (files : List ReleaseFile) (name : String) (raw : Bytes) : Prop :=
  ∃ file, fileNamed files name = .ok file ∧ file.stored.content = .read raw

/-- The path of a file of the directory. -/
def ReleaseDirectory.filePath (directory : ReleaseDirectory) (name : String) : ArtifactPath :=
  ⟨joinPath directory.path name, name⟩

/-- **The files of a directory pass exactly when it holds a build.** -/
theorem holdsBuild_iff :
    HoldsBuild directory identity wheel sdist ↔ ∃ files, artifactPaths directory identity = .ok files ∧
      validateBuild identity files = .ok () ∧ ReadsAs files identity.wheelName wheel ∧
      ReadsAs files identity.sdistName sdist := by
  obtain ⟨differ, wheelOther, sdistOther⟩ := artifactNames_distinct identity
  simp only [artifactPaths_ok_iff]
  constructor
  · rintro ⟨⟨listing, isListing, isWheel, isSdist, others⟩, ⟨members, opened, wheelPasses⟩,
      ⟨members', opened', sdistPasses⟩⟩
    have tidy : IsTidy listing identity := by
      refine ⟨?_, ?_, ?_⟩
      · intro name entry member other
        have inNames := (others name entry member).resolve_right fun marker => other marker.1
        rcases mem_artifactNames.mp inNames with rfl | rfl
        · exact ⟨_, listing.entry_unique member isWheel⟩
        · exact ⟨_, listing.entry_unique member isSdist⟩
      · intro entry member
        rcases others _ entry member with inNames | ⟨-, isStar⟩
        · rcases mem_artifactNames.mp inNames with same | same
          · exact absurd same.symm wheelOther
          · exact absurd same.symm sdistOther
        · exact isStar
      · intro name
        constructor
        · intro inNames
          rcases mem_artifactNames.mp inNames with rfl | rfl
          · exact ⟨wheelOther, _, isWheel⟩
          · exact ⟨sdistOther, _, isSdist⟩
        · rintro ⟨other, entry, member⟩
          exact (others name entry member).resolve_right fun marker => other marker.1
    have wheelFile := (@fileNamed_ok_iff directory listing _ _ _ wheelOther).mpr ⟨_, isWheel, rfl⟩
    have sdistFile := (@fileNamed_ok_iff directory listing _ _ _ sdistOther).mpr ⟨_, isSdist, rfl⟩
    refine ⟨_, ⟨listing, isListing, tidy, rfl⟩, ?_, ⟨_, wheelFile, rfl⟩, ⟨_, sdistFile, rfl⟩⟩
    refine bind_eq_ok.mpr ⟨_, wheelFile, bind_eq_ok.mpr ⟨(), ?_, bind_eq_ok.mpr ⟨_, sdistFile, ?_⟩⟩⟩
    · exact validateWheel_archive_iff.mpr ⟨members, opened, wheelPasses⟩
    · exact validateSdist_archive_iff.mpr ⟨members', opened', sdistPasses⟩
  · rintro ⟨_, ⟨listing, isListing, tidy, rfl⟩, valid, ⟨wheelFile, wheelFound, wheelRead⟩, ⟨sdistFile, sdistFound, sdistRead⟩⟩
    obtain ⟨file, found, rest⟩ := bind_eq_ok.mp valid
    obtain rfl : wheelFile = file := Except.ok.inj (wheelFound.symm.trans found)
    obtain ⟨⟨⟩, wheelValid, rest⟩ := bind_eq_ok.mp rest
    obtain ⟨file, found, sdistValid⟩ := bind_eq_ok.mp rest
    obtain rfl : sdistFile = file := Except.ok.inj (sdistFound.symm.trans found)
    obtain ⟨stored, isWheel, rfl⟩ := (fileNamed_ok_iff wheelOther).mp wheelFound
    obtain ⟨stored', isSdist, rfl⟩ := (fileNamed_ok_iff sdistOther).mp sdistFound
    obtain rfl := content_eq_read.mp wheelRead
    obtain rfl := content_eq_read.mp sdistRead
    refine ⟨⟨listing, isListing, isWheel, isSdist, ?_⟩, validateWheel_archive_iff.mp wheelValid,
      validateSdist_archive_iff.mp sdistValid⟩
    intro name entry member
    by_cases marker : name = ".gitignore"
    · subst marker
      exact Or.inr ⟨rfl, tidy.sentinel entry member⟩
    · exact Or.inl ((tidy.names name).mpr ⟨marker, entry, member⟩)

omit [ArchiveReader] [MessageParser] [UnicodeTables] in
theorem compareBuilds_ok_iff {first second : List ReleaseFile} {name : String} {artifact : String × Bytes} :
    compareBuilds first second name = .ok artifact ↔ ∃ raw again, ReadsAs first name raw ∧ ReadsAs second name again ∧
      hexdigest raw = hexdigest again ∧ artifact = (name, raw) := by
  simp only [compareBuilds, bind_eq_ok, orUncaught_ok_iff, check_eq_ok, beq_iff_eq, exists_const, Except.ok.injEq]
  constructor
  · rintro ⟨file, found, raw, isRaw, file', found', again, isAgain, same, rfl⟩
    exact ⟨raw, again, ⟨file, found, isRaw⟩, ⟨file', found', isAgain⟩, same, rfl⟩
  · rintro ⟨raw, again, ⟨file, found, isRaw⟩, ⟨file', found', isAgain⟩, same, rfl⟩
    exact ⟨file, found, raw, isRaw, file', found', again, isAgain, same, rfl⟩

omit [TextRepr] [ArchiveReader] [MessageParser] [UnicodeTables] in
theorem checkOutput_ok_iff {output : ReleaseDirectory} {done : Unit} :
    checkOutput output = .ok done ↔ ∃ listing, output.listing = .read listing ∧ listing.entries = [] := by
  simp [checkOutput, bind_eq_ok, orUncaught_ok_iff, check_eq_ok]

/-- The files of a build by their names. -/
def ProjectIdentity.artifacts (identity : ProjectIdentity) (wheel sdist : Bytes) : List (String × Bytes) :=
  (sorted identity.artifactNames).map fun name => (name, if name = identity.wheelName then wheel else sdist)

/-- **A build of the tagged version that was made twice.** -/
structure TrustedBuild (rootPath : String) (pyproject : ReadResult JsonObject) (first second output : ReleaseDirectory)
    (tag : String) (identity : ProjectIdentity) (wheel sdist : Bytes) : Prop where
  project : loadProjectIdentity rootPath pyproject = .ok identity
  tagged : tag = "v" ++ identity.version
  first : HoldsBuild first identity wheel sdist
  second : ∃ wheel' sdist', HoldsBuild second identity wheel' sdist' ∧ hexdigest wheel = hexdigest wheel' ∧
    hexdigest sdist = hexdigest sdist'
  empty : ∃ listing, output.listing = .read listing ∧ listing.entries = []

variable {rootPath : String} {pyproject : ReadResult JsonObject} {first second output : ReleaseDirectory} {tag : String}

omit [ArchiveReader] [MessageParser] [UnicodeTables] in
/-- The comparison of two builds yields the files of the first by their names. -/
theorem mapM_compareBuilds_iff {firstFiles secondFiles : List ReleaseFile} {artifacts : List (String × Bytes)} :
    (sorted identity.artifactNames).mapM (compareBuilds firstFiles secondFiles) = .ok artifacts ↔
      ∃ wheel sdist wheel' sdist', ReadsAs firstFiles identity.wheelName wheel ∧
        ReadsAs firstFiles identity.sdistName sdist ∧ ReadsAs secondFiles identity.wheelName wheel' ∧
        ReadsAs secondFiles identity.sdistName sdist' ∧ hexdigest wheel = hexdigest wheel' ∧
        hexdigest sdist = hexdigest sdist' ∧ artifacts = identity.artifacts wheel sdist := by
  obtain ⟨differ, -, -⟩ := artifactNames_distinct identity
  -- the two comparisons determine the whole loop
  have loop : ∀ {wheel sdist},
      compareBuilds firstFiles secondFiles identity.wheelName = .ok (identity.wheelName, wheel) →
      compareBuilds firstFiles secondFiles identity.sdistName = .ok (identity.sdistName, sdist) →
      (sorted identity.artifactNames).mapM (compareBuilds firstFiles secondFiles) =
        .ok (identity.artifacts wheel sdist) := by
    intro wheel sdist isWheel isSdist
    refine mapM_eq_ok_map fun name member => ?_
    rcases mem_artifactNames.mp (mem_sorted.mp member) with rfl | rfl
    · rw [if_pos rfl, isWheel]
    · rw [if_neg differ.symm, isSdist]
  constructor
  · intro compared
    have each := exists_mapM_eq_ok.mp ⟨_, compared⟩
    obtain ⟨_, isWheel⟩ := each _ (mem_sorted.mpr (mem_artifactNames.mpr (Or.inl rfl)))
    obtain ⟨_, isSdist⟩ := each _ (mem_sorted.mpr (mem_artifactNames.mpr (Or.inr rfl)))
    obtain ⟨wheel, wheel', readsWheel, readsWheel', sameWheel, rfl⟩ := compareBuilds_ok_iff.mp isWheel
    obtain ⟨sdist, sdist', readsSdist, readsSdist', sameSdist, rfl⟩ := compareBuilds_ok_iff.mp isSdist
    exact ⟨wheel, sdist, wheel', sdist', readsWheel, readsSdist, readsWheel', readsSdist', sameWheel, sameSdist,
      Except.ok.inj (compared.symm.trans (loop isWheel isSdist))⟩
  · rintro ⟨wheel, sdist, wheel', sdist', readsWheel, readsSdist, readsWheel', readsSdist', sameWheel, sameSdist, rfl⟩
    exact loop (compareBuilds_ok_iff.mpr ⟨wheel, wheel', readsWheel, readsWheel', sameWheel, rfl⟩)
      (compareBuilds_ok_iff.mpr ⟨sdist, sdist', readsSdist, readsSdist', sameSdist, rfl⟩)

/-- **What is found before the first file is written.** -/
theorem trustedBuild_ok_iff {artifacts : List (String × Bytes)} :
    trustedBuild rootPath pyproject first second output tag = .ok (identity, artifacts) ↔
      ∃ wheel sdist, TrustedBuild rootPath pyproject first second output tag identity wheel sdist ∧
        artifacts = identity.artifacts wheel sdist := by
  simp only [trustedBuild, bind_eq_ok, check_eq_ok, beq_iff_eq, forM_eq_ok, exists_const, Except.ok.injEq, Prod.mk.injEq,
    List.mem_cons, List.not_mem_nil, or_false, forall_eq_or_imp, forall_eq, checkOutput_ok_iff, mapM_compareBuilds_iff]
  constructor
  · rintro ⟨identity, project, tagged, firstFiles, isFirst, secondFiles, isSecond, ⟨firstValid, secondValid⟩, artifacts,
      ⟨wheel, sdist, wheel', sdist', isWheel, isSdist, isWheel', isSdist', sameWheel, sameSdist, rfl⟩, empty, rfl, rfl⟩
    have holdsFirst := holdsBuild_iff.mpr ⟨firstFiles, isFirst, firstValid, isWheel, isSdist⟩
    have holdsSecond := holdsBuild_iff.mpr ⟨secondFiles, isSecond, secondValid, isWheel', isSdist'⟩
    exact ⟨wheel, sdist, ⟨project, tagged, holdsFirst, ⟨wheel', sdist', holdsSecond, sameWheel, sameSdist⟩, empty⟩, rfl⟩
  · rintro ⟨wheel, sdist, ⟨project, tagged, holdsFirst, ⟨wheel', sdist', holdsSecond, sameWheel, sameSdist⟩, empty⟩, rfl⟩
    obtain ⟨firstFiles, isFirst, firstValid, isWheel, isSdist⟩ := holdsBuild_iff.mp holdsFirst
    obtain ⟨secondFiles, isSecond, secondValid, isWheel', isSdist'⟩ := holdsBuild_iff.mp holdsSecond
    exact ⟨identity, project, tagged, firstFiles, isFirst, secondFiles, isSecond, ⟨firstValid, secondValid⟩, _,
      ⟨wheel, sdist, wheel', sdist', isWheel, isSdist, isWheel', isSdist', sameWheel, sameSdist, rfl⟩, empty, rfl, rfl⟩

/-! ### What a preparation leaves -/

omit [TextRepr] [ArchiveReader] [MessageParser] [UnicodeTables] in
theorem isAscii_of_isModule {chars : List Char} (valid : isModule chars = true) : ∀ char ∈ chars, isAscii char = true := by
  have plain : ∀ char, isModuleChar char = true → isAscii char = true := by
    intro char valid
    simp only [isModuleChar, Bool.or_eq_true, Bool.and_eq_true, decide_eq_true_eq, beq_iff_eq] at valid
    rcases valid with (⟨-, below⟩ | ⟨-, below⟩) | rfl
    · exact decide_eq_true (Nat.lt_of_le_of_lt (UInt32.le_iff_toNat_le.mp below) (by decide))
    · exact decide_eq_true (Nat.lt_of_le_of_lt (UInt32.le_iff_toNat_le.mp below) (by decide))
    · decide
  cases chars with
  | nil => simp
  | cons first rest =>
    rw [isModule, Bool.and_eq_true, List.all_eq_true] at valid
    refine List.forall_mem_cons.mpr ⟨plain first ?_, fun char member => plain char (valid.2 char member)⟩
    rw [isModuleChar, valid.1]
    rfl

omit [TextRepr] [ArchiveReader] [MessageParser] in
/-- A project that is loaded has a module of ASCII characters. -/
theorem isAsciiText_module (loads : loadProjectIdentity rootPath pyproject = .ok identity) :
    IsAsciiText identity.module := by
  simp only [loadProjectIdentity, bind_eq_ok, check_eq_ok, exists_const, Except.ok.injEq] at loads
  obtain ⟨document, -, project, -, name, -, version, -, isModule, rfl⟩ := loads
  exact isAscii_of_isModule isModule

omit [TextRepr] [ArchiveReader] [MessageParser] [UnicodeTables] in
theorem mem_artifacts {wheel sdist : Bytes} {file : String × Bytes} :
    file ∈ identity.artifacts wheel sdist ↔ file = (identity.wheelName, wheel) ∨ file = (identity.sdistName, sdist) := by
  obtain ⟨differ, -, -⟩ := artifactNames_distinct identity
  rw [ProjectIdentity.artifacts, List.mem_map]
  simp only [mem_sorted, mem_artifactNames]
  constructor
  · rintro ⟨name, rfl | rfl, rfl⟩
    · simp
    · simp [differ.symm]
  · rintro (rfl | rfl)
    · exact ⟨_, Or.inl rfl, by simp⟩
    · exact ⟨_, Or.inr rfl, by simp [differ.symm]⟩

omit [TextRepr] [ArchiveReader] [MessageParser] [UnicodeTables] in
theorem isDigest_of_mem_digestsOf {files : List (String × Bytes)} {entry : String × String}
    (member : entry ∈ digestsOf files) : isDigest entry.2.toList = true := by
  obtain ⟨file, -, rfl⟩ := List.mem_map.mp member
  exact isDigest_hexdigest file.2

omit [TextRepr] [ArchiveReader] [MessageParser] in
/-- The checksums are ASCII exactly when the version is. -/
theorem isAsciiText_checksums (loads : loadProjectIdentity rootPath pyproject = .ok identity) :
    IsAsciiText (fileText (digestsOf (identity.artifacts wheel sdist))) ↔ IsAsciiText identity.version := by
  have plainModule := isAsciiText_module loads
  have names : ∀ suffix, IsAsciiText suffix →
      (IsAsciiText (identity.root ++ suffix) ↔ IsAsciiText identity.version) := by
    intro suffix plain
    rw [ProjectIdentity.root, isAsciiText_append, isAsciiText_append, isAsciiText_append]
    have dash : IsAsciiText "-" := by decide
    tauto
  have isWheel := names "-py3-none-any.whl" (by decide)
  have isSdist := names ".tar.gz" (by decide)
  rw [isAsciiText_fileText fun entry member => isDigest_of_mem_digestsOf member]
  simp only [digestsOf, List.mem_map, mem_artifacts]
  constructor
  · intro ascii
    exact isWheel.mp (ascii _ ⟨_, Or.inl rfl, rfl⟩)
  · rintro ascii _ ⟨file, rfl | rfl, rfl⟩
    · exact isWheel.mpr ascii
    · exact isSdist.mpr ascii

/-- The files of a trusted build and their checksums. -/
def ProjectIdentity.release (identity : ProjectIdentity) (wheel sdist : Bytes) : List (String × Bytes) :=
  identity.artifacts wheel sdist ++
    [("SHA256SUMS", asciiBytes (fileText (digestsOf (identity.artifacts wheel sdist))))]

/-- A trusted build is written with its checksums. -/
theorem prepareReleaseArtifacts_of_trusted {wheel sdist : Bytes}
    (trusted : TrustedBuild rootPath pyproject first second output tag identity wheel sdist) :
    prepareReleaseArtifacts rootPath pyproject first second output tag =
      if IsAsciiText identity.version then
        ⟨.ok ⟨digestsOf (identity.artifacts wheel sdist), identity.name, tag, identity.version⟩,
          identity.release wheel sdist⟩
      else ⟨.error (.uncaught "UnicodeEncodeError"), identity.artifacts wheel sdist ++ [("SHA256SUMS", [])]⟩ := by
  have found := trustedBuild_ok_iff.mpr ⟨wheel, sdist, trusted, rfl⟩
  have plain : IsAsciiText (fileText (digestsOf (identity.artifacts wheel sdist))) ↔ IsAsciiText identity.version :=
    isAsciiText_checksums trusted.project
  simp only [prepareReleaseArtifacts, found]
  split_ifs with ascii
  · rw [encodeAscii_eq_some.mpr ⟨plain.mpr ascii, rfl⟩]
    rfl
  · cases encoded : encodeAscii (fileText (digestsOf (identity.artifacts wheel sdist))) with
    | none => rfl
    | some raw => exact absurd (plain.mp (encodeAscii_eq_some.mp encoded).1) ascii

/-- **What a preparation does**: it leaves nothing where no trusted build is found, and else the files of the build with
their checksums, which are an empty file where the version is not ASCII. -/
theorem prepareReleaseArtifacts_exact :
    (∃ failure, prepareReleaseArtifacts rootPath pyproject first second output tag = ⟨.error failure, []⟩ ∧
      ∀ identity wheel sdist, ¬ TrustedBuild rootPath pyproject first second output tag identity wheel sdist) ∨
    ∃ identity wheel sdist, TrustedBuild rootPath pyproject first second output tag identity wheel sdist ∧
      prepareReleaseArtifacts rootPath pyproject first second output tag =
        if IsAsciiText identity.version then
          ⟨.ok ⟨digestsOf (identity.artifacts wheel sdist), identity.name, tag, identity.version⟩,
            identity.release wheel sdist⟩
        else ⟨.error (.uncaught "UnicodeEncodeError"), identity.artifacts wheel sdist ++ [("SHA256SUMS", [])]⟩ := by
  cases found : trustedBuild rootPath pyproject first second output tag with
  | error failure =>
    refine Or.inl ⟨failure, by rw [prepareReleaseArtifacts, found], ?_⟩
    intro identity wheel sdist trusted
    have finds := trustedBuild_ok_iff.mpr ⟨wheel, sdist, trusted, rfl⟩
    rw [found] at finds
    cases finds
  | ok build =>
    obtain ⟨identity, artifacts⟩ := build
    obtain ⟨wheel, sdist, trusted, rfl⟩ := trustedBuild_ok_iff.mp found
    exact Or.inr ⟨identity, wheel, sdist, trusted, prepareReleaseArtifacts_of_trusted trusted⟩

/-- A preparation returns exactly for a trusted build of an ASCII version. -/
theorem prepareReleaseArtifacts_ok_iff {artifacts : PreparedArtifacts} {written : List (String × Bytes)} :
    prepareReleaseArtifacts rootPath pyproject first second output tag = ⟨.ok artifacts, written⟩ ↔
      ∃ identity wheel sdist, TrustedBuild rootPath pyproject first second output tag identity wheel sdist ∧
        IsAsciiText identity.version ∧ written = identity.release wheel sdist ∧
        artifacts = ⟨digestsOf (identity.artifacts wheel sdist), identity.name, tag, identity.version⟩ := by
  constructor
  · intro prepared
    cases found : trustedBuild rootPath pyproject first second output tag with
    | error failure =>
      rw [prepareReleaseArtifacts, found] at prepared
      cases prepared
    | ok build =>
      obtain ⟨identity, _⟩ := build
      obtain ⟨wheel, sdist, trusted, -⟩ := trustedBuild_ok_iff.mp found
      rw [prepareReleaseArtifacts_of_trusted trusted] at prepared
      split_ifs at prepared with ascii
      · cases prepared
        exact ⟨identity, wheel, sdist, trusted, ascii, rfl, rfl⟩
      · cases prepared
  · rintro ⟨identity, wheel, sdist, trusted, ascii, rfl, rfl⟩
    rw [prepareReleaseArtifacts_of_trusted trusted, if_pos ascii]

end Trusted

end McpAuth
