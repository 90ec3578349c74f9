/-
**`prepare_release_publication.py` — what a release is checked for before it is published.**

The checks of the inputs: the identity of the release, directories that hold exactly the expected regular files, the
checksums of the package, the evidence about the platforms and the policy results.

* `exactRegularFiles_ok_iff` — a directory is taken exactly when it holds the expected files and nothing else;
* `packageChecksums_ok_iff` — checksums pass exactly when they name the two artifacts with their digests;
* `validatePlatformEvidence_ok_iff` — evidence passes exactly when it is about this image, tag and commit;
* `validatePolicy_ok_iff` — what a passed policy result looks like.
-/

import McpAuth.Library.JsonReader
import McpAuth.Scripts.ImageEvidence
import McpAuth.Scripts.ReleaseBuilds
import McpAuth.Scripts.SecurityEvidence

namespace McpAuth

open DigestLines Fallible JsonText PyText Sha256

/-! ### Errors -/

/-- Raised when a release bundle violates the publication contract. -/
structure ReleasePublicationError where
  message : String
  deriving DecidableEq

/-- What leaves a publication: the publication error, or another exception by its text. -/
inductive PublicationFailure
  | publication (error : ReleasePublicationError)
  | uncaught (exception : String)
  deriving DecidableEq

/-- `ReleasePublicationError(message)`. -/
def publicationError (message : String) : PublicationFailure := .publication ⟨message⟩

/-- `raise ReleasePublicationError(str(exc)) from exc`, for an error of the artifacts. -/
def PublicationFailure.ofArtifact : ArtifactFailure → PublicationFailure
  | .release error => publicationError error.message
  | .uncaught exception => .uncaught exception

/-- The same for an error of the evidence. -/
def PublicationFailure.ofEvidence : EvidenceFailure → PublicationFailure
  | .evidence error => publicationError error.message
  | .uncaught exception => .uncaught exception

/-- A read with the errors that a publication reports. -/
def ReadResult.orPublish {α : Type} (context : String) : ReadResult α → Except PublicationFailure α
  | .read value => .ok value
  | .invalid exception => .error (publicationError (context ++ exception))
  | .raised exception => .error (.uncaught exception)

theorem orPublish_ok_iff {α : Type} {result : ReadResult α} {context : String} {value : α} :
    result.orPublish context = .ok value ↔ result = .read value := by
  cases result <;> simp [ReadResult.orPublish]

/-! ### Files -/

def maxSbomBytes : ℕ := 16 * 1024 * 1024

def maxEvidenceBytes : ℕ := 128 * 1024 * 1024

/-- `EVIDENCE_FILES`. -/
def evidenceNames : Finset String :=
  {"grype-amd64.json", "grype-arm64.json", "image-amd64.cdx.json", "image-arm64.cdx.json", "image-digest.txt",
    "image-platforms.json", "policy-amd64.json", "policy-arm64.json", "source.cdx.json"}

/-- `PLATFORMS`. -/
def releasePlatforms : List (String × String) := [("linux/amd64", "amd64"), ("linux/arm64", "arm64")]

/-- `_exact_regular_files`. -/
def exactRegularFiles [TextRepr] (directory : ReleaseDirectory) (expected : Finset String) :
    Except PublicationFailure (List ReleaseFile) := do
  let listing ← directory.listing.orPublish (directory.path ++ ": could not read release inputs: ")
  let entries := listing.sorted
  check (publicationError (directory.path ++ ": symbolic links are not allowed"))
    !(entries.any fun entry => entry.2.isSymlink)
  let actual := (entries.map Prod.fst).toFinset
  check (publicationError (directory.path ++ ": expected exactly " ++ listRepr (sorted expected) ++ ", got " ++
    listRepr (sorted actual))) (actual == expected)
  check (publicationError (directory.path ++ ": every release input must be a regular file"))
    (entries.all fun entry => entry.2.isFile)
  .ok (entries.filterMap directory.fileOf)

/-- `_bounded`. -/
def bounded (maximum : ℕ) (file : ReleaseFile) : Except PublicationFailure Unit :=
  check (publicationError (file.path.text ++ ": release input exceeds " ++ toString maximum ++ " bytes"))
    (file.stored.bytes.length ≤ maximum)

/-- The limit of an evidence file. -/
def evidenceLimit (name : String) : ℕ :=
  if ".cdx.json".toList.isSuffixOf name.toList then maxSbomBytes else maxEvidenceBytes

/-- The text of the `JSONDecodeError` of a file. -/
class JsonErrors where
  explain : Bytes → String

/-- What `json.loads(path.read_text(encoding="utf-8"))` makes of a file. A string with a lone surrogate is outside the
model. -/
def ReleaseFile.load [FloatReader] [JsonErrors] (file : ReleaseFile) : LoadedFile :=
  match file.stored.content with
  | .invalid exception => .invalid exception
  | .raised exception => .raised exception
  | .read raw =>
    match readJsonFile raw with
    | .ok value => .document value
    | .error .malformed => .invalid (JsonErrors.explain raw)
    | .error .undecodable => .raised "UnicodeDecodeError"
    | .error .hugeInteger => .raised "ValueError"
    | .error .loneSurrogate => .raised "lone surrogate"

/-! ### Checksums -/

/-- The text of the `UnicodeDecodeError` of bytes outside ASCII. -/
def asciiDecodeError (raw : Bytes) : String :=
  let position := raw.findIdx (128 ≤ ·)
  let byte := (raw.getD position 0).toNat
  "'ascii' codec can't decode byte 0x" ++ String.ofList [Nat.digitChar (byte / 16), Nat.digitChar (byte % 16)] ++
    " in position " ++ toString position ++ ": ordinal not in range(128)"

/-- `_validate_package_checksums`. -/
def validatePackageChecksums (manifest : ReleaseFile) (expected : List (String × ReleaseFile)) :
    Except PublicationFailure Unit := do
  let path := manifest.path.text
  let raw ← manifest.stored.content.orPublish (path ++ ": invalid package checksum manifest: ")
  let text ← required (publicationError (path ++ ": invalid package checksum manifest: " ++ asciiDecodeError raw))
    (decodeAscii raw)
  let parsed ← readFile (publicationError (path ++ ": malformed or duplicate checksum entry")) text.toList
  check (publicationError (path ++ ": package checksum subjects do not match artifacts"))
    ((parsed.map Prod.fst).toFinset == (expected.map Prod.fst).toFinset)
  expected.forM fun artifact => do
    let digest ← required (.uncaught ("KeyError: " ++ artifact.1)) (parsed.lookup artifact.1)
    let content ← artifact.2.stored.content.orPublish (artifact.2.path.text ++ ": could not calculate SHA-256: ")
    check (publicationError (path ++ ": checksum mismatch for " ++ artifact.1)) (digest == hexdigest content)

/-! ### Evidence -/

/-- `load_document`, with its errors reported as errors of the publication. -/
def loadEvidence (path : String) (file : LoadedFile) : Except PublicationFailure JsonObject :=
  (loadDocument path file).mapError .ofEvidence

/-- A non-negative integer that is no boolean. -/
def isCount : Json → Bool
  | .int value => 0 ≤ value
  | _ => false

/-- `_validate_policy`. -/
def validatePolicy (path : String) (file : LoadedFile) : Except PublicationFailure Unit := do
  let document ← loadEvidence path file
  check (publicationError (path ++ ": vulnerability policy status must be passed")) ((get document "status").isText "passed")
  ["actionable_findings", "unfixed_high_critical_findings"].forM fun field =>
    check (publicationError (path ++ ": " ++ field ++ " must be a non-negative integer")) (isCount (get document field))
  check (publicationError (path ++ ": approved_exceptions must be an array"))
    (get document "approved_exceptions").asList.isSome

/-- `value == texts`. -/
def isTexts (value : Json) (texts : List String) : Bool :=
  match value with
  | .arr items => items.map Json.asText == texts.map some
  | _ => false

/-- What a publication is called with. -/
structure ReleaseRequest where
  tag : String
  repository : String
  commit : String
  imageName : String
  imageDigest : String

/-- The records so far and their digests. -/
structure RecordScan where
  digests : List String
  normalized : List (String × JsonObject)

/-- One turn of the loop over the platforms. -/
def scanRecord (path : String) (request : ReleaseRequest) (platforms : JsonObject) (scan : RecordScan)
    (expected : String × String) : Except PublicationFailure RecordScan := do
  let (platform, architecture) := expected
  let record ← required (publicationError (path ++ ": " ++ platform ++ " record must be an object"))
    (get platforms platform).asObject
  let digest ← required (publicationError (path ++ ": " ++ platform ++ " digest must be sha256"))
    ((get record "digest").asText.filter isImageDigest)
  check (publicationError (path ++ ": platform digests must be unique")) !scan.digests.contains digest
  check (publicationError (path ++ ": invalid platform identity for " ++ platform))
    ((get record "os").isText "linux" && (get record "architecture").isText architecture)
  check (publicationError (path ++ ": invalid platform reference for " ++ platform))
    ((get record "reference").isText (imageReference request.imageName digest))
  check (publicationError (path ++ ": invalid platform tags for " ++ platform))
    (isTexts (get record "tags") [request.tag ++ "-" ++ architecture, "sha-" ++ request.commit ++ "-" ++ architecture])
  .ok ⟨scan.digests ++ [digest], scan.normalized ++ [(platform, record)]⟩

/-- `_validate_platform_evidence`. -/
def validatePlatformEvidence (path : String) (file : LoadedFile) (request : ReleaseRequest) :
    Except PublicationFailure (List (String × JsonObject)) := do
  let document ← loadEvidence path file
  check (publicationError (path ++ ": schema_version must be 1")) (isOne (get document "schema_version"))
  let index ← required (publicationError (path ++ ": index must be an object")) (get document "index").asObject
  check (publicationError (path ++ ": index digest does not match published image"))
    ((get index "digest").isText request.imageDigest)
  check (publicationError (path ++ ": index reference does not match published image"))
    ((get index "reference").isText (imageReference request.imageName request.imageDigest))
  check (publicationError (path ++ ": index tags do not match release identity"))
    (isTexts (get index "tags") [request.tag, "sha-" ++ request.commit])
  let platforms ← required (publicationError (path ++ ": exact amd64/arm64 platform set is required"))
    ((get document "platforms").asObject.filter fun platforms =>
      (platforms.map Prod.fst).toFinset == (releasePlatforms.map Prod.fst).toFinset)
  let scan ← releasePlatforms.foldlM (scanRecord path request platforms) ⟨[], []⟩
  .ok scan.normalized

/-! ### The identity of the release -/

def isRepositoryChar (char : Char) : Bool :=
  PyNumbers.isDigit char || ('a' ≤ char && char ≤ 'z') || ('A' ≤ char && char ≤ 'Z') || ['_', '.', '-'].contains char

/-- `^[A-Za-z0-9_.-]+/[A-Za-z0-9_.-]+$`. -/
def isRepositoryName (text : String) : Bool :=
  match text.toList.splitOn '/' with
  | [owner, name] => !owner.isEmpty && owner.all isRepositoryChar && !name.isEmpty && name.all isRepositoryChar
  | _ => false

/-- `_validate_identity`. -/
def validateIdentity [UnicodeTables] [TextRepr] (rootPath : String) (pyproject : ReadResult JsonObject)
    (request : ReleaseRequest) : Except PublicationFailure ProjectIdentity := do
  let identity ← (loadProjectIdentity rootPath pyproject).mapError .ofArtifact
  let expectedTag := "v" ++ identity.version
  check (publicationError ("release tag must be " ++ TextRepr.quoted expectedTag ++ ", got " ++
    TextRepr.quoted request.tag)) (request.tag == expectedTag)
  check (publicationError "repository must use the owner/name form") (isRepositoryName request.repository)
  let expectedImage := "ghcr.io/" ++ lower request.repository
  check (publicationError ("image name must be " ++ TextRepr.quoted expectedImage ++ ", got " ++
    TextRepr.quoted request.imageName)) (request.imageName == expectedImage)
  check (publicationError "source commit must be a full lowercase commit SHA") (isCommit request.commit)
  check (publicationError "image digest must be a sha256 digest") (isImageDigest request.imageDigest)
  .ok identity

/-! ### Directories that are taken -/

/-- **A directory of regular files with exactly these names.** -/
def HoldsExactly (directory : ReleaseDirectory) (names : Finset String) (files : List ReleaseFile) : Prop :=
  ∃ listing, directory.listing = .read listing ∧
    (∀ name entry, (name, entry) ∈ listing.entries → ∃ stored, entry = .file stored) ∧
    (∀ name, name ∈ names ↔ ∃ entry, (name, entry) ∈ listing.entries) ∧
    files = listing.sorted.filterMap directory.fileOf

theorem exactRegularFiles_ok_iff [TextRepr] {directory : ReleaseDirectory} {names : Finset String}
    {files : List ReleaseFile} :
    exactRegularFiles directory names = .ok files ↔ HoldsExactly directory names files := by
  simp only [exactRegularFiles, bind_eq_ok, orPublish_ok_iff, check_eq_ok, exists_const, Except.ok.injEq, beq_iff_eq,
    HoldsExactly]
  refine exists_congr fun listing => and_congr_right fun _ => ?_
  have memNames : ∀ name, name ∈ (listing.sorted.map Prod.fst).toFinset ↔ ∃ entry, (name, entry) ∈ listing.entries := by
    intro name
    simp [mem_sorted_listing]
  constructor
  · rintro ⟨-, exact, files, rfl⟩
    refine ⟨fun name entry member => ?_, fun name => by rw [← exact, memNames], rfl⟩
    have isFile := List.all_eq_true.mp files _ (mem_sorted_listing.mpr member)
    cases entry with
    | file stored => exact ⟨stored, rfl⟩
    | symlink => cases isFile
    | other exception => cases isFile
  · rintro ⟨files, exact, rfl⟩
    refine ⟨?_, ?_, ?_, rfl⟩
    · rw [Bool.not_eq_true', List.any_eq_false]
      rintro ⟨name, entry⟩ member
      obtain ⟨stored, rfl⟩ := files name entry (mem_sorted_listing.mp member)
      exact Bool.false_ne_true
    · ext name
      rw [memNames, exact]
    · rw [List.all_eq_true]
      rintro ⟨name, entry⟩ member
      obtain ⟨stored, rfl⟩ := files name entry (mem_sorted_listing.mp member)
      rfl

/-! ### Checksums that pass -/

/-- **A checksum file with exactly these digests**, in any order. -/
def IsChecksumFile (raw : Bytes) (digests : List (String × String)) : Prop :=
  ∃ text entries, decodeAscii raw = some text ∧ Lists text.toList entries ∧ ∀ entry, entry ∈ entries ↔ entry ∈ digests

/-- **Checksums pass exactly when they are those of the artifacts.** -/
theorem packageChecksums_ok_iff {manifest : ReleaseFile} {expected : List (String × ReleaseFile)} {done : Unit} :
    validatePackageChecksums manifest expected = .ok done ↔ ∃ raw, manifest.stored = ⟨raw, none⟩ ∧
      (∀ artifact ∈ expected, artifact.2.stored.unreadable = none) ∧
      IsChecksumFile raw (expected.map fun artifact => (artifact.1, hexdigest artifact.2.stored.bytes)) := by
  have readable : ∀ {stored : StoredFile} {content : Bytes},
      stored = ⟨content, none⟩ ↔ stored.unreadable = none ∧ content = stored.bytes := by
    intro stored content
    cases stored
    simp [and_comm, eq_comm]
  simp only [validatePackageChecksums, bind_eq_ok, orPublish_ok_iff, content_eq_read, required_eq_ok, readFile_ok_iff,
    check_eq_ok, forM_eq_ok, exists_const, beq_iff_eq]
  constructor
  · rintro ⟨raw, isRaw, text, decoded, parsed, lists, names, each⟩
    have digestOf : ∀ artifact ∈ expected, artifact.2.stored.unreadable = none ∧
        (artifact.1, hexdigest artifact.2.stored.bytes) ∈ parsed := by
      intro artifact member
      obtain ⟨digest, found, content, isContent, rfl⟩ := each artifact member
      obtain ⟨isReadable, rfl⟩ := readable.mp isContent
      exact ⟨isReadable, (Rearrangement.lookup_eq_some_iff_of_nodup lists.distinct).mp found⟩
    refine ⟨raw, isRaw, fun artifact member => (digestOf artifact member).1, text, parsed, decoded, lists, ?_⟩
    intro entry
    rw [List.mem_map]
    constructor
    · intro member
      have isName : entry.1 ∈ (expected.map Prod.fst).toFinset := by
        rw [← names, List.mem_toFinset]
        exact List.mem_map.mpr ⟨entry, member, rfl⟩
      obtain ⟨artifact, isArtifact, same⟩ := List.mem_map.mp (List.mem_toFinset.mp isName)
      refine ⟨artifact, isArtifact, ?_⟩
      have listed := (digestOf artifact isArtifact).2
      exact List.inj_on_of_nodup_map lists.distinct listed member same
    · rintro ⟨artifact, isArtifact, rfl⟩
      exact (digestOf artifact isArtifact).2
  · rintro ⟨raw, isRaw, allReadable, text, parsed, decoded, lists, same⟩
    refine ⟨raw, isRaw, text, decoded, parsed, lists, ?_, fun artifact member => ?_⟩
    · ext name
      simp only [List.mem_toFinset, List.mem_map, same]
      constructor
      · rintro ⟨_, ⟨artifact, member, rfl⟩, rfl⟩
        exact ⟨artifact, member, rfl⟩
      · rintro ⟨artifact, member, rfl⟩
        exact ⟨_, ⟨artifact, member, rfl⟩, rfl⟩
    · refine ⟨_, (Rearrangement.lookup_eq_some_iff_of_nodup lists.distinct).mpr ((same _).mpr
        (List.mem_map.mpr ⟨artifact, member, rfl⟩)), _, readable.mpr ⟨allReadable artifact member, rfl⟩, rfl⟩

/-! ### Evidence that passes -/

theorem loadEvidence_ok_iff {path : String} {file : LoadedFile} {document : JsonObject} :
    loadEvidence path file = .ok document ↔ file = .document (.obj document) := by
  rw [loadEvidence, mapError_eq_ok, loadDocument_ok_iff]

/-- **A policy result that passed.** -/
structure IsPassedPolicy (document : JsonObject) : Prop where
  status : get document "status" = .str "passed"
  counts : ∀ field ∈ ["actionable_findings", "unfixed_high_critical_findings"],
    ∃ count : ℕ, get document field = .int count
  exceptions : ∃ items, get document "approved_exceptions" = .arr items

theorem isCount_iff {value : Json} : isCount value = true ↔ ∃ count : ℕ, value = .int count := by
  cases value with
  | int number =>
    simp only [isCount, decide_eq_true_eq, Json.int.injEq]
    exact ⟨fun positive => ⟨number.toNat, (Int.toNat_of_nonneg positive).symm⟩,
      fun ⟨count, same⟩ => same ▸ Int.natCast_nonneg count⟩
  | _ => simp [isCount]

theorem validatePolicy_ok_iff {path : String} {file : LoadedFile} {done : Unit} :
    validatePolicy path file = .ok done ↔ ∃ document, file = .document (.obj document) ∧ IsPassedPolicy document := by
  have isList : ∀ value : Json, value.asList.isSome = true ↔ ∃ items, value = .arr items := by
    intro value
    rw [Option.isSome_iff_exists]
    simp only [asList_eq_some]
  simp only [validatePolicy, bind_eq_ok, loadEvidence_ok_iff, check_eq_ok, forM_eq_ok, exists_const, Json.isText_iff,
    isCount_iff, isList]
  constructor
  · rintro ⟨document, rfl, status, counts, exceptions⟩
    exact ⟨document, rfl, status, counts, exceptions⟩
  · rintro ⟨document, rfl, status, counts, exceptions⟩
    exact ⟨document, rfl, status, counts, exceptions⟩

theorem isTexts_iff {value : Json} {texts : List String} :
    isTexts value texts = true ↔ value = .arr (texts.map .str) := by
  cases value with
  | arr items =>
    rw [isTexts, beq_iff_eq, Json.arr.injEq]
    induction items generalizing texts with
    | nil => cases texts <;> simp
    | cons item later ih =>
      cases texts with
      | nil => simp
      | cons text texts => simp [ih, Json.asText_eq_some]
  | _ => simp [isTexts]

/-- **The record of a platform of the release.** -/
structure IsPlatformRecord (request : ReleaseRequest) (architecture : String) (record : JsonObject) (digest : String) :
    Prop where
  isDigest : get record "digest" = .str digest
  valid : isImageDigest digest = true
  system : get record "os" = .str "linux"
  isArchitecture : get record "architecture" = .str architecture
  reference : get record "reference" = .str (imageReference request.imageName digest)
  tags : get record "tags" =
    .arr [.str (request.tag ++ "-" ++ architecture), .str ("sha-" ++ request.commit ++ "-" ++ architecture)]

/-- **Evidence about the release**: the index and the two platforms, with different digests. -/
structure IsPlatformEvidence (request : ReleaseRequest) (document amd64 arm64 : JsonObject) : Prop where
  version : isOne (get document "schema_version") = true
  index : ∃ index, get document "index" = .obj index ∧ get index "digest" = .str request.imageDigest ∧
    get index "reference" = .str (imageReference request.imageName request.imageDigest) ∧
    get index "tags" = .arr [.str request.tag, .str ("sha-" ++ request.commit)]
  platforms : ∃ platforms, get document "platforms" = .obj platforms ∧
    (platforms.map Prod.fst).toFinset = {"linux/amd64", "linux/arm64"} ∧
    get platforms "linux/amd64" = .obj amd64 ∧ get platforms "linux/arm64" = .obj arm64
  records : ∃ first second, IsPlatformRecord request "amd64" amd64 first ∧ IsPlatformRecord request "arm64" arm64 second ∧
    first ≠ second

section Platforms

variable {path : String} {request : ReleaseRequest}

theorem scanRecord_ok_iff {platforms : JsonObject} {scan next : RecordScan} {platform architecture : String} :
    scanRecord path request platforms scan (platform, architecture) = .ok next ↔ ∃ record digest,
      get platforms platform = .obj record ∧ IsPlatformRecord request architecture record digest ∧
        digest ∉ scan.digests ∧ next = ⟨scan.digests ++ [digest], scan.normalized ++ [(platform, record)]⟩ := by
  simp only [scanRecord, bind_eq_ok, required_eq_ok, check_eq_ok, asObject_eq_some, Option.filter_eq_some_iff,
    Json.asText_eq_some, Json.isText_iff, isTexts_iff, Bool.and_eq_true, exists_const, Except.ok.injEq]
  constructor
  · rintro ⟨record, isRecord, digest, ⟨isDigest, valid⟩, fresh, ⟨system, architecture⟩, reference, tags, rfl⟩
    exact ⟨record, digest, isRecord, ⟨isDigest, valid, system, architecture, reference, tags⟩, by simpa using fresh, rfl⟩
  · rintro ⟨record, digest, isRecord, ⟨isDigest, valid, system, architecture, reference, tags⟩, fresh, rfl⟩
    exact ⟨record, isRecord, digest, ⟨isDigest, valid⟩, by simpa using fresh, ⟨system, architecture⟩, reference, tags, rfl⟩

/-- **Evidence passes exactly when it is about the release.** -/
theorem validatePlatformEvidence_ok_iff {file : LoadedFile} {normalized : List (String × JsonObject)} :
    validatePlatformEvidence path file request = .ok normalized ↔ ∃ document amd64 arm64,
      file = .document (.obj document) ∧ IsPlatformEvidence request document amd64 arm64 ∧
        normalized = [("linux/amd64", amd64), ("linux/arm64", arm64)] := by
  have scanned : ∀ {platforms : JsonObject} {scan : RecordScan},
      releasePlatforms.foldlM (scanRecord path request platforms) ⟨[], []⟩ = .ok scan ↔ ∃ amd64 arm64 first second,
        get platforms "linux/amd64" = .obj amd64 ∧ get platforms "linux/arm64" = .obj arm64 ∧
          IsPlatformRecord request "amd64" amd64 first ∧ IsPlatformRecord request "arm64" arm64 second ∧
          first ≠ second ∧ scan = ⟨[first, second], [("linux/amd64", amd64), ("linux/arm64", arm64)]⟩ := by
    intro platforms scan
    simp only [releasePlatforms, List.foldlM_cons, List.foldlM_nil, bind_eq_ok, scanRecord_ok_iff]
    constructor
    · rintro ⟨_, ⟨amd64, first, isAmd, one, -, rfl⟩, _, ⟨arm64, second, isArm, other, fresh, rfl⟩, ⟨⟩⟩
      exact ⟨amd64, arm64, first, second, isAmd, isArm, one, other, fun same => fresh (by simp [same]), rfl⟩
    · rintro ⟨amd64, arm64, first, second, isAmd, isArm, one, other, differ, rfl⟩
      exact ⟨_, ⟨amd64, first, isAmd, one, by simp, rfl⟩, _, ⟨arm64, second, isArm, other, by simp [differ.symm], rfl⟩, rfl⟩
  have names : (releasePlatforms.map Prod.fst).toFinset = {"linux/amd64", "linux/arm64"} := by decide
  simp only [validatePlatformEvidence, bind_eq_ok, loadEvidence_ok_iff, check_eq_ok, required_eq_ok, asObject_eq_some,
    Option.filter_eq_some_iff, Json.isText_iff, isTexts_iff, exists_const, Except.ok.injEq, scanned, names, beq_iff_eq]
  constructor
  · rintro ⟨document, rfl, version, index, isIndex, digest, reference, tags, platforms, ⟨isPlatforms, exact⟩, _,
      ⟨amd64, arm64, first, second, isAmd, isArm, one, other, differ, rfl⟩, rfl⟩
    exact ⟨document, amd64, arm64, rfl, ⟨version, ⟨index, isIndex, digest, reference, tags⟩,
      ⟨platforms, isPlatforms, exact, isAmd, isArm⟩, ⟨first, second, one, other, differ⟩⟩, rfl⟩
  · rintro ⟨document, amd64, arm64, rfl, ⟨version, ⟨index, isIndex, digest, reference, tags⟩,
      ⟨platforms, isPlatforms, exact, isAmd, isArm⟩, ⟨first, second, one, other, differ⟩⟩, rfl⟩
    exact ⟨document, rfl, version, index, isIndex, digest, reference, tags, platforms, ⟨isPlatforms, exact⟩, _,
      ⟨amd64, arm64, first, second, isAmd, isArm, one, other, differ, rfl⟩, rfl⟩

end Platforms

end McpAuth
