/-
**The release workflow — what its steps prepare is what the last one publishes.**

`ReleaseRun` is a run of the steps of `release-artifacts.yml` that all succeeded: the package was prepared from two builds,
the evidence about the image was written, every scan was validated and passed the policy. Each step leaves files, and the
publication starts from them.

* `isPlatformEvidence_iff` — the evidence about an image is accepted for this image, tag and commit, and for no other;
* `holdsPackage_iff` — a prepared package passes the checks of the publication exactly when its names can stand in a
  checksum file;
* `release_published_iff` — **the publication of a run succeeds exactly for the request that belongs to it.**
-/

import McpAuth.Scripts.ArchiveBoundary
import McpAuth.Scripts.ReleasePublication
import McpAuth.Scripts.VulnerabilityGate

namespace McpAuth

open DigestLines Fallible JsonText PyText Sha256 TextRows

/-! ### Policy results -/

/-- One entry of `approved_exceptions` as it is written. -/
def ApprovedException.json (approved : ApprovedException) : Json :=
  .obj [("expires_on", .str approved.expiresOn), ("installed_version", .str approved.installedVersion),
    ("package", .str approved.package), ("vulnerability_id", .str approved.vulnerabilityId)]

/-- What `evaluate_vulnerability_policy` returns, as it is written. -/
def GateSummary.json (summary : GateSummary) : JsonObject :=
  [("actionable_findings", .int summary.actionableFindings),
    ("approved_exceptions", .arr (summary.approvedExceptions.map ApprovedException.json)),
    ("effective_date", .str summary.effectiveDate), ("status", .str summary.status),
    ("unfixed_high_critical_findings", .int summary.unfixedHighCriticalFindings)]

/-- `main` of `enforce_vulnerability_policy.py`: the result, and the file that it writes to `--output`. -/
def policyFile [UnicodeTables] [TextRepr] (reportPath exceptionsPath : String) (report exceptions : LoadedFile)
    (today : PyDate.Date) : Except GateError (GateSummary × Bytes) := do
  let summary ← evaluateVulnerabilityPolicy reportPath exceptionsPath report exceptions today
  .ok (summary, utf8Bytes (dumps (some 2) (.obj summary.json) ++ "\n"))

/-- `sys.maxsize`, the most that `len` returns. -/
def maxSize : ℕ := 2 ^ 63 - 1

/-- Numbers that are the length of something. -/
def GateSummary.Countable (summary : GateSummary) : Prop :=
  summary.actionableFindings ≤ maxSize ∧ summary.unfixedHighCriticalFindings ≤ maxSize

theorem canonical_count {count : ℕ} (small : count ≤ maxSize) : Canonical (.int count) := by
  refine .int ?_
  rw [Int.natAbs_natCast]
  refine le_trans ((Nat.length_toDigits_le_iff (k := 19) (by decide) (by decide)).mpr ?_) (by decide)
  exact lt_of_le_of_lt small (by decide)

/-- **A policy result is read back as it was written.** -/
theorem canonical_summary {summary : GateSummary} (countable : summary.Countable) : Canonical (.obj summary.json) := by
  have approved : ∀ approved : ApprovedException, Canonical approved.json := by
    intro approved
    refine .record ["expires_on", "installed_version", "package", "vulnerability_id"] (by decide) rfl ?_
    simp only [List.forall_mem_cons]
    exact ⟨.str _, .str _, .str _, .str _, by simp⟩
  refine .record ["actionable_findings", "approved_exceptions", "effective_date", "status",
    "unfixed_high_critical_findings"] (by decide) rfl ?_
  simp only [GateSummary.json, List.forall_mem_cons]
  refine ⟨canonical_count countable.1, .arr fun item member => ?_, .str _, .str _, canonical_count countable.2, by simp⟩
  obtain ⟨exception, -, rfl⟩ := List.mem_map.mp member
  exact approved exception

theorem isPassedPolicy_summary {summary : GateSummary} (passed : summary.status = "passed") :
    IsPassedPolicy summary.json where
  status := by
    rw [← passed]
    rfl
  counts := by
    intro field member
    rcases List.mem_pair.mp member with rfl | rfl
    · exact ⟨_, rfl⟩
    · exact ⟨_, rfl⟩
  exceptions := ⟨_, rfl⟩

/-! ### Evidence about an image -/

/-- **A request for the image of a release.** -/
structure RequestsImage (request : ReleaseRequest) (release : ImageRelease) : Prop where
  image : request.imageName = release.imageName
  digest : request.imageDigest = release.indexDigest
  tag : request.tag = release.tag
  commit : request.commit = release.commit

theorem isPlatformRecord_platformRecord {request : ReleaseRequest} {release : ImageRelease} {architecture digest : String}
    (requests : RequestsImage request release) (valid : isImageDigest digest = true) :
    IsPlatformRecord request architecture (release.platformRecord "linux" architecture digest) digest where
  isDigest := rfl
  valid := valid
  system := rfl
  isArchitecture := rfl
  reference := by
    rw [requests.image]
    rfl
  tags := by
    rw [requests.tag, requests.commit]
    rfl

/-- **The evidence about an image is accepted for this image, tag and commit, and for no other.** -/
theorem isPlatformEvidence_iff {request : ReleaseRequest} {release : ImageRelease} (isRelease : IsRelease release)
    {amd64 arm64 : JsonObject} : IsPlatformEvidence request release.evidence amd64 arm64 ↔
      RequestsImage request release ∧ amd64 = release.platformRecord "linux" "amd64" release.amd64Digest ∧
        arm64 = release.platformRecord "linux" "arm64" release.arm64Digest := by
  constructor
  · intro evidence
    obtain ⟨index, isIndex, digest, reference, tags⟩ := evidence.index
    obtain ⟨platforms, isPlatforms, -, isAmd, isArm⟩ := evidence.platforms
    cases isIndex
    cases isPlatforms
    cases isAmd
    cases isArm
    have sameDigest : release.indexDigest = request.imageDigest := Json.str.inj digest
    have sameReference : imageReference release.imageName release.indexDigest =
        imageReference request.imageName request.imageDigest := Json.str.inj reference
    have sameTags := Json.arr.inj tags
    simp only [List.cons.injEq, Json.str.injEq, and_true] at sameTags
    refine ⟨⟨?_, sameDigest.symm, sameTags.1.symm, ((String.append_right_inj _).mp sameTags.2).symm⟩, rfl, rfl⟩
    rw [sameDigest, imageReference, imageReference, String.append_left_inj, String.append_left_inj] at sameReference
    exact sameReference.symm
  · rintro ⟨requests, rfl, rfl⟩
    refine ⟨rfl, ⟨_, rfl, ?_, ?_, ?_⟩, ⟨_, rfl, ?_, rfl, rfl⟩, ⟨release.amd64Digest, release.arm64Digest, ?_, ?_, ?_⟩⟩
    · rw [requests.digest]
      rfl
    · rw [requests.digest, requests.image]
      rfl
    · rw [requests.tag, requests.commit]
      rfl
    · show ["linux/amd64", "linux/arm64"].toFinset = _
      decide
    · exact isPlatformRecord_platformRecord requests isRelease.amd64
    · exact isPlatformRecord_platformRecord requests isRelease.arm64
    · exact isRelease.differ

/-! ### The package -/

/-- **A version that can stand in a checksum file.** -/
def IsFileVersion (version : String) : Prop := ∀ char ∈ version.toList, char ≠ '\\' ∧ isLineBreak char = false

instance (version : String) : Decidable (IsFileVersion version) :=
  inferInstanceAs (Decidable (∀ char ∈ version.toList, char ≠ '\\' ∧ isLineBreak char = false))

theorem isFileName_iff {name : String} : IsFileName name ↔
    name.toList ≠ [] ∧ ∀ char ∈ name.toList, char ≠ '/' ∧ char ≠ '\\' ∧ isLineBreak char = false := by
  simp only [IsFileName, isPlainName, Bool.and_eq_true, Bool.not_eq_true', List.isEmpty_eq_false_iff, List.all_eq_true,
    bne_iff_ne, and_assoc, ← forall_and]

/-- The characters of a module can stand in a checksum file. -/
theorem plain_of_isModuleChar {char : Char} (inModule : isModuleChar char = true) :
    char ≠ '/' ∧ char ≠ '\\' ∧ isLineBreak char = false := by
  simp only [isModuleChar, Bool.or_eq_true, Bool.and_eq_true, decide_eq_true_eq, beq_iff_eq, Char.le_def,
    UInt32.le_iff_toNat_le] at inModule
  change ((97 ≤ char.toNat ∧ char.toNat ≤ 122) ∨ (48 ≤ char.toNat ∧ char.toNat ≤ 57)) ∨ char = '_' at inModule
  rcases inModule with (letter | digit) | rfl
  · refine ⟨?_, ?_, ?_⟩
    · rintro rfl
      exact absurd letter (by decide)
    · rintro rfl
      exact absurd letter (by decide)
    · simp only [isLineBreak, Bool.or_eq_false_iff, Bool.and_eq_false_iff, decide_eq_false_iff_not, beq_eq_false_iff_ne]
      omega
  · refine ⟨?_, ?_, ?_⟩
    · rintro rfl
      exact absurd digit (by decide)
    · rintro rfl
      exact absurd digit (by decide)
    · simp only [isLineBreak, Bool.or_eq_false_iff, Bool.and_eq_false_iff, decide_eq_false_iff_not, beq_eq_false_iff_ne]
      omega
  · decide

section Package

variable [TextRepr] [UnicodeTables] [ArchiveReader] [MessageParser]

variable {rootPath : String} {pyproject : ReadResult JsonObject} {identity : ProjectIdentity}

omit [TextRepr] [ArchiveReader] [MessageParser] in
theorem isModuleChar_module (loads : loadProjectIdentity rootPath pyproject = .ok identity) :
    ∀ char ∈ identity.module.toList, isModuleChar char = true := by
  simp only [loadProjectIdentity, bind_eq_ok, check_eq_ok, exists_const, Except.ok.injEq] at loads
  obtain ⟨document, -, project, -, name, -, version, -, valid, rfl⟩ := loads
  simp only
  cases chars : (moduleOf name).toList with
  | nil => simp
  | cons first rest =>
    rw [chars, isModule, Bool.and_eq_true, List.all_eq_true] at valid
    refine List.forall_mem_cons.mpr ⟨?_, valid.2⟩
    rw [isModuleChar, valid.1]
    rfl

omit [TextRepr] [ArchiveReader] [MessageParser] in
/-- The name of an artifact without a slash can stand in a checksum file exactly when its version can. -/
theorem isFileName_root (loads : loadProjectIdentity rootPath pyproject = .ok identity) {suffix : String}
    (plain : IsFileName suffix) (noSlash : '/' ∉ (identity.root ++ suffix).toList) :
    IsFileName (identity.root ++ suffix) ↔ IsFileVersion identity.version := by
  have chars : (identity.root ++ suffix).toList =
      identity.module.toList ++ '-' :: (identity.version.toList ++ suffix.toList) := by
    simp [ProjectIdentity.root, String.toList_append]
  rw [isFileName_iff]
  rw [chars] at noSlash ⊢
  constructor
  · rintro ⟨-, each⟩ char member
    exact (each char (by simp [member])).2
  · intro isVersion
    refine ⟨by simp, fun char member => ?_⟩
    have noSlashHere : char ≠ '/' := fun same => noSlash (same ▸ member)
    simp only [List.mem_append, List.mem_cons] at member
    rcases member with inModule | rfl | inVersion | inSuffix
    · exact plain_of_isModuleChar (isModuleChar_module loads char inModule)
    · decide
    · exact ⟨noSlashHere, isVersion char inVersion⟩
    · exact (isFileName_iff.mp plain).2 char inSuffix

variable {first second dist packageDir : ReleaseDirectory} {tag : String} {wheel sdist : Bytes} {content : String → Bytes}

omit [ArchiveReader] in
/-- An archive passes in another directory. -/
theorem WheelPasses.under {path path' : ArtifactPath} {members : List ZipMember}
    (passes : WheelPasses path identity members) (same : path'.name = path.name) :
    WheelPasses path' identity members where
  named := same.trans passes.named
  few := passes.few
  admitted := passes.admitted
  distinct := passes.distinct
  packaged := passes.packaged
  described := passes.described

omit [ArchiveReader] in
theorem SdistPasses.under {path path' : ArtifactPath} {members : List TarMember}
    (passes : SdistPasses path identity members) (same : path'.name = path.name) :
    SdistPasses path' identity members where
  named := same.trans passes.named
  few := passes.few
  admitted := passes.admitted
  distinct := passes.distinct
  complete := passes.complete
  sourced := passes.sourced
  described := passes.described

/-- **A prepared package passes exactly when its version can stand in a checksum file.** -/
theorem holdsPackage_iff (trusted : TrustedBuild rootPath pyproject first second dist tag identity wheel sdist)
    (ascii : IsAsciiText identity.version) (holds : ∀ file ∈ identity.release wheel sdist, content file.1 = file.2) :
    HoldsPackage packageDir identity content ↔ IsFileVersion identity.version := by
  obtain ⟨listing, -, isWheel, isSdist, -⟩ := trusted.first.listed
  have wheelName : IsFileName identity.wheelName ↔ IsFileVersion identity.version :=
    isFileName_root trusted.project (by decide) (listing.plain _ isWheel)
  have sdistName : IsFileName identity.sdistName ↔ IsFileVersion identity.version :=
    isFileName_root trusted.project (by decide) (listing.plain _ isSdist)
  constructor
  · intro package
    exact wheelName.mp (package.isFileName (by simp [ProjectIdentity.packageNames])).1
  · intro isVersion
    have held : ∀ file ∈ identity.artifacts wheel sdist, content file.1 = file.2 := fun file member =>
      holds file (List.mem_append_left _ member)
    have wheelContent : content identity.wheelName = wheel := held _ (mem_artifacts.mpr (Or.inl rfl))
    have sdistContent : content identity.sdistName = sdist := held _ (mem_artifacts.mpr (Or.inr rfl))
    have checksums : content "SHA256SUMS" = asciiBytes (fileText (digestsOf (identity.artifacts wheel sdist))) :=
      holds ("SHA256SUMS", _) (List.mem_append_right _ List.mem_cons_self)
    obtain ⟨wheelMembers, opensWheel, wheelPasses⟩ := trusted.first.wheel
    obtain ⟨sdistMembers, opensSdist, sdistPasses⟩ := trusted.first.sdist
    refine ⟨⟨wheelMembers, ?_, wheelPasses.under rfl⟩, ⟨sdistMembers, ?_, sdistPasses.under rfl⟩, ?_⟩
    · rw [wheelContent, opensWheel]
    · rw [sdistContent, opensSdist]
    · have encodes : encodeAscii (fileText (digestsOf (identity.artifacts wheel sdist))) = some (content "SHA256SUMS") :=
        encodeAscii_eq_some.mpr ⟨(isAsciiText_checksums trusted.project).mpr ascii, checksums⟩
      refine ⟨_, _, decodeAscii_encodeAscii encodes, lists_fileText ?_ ?_ ?_, ?_⟩
      · rw [map_fst_digestsOf, ProjectIdentity.artifacts, List.map_map]
        exact (List.map_id (sorted identity.artifactNames)).symm ▸ Finset.sort_nodup _ _
      · exact fun entry member => isDigest_of_mem_digestsOf member
      · intro entry member
        obtain ⟨file, isFile, rfl⟩ := List.mem_map.mp member
        rcases mem_artifacts.mp isFile with rfl | rfl
        · exact wheelName.mpr isVersion
        · exact sdistName.mpr isVersion
      · intro entry
        rw [wheelContent, sdistContent, digestsOf, List.mem_map]
        simp only [mem_artifacts, List.mem_pair]
        constructor
        · rintro ⟨file, rfl | rfl, rfl⟩
          · exact Or.inl rfl
          · exact Or.inr rfl
        · rintro (rfl | rfl)
          · exact ⟨_, Or.inl rfl, rfl⟩
          · exact ⟨_, Or.inr rfl, rfl⟩

end Package

/-! ### The subject -/

/-- The characters of a repository are ASCII in lower case, and no line break. -/
theorem plain_lower_repository [UnicodeTables] {repository : String} (valid : isRepositoryName repository = true) :
    ∀ char ∈ (lower repository).toList, isAscii char = true ∧ char ≠ '\r' := by
  have small : ∀ char, isRepositoryChar char = true → char.toNat < 128 := by
    intro char inName
    simp only [isRepositoryChar, PyNumbers.isDigit, Bool.or_eq_true, Bool.and_eq_true, decide_eq_true_eq, Char.le_def,
      UInt32.le_iff_toNat_le, List.contains_eq_mem, List.mem_cons, List.not_mem_nil, or_false] at inName
    change (((48 ≤ char.toNat ∧ char.toNat ≤ 57) ∨ (97 ≤ char.toNat ∧ char.toNat ≤ 122)) ∨
      (65 ≤ char.toNat ∧ char.toNat ≤ 90)) ∨ _ at inName
    rcases inName with ((digit | letter) | capital) | rfl | rfl | rfl
    · omega
    · omega
    · omega
    · decide
    · decide
    · decide
  have chars : ∀ char ∈ repository.toList, isRepositoryChar char = true ∨ char = '/' := by
    unfold isRepositoryName at valid
    split at valid
    · rename_i owner name parts
      simp only [Bool.and_eq_true, List.all_eq_true] at valid
      have joined := @List.intercalate_splitOn _ repository.toList _ _ '/'
      rw [← joined, parts]
      intro char member
      simp only [List.intercalate, List.intersperse, List.flatten_cons, List.flatten_nil, List.mem_append, List.mem_cons,
        List.not_mem_nil, or_false] at member
      rcases member with inOwner | rfl | inName
      · exact Or.inl (valid.1.1.2 char inOwner)
      · exact Or.inr rfl
      · exact Or.inl (valid.2 char inName)
    · cases valid
  have lowered : ∀ code : Fin 128, isAscii (asciiLowerChar (Char.ofNat code)) = true ∧
      (Char.ofNat code ≠ '\r' → asciiLowerChar (Char.ofNat code) ≠ '\r') := by decide
  have below : ∀ char ∈ repository.toList, char.toNat < 128 ∧ char ≠ '\r' := by
    intro char member
    rcases chars char member with inName | rfl
    · refine ⟨small char inName, ?_⟩
      rintro rfl
      cases inName
    · decide
  have ascii : IsAsciiText repository := fun char member => decide_eq_true (below char member).1
  intro char member
  rw [lower, if_pos ascii, asciiLower, String.toList_ofList] at member
  obtain ⟨original, isOriginal, rfl⟩ := List.mem_map.mp member
  obtain ⟨bound, noReturn⟩ := below original isOriginal
  have table := lowered ⟨original.toNat, bound⟩
  rw [Char.ofNat_toNat] at table
  exact ⟨table.1, table.2 noReturn⟩

theorem plain_of_isImageDigest {digest : String} (valid : isImageDigest digest = true) :
    ∀ char ∈ digest.toList, isAscii char = true ∧ char ≠ '\r' := by
  obtain ⟨hex, isHex, isDigest⟩ := (Option.any_eq_true _ _).mp valid
  rw [afterPrefix_eq_some.mp isHex]
  intro char member
  rcases List.mem_append.mp member with inStart | inHex
  · exact (show ∀ char ∈ "sha256:".toList, isAscii char = true ∧ char ≠ '\r' by decide) char inStart
  · have digit := List.all_eq_true.mp ((Bool.and_eq_true _ _).mp isDigest).2 char inHex
    refine ⟨isAscii_of_isHexDigit digit, ?_⟩
    rintro rfl
    cases digit

/-- **The subject of a published image is read back.** -/
theorem isSubject_of_owned [UnicodeTables] {request : ReleaseRequest} (repository : isRepositoryName request.repository = true)
    (owned : request.imageName = "ghcr.io/" ++ lower request.repository) (digest : isImageDigest request.imageDigest = true) :
    IsSubject request (utf8Bytes (imageReference request.imageName request.imageDigest ++ "\n")) := by
  have plain : ∀ char ∈ (imageReference request.imageName request.imageDigest ++ "\n").toList,
      isAscii char = true ∧ char ≠ '\r' := by
    intro char member
    simp only [imageReference, owned, String.toList_append, List.mem_append] at member
    rcases member with (((inHost | inRepository) | inAt) | inDigest) | inBreak
    · exact (show ∀ char ∈ "ghcr.io/".toList, isAscii char = true ∧ char ≠ '\r' by decide) char inHost
    · exact plain_lower_repository repository char inRepository
    · exact (show ∀ char ∈ "@".toList, isAscii char = true ∧ char ≠ '\r' by decide) char inAt
    · exact plain_of_isImageDigest digest char inDigest
    · exact (show ∀ char ∈ "\n".toList, isAscii char = true ∧ char ≠ '\r' by decide) char inBreak
  have ascii : IsAsciiText (imageReference request.imageName request.imageDigest ++ "\n") :=
    fun char member => (plain char member).1
  refine ⟨_, ?_, universalNewlines_of_notMem fun inside => (plain '\r' inside).2 rfl⟩
  rw [utf8Bytes_of_ascii ascii]
  exact decodeAscii_asciiBytes ascii

/-! ### A run of the workflow -/

section Run

variable [TextRepr] [PyRepr] [UnicodeTables] [ArchiveReader] [MessageParser] [FloatReader] [JsonErrors]

/-- A file as evidence. -/
def ReleaseFile.evidence (file : ReleaseFile) : EvidenceFile := ⟨file.path.text, file.load⟩

/-- **A platform that was scanned**: its evidence was validated, and the policy passed it. -/
structure ScannedPlatform (workDir : ReleaseDirectory) (content : String → Bytes) (component commit architecture : String) :
    Prop where
  validated : ∃ summary, validateSecurityEvidence (workDir.contentFile content "source.cdx.json").evidence
    (workDir.contentFile content ("image-" ++ architecture ++ ".cdx.json")).evidence
    (workDir.contentFile content ("grype-" ++ architecture ++ ".json")).evidence component
    (component ++ ":release-" ++ commit ++ "-" ++ architecture) = .ok summary
  passed : ∃ reportPath exceptionsPath exceptions today summary, summary.Countable ∧
    policyFile reportPath exceptionsPath (workDir.contentFile content ("grype-" ++ architecture ++ ".json")).load exceptions
      today = .ok (summary, content ("policy-" ++ architecture ++ ".json"))

/-- **A run of the workflow up to the publication**, with what its files hold. -/
structure ReleaseRun (rootPath : String) (pyproject : ReadResult JsonObject)
    (first second dist workDir packageDir evidenceDir : ReleaseDirectory) (identity : ProjectIdentity)
    (release : ImageRelease) (content : String → Bytes) : Prop where
  project : loadProjectIdentity rootPath pyproject = .ok identity
  /-- The package that was prepared is the one that is restored. -/
  package : ∃ artifacts written,
    prepareReleaseArtifacts rootPath pyproject first second dist release.tag = ⟨.ok artifacts, written⟩ ∧
      HoldsContents packageDir (written.map Prod.fst).toFinset content ∧ ∀ file ∈ written, content file.1 = file.2
  amd64 : ScannedPlatform workDir content identity.name release.commit "amd64"
  arm64 : ScannedPlatform workDir content identity.name release.commit "arm64"
  platforms : ∃ manifestPath manifest output summary text,
    prepareImageEvidence manifestPath manifest output release = .ok (summary, text) ∧
      content "image-platforms.json" = utf8Bytes text
  subject : content "image-digest.txt" = utf8Bytes (imageReference release.imageName release.indexDigest ++ "\n")
  evidence : HoldsContents evidenceDir evidenceNames content

/-- **A request that belongs to a run.** -/
structure RequestsRun (request : ReleaseRequest) (output : PublicationOutput) (identity : ProjectIdentity)
    (release : ImageRelease) (content : String → Bytes) : Prop where
  image : RequestsImage request release
  repository : isRepositoryName request.repository = true
  owned : release.imageName = "ghcr.io/" ++ lower request.repository
  version : IsFileVersion identity.version
  bounded : ∀ name ∈ evidenceNames, (content name).length ≤ evidenceLimit name
  empty : output.isSymlink = false ∧ ∃ listing, output.directory.listing = .read listing ∧ listing.entries = []

variable {rootPath : String} {pyproject : ReadResult JsonObject}
  {first second dist workDir packageDir evidenceDir : ReleaseDirectory} {identity : ProjectIdentity}
  {release : ImageRelease} {content : String → Bytes} {request : ReleaseRequest} {output : PublicationOutput}

omit [TextRepr] [PyRepr] [UnicodeTables] [ArchiveReader] [MessageParser] [FloatReader] [JsonErrors] in
/-- A directory holds one content under a name. -/
theorem HoldsContents.unique {directory : ReleaseDirectory} {names : Finset String} {other : String → Bytes}
    (holds : HoldsContents directory names content) (holds' : HoldsContents directory names other) :
    ∀ name ∈ names, content name = other name := by
  obtain ⟨listing, isListing, entries⟩ := holds
  obtain ⟨listing', isListing', entries'⟩ := holds'
  obtain rfl := ReadResult.read.inj (isListing.symm.trans isListing')
  intro name member
  have same := ((entries' name _).mp ((entries name _).mpr ⟨member, rfl⟩)).2
  exact congrArg StoredFile.bytes (DirectoryEntry.file.inj same)

omit [TextRepr] [PyRepr] [UnicodeTables] [ArchiveReader] [MessageParser] [FloatReader] [JsonErrors] in
/-- The files that a preparation leaves have the names of the package. -/
theorem names_release (wheel sdist : Bytes) :
    ((identity.release wheel sdist).map Prod.fst).toFinset = identity.packageNames := by
  ext name
  simp only [ProjectIdentity.release, List.map_append, List.mem_toFinset, List.mem_append, List.mem_map, mem_artifacts,
    ProjectIdentity.packageNames, Finset.mem_insert, Finset.mem_singleton, List.mem_singleton]
  constructor
  · rintro (⟨file, rfl | rfl, rfl⟩ | ⟨file, rfl, rfl⟩)
    · exact Or.inr (Or.inl rfl)
    · exact Or.inr (Or.inr rfl)
    · exact Or.inl rfl
  · rintro (rfl | rfl | rfl)
    · exact Or.inr ⟨_, rfl, rfl⟩
    · exact Or.inl ⟨_, Or.inl rfl, rfl⟩
    · exact Or.inl ⟨_, Or.inr rfl, rfl⟩

omit [PyRepr] [FloatReader] [JsonErrors] in
/-- What was prepared in a run: a trusted build, and its files under the names of the package. -/
theorem ReleaseRun.prepared [PyRepr] [FloatReader] [JsonErrors]
    (run : ReleaseRun rootPath pyproject first second dist workDir packageDir evidenceDir identity release content) :
    ∃ wheel sdist, TrustedBuild rootPath pyproject first second dist release.tag identity wheel sdist ∧
      IsAsciiText identity.version ∧ (∀ file ∈ identity.release wheel sdist, content file.1 = file.2) ∧
      HoldsContents packageDir identity.packageNames content := by
  obtain ⟨artifacts, written, prepared, holds, held⟩ := run.package
  obtain ⟨built, wheel, sdist, trusted, ascii, rfl, -⟩ := prepareReleaseArtifacts_ok_iff.mp prepared
  obtain rfl : identity = built := Except.ok.inj (run.project.symm.trans trusted.project)
  refine ⟨wheel, sdist, trusted, ascii, held, ?_⟩
  rwa [names_release] at holds

/-- The evidence about the image is read back. -/
theorem ReleaseRun.readsPlatforms
    (run : ReleaseRun rootPath pyproject first second dist workDir packageDir evidenceDir identity release content) :
    IsRelease release ∧ readJsonFile (content "image-platforms.json") = .ok (.obj release.evidence) := by
  obtain ⟨manifestPath, manifest, imageOutput, summary, text, prepares, written⟩ := run.platforms
  obtain ⟨isRelease, -, -, -, -, rfl⟩ := prepareImageEvidence_ok_iff.mp prepares
  refine ⟨isRelease, ?_⟩
  rw [written]
  exact readJsonFile_dumps (canonical_evidence release) (some 2)

omit [ArchiveReader] [MessageParser] in
/-- A platform that was scanned passes the publication of its commit. -/
theorem ScannedPlatform.holdsScan {architecture : String}
    (scanned : ScannedPlatform workDir content identity.name request.commit architecture) :
    IsSbomOf (content "source.cdx.json") identity.name ∧ HoldsScan identity request content architecture := by
  obtain ⟨summary, validated⟩ := scanned.validated
  obtain ⟨reportPath, exceptionsPath, exceptions, today, gate, countable, passed⟩ := scanned.passed
  simp only [validateSecurityEvidence, ReleaseFile.evidence, bind_eq_ok, validateCyclonedx_ok_iff,
    validateGrypeReport_ok_iff, load_eq_document] at validated
  obtain ⟨_, ⟨image, version, ⟨raw, isRaw, loads⟩, isCyclonedx, -⟩, _, ⟨source, version', ⟨raw', isRaw', loads'⟩,
    isCyclonedx', -⟩, _, ⟨report, found, ⟨raw'', isRaw'', loads''⟩, isReport, -⟩, -⟩ := validated
  cases isRaw
  cases isRaw'
  cases isRaw''
  obtain ⟨_, evaluates, written⟩ := bind_eq_ok.mp passed
  obtain ⟨isGate, isFile⟩ := Prod.mk.inj (Except.ok.inj written)
  rw [isGate] at evaluates isFile
  obtain ⟨_, _, -, -, -, isSummary⟩ := evaluate_ok_iff.mp evaluates
  have isPassed : IsPassedPolicy gate.json := isPassedPolicy_summary (by rw [isSummary]; rfl)
  refine ⟨⟨source, version', loads', isCyclonedx'⟩, ⟨image, version, loads, isCyclonedx⟩, ⟨report, found, loads'', isReport⟩,
    ⟨gate.json, ?_, isPassed⟩⟩
  rw [← isFile]
  exact readJsonFile_dumps (canonical_summary countable) (some 2)

/-- **The publication of a run succeeds exactly for the request that belongs to it**, where the files fit: the version can
stand in a checksum file, no evidence is too long, and the output is empty. -/
theorem release_published_iff
    (run : ReleaseRun rootPath pyproject first second dist workDir packageDir evidenceDir identity release content) :
    (∃ summary, (prepareReleasePublication rootPath pyproject packageDir evidenceDir output request).result =
      .ok summary) ↔ RequestsRun request output identity release content := by
  obtain ⟨wheel, sdist, trusted, ascii, held, package⟩ := run.prepared
  obtain ⟨isRelease, reads⟩ := run.readsPlatforms
  rw [prepareReleasePublication_ok_iff]
  constructor
  · rintro ⟨identity', content', amd64, arm64, publishable⟩
    obtain rfl : identity = identity' := Except.ok.inj (run.project.symm.trans publishable.project)
    have inPackage := publishable.package.unique package
    have inEvidence := publishable.evidence.unique run.evidence
    obtain ⟨document, loads, isEvidence⟩ := publishable.isEvidence.platforms
    rw [inEvidence _ (by decide), reads] at loads
    cases loads
    have requests := ((isPlatformEvidence_iff isRelease).mp isEvidence).1
    have heldThere : ∀ file ∈ identity.release wheel sdist, content' file.1 = file.2 := by
      intro file member
      have isName : file.1 ∈ identity.packageNames := by
        rw [← names_release wheel sdist, List.mem_toFinset]
        exact List.mem_map_of_mem member
      rw [inPackage _ isName, held file member]
    exact
      { image := requests
        repository := publishable.repository
        owned := requests.image.symm.trans publishable.image
        version := (holdsPackage_iff trusted ascii heldThere).mp publishable.isPackage
        bounded := by
          intro name member
          rw [← inEvidence name member]
          exact publishable.bounded name member
        empty := publishable.output }
  · intro requests
    obtain ⟨imageName, imageDigest, isTag, isCommit⟩ := requests.image
    have owned : request.imageName = "ghcr.io/" ++ lower request.repository := imageName.trans requests.owned
    have amd64 := run.amd64
    have arm64 := run.arm64
    rw [← isCommit] at amd64 arm64
    obtain ⟨source, amd64Scan⟩ := amd64.holdsScan
    obtain ⟨-, arm64Scan⟩ := arm64.holdsScan
    have digest : isImageDigest request.imageDigest = true := by
      rw [imageDigest]
      exact isRelease.index
    refine ⟨identity, content, release.platformRecord "linux" "amd64" release.amd64Digest,
      release.platformRecord "linux" "arm64" release.arm64Digest, ?_⟩
    exact
      { project := run.project
        tagged := isTag.trans trusted.tagged
        repository := requests.repository
        image := owned
        commit := by
          rw [isCommit]
          exact isRelease.commit
        digest := digest
        package := package
        evidence := run.evidence
        bounded := requests.bounded
        isPackage := (holdsPackage_iff trusted ascii held).mpr requests.version
        isEvidence := ⟨source, ⟨_, reads, (isPlatformEvidence_iff isRelease).mpr ⟨requests.image, rfl, rfl⟩⟩, amd64Scan,
          arm64Scan⟩
        subject := by
          rw [run.subject, ← imageName, ← imageDigest]
          exact isSubject_of_owned requests.repository owned digest
        output := requests.empty }

end Run

/-! ### One run -/

/-- A wheel of `demo` 1. -/
def demoWheel : Bytes :=
  [0x50, 0x4b, 0x03, 0x04, 0x14, 0x00, 0x00, 0x00, 0x00, 0x00, 0x00, 0x00, 0x21, 0x00, 0x00, 0x00, 0x00, 0x00, 0x00,
    0x00, 0x00, 0x00, 0x00, 0x00, 0x00, 0x00, 0x10, 0x00, 0x00, 0x00, 0x64, 0x65, 0x6d, 0x6f, 0x2f, 0x5f, 0x5f, 0x69,
    0x6e, 0x69, 0x74, 0x5f, 0x5f, 0x2e, 0x70, 0x79, 0x50, 0x4b, 0x03, 0x04, 0x14, 0x00, 0x00, 0x00, 0x00, 0x00, 0x00,
    0x00, 0x21, 0x00, 0x04, 0xbd, 0x7e, 0xa9, 0x16, 0x00, 0x00, 0x00, 0x16, 0x00, 0x00, 0x00, 0x19, 0x00, 0x00, 0x00,
    0x64, 0x65, 0x6d, 0x6f, 0x2d, 0x31, 0x2e, 0x64, 0x69, 0x73, 0x74, 0x2d, 0x69, 0x6e, 0x66, 0x6f, 0x2f, 0x4d, 0x45,
    0x54, 0x41, 0x44, 0x41, 0x54, 0x41, 0x4e, 0x61, 0x6d, 0x65, 0x3a, 0x20, 0x64, 0x65, 0x6d, 0x6f, 0x0a, 0x56, 0x65,
    0x72, 0x73, 0x69, 0x6f, 0x6e, 0x3a, 0x20, 0x31, 0x0a, 0x50, 0x4b, 0x01, 0x02, 0x14, 0x00, 0x14, 0x00, 0x00, 0x00,
    0x00, 0x00, 0x00, 0x00, 0x21, 0x00, 0x00, 0x00, 0x00, 0x00, 0x00, 0x00, 0x00, 0x00, 0x00, 0x00, 0x00, 0x00, 0x10,
    0x00, 0x00, 0x00, 0x00, 0x00, 0x00, 0x00, 0x00, 0x00, 0x00, 0x00, 0x80, 0x01, 0x00, 0x00, 0x00, 0x00, 0x64, 0x65,
    0x6d, 0x6f, 0x2f, 0x5f, 0x5f, 0x69, 0x6e, 0x69, 0x74, 0x5f, 0x5f, 0x2e, 0x70, 0x79, 0x50, 0x4b, 0x01, 0x02, 0x14,
    0x00, 0x14, 0x00, 0x00, 0x00, 0x00, 0x00, 0x00, 0x00, 0x21, 0x00, 0x04, 0xbd, 0x7e, 0xa9, 0x16, 0x00, 0x00, 0x00,
    0x16, 0x00, 0x00, 0x00, 0x19, 0x00, 0x00, 0x00, 0x00, 0x00, 0x00, 0x00, 0x00, 0x00, 0x00, 0x00, 0x80, 0x01, 0x2e,
    0x00, 0x00, 0x00, 0x64, 0x65, 0x6d, 0x6f, 0x2d, 0x31, 0x2e, 0x64, 0x69, 0x73, 0x74, 0x2d, 0x69, 0x6e, 0x66, 0x6f,
    0x2f, 0x4d, 0x45, 0x54, 0x41, 0x44, 0x41, 0x54, 0x41, 0x50, 0x4b, 0x05, 0x06, 0x00, 0x00, 0x00, 0x00, 0x02, 0x00,
    0x02, 0x00, 0x85, 0x00, 0x00, 0x00, 0x7b, 0x00, 0x00, 0x00, 0x00, 0x00]

/-- Its source distribution. -/
def demoSdist : Bytes :=
  [0x1f, 0x8b, 0x08, 0x00, 0x00, 0x00, 0x00, 0x00, 0x02, 0xff, 0xed, 0xd7, 0x3f, 0x8f, 0x82, 0x30, 0x1c, 0xc6, 0xf1,
    0xce, 0xbe, 0x0a, 0xde, 0x00, 0xd0, 0xf6, 0x10, 0x12, 0x37, 0x4f, 0x2b, 0x67, 0xf4, 0xd0, 0x68, 0x72, 0x2b, 0x31,
    0xd2, 0x98, 0x1a, 0xa1, 0xa4, 0xd4, 0xc1, 0x77, 0x2f, 0xde, 0x6d, 0xba, 0x11, 0x2d, 0x97, 0xf8, 0x7c, 0x96, 0x76,
    0xeb, 0xf0, 0xed, 0x8f, 0x3f, 0x85, 0x2c, 0xb5, 0xcf, 0xc2, 0xe0, 0xa0, 0xac, 0x3a, 0x54, 0xda, 0x48, 0xf2, 0x7c,
    0xb4, 0x15, 0x47, 0xd1, 0xef, 0xda, 0xba, 0x5f, 0x1f, 0xf7, 0x8c, 0x51, 0x3a, 0x24, 0x1e, 0x25, 0x0e, 0x9c, 0x1b,
    0xbb, 0x33, 0xed, 0xf1, 0xe4, 0x3d, 0x15, 0x7f, 0xfd, 0x27, 0x5f, 0xe3, 0x2c, 0x15, 0xcb, 0x55, 0x1a, 0x94, 0xc5,
    0x3f, 0xe8, 0x4f, 0x63, 0x1e, 0xa3, 0xbf, 0xc3, 0xfe, 0xcb, 0xf9, 0x44, 0x64, 0x5b, 0xf1, 0x9a, 0x33, 0x3a, 0xf4,
    0xa7, 0x9c, 0xa3, 0xbf, 0xc3, 0xfe, 0xeb, 0x45, 0xea, 0xcf, 0xb3, 0xd9, 0xaa, 0x9f, 0xfe, 0xed, 0xb0, 0xdf, 0xf5,
    0x67, 0xe8, 0xef, 0x46, 0xb6, 0x2b, 0xe5, 0xc8, 0xbb, 0xdd, 0x82, 0xc1, 0x8f, 0x34, 0x8d, 0xd2, 0xd5, 0xc8, 0x63,
    0x03, 0x02, 0xef, 0x35, 0xff, 0x1b, 0x31, 0x9e, 0x7e, 0x8b, 0x57, 0xbc, 0xfc, 0xbb, 0x3d, 0xff, 0x79, 0x12, 0x61,
    0xfe, 0xdd, 0xf7, 0xaf, 0xad, 0xff, 0xb9, 0x79, 0xfa, 0x2d, 0xe8, 0xf0, 0xfd, 0xcf, 0x59, 0x82, 0xfe, 0x0e, 0xfb,
    0xd7, 0x97, 0xda, 0xe8, 0xa3, 0xdc, 0xdb, 0xc0, 0xea, 0xf2, 0xd4, 0xff, 0xff, 0x5f, 0xf2, 0xc1, 0xd0, 0xdf, 0x61,
    0xff, 0xc6, 0xec, 0xc3, 0xdb, 0x36, 0xcc, 0x73, 0x55, 0x29, 0x9b, 0xe7, 0x41, 0x7d, 0xe9, 0xb1, 0x3f, 0x8f, 0x23,
    0xf4, 0x07, 0x00, 0x00, 0x00, 0x00, 0x00, 0x00, 0x00, 0x00, 0x00, 0x00, 0xe8, 0xec, 0x0a, 0xf7, 0xa8, 0x1f, 0xe6,
    0x00, 0x28, 0x00, 0x00]

/-- What `zipfile` and `tarfile` find in the two archives. -/
abbrev demoArchives : ArchiveReader where
  wheel raw :=
    if raw = demoWheel then
      .read [⟨"demo/__init__.py", 0o600 <<< 16, 0, .read []⟩,
        ⟨"demo-1.dist-info/METADATA", 0o600 <<< 16, 22, .read (asciiBytes "Name: demo\nVersion: 1\n")⟩]
    else .invalid "File is not a zip file"
  sdist raw :=
    if raw = demoSdist then
      .read [demoFile ".gitignore" "", demoFile "CHANGELOG.md" "", demoFile "LICENSE" "",
        demoFile "PKG-INFO" "Name: demo\nVersion: 1\n", demoFile "README.md" "", demoFile "README.pt-BR.md" "",
        demoFile "pyproject.toml" "", demoFile "src/demo/__init__.py" ""]
    else .invalid "not a gzip file"

def demoProject : JsonObject := [("project", .obj [("name", .str "demo"), ("version", .str "1")])]

def demoIdentity : ProjectIdentity := ⟨"demo", "demo", "1"⟩

/-- A digest of one digit. -/
def digestText (digit : Char) : String := String.ofList (List.replicate 64 digit)

def demoRelease : ImageRelease :=
  ⟨"ghcr.io/acme/demo", "sha256:" ++ digestText '0', "sha256:" ++ digestText '1', "sha256:" ++ digestText '2', "v1",
    String.ofList (List.replicate 40 'a')⟩

/-- What the registry says about the image. -/
def demoManifest : JsonObject :=
  [("digest", .str demoRelease.indexDigest),
    ("manifests", .arr [
      .obj [("digest", .str demoRelease.amd64Digest),
        ("platform", .obj [("architecture", .str "amd64"), ("os", .str "linux")])],
      .obj [("digest", .str demoRelease.arm64Digest),
        ("platform", .obj [("architecture", .str "arm64"), ("os", .str "linux")])]])]

def demoSbom : JsonObject :=
  [("bomFormat", .str "CycloneDX"), ("components", .arr [.obj [("name", .str "demo")], .obj [("name", .str "mcp")]]),
    ("serialNumber", .str "urn:uuid:3e671687-395b-41f5-a30f-a58921a69b79"), ("specVersion", .str "1.6"),
    ("version", .int 1)]

/-- A report without matches. -/
def demoReport (architecture : String) : JsonObject :=
  [("descriptor", .obj [("name", .str "grype"), ("version", .str expectedGrypeVersion)]), ("matches", .arr []),
    ("source", .obj
      [("target", .obj [("userInput", .str ("demo:release-" ++ demoRelease.commit ++ "-" ++ architecture))]),
        ("type", .str "image")])]

def demoGate : GateSummary := ⟨0, [], "2026-09-30", "passed", 0⟩

/-- A document as it is written to a file. -/
def jsonFile (document : JsonObject) : Bytes := utf8Bytes (dumps (some 2) (.obj document) ++ "\n")

/-- The files of the run. -/
def demoContent (name : String) : Bytes :=
  if name = "demo-1-py3-none-any.whl" then demoWheel
  else if name = "demo-1.tar.gz" then demoSdist
  else if name = "SHA256SUMS" then asciiBytes (fileText (digestsOf (demoIdentity.artifacts demoWheel demoSdist)))
  else if name = "grype-amd64.json" then jsonFile (demoReport "amd64")
  else if name = "grype-arm64.json" then jsonFile (demoReport "arm64")
  else if name = "image-digest.txt" then
    utf8Bytes (imageReference demoRelease.imageName demoRelease.indexDigest ++ "\n")
  else if name = "image-platforms.json" then jsonFile demoRelease.evidence
  else if name = "policy-amd64.json" ∨ name = "policy-arm64.json" then jsonFile demoGate.json
  else jsonFile demoSbom

/-- What the evidence holds. -/
theorem demoContent_evidence :
    (∀ architecture ∈ ["amd64", "arm64"],
      demoContent ("grype-" ++ architecture ++ ".json") = jsonFile (demoReport architecture) ∧
        demoContent ("image-" ++ architecture ++ ".cdx.json") = jsonFile demoSbom ∧
        demoContent ("policy-" ++ architecture ++ ".json") = jsonFile demoGate.json) ∧
      demoContent "source.cdx.json" = jsonFile demoSbom ∧
      demoContent "image-platforms.json" = jsonFile demoRelease.evidence ∧
      demoContent "image-digest.txt" = utf8Bytes (imageReference demoRelease.imageName demoRelease.indexDigest ++ "\n") := by
  simp [demoContent]

/-- A directory of files. -/
def directoryOf (path : String) (names : List String) (unique : names.Nodup)
    (plain : ∀ name ∈ names, '/' ∉ name.toList) : ReleaseDirectory :=
  ⟨path, .read
    { entries := names.map fun name => (name, .file ⟨demoContent name, none⟩)
      unique := by
        rw [List.map_map]
        exact (List.map_id names).symm ▸ unique
      plain := by
        intro entry member
        obtain ⟨name, isName, rfl⟩ := List.mem_map.mp member
        exact plain name isName }⟩

theorem holdsContents_directoryOf {path : String} {names : List String} {unique : names.Nodup}
    {plain : ∀ name ∈ names, '/' ∉ name.toList} :
    HoldsContents (directoryOf path names unique plain) names.toFinset demoContent := by
  refine ⟨_, rfl, fun name entry => ?_⟩
  rw [List.mem_toFinset, List.mem_map]
  constructor
  · rintro ⟨name, member, same⟩
    cases same
    exact ⟨member, rfl⟩
  · rintro ⟨member, rfl⟩
    exact ⟨name, member, rfl⟩

def demoBuild : ReleaseDirectory :=
  directoryOf "build/release/first" ["demo-1-py3-none-any.whl", "demo-1.tar.gz"] (by decide) (by decide)

def demoPackage : ReleaseDirectory :=
  directoryOf "build/publication/packages" ["demo-1-py3-none-any.whl", "demo-1.tar.gz", "SHA256SUMS"] (by decide)
    (by decide)

def demoEvidence : ReleaseDirectory :=
  directoryOf "build/publication/evidence"
    ["grype-amd64.json", "grype-arm64.json", "image-amd64.cdx.json", "image-arm64.cdx.json", "image-digest.txt",
      "image-platforms.json", "policy-amd64.json", "policy-arm64.json", "source.cdx.json"] (by decide) (by decide)

/-- A directory with nothing in it. -/
def demoDist : ReleaseDirectory := directoryOf "dist" [] (by decide) (by decide)

def demoRequest : ReleaseRequest :=
  ⟨"v1", "acme/demo", demoRelease.commit, demoRelease.imageName, demoRelease.indexDigest⟩

theorem loads_demoProject :
    let _ := asciiTables
    loadProjectIdentity "pyproject.toml" (.read demoProject) = .ok demoIdentity := by
  intro _
  have field : ReleaseArtifacts.requiredString [("name", .str "demo"), ("version", .str "1")] "name" "pyproject.toml" =
        .ok "demo" ∧
      ReleaseArtifacts.requiredString [("name", .str "demo"), ("version", .str "1")] "version" "pyproject.toml" =
        .ok "1" := by decide +kernel
  have isModule : moduleOf "demo" = "demo" := by decide +kernel
  refine bind_eq_ok.mpr ⟨_, rfl, bind_eq_ok.mpr ⟨_, rfl, bind_eq_ok.mpr ⟨_, field.1, bind_eq_ok.mpr ⟨_, field.2, ?_⟩⟩⟩⟩
  rw [isModule]
  rfl

theorem demo_trusted :
    let _ := asciiTables
    let _ := plainQuotes
    let _ := demoArchives
    let _ : MessageParser := ⟨lineHeader⟩
    TrustedBuild "pyproject.toml" (.read demoProject) demoBuild demoBuild demoDist "v1" demoIdentity demoWheel
      demoSdist := by
  intro _ _ _ _
  have holds : HoldsBuild demoBuild demoIdentity demoWheel demoSdist :=
    { listed := by
        refine ⟨_, rfl, List.mem_cons_self, List.mem_cons_of_mem _ List.mem_cons_self, ?_⟩
        intro name entry member
        rcases List.mem_pair.mp member with same | same
        · cases same
          exact Or.inl (by decide)
        · cases same
          exact Or.inl (by decide)
      wheel := ⟨_, if_pos rfl, (validateWheel_ok_iff _ _).mp (by decide +kernel)⟩
      sdist := ⟨_, if_pos rfl, (validateSdist_ok_iff _ _).mp (by decide +kernel)⟩ }
  exact
    { project := loads_demoProject
      tagged := by decide
      first := holds
      second := ⟨demoWheel, demoSdist, holds, rfl, rfl⟩
      empty := ⟨_, rfl, rfl⟩ }

theorem canonical_demoSbom : Canonical (.obj demoSbom) := by
  have component : ∀ name : String, Canonical (.obj [("name", .str name)]) := by
    intro name
    exact .obj (List.pairwise_singleton _ _) (by simp [Canonical.str])
  refine .record ["bomFormat", "components", "serialNumber", "specVersion", "version"] (by decide) rfl ?_
  simp only [demoSbom, List.forall_mem_cons]
  refine ⟨.str _, .arr ?_, .str _, .str _, .int (by decide), by simp⟩
  simp only [List.forall_mem_cons]
  exact ⟨component _, component _, by simp⟩

theorem canonical_demoReport (architecture : String) : Canonical (.obj (demoReport architecture)) := by
  refine .record ["descriptor", "matches", "source"] (by decide) rfl ?_
  simp only [demoReport, List.forall_mem_cons]
  refine ⟨.record ["name", "version"] (by decide) rfl ?_, .arr (by simp),
    .record ["target", "type"] (by decide) rfl ?_, by simp⟩
  · simp only [List.forall_mem_cons]
    exact ⟨.str _, .str _, by simp⟩
  · simp only [List.forall_mem_cons]
    exact ⟨.obj (List.pairwise_singleton _ _) (by simp [Canonical.str]), .str _, by simp⟩

/-- A document that is written is loaded. -/
theorem load_contentFile [FloatReader] [JsonErrors] {directory : ReleaseDirectory} {name : String} {document : JsonObject}
    (canonical : Canonical (.obj document)) (written : demoContent name = jsonFile document) :
    (directory.contentFile demoContent name).load = .document (.obj document) := by
  refine load_eq_document.mpr ⟨_, rfl, ?_⟩
  rw [written]
  exact readJsonFile_dumps canonical (some 2)

theorem demo_scanned {architecture : String} (known : architecture = "amd64" ∨ architecture = "arm64") :
    let _ := asciiTables
    let _ := plainQuotes
    let _ : PyRepr := ⟨fun _ => "[]", fun _ => none⟩
    let _ : FloatReader := ⟨id⟩
    let _ : JsonErrors := ⟨fun _ => "Expecting value: line 1 column 1 (char 0)"⟩
    ScannedPlatform demoEvidence demoContent "demo" demoRelease.commit architecture := by
  intro _ _ _ _ _
  have sbom : ∀ {name}, demoContent name = jsonFile demoSbom →
      (demoEvidence.contentFile demoContent name).load = .document (.obj demoSbom) :=
    fun written => load_contentFile canonical_demoSbom written
  obtain ⟨scans, source, -⟩ := demoContent_evidence
  obtain ⟨isReport, image, policy⟩ := scans architecture (by simpa using known)
  have report : (demoEvidence.contentFile demoContent ("grype-" ++ architecture ++ ".json")).load =
      .document (.obj (demoReport architecture)) := load_contentFile (canonical_demoReport architecture) isReport
  constructor
  · simp only [validateSecurityEvidence, ReleaseFile.evidence]
    rw [report, sbom image, sbom source]
    refine ⟨⟨⟨2, "demo", "1.6"⟩, ⟨2, "demo", "1.6"⟩, ⟨0, [], expectedGrypeVersion⟩⟩, ?_⟩
    rcases known with rfl | rfl <;> decide +kernel
  · refine ⟨"grype.json", "exceptions.json", .document (.obj [("exceptions", .arr []), ("schema_version", .str "1.0")]),
      lastDay, demoGate, ⟨Nat.zero_le _, Nat.zero_le _⟩, ?_⟩
    have evaluates : evaluateVulnerabilityPolicy "grype.json" "exceptions.json" (.document (.obj (demoReport architecture)))
        (.document (.obj [("exceptions", .arr []), ("schema_version", .str "1.0")])) lastDay = .ok demoGate := by
      rcases known with rfl | rfl <;> decide +kernel
    rw [policyFile, report, policy, evaluates]
    rfl

/-- A file of a document is as long as its text. -/
theorem length_jsonFile {document : JsonObject} (canonical : Canonical (.obj document)) :
    (jsonFile document).length = (dumpAt (some 2) 0 (.obj document)).length + 1 := by
  have ascii : IsAsciiText (dumps (some 2) (.obj document) ++ "\n") := by
    rw [isAsciiText_append]
    refine ⟨fun char member => ?_, by decide⟩
    rw [dumps, String.toList_ofList] at member
    rcases isJsonChar_dumpAt canonical (some 2) 0 char member with rfl | printed
    · decide
    · exact decide_eq_true (by omega)
  rw [jsonFile, utf8Bytes_of_ascii ascii, asciiBytes, List.length_map, String.toList_append, List.length_append, dumps,
    String.toList_ofList]
  rfl

theorem bounded_demoContent : ∀ name ∈ evidenceNames, (demoContent name).length ≤ evidenceLimit name := by
  have report : ∀ architecture, (jsonFile (demoReport architecture)).length = _ := fun architecture =>
    length_jsonFile (canonical_demoReport architecture)
  have sbom := length_jsonFile canonical_demoSbom
  have evidence := length_jsonFile (canonical_evidence demoRelease)
  have gate : (jsonFile demoGate.json).length = _ := length_jsonFile (canonical_summary ⟨Nat.zero_le _, Nat.zero_le _⟩)
  have subject : IsAsciiText (imageReference demoRelease.imageName demoRelease.indexDigest ++ "\n") := by decide +kernel
  obtain ⟨scans, isSource, isPlatforms, isSubject⟩ := demoContent_evidence
  obtain ⟨isAmdReport, isAmdImage, isAmdPolicy⟩ := scans "amd64" (by decide)
  obtain ⟨isArmReport, isArmImage, isArmPolicy⟩ := scans "arm64" (by decide)
  intro name member
  simp only [evidenceNames, Finset.mem_insert, Finset.mem_singleton] at member
  rcases member with rfl | rfl | rfl | rfl | rfl | rfl | rfl | rfl | rfl
  · exact ((congrArg List.length isAmdReport).trans (report "amd64")).trans_le (by decide +kernel)
  · exact ((congrArg List.length isArmReport).trans (report "arm64")).trans_le (by decide +kernel)
  · exact ((congrArg List.length isAmdImage).trans sbom).trans_le (by decide +kernel)
  · exact ((congrArg List.length isArmImage).trans sbom).trans_le (by decide +kernel)
  · rw [isSubject, utf8Bytes_of_ascii subject]
    decide +kernel
  · exact ((congrArg List.length isPlatforms).trans evidence).trans_le (by decide +kernel)
  · exact ((congrArg List.length isAmdPolicy).trans gate).trans_le (by decide +kernel)
  · exact ((congrArg List.length isArmPolicy).trans gate).trans_le (by decide +kernel)
  · exact ((congrArg List.length isSource).trans sbom).trans_le (by decide +kernel)

theorem demo_requests :
    let _ := asciiTables
    RequestsRun demoRequest ⟨demoDist, false⟩ demoIdentity demoRelease demoContent := by
  intro _
  exact
    { image := ⟨rfl, rfl, rfl, rfl⟩
      repository := by decide
      owned := by decide
      version := by decide
      bounded := bounded_demoContent
      empty := ⟨rfl, _, rfl, rfl⟩ }

/-- The run of `demo` is published. -/
theorem release_published_demo :
    let _ := asciiTables
    let _ := plainQuotes
    let _ := demoArchives
    let _ : MessageParser := ⟨lineHeader⟩
    let _ : PyRepr := ⟨fun _ => "[]", fun _ => none⟩
    let _ : FloatReader := ⟨id⟩
    let _ : JsonErrors := ⟨fun _ => "Expecting value: line 1 column 1 (char 0)"⟩
    ∃ summary, (prepareReleasePublication "pyproject.toml" (.read demoProject) demoPackage demoEvidence ⟨demoDist, false⟩
      demoRequest).result = .ok summary := by
  intro _ _ _ _ _ _ _
  have isRelease : IsRelease demoRelease := by constructor <;> decide +kernel
  have run : ReleaseRun "pyproject.toml" (.read demoProject) demoBuild demoBuild demoDist demoEvidence demoPackage
      demoEvidence demoIdentity demoRelease demoContent :=
    { project := loads_demoProject
      package := by
        refine ⟨_, _, prepareReleaseArtifacts_ok_iff.mpr ⟨demoIdentity, demoWheel, demoSdist, demo_trusted, by decide, rfl,
          rfl⟩, ?_, ?_⟩
        · have names : ["demo-1-py3-none-any.whl", "demo-1.tar.gz", "SHA256SUMS"].toFinset = demoIdentity.packageNames := by
            decide
          rw [names_release, ← names]
          exact holdsContents_directoryOf
        · intro file member
          rcases List.mem_append.mp member with isArtifact | isChecksums
          · rcases mem_artifacts.mp isArtifact with rfl | rfl <;> rfl
          · rw [List.mem_singleton.mp isChecksums]
            rfl
      amd64 := demo_scanned (Or.inl rfl)
      arm64 := demo_scanned (Or.inr rfl)
      platforms := by
        refine ⟨"registry-manifest.json", .document (.obj demoManifest), ⟨"image-platforms.json", false, none⟩, _, _,
          prepareImageEvidence_ok_iff.mpr ⟨isRelease, ⟨_, rfl, rfl, _, _, rfl, Or.inl ⟨?_, ?_⟩⟩, rfl, rfl, rfl, rfl⟩, ?_⟩
        · exact ⟨_, _, rfl, rfl, rfl, rfl⟩
        · exact ⟨_, _, rfl, rfl, rfl, rfl⟩
        · simp [demoContent, jsonFile]
      subject := by simp [demoContent]
      evidence := holdsContents_directoryOf }
  exact (release_published_iff run).mpr demo_requests

end McpAuth
