/-
**`prepare_release_publication.py` — the assets of one release, their manifest and its checksums.**

`checkedInputs` makes every check before the output directory is touched; `prepareReleasePublication` then copies the
files and writes `release-manifest.json` and `RELEASE_SHA256SUMS`.

* `checkedInputs_ok_iff` — what is found before the first file is written (`IsPublishable`);
* `prepareReleasePublication_exact` — a release that is not publishable leaves nothing; one that is, is published as every
  input under its name, the manifest, and checksums that are read back as the digests of all of these.
-/

import McpAuth.Scripts.PublicationInputs

namespace McpAuth

open DigestLines Fallible JsonText PyText Sha256 TextRows

/-! ### Checks -/

def ProjectIdentity.packageNames (identity : ProjectIdentity) : Finset String :=
  {"SHA256SUMS", identity.wheelName, identity.sdistName}

/-- `files[name]`, where the directory was found to hold it. -/
def fileIn [TextRepr] (files : List ReleaseFile) (name : String) : Except PublicationFailure ReleaseFile :=
  (fileNamed files name).mapError .ofArtifact

/-- `image-digest.txt` names the published image. -/
def checkSubject (file : ReleaseFile) (request : ReleaseRequest) : Except PublicationFailure Unit := do
  let invalid := file.path.text ++ ": invalid image subject: "
  let raw ← file.stored.content.orPublish invalid
  let text ← required (publicationError (invalid ++ asciiDecodeError raw)) (decodeAscii raw)
  let subject := imageReference request.imageName request.imageDigest ++ "\n"
  check (publicationError "image-digest.txt does not match the published image subject")
    (universalNewlines text.toList == subject.toList)

/-- Where a release is published. -/
structure PublicationOutput where
  directory : ReleaseDirectory
  isSymlink : Bool

def checkPublicationOutput (output : PublicationOutput) : Except PublicationFailure Unit := do
  let path := output.directory.path
  check (publicationError (path ++ ": output directory cannot be a symbolic link")) !output.isSymlink
  let listing ← output.directory.listing.orPublish (path ++ ": could not prepare output directory: ")
  check (publicationError (path ++ ": output directory must be empty")) listing.entries.isEmpty

/-- What the checks find. -/
structure PublicationInputs where
  identity : ProjectIdentity
  packageFiles : List ReleaseFile
  evidenceFiles : List ReleaseFile
  platformRecords : List (String × JsonObject)

section Publication

variable [TextRepr] [PyRepr] [UnicodeTables] [ArchiveReader] [MessageParser] [FloatReader] [JsonErrors]

/-- The wheel, the source distribution and their checksums. -/
def checkPackage (identity : ProjectIdentity) (packageFiles : List ReleaseFile) : Except PublicationFailure Unit := do
  let wheel ← fileIn packageFiles identity.wheelName
  (validateWheel wheel.path identity (wheel.stored.content.andThen ArchiveReader.wheel)).mapError .ofArtifact
  let sdist ← fileIn packageFiles identity.sdistName
  (validateSdist sdist.path identity (sdist.stored.content.andThen ArchiveReader.sdist)).mapError .ofArtifact
  let checksums ← fileIn packageFiles "SHA256SUMS"
  validatePackageChecksums checksums [(identity.wheelName, wheel), (identity.sdistName, sdist)]

/-- `validate_cyclonedx` of a file of the evidence. -/
def checkSbom (identity : ProjectIdentity) (evidenceFiles : List ReleaseFile) (name : String) :
    Except PublicationFailure Unit := do
  let file ← fileIn evidenceFiles name
  let _ ← (validateCyclonedx file.path.text file.load identity.name).mapError .ofEvidence
  .ok ()

/-- One turn of the loop over the scanned images. -/
def checkScan (identity : ProjectIdentity) (request : ReleaseRequest) (evidenceFiles : List ReleaseFile)
    (platformRecords : List (String × JsonObject)) (expected : String × String) : Except PublicationFailure Unit := do
  let (platform, architecture) := expected
  checkSbom identity evidenceFiles ("image-" ++ architecture ++ ".cdx.json")
  let report ← fileIn evidenceFiles ("grype-" ++ architecture ++ ".json")
  let image := identity.name ++ ":release-" ++ request.commit ++ "-" ++ architecture
  let _ ← (validateGrypeReport report.path.text report.load image).mapError .ofEvidence
  let policy ← fileIn evidenceFiles ("policy-" ++ architecture ++ ".json")
  validatePolicy policy.path.text policy.load
  let record ← required (.uncaught ("KeyError: " ++ platform)) (platformRecords.lookup platform)
  let platforms ← fileIn evidenceFiles "image-platforms.json"
  check (publicationError (platforms.path.text ++ ": platform evidence drift"))
    ((get record "architecture").isText architecture)

/-- The checks of the evidence, with the records of the platforms. -/
def checkEvidence (identity : ProjectIdentity) (request : ReleaseRequest) (evidenceFiles : List ReleaseFile) :
    Except PublicationFailure (List (String × JsonObject)) := do
  checkSbom identity evidenceFiles "source.cdx.json"
  let platforms ← fileIn evidenceFiles "image-platforms.json"
  let platformRecords ← validatePlatformEvidence platforms.path.text platforms.load request
  releasePlatforms.forM (checkScan identity request evidenceFiles platformRecords)
  .ok platformRecords

/-- `prepare_release_publication` up to the first file that it writes. -/
def checkedInputs (rootPath : String) (pyproject : ReadResult JsonObject) (packageDir evidenceDir : ReleaseDirectory)
    (output : PublicationOutput) (request : ReleaseRequest) : Except PublicationFailure PublicationInputs := do
  let identity ← validateIdentity rootPath pyproject request
  let packageFiles ← exactRegularFiles packageDir identity.packageNames
  let evidenceFiles ← exactRegularFiles evidenceDir evidenceNames
  evidenceFiles.forM fun file => bounded (evidenceLimit file.path.name) file
  checkPackage identity packageFiles
  let platformRecords ← checkEvidence identity request evidenceFiles
  let subject ← fileIn evidenceFiles "image-digest.txt"
  checkSubject subject request
  checkPublicationOutput output
  .ok ⟨identity, packageFiles, evidenceFiles, platformRecords⟩

/-! ### Assets -/

/-- `{**package_files, **evidence_files}` by name; no name is in both. -/
def PublicationInputs.files (inputs : PublicationInputs) : List ReleaseFile :=
  (inputs.packageFiles ++ inputs.evidenceFiles).insertionSort fun first second => first.path.name ≤ second.path.name

/-- The copies that are made until a file cannot be read, with the exception of it. -/
def copyFiles : List ReleaseFile → List (String × Bytes) × Option String
  | [] => ([], none)
  | file :: later =>
    match file.stored.content with
    | .read raw => ((file.path.name, raw) :: (copyFiles later).1, (copyFiles later).2)
    | .invalid exception | .raised exception => ([], some exception)

/-- The digest and the size of a file. -/
def assetRecord (file : String × Bytes) : String × Json :=
  (file.1, .obj [("sha256", .str (hexdigest file.2)), ("size", .int file.2.length)])

/-- `release-manifest.json`. -/
def releaseManifest (request : ReleaseRequest) (identity : ProjectIdentity) (platformRecords : List (String × JsonObject))
    (copies : List (String × Bytes)) : Json :=
  .obj [("assets", .obj (copies.map assetRecord)),
    ("image", .obj [("digest", .str request.imageDigest), ("name", .str request.imageName),
      ("platforms", .obj (platformRecords.map fun record => (record.1, .obj record.2))),
      ("reference", .str (imageReference request.imageName request.imageDigest)),
      ("tags", .arr [.str request.tag, .str ("sha-" ++ request.commit)])]),
    ("project", .str identity.name), ("schema_version", .int 2), ("source_commit", .str request.commit),
    ("source_repository", .str request.repository), ("tag", .str request.tag), ("version", .str identity.version)]

/-- What `prepare_release_publication` returns. -/
structure PublicationSummary where
  assetCount : ℕ
  image : String
  platforms : List String
  project : String
  tag : String
  deriving DecidableEq

/-- The copies and the manifest. -/
def assetsWithManifest (request : ReleaseRequest) (identity : ProjectIdentity)
    (platformRecords : List (String × JsonObject)) (copies : List (String × Bytes)) : List (String × Bytes) :=
  copies ++ [("release-manifest.json",
    utf8Bytes (dumps (some 2) (releaseManifest request identity platformRecords copies) ++ "\n"))]

/-- `prepare_release_publication`. -/
def prepareReleasePublication (rootPath : String) (pyproject : ReadResult JsonObject)
    (packageDir evidenceDir : ReleaseDirectory) (output : PublicationOutput) (request : ReleaseRequest) :
    Preparation PublicationFailure PublicationSummary :=
  match checkedInputs rootPath pyproject packageDir evidenceDir output request with
  | .error failure => ⟨.error failure, []⟩
  | .ok inputs =>
    match copyFiles inputs.files with
    | (copies, some exception) => ⟨.error (.uncaught exception), copies⟩
    | (copies, none) =>
      let assets := assetsWithManifest request inputs.identity inputs.platformRecords copies
      match encodeAscii (fileText (digestsOf assets)) with
      -- the checksums are opened before their text is encoded
      | none => ⟨.error (.uncaught "UnicodeEncodeError"), assets ++ [("RELEASE_SHA256SUMS", [])]⟩
      | some checksums =>
        ⟨.ok ⟨assets.length, imageReference request.imageName request.imageDigest,
          sorted (inputs.platformRecords.map Prod.fst).toFinset, inputs.identity.name, request.tag⟩,
          assets ++ [("RELEASE_SHA256SUMS", checksums)]⟩

end Publication

/-! ### The files of a directory -/

section Files

variable {directory : ReleaseDirectory} {names : Finset String} {files : List ReleaseFile}

theorem HoldsExactly.nodup (holds : HoldsExactly directory names files) :
    (files.map fun file => file.path.name).Nodup := by
  obtain ⟨listing, -, -, -, rfl⟩ := holds
  exact nodup_filterMap_fileOf (nodup_sorted_listing listing)

theorem HoldsExactly.mem_iff (holds : HoldsExactly directory names files) {name : String} :
    name ∈ names ↔ ∃ stored, (⟨directory.filePath name, stored⟩ : ReleaseFile) ∈ files := by
  obtain ⟨listing, -, regular, exact, rfl⟩ := holds
  simp only [exact, List.mem_filterMap, mem_sorted_listing, fileOf_eq_some]
  constructor
  · rintro ⟨entry, member⟩
    obtain ⟨stored, rfl⟩ := regular name entry member
    exact ⟨stored, (name, .file stored), member, stored, rfl, rfl⟩
  · rintro ⟨stored, ⟨other, entry⟩, member, stored', rfl, same⟩
    obtain rfl : name = other := congrArg (fun file => file.path.name) same
    exact ⟨_, member⟩

/-- A file has the path of its name, which is expected. -/
theorem HoldsExactly.path (holds : HoldsExactly directory names files) {file : ReleaseFile} (member : file ∈ files) :
    file.path = directory.filePath file.path.name ∧ file.path.name ∈ names := by
  have isPath : file.path = directory.filePath file.path.name := by
    obtain ⟨listing, -, -, -, rfl⟩ := holds
    obtain ⟨entry, -, isFile⟩ := List.mem_filterMap.mp member
    obtain ⟨stored, -, rfl⟩ := fileOf_eq_some.mp isFile
    rfl
  refine ⟨isPath, holds.mem_iff.mpr ⟨file.stored, ?_⟩⟩
  rw [← isPath]
  exact member

theorem HoldsExactly.mem_names (holds : HoldsExactly directory names files) {name : String} :
    name ∈ (files.map fun file => file.path.name) ↔ name ∈ names := by
  rw [List.mem_map]
  constructor
  · rintro ⟨file, member, rfl⟩
    exact (holds.path member).2
  · intro member
    obtain ⟨stored, isFile⟩ := holds.mem_iff.mp member
    exact ⟨_, isFile, rfl⟩

variable [TextRepr]

theorem HoldsExactly.fileIn_iff (holds : HoldsExactly directory names files) {name : String} {file : ReleaseFile} :
    fileIn files name = .ok file ↔ file ∈ files ∧ file.path.name = name := by
  rw [fileIn, mapError_eq_ok, fileNamed, required_eq_ok, Rearrangement.find?_eq_some_iff_of_nodup holds.nodup]

/-- The files can be read, and hold the content of their names. -/
def ReadsContent (files : List ReleaseFile) (content : String → Bytes) : Prop :=
  ∀ file ∈ files, file.stored = ⟨content file.path.name, none⟩

/-- The file of a name with its content. -/
def ReleaseDirectory.contentFile (directory : ReleaseDirectory) (content : String → Bytes) (name : String) : ReleaseFile :=
  ⟨directory.filePath name, ⟨content name, none⟩⟩

theorem HoldsExactly.fileIn_content (holds : HoldsExactly directory names files) {content : String → Bytes}
    (reads : ReadsContent files content) {name : String} (member : name ∈ names) {file : ReleaseFile} :
    fileIn files name = .ok file ↔ file = directory.contentFile content name := by
  rw [holds.fileIn_iff]
  constructor
  · rintro ⟨isFile, rfl⟩
    obtain ⟨path, stored⟩ := file
    have isPath := (holds.path isFile).1
    have isStored := reads _ isFile
    simp only at isPath isStored
    rw [isStored, ReleaseDirectory.contentFile, ← isPath]
  · rintro rfl
    obtain ⟨stored, isFile⟩ := holds.mem_iff.mp member
    have isStored := reads _ isFile
    simp only at isStored
    rw [isStored] at isFile
    exact ⟨isFile, rfl⟩

omit [TextRepr] in
theorem load_eq_document [FloatReader] [JsonErrors] {file : ReleaseFile} {value : Json} :
    file.load = .document value ↔ ∃ raw, file.stored = ⟨raw, none⟩ ∧ readJsonFile raw = .ok value := by
  simp only [← content_eq_read]
  unfold ReleaseFile.load
  cases file.stored.content with
  | read raw =>
    cases loaded : readJsonFile raw with
    | ok other => simp [loaded]
    | error error => cases error <;> simp [loaded]
  | invalid exception => simp
  | raised exception => simp

/-- **A directory of readable files with exactly these names.** -/
def HoldsContents (directory : ReleaseDirectory) (names : Finset String) (content : String → Bytes) : Prop :=
  ∃ listing, directory.listing = .read listing ∧
    ∀ name entry, (name, entry) ∈ listing.entries ↔ name ∈ names ∧ entry = .file ⟨content name, none⟩

omit [TextRepr] in
theorem holdsContents_iff {content : String → Bytes} : HoldsContents directory names content ↔
    ∃ files, HoldsExactly directory names files ∧ ReadsContent files content := by
  constructor
  · rintro ⟨listing, isListing, entries⟩
    refine ⟨_, ⟨listing, isListing, ?_, ?_, rfl⟩, ?_⟩
    · intro name entry member
      exact ⟨_, ((entries name entry).mp member).2⟩
    · intro name
      constructor
      · intro member
        exact ⟨_, (entries name _).mpr ⟨member, rfl⟩⟩
      · rintro ⟨entry, member⟩
        exact ((entries name entry).mp member).1
    · intro file member
      obtain ⟨⟨name, entry⟩, isEntry, isFile⟩ := List.mem_filterMap.mp member
      obtain ⟨stored, isStored, rfl⟩ := fileOf_eq_some.mp isFile
      have same := ((entries name entry).mp (mem_sorted_listing.mp isEntry)).2
      rw [same, DirectoryEntry.file.injEq] at isStored
      exact isStored.symm
  · rintro ⟨files, ⟨listing, isListing, regular, exact, rfl⟩, reads⟩
    have stored_eq : ∀ name entry, (name, entry) ∈ listing.entries → entry = .file ⟨content name, none⟩ := by
      intro name entry member
      obtain ⟨stored, rfl⟩ := regular name entry member
      have isFile : (⟨directory.filePath name, stored⟩ : ReleaseFile) ∈ listing.sorted.filterMap directory.fileOf :=
        List.mem_filterMap.mpr ⟨_, mem_sorted_listing.mpr member, fileOf_eq_some.mpr ⟨stored, rfl, rfl⟩⟩
      have isStored := reads _ isFile
      simp only at isStored
      rw [isStored]
      rfl
    refine ⟨listing, isListing, fun name entry => ⟨fun member => ?_, ?_⟩⟩
    · exact ⟨(exact name).mpr ⟨entry, member⟩, stored_eq name entry member⟩
    · rintro ⟨member, rfl⟩
      obtain ⟨entry, isEntry⟩ := (exact name).mp member
      rw [← stored_eq name entry isEntry]
      exact isEntry

end Files

/-! ### What is published -/

section Published

variable [TextRepr] [PyRepr] [UnicodeTables] [ArchiveReader] [MessageParser] [FloatReader] [JsonErrors]

/-- **A package**: the two artifacts of the project and their checksums. -/
structure HoldsPackage (packageDir : ReleaseDirectory) (identity : ProjectIdentity) (content : String → Bytes) : Prop where
  wheel : ∃ members, ArchiveReader.wheel (content identity.wheelName) = .read members ∧
    WheelPasses (packageDir.filePath identity.wheelName) identity members
  sdist : ∃ members, ArchiveReader.sdist (content identity.sdistName) = .read members ∧
    SdistPasses (packageDir.filePath identity.sdistName) identity members
  checksums : IsChecksumFile (content "SHA256SUMS")
    [(identity.wheelName, hexdigest (content identity.wheelName)),
      (identity.sdistName, hexdigest (content identity.sdistName))]

/-- A bill of materials of the project. -/
def IsSbomOf (raw : Bytes) (project : String) : Prop :=
  ∃ document version, readJsonFile raw = .ok (.obj document) ∧ IsCyclonedx document project version

/-- The files of a scanned image. -/
structure HoldsScan (identity : ProjectIdentity) (request : ReleaseRequest) (content : String → Bytes)
    (architecture : String) : Prop where
  sbom : IsSbomOf (content ("image-" ++ architecture ++ ".cdx.json")) identity.name
  report : ∃ document found, readJsonFile (content ("grype-" ++ architecture ++ ".json")) = .ok (.obj document) ∧
    IsGrypeReport document (identity.name ++ ":release-" ++ request.commit ++ "-" ++ architecture) found
  policy : ∃ document, readJsonFile (content ("policy-" ++ architecture ++ ".json")) = .ok (.obj document) ∧
    IsPassedPolicy document

/-- **The evidence about a release.** -/
structure HoldsEvidence (identity : ProjectIdentity) (request : ReleaseRequest) (content : String → Bytes)
    (amd64 arm64 : JsonObject) : Prop where
  source : IsSbomOf (content "source.cdx.json") identity.name
  platforms : ∃ document, readJsonFile (content "image-platforms.json") = .ok (.obj document) ∧
    IsPlatformEvidence request document amd64 arm64
  amd64Scan : HoldsScan identity request content "amd64"
  arm64Scan : HoldsScan identity request content "arm64"

/-- The records of the two platforms. -/
def platformRecordsOf (amd64 arm64 : JsonObject) : List (String × JsonObject) :=
  [("linux/amd64", amd64), ("linux/arm64", arm64)]

/-- The subject, whose line may end in any way. -/
def IsSubject (request : ReleaseRequest) (raw : Bytes) : Prop :=
  ∃ text, decodeAscii raw = some text ∧
    universalNewlines text.toList = (imageReference request.imageName request.imageDigest ++ "\n").toList

variable {identity : ProjectIdentity} {request : ReleaseRequest} {content : String → Bytes}
  {directory : ReleaseDirectory} {names : Finset String} {files : List ReleaseFile}

omit [PyRepr] [FloatReader] [JsonErrors] in
theorem checkPackage_ok_iff (holds : HoldsExactly directory identity.packageNames files)
    (reads : ReadsContent files content) {done : Unit} :
    checkPackage identity files = .ok done ↔ HoldsPackage directory identity content := by
  have find : ∀ {name file}, name ∈ identity.packageNames →
      (fileIn files name = .ok file ↔ file = directory.contentFile content name) :=
    fun member => holds.fileIn_content reads member
  have isWheel : identity.wheelName ∈ identity.packageNames := by simp [ProjectIdentity.packageNames]
  have isSdist : identity.sdistName ∈ identity.packageNames := by simp [ProjectIdentity.packageNames]
  have isChecksums : "SHA256SUMS" ∈ identity.packageNames := by simp [ProjectIdentity.packageNames]
  simp only [checkPackage, bind_eq_ok, mapError_eq_ok, find isWheel, find isSdist, find isChecksums, exists_eq_left,
    validateWheel_archive_iff, validateSdist_archive_iff, packageChecksums_ok_iff, exists_const]
  constructor
  · rintro ⟨wheel, sdist, raw, isRaw, -, checksums⟩
    cases isRaw
    exact ⟨wheel, sdist, checksums⟩
  · rintro ⟨wheel, sdist, checksums⟩
    refine ⟨wheel, sdist, _, rfl, ?_, checksums⟩
    intro artifact member
    rcases List.mem_pair.mp member with rfl | rfl <;> rfl

omit [ArchiveReader] [MessageParser] in
theorem checkSbom_ok_iff (holds : HoldsExactly directory names files) (reads : ReadsContent files content) {name : String}
    (member : name ∈ names) {done : Unit} :
    checkSbom identity files name = .ok done ↔ IsSbomOf (content name) identity.name := by
  simp only [checkSbom, bind_eq_ok, holds.fileIn_content reads member, exists_eq_left, mapError_eq_ok,
    validateCyclonedx_ok_iff, load_eq_document]
  constructor
  · rintro ⟨_, ⟨document, version, ⟨raw, isRaw, loads⟩, isCyclonedx, rfl⟩, -⟩
    cases isRaw
    exact ⟨document, version, loads, isCyclonedx⟩
  · rintro ⟨document, version, loads, isCyclonedx⟩
    exact ⟨_, ⟨document, version, ⟨_, rfl, loads⟩, isCyclonedx, rfl⟩, trivial⟩

omit [TextRepr] [PyRepr] [UnicodeTables] [ArchiveReader] [MessageParser] [FloatReader] [JsonErrors] in
theorem evidenceNames_of_architecture {architecture : String} (known : architecture = "amd64" ∨ architecture = "arm64") :
    "image-" ++ architecture ++ ".cdx.json" ∈ evidenceNames ∧ "grype-" ++ architecture ++ ".json" ∈ evidenceNames ∧
      "policy-" ++ architecture ++ ".json" ∈ evidenceNames := by
  rcases known with rfl | rfl <;> decide

omit [ArchiveReader] [MessageParser] in
/-- One scanned image, whose record has the architecture. -/
theorem checkScan_ok_iff (holds : HoldsExactly directory evidenceNames files) (reads : ReadsContent files content)
    {platformRecords : List (String × JsonObject)} {platform architecture : String} {record : JsonObject}
    (known : architecture = "amd64" ∨ architecture = "arm64") (found : platformRecords.lookup platform = some record)
    (same : get record "architecture" = .str architecture) {done : Unit} :
    checkScan identity request files platformRecords (platform, architecture) = .ok done ↔
      HoldsScan identity request content architecture := by
  obtain ⟨isImage, isGrype, isPolicy⟩ := evidenceNames_of_architecture known
  have isPlatforms : "image-platforms.json" ∈ evidenceNames := by decide
  simp only [checkScan, bind_eq_ok, checkSbom_ok_iff holds reads isImage, holds.fileIn_content reads isGrype,
    holds.fileIn_content reads isPolicy, holds.fileIn_content reads isPlatforms, exists_eq_left, mapError_eq_ok,
    validateGrypeReport_ok_iff, validatePolicy_ok_iff, load_eq_document, required_eq_ok, check_eq_ok, Json.isText_iff,
    exists_const, found, Option.some.injEq]
  constructor
  · rintro ⟨sbom, _, ⟨document, found, ⟨raw, isRaw, loads⟩, isReport, -⟩, ⟨policy, ⟨raw', isRaw', loads'⟩, isPassed⟩, -⟩
    cases isRaw
    cases isRaw'
    exact ⟨sbom, ⟨document, found, loads, isReport⟩, ⟨policy, loads', isPassed⟩⟩
  · rintro ⟨sbom, ⟨document, found, loads, isReport⟩, ⟨policy, loads', isPassed⟩⟩
    exact ⟨sbom, _, ⟨document, found, ⟨_, rfl, loads⟩, isReport, rfl⟩, ⟨policy, ⟨_, rfl, loads'⟩, isPassed⟩, record, rfl,
      same⟩

omit [ArchiveReader] [MessageParser] in
theorem checkEvidence_ok_iff (holds : HoldsExactly directory evidenceNames files) (reads : ReadsContent files content)
    {platformRecords : List (String × JsonObject)} :
    checkEvidence identity request files = .ok platformRecords ↔ ∃ amd64 arm64,
      HoldsEvidence identity request content amd64 arm64 ∧
        platformRecords = platformRecordsOf amd64 arm64 := by
  have isSource : "source.cdx.json" ∈ evidenceNames := by decide
  have isPlatforms : "image-platforms.json" ∈ evidenceNames := by decide
  have scans : ∀ {document amd64 arm64}, IsPlatformEvidence request document amd64 arm64 →
      ((∀ expected ∈ releasePlatforms, checkScan identity request files
        [("linux/amd64", amd64), ("linux/arm64", arm64)] expected = .ok ()) ↔
        HoldsScan identity request content "amd64" ∧ HoldsScan identity request content "arm64") := by
    rintro document amd64 arm64 isEvidence
    obtain ⟨first, second, one, other, -⟩ := isEvidence.records
    simp only [releasePlatforms, List.forall_mem_cons, List.not_mem_nil, false_implies, implies_true, and_true,
      checkScan_ok_iff holds reads (Or.inl rfl) (show [("linux/amd64", amd64), ("linux/arm64", arm64)].lookup
        "linux/amd64" = some amd64 by rfl) one.isArchitecture,
      checkScan_ok_iff holds reads (Or.inr rfl) (show [("linux/amd64", amd64), ("linux/arm64", arm64)].lookup
        "linux/arm64" = some arm64 by rfl) other.isArchitecture]
  simp only [checkEvidence, bind_eq_ok, checkSbom_ok_iff holds reads isSource, holds.fileIn_content reads isPlatforms,
    exists_eq_left, validatePlatformEvidence_ok_iff, load_eq_document, forM_eq_ok, exists_const, Except.ok.injEq]
  constructor
  · rintro ⟨source, _, ⟨document, amd64, arm64, ⟨raw, isRaw, loads⟩, isEvidence, rfl⟩, each, rfl⟩
    cases isRaw
    obtain ⟨amd64Scan, arm64Scan⟩ := (scans isEvidence).mp each
    exact ⟨amd64, arm64, ⟨source, ⟨document, loads, isEvidence⟩, amd64Scan, arm64Scan⟩, rfl⟩
  · rintro ⟨amd64, arm64, ⟨source, ⟨document, loads, isEvidence⟩, amd64Scan, arm64Scan⟩, rfl⟩
    exact ⟨source, _, ⟨document, amd64, arm64, ⟨_, rfl, loads⟩, isEvidence, rfl⟩,
      (scans isEvidence).mpr ⟨amd64Scan, arm64Scan⟩, rfl⟩

omit [TextRepr] [PyRepr] [UnicodeTables] [ArchiveReader] [MessageParser] [FloatReader] [JsonErrors] in
theorem checkSubject_ok_iff {file : ReleaseFile} {done : Unit} :
    checkSubject file request = .ok done ↔ ∃ raw, file.stored = ⟨raw, none⟩ ∧ IsSubject request raw := by
  simp only [checkSubject, bind_eq_ok, orPublish_ok_iff, content_eq_read, required_eq_ok, check_eq_ok, beq_iff_eq,
    IsSubject]

omit [TextRepr] [PyRepr] [UnicodeTables] [ArchiveReader] [MessageParser] [FloatReader] [JsonErrors] in
theorem checkPublicationOutput_ok_iff {output : PublicationOutput} {done : Unit} :
    checkPublicationOutput output = .ok done ↔
      output.isSymlink = false ∧ ∃ listing, output.directory.listing = .read listing ∧ listing.entries = [] := by
  simp [checkPublicationOutput, bind_eq_ok, orPublish_ok_iff, check_eq_ok]

/-! ### Every input is read -/

/-- The file under a name can be read. -/
def Readable (files : List ReleaseFile) (name : String) : Prop :=
  ∀ file ∈ files, file.path.name = name → file.stored.unreadable = none

omit [PyRepr] [UnicodeTables] [ArchiveReader] [MessageParser] [FloatReader] [JsonErrors] in
theorem readable_of_fileIn (holds : HoldsExactly directory names files) {name : String} {file : ReleaseFile} {raw : Bytes}
    (found : fileIn files name = .ok file) (isRaw : file.stored = ⟨raw, none⟩) : Readable files name := by
  obtain ⟨isFile, rfl⟩ := holds.fileIn_iff.mp found
  intro other isOther same
  obtain rfl : other = file := List.inj_on_of_nodup_map holds.nodup isOther isFile same
  rw [isRaw]

omit [TextRepr] [PyRepr] [UnicodeTables] [ArchiveReader] [MessageParser] [FloatReader] [JsonErrors] in
/-- Reading an archive reads its file. -/
theorem readable_of_andThen {stored : StoredFile} {α : Type} {next : Bytes → ReadResult α} {value : α}
    (reads : stored.content.andThen next = .read value) : ∃ raw, stored = ⟨raw, none⟩ := by
  cases content : stored.content with
  | read raw => exact ⟨raw, content_eq_read.mp content⟩
  | invalid exception =>
    rw [content] at reads
    cases reads
  | raised exception =>
    rw [content] at reads
    cases reads

omit [PyRepr] [FloatReader] [JsonErrors] in
theorem readable_of_checkPackage (holds : HoldsExactly directory identity.packageNames files) {done : Unit}
    (checks : checkPackage identity files = .ok done) : ∀ name ∈ identity.packageNames, Readable files name := by
  simp only [checkPackage, bind_eq_ok, mapError_eq_ok, validateWheel_archive_iff, validateSdist_archive_iff,
    packageChecksums_ok_iff, exists_const] at checks
  obtain ⟨wheel, isWheel, ⟨_, wheelReads, -⟩, sdist, isSdist, ⟨_, sdistReads, -⟩, checksums, isChecksums, raw, isRaw, -⟩ :=
    checks
  obtain ⟨_, isWheelRaw⟩ := readable_of_andThen wheelReads
  obtain ⟨_, isSdistRaw⟩ := readable_of_andThen sdistReads
  intro name member
  simp only [ProjectIdentity.packageNames, Finset.mem_insert, Finset.mem_singleton] at member
  rcases member with rfl | rfl | rfl
  · exact readable_of_fileIn holds isChecksums isRaw
  · exact readable_of_fileIn holds isWheel isWheelRaw
  · exact readable_of_fileIn holds isSdist isSdistRaw

omit [ArchiveReader] [MessageParser] in
theorem readable_of_checkSbom (holds : HoldsExactly directory names files) {name : String} {done : Unit}
    (checks : checkSbom identity files name = .ok done) : Readable files name := by
  simp only [checkSbom, bind_eq_ok, mapError_eq_ok, validateCyclonedx_ok_iff, load_eq_document] at checks
  obtain ⟨file, found, _, ⟨_, _, ⟨raw, isRaw, -⟩, -⟩, -⟩ := checks
  exact readable_of_fileIn holds found isRaw

omit [ArchiveReader] [MessageParser] in
theorem readable_of_checkScan (holds : HoldsExactly directory names files) {platformRecords : List (String × JsonObject)}
    {platform architecture : String} {done : Unit}
    (checks : checkScan identity request files platformRecords (platform, architecture) = .ok done) :
    Readable files ("image-" ++ architecture ++ ".cdx.json") ∧ Readable files ("grype-" ++ architecture ++ ".json") ∧
      Readable files ("policy-" ++ architecture ++ ".json") := by
  simp only [checkScan, bind_eq_ok, mapError_eq_ok, validateGrypeReport_ok_iff, validatePolicy_ok_iff,
    load_eq_document] at checks
  obtain ⟨_, sbom, report, isReport, _, ⟨_, _, ⟨raw, isRaw, -⟩, -⟩, policy, isPolicy, _, ⟨_, ⟨raw', isRaw', -⟩, -⟩, -⟩ :=
    checks
  exact ⟨readable_of_checkSbom holds sbom, readable_of_fileIn holds isReport isRaw,
    readable_of_fileIn holds isPolicy isRaw'⟩

omit [ArchiveReader] [MessageParser] in
theorem readable_of_checkEvidence (holds : HoldsExactly directory evidenceNames files)
    {platformRecords : List (String × JsonObject)} (checks : checkEvidence identity request files = .ok platformRecords)
    (subject : Readable files "image-digest.txt") : ∀ name ∈ evidenceNames, Readable files name := by
  simp only [checkEvidence, bind_eq_ok, validatePlatformEvidence_ok_iff, load_eq_document, forM_eq_ok] at checks
  obtain ⟨_, source, platforms, isPlatforms, _, ⟨_, _, _, ⟨raw, isRaw, -⟩, -⟩, _, scans, -⟩ := checks
  obtain ⟨image, grype, policy⟩ := readable_of_checkScan holds (scans ("linux/amd64", "amd64") (by decide))
  obtain ⟨image', grype', policy'⟩ := readable_of_checkScan holds (scans ("linux/arm64", "arm64") (by decide))
  intro name member
  simp only [evidenceNames, Finset.mem_insert, Finset.mem_singleton] at member
  rcases member with rfl | rfl | rfl | rfl | rfl | rfl | rfl | rfl | rfl
  · exact grype
  · exact grype'
  · exact image
  · exact image'
  · exact subject
  · exact readable_of_fileIn holds isPlatforms isRaw
  · exact policy
  · exact policy'
  · exact readable_of_checkSbom holds source

/-! ### The publication -/

omit [TextRepr] [PyRepr] [UnicodeTables] [ArchiveReader] [MessageParser] [FloatReader] [JsonErrors] in
/-- No name is in both directories. -/
theorem notMem_evidenceNames {name : String} (member : name ∈ identity.packageNames) : name ∉ evidenceNames := by
  have wheelEnd : identity.wheelName.toList.getLast? = some 'l' := getLast?_append_text _ (by decide)
  have sdistEnd : identity.sdistName.toList.getLast? = some 'z' := getLast?_append_text _ (by decide)
  have evidenceEnd : ∀ other ∈ evidenceNames, other.toList.getLast? = some 'n' ∨ other.toList.getLast? = some 't' := by
    decide
  intro isEvidence
  have ends := evidenceEnd name isEvidence
  simp only [ProjectIdentity.packageNames, Finset.mem_insert, Finset.mem_singleton] at member
  rcases member with rfl | rfl | rfl
  · exact absurd ends (by decide)
  · rw [wheelEnd] at ends
    exact absurd ends (by decide)
  · rw [sdistEnd] at ends
    exact absurd ends (by decide)

/-- **A release that can be published**, with what its files hold and the records of its platforms. -/
structure IsPublishable (rootPath : String) (pyproject : ReadResult JsonObject) (packageDir evidenceDir : ReleaseDirectory)
    (output : PublicationOutput) (request : ReleaseRequest) (identity : ProjectIdentity) (content : String → Bytes)
    (amd64 arm64 : JsonObject) : Prop where
  project : loadProjectIdentity rootPath pyproject = .ok identity
  tagged : request.tag = "v" ++ identity.version
  repository : isRepositoryName request.repository = true
  image : request.imageName = "ghcr.io/" ++ lower request.repository
  commit : isCommit request.commit = true
  digest : isImageDigest request.imageDigest = true
  package : HoldsContents packageDir identity.packageNames content
  evidence : HoldsContents evidenceDir evidenceNames content
  bounded : ∀ name ∈ evidenceNames, (content name).length ≤ evidenceLimit name
  isPackage : HoldsPackage packageDir identity content
  isEvidence : HoldsEvidence identity request content amd64 arm64
  subject : IsSubject request (content "image-digest.txt")
  output : output.isSymlink = false ∧ ∃ listing, output.directory.listing = .read listing ∧ listing.entries = []

variable {rootPath : String} {pyproject : ReadResult JsonObject} {packageDir evidenceDir : ReleaseDirectory}
  {output : PublicationOutput}

omit [PyRepr] [ArchiveReader] [MessageParser] [FloatReader] [JsonErrors] in
theorem validateIdentity_ok_iff : validateIdentity rootPath pyproject request = .ok identity ↔
    loadProjectIdentity rootPath pyproject = .ok identity ∧ request.tag = "v" ++ identity.version ∧
      isRepositoryName request.repository = true ∧ request.imageName = "ghcr.io/" ++ lower request.repository ∧
      isCommit request.commit = true ∧ isImageDigest request.imageDigest = true := by
  simp only [validateIdentity, bind_eq_ok, mapError_eq_ok, check_eq_ok, beq_iff_eq, exists_const, Except.ok.injEq]
  constructor
  · rintro ⟨_, loads, tagged, repository, image, commit, digest, rfl⟩
    exact ⟨loads, tagged, repository, image, commit, digest⟩
  · rintro ⟨loads, tagged, repository, image, commit, digest⟩
    exact ⟨identity, loads, tagged, repository, image, commit, digest, rfl⟩

/-- The bytes under a name. -/
def contentOf (files : List ReleaseFile) (name : String) : Bytes :=
  ((files.find? fun file => file.path.name == name).map fun file => file.stored.bytes).getD []

omit [TextRepr] [PyRepr] [UnicodeTables] [ArchiveReader] [MessageParser] [FloatReader] [JsonErrors] in
/-- Files that can be read hold what is under their names. -/
theorem readsContent_contentOf {all : List ReleaseFile} (nodup : (all.map fun file => file.path.name).Nodup)
    (within : files ⊆ all) (holds : HoldsExactly directory names files)
    (readable : ∀ name ∈ names, Readable files name) : ReadsContent files (contentOf all) := by
  intro file member
  have found : all.find? (fun other => other.path.name == file.path.name) = some file :=
    (Rearrangement.find?_eq_some_iff_of_nodup nodup).mpr ⟨within member, rfl⟩
  have isReadable := readable _ (holds.path member).2 file member rfl
  rw [contentOf, found, Option.map_some, Option.getD_some]
  cases stored : file.stored
  rw [stored] at isReadable
  simp only at isReadable ⊢
  rw [isReadable]

omit [TextRepr] [PyRepr] [UnicodeTables] [ArchiveReader] [MessageParser] [FloatReader] [JsonErrors] in
theorem nodup_inputs {packageFiles evidenceFiles : List ReleaseFile}
    (package : HoldsExactly packageDir identity.packageNames packageFiles)
    (evidence : HoldsExactly evidenceDir evidenceNames evidenceFiles) :
    ((packageFiles ++ evidenceFiles).map fun file => file.path.name).Nodup := by
  rw [List.map_append, List.nodup_append]
  refine ⟨package.nodup, evidence.nodup, ?_⟩
  intro name isPackage other isEvidence same
  obtain ⟨file, member, rfl⟩ := List.mem_map.mp isPackage
  obtain ⟨file', member', rfl⟩ := List.mem_map.mp isEvidence
  refine notMem_evidenceNames (package.path member).2 ?_
  rw [same]
  exact (evidence.path member').2

/-- **What is found before the first file is written.** -/
theorem checkedInputs_ok_iff {inputs : PublicationInputs} :
    checkedInputs rootPath pyproject packageDir evidenceDir output request = .ok inputs ↔ ∃ content amd64 arm64,
      IsPublishable rootPath pyproject packageDir evidenceDir output request inputs.identity content amd64 arm64 ∧
        HoldsExactly packageDir inputs.identity.packageNames inputs.packageFiles ∧
        HoldsExactly evidenceDir evidenceNames inputs.evidenceFiles ∧ ReadsContent inputs.packageFiles content ∧
        ReadsContent inputs.evidenceFiles content ∧
        inputs.platformRecords = platformRecordsOf amd64 arm64 := by
  simp only [checkedInputs, bind_eq_ok, validateIdentity_ok_iff, exactRegularFiles_ok_iff, forM_eq_ok, bounded,
    check_eq_ok, checkSubject_ok_iff, checkPublicationOutput_ok_iff, decide_eq_true_eq, exists_const, Except.ok.injEq]
  constructor
  · rintro ⟨identity, ⟨project, tagged, repository, image, commit, digest⟩, packageFiles, package, evidenceFiles, evidence,
      isBounded, _, isPackage, platformRecords, isEvidence, subject, isSubject, ⟨raw, isRaw, subjectText⟩, isOutput, rfl⟩
    have nodup := nodup_inputs package evidence
    have packageReads := readsContent_contentOf nodup (List.subset_append_left _ _) package
      (readable_of_checkPackage package isPackage)
    have evidenceReads := readsContent_contentOf nodup (List.subset_append_right _ _) evidence
      (readable_of_checkEvidence evidence isEvidence (readable_of_fileIn evidence isSubject isRaw))
    obtain ⟨amd64, arm64, holdsEvidence, isRecords⟩ := (checkEvidence_ok_iff evidence evidenceReads).mp isEvidence
    have isDigest : "image-digest.txt" ∈ evidenceNames := by decide
    obtain rfl := (evidence.fileIn_content evidenceReads isDigest).mp isSubject
    cases isRaw
    refine ⟨_, amd64, arm64, ?_, package, evidence, packageReads, evidenceReads, isRecords⟩
    exact
      { project := project
        tagged := tagged
        repository := repository
        image := image
        commit := commit
        digest := digest
        package := holdsContents_iff.mpr ⟨_, package, packageReads⟩
        evidence := holdsContents_iff.mpr ⟨_, evidence, evidenceReads⟩
        bounded := fun name member =>
          isBounded _ (evidence.fileIn_iff.mp ((evidence.fileIn_content evidenceReads member).mpr rfl)).1
        isPackage := (checkPackage_ok_iff package packageReads).mp isPackage
        isEvidence := holdsEvidence
        subject := subjectText
        output := isOutput }
  · rintro ⟨content, amd64, arm64, publishable, package, evidence, packageReads, evidenceReads, isRecords⟩
    have isDigest : "image-digest.txt" ∈ evidenceNames := by decide
    refine ⟨inputs.identity, ⟨publishable.project, publishable.tagged, publishable.repository, publishable.image,
      publishable.commit, publishable.digest⟩, inputs.packageFiles, package, inputs.evidenceFiles, evidence, ?_, (),
      (checkPackage_ok_iff package packageReads).mpr publishable.isPackage, inputs.platformRecords,
      (checkEvidence_ok_iff evidence evidenceReads).mpr ⟨amd64, arm64, publishable.isEvidence, isRecords⟩, _,
      (evidence.fileIn_content evidenceReads isDigest).mpr rfl, ⟨_, rfl, publishable.subject⟩, publishable.output, rfl⟩
    intro file member
    rw [evidenceReads file member]
    exact publishable.bounded _ (evidence.path member).2

/-! ### Assets -/

/-- The inputs by their names, in order. -/
def ProjectIdentity.inputs (identity : ProjectIdentity) (content : String → Bytes) : List (String × Bytes) :=
  (sorted (identity.packageNames ∪ evidenceNames)).map fun name => (name, content name)

omit [TextRepr] [PyRepr] [UnicodeTables] [ArchiveReader] [MessageParser] [FloatReader] [JsonErrors] in
theorem copyFiles_content (reads : ReadsContent files content) :
    copyFiles files = ((files.map fun file => file.path.name).map fun name => (name, content name), none) := by
  induction files with
  | nil => rfl
  | cons file later ih =>
    have isContent : file.stored.content = .read (content file.path.name) :=
      content_eq_read.mpr (reads file List.mem_cons_self)
    rw [copyFiles, isContent, ih fun other member => reads other (List.mem_cons_of_mem _ member)]
    rfl

omit [TextRepr] [PyRepr] [UnicodeTables] [ArchiveReader] [MessageParser] [FloatReader] [JsonErrors] in
/-- The names of the inputs in order. -/
theorem names_files {inputs : PublicationInputs}
    (package : HoldsExactly packageDir inputs.identity.packageNames inputs.packageFiles)
    (evidence : HoldsExactly evidenceDir evidenceNames inputs.evidenceFiles) :
    (inputs.files.map fun file => file.path.name) = sorted (inputs.identity.packageNames ∪ evidenceNames) := by
  have perm : (inputs.files.map fun file => file.path.name).Perm
      ((inputs.packageFiles ++ inputs.evidenceFiles).map fun file => file.path.name) :=
    (List.perm_insertionSort _ _).map _
  have inOrder : (inputs.files.map fun file => file.path.name).Pairwise (· ≤ ·) :=
    List.pairwise_map.mpr (List.pairwise_insertionSort _ _)
  have members : (inputs.files.map fun file => file.path.name).toFinset =
      inputs.identity.packageNames ∪ evidenceNames := by
    ext name
    rw [List.mem_toFinset, perm.mem_iff, List.map_append, List.mem_append, Finset.mem_union, package.mem_names,
      evidence.mem_names]
  rw [← members]
  exact ((List.toFinset_sort _ (perm.nodup_iff.mpr (nodup_inputs package evidence))).mpr inOrder).symm

/-- **The assets of a release**: its inputs and its manifest. -/
def ReleaseRequest.assets (request : ReleaseRequest) (identity : ProjectIdentity) (content : String → Bytes)
    (amd64 arm64 : JsonObject) : List (String × Bytes) :=
  assetsWithManifest request identity (platformRecordsOf amd64 arm64) (identity.inputs content)

section Checksums

variable {amd64 arm64 : JsonObject}

omit [PyRepr] [FloatReader] [JsonErrors] in
/-- The artifacts of a package have names that can stand in a checksum file, in ASCII. -/
theorem HoldsPackage.isFileName (package : HoldsPackage packageDir identity content) {name : String}
    (member : name ∈ identity.packageNames) : IsFileName name ∧ IsAsciiText name := by
  obtain ⟨text, entries, decoded, lists, same⟩ := package.checksums
  have ascii : IsAsciiText text := (encodeAscii_eq_some.mp (encodeAscii_decodeAscii decoded)).1
  have listed : ∀ entry ∈ entries, IsFileName entry.1 ∧ IsAsciiText entry.1 := fun entry isEntry =>
    ⟨lists.isFileName isEntry, lists.isAsciiText ascii isEntry⟩
  simp only [ProjectIdentity.packageNames, Finset.mem_insert, Finset.mem_singleton] at member
  rcases member with rfl | rfl | rfl
  · decide
  · exact listed (identity.wheelName, _) ((same _).mpr List.mem_cons_self)
  · exact listed (identity.sdistName, _) ((same _).mpr (List.mem_cons_of_mem _ List.mem_cons_self))

omit [TextRepr] [PyRepr] [UnicodeTables] [ArchiveReader] [MessageParser] [FloatReader] [JsonErrors] in
theorem names_assets : (request.assets identity content amd64 arm64).map Prod.fst =
    sorted (identity.packageNames ∪ evidenceNames) ++ ["release-manifest.json"] := by
  rw [ReleaseRequest.assets, assetsWithManifest, List.map_append, ProjectIdentity.inputs, List.map_map]
  congr 1
  exact List.map_id _

omit [TextRepr] [PyRepr] [UnicodeTables] [ArchiveReader] [MessageParser] [FloatReader] [JsonErrors] in
theorem map_fst_digestsOf (files : List (String × Bytes)) : (digestsOf files).map Prod.fst = files.map Prod.fst := by
  rw [digestsOf, List.map_map]
  rfl

omit [PyRepr] [FloatReader] [JsonErrors] in
theorem mem_names_assets (package : HoldsPackage packageDir identity content) {name : String}
    (member : name ∈ (request.assets identity content amd64 arm64).map Prod.fst) : IsFileName name ∧ IsAsciiText name := by
  have evidence : ∀ name ∈ evidenceNames, IsFileName name ∧ IsAsciiText name := by decide
  rw [names_assets, List.mem_append, mem_sorted, Finset.mem_union, List.mem_singleton] at member
  rcases member with (isPackage | isEvidence) | rfl
  · exact package.isFileName isPackage
  · exact evidence name isEvidence
  · decide

omit [TextRepr] [PyRepr] [UnicodeTables] [ArchiveReader] [MessageParser] [FloatReader] [JsonErrors] in
/-- No asset is written twice. -/
theorem nodup_names_assets : ((request.assets identity content amd64 arm64).map Prod.fst).Nodup := by
  have notPackage : "release-manifest.json" ∉ identity.packageNames := by
    have wheelEnd : identity.wheelName.toList.getLast? = some 'l' := getLast?_append_text _ (by decide)
    have sdistEnd : identity.sdistName.toList.getLast? = some 'z' := getLast?_append_text _ (by decide)
    simp only [ProjectIdentity.packageNames, Finset.mem_insert, Finset.mem_singleton, not_or]
    refine ⟨by decide, fun same => ?_, fun same => ?_⟩
    · rw [← same] at wheelEnd
      exact absurd wheelEnd (by decide)
    · rw [← same] at sdistEnd
      exact absurd sdistEnd (by decide)
  rw [names_assets, List.nodup_append]
  refine ⟨Finset.sort_nodup _ _, List.nodup_singleton _, ?_⟩
  rintro name member _ (isManifest) rfl
  rw [List.mem_singleton.mp isManifest, mem_sorted, Finset.mem_union] at member
  rcases member with isPackage | isEvidence
  · exact notPackage isPackage
  · exact absurd isEvidence (by decide)

omit [PyRepr] [FloatReader] [JsonErrors] in
/-- **The checksums of a release are read back as the digests of its assets.** -/
theorem lists_checksums (package : HoldsPackage packageDir identity content) :
    Lists (fileText (digestsOf (request.assets identity content amd64 arm64))).toList
      (digestsOf (request.assets identity content amd64 arm64)) := by
  refine lists_fileText ?_ (fun entry member => isDigest_of_mem_digestsOf member) fun entry member => ?_
  · rw [map_fst_digestsOf]
    exact nodup_names_assets
  · have isName := List.mem_map_of_mem (f := Prod.fst) member
    rw [map_fst_digestsOf] at isName
    exact (mem_names_assets package isName).1

omit [PyRepr] [FloatReader] [JsonErrors] in
/-- The checksums are written: their names are ASCII. -/
theorem encodeAscii_checksums (package : HoldsPackage packageDir identity content) :
    encodeAscii (fileText (digestsOf (request.assets identity content amd64 arm64))) =
      some (asciiBytes (fileText (digestsOf (request.assets identity content amd64 arm64)))) := by
  refine encodeAscii_eq_some.mpr ⟨(isAsciiText_fileText fun entry member => isDigest_of_mem_digestsOf member).mpr ?_, rfl⟩
  intro entry member
  have isName := List.mem_map_of_mem (f := Prod.fst) member
  rw [map_fst_digestsOf] at isName
  exact (mem_names_assets package isName).2

end Checksums

/-- A release that can be published is published whole. -/
theorem prepareReleasePublication_of_publishable {amd64 arm64 : JsonObject}
    (publishable : IsPublishable rootPath pyproject packageDir evidenceDir output request identity content amd64 arm64) :
    prepareReleasePublication rootPath pyproject packageDir evidenceDir output request =
      ⟨.ok ⟨(request.assets identity content amd64 arm64).length, imageReference request.imageName request.imageDigest,
          ["linux/amd64", "linux/arm64"], identity.name, request.tag⟩,
        request.assets identity content amd64 arm64 ++
          [("RELEASE_SHA256SUMS", asciiBytes (fileText (digestsOf (request.assets identity content amd64 arm64))))]⟩ := by
  obtain ⟨packageFiles, package, packageReads⟩ := holdsContents_iff.mp publishable.package
  obtain ⟨evidenceFiles, evidence, evidenceReads⟩ := holdsContents_iff.mp publishable.evidence
  have found : checkedInputs rootPath pyproject packageDir evidenceDir output request =
      .ok ⟨identity, packageFiles, evidenceFiles, platformRecordsOf amd64 arm64⟩ :=
    checkedInputs_ok_iff.mpr ⟨content, amd64, arm64, publishable, package, evidence, packageReads, evidenceReads, rfl⟩
  generalize isInputs : PublicationInputs.mk identity packageFiles evidenceFiles (platformRecordsOf amd64 arm64) = inputs
    at found
  obtain ⟨rfl, rfl, rfl, isRecords⟩ := PublicationInputs.mk.inj isInputs
  have reads : ReadsContent inputs.files content := by
    intro file member
    rcases List.mem_append.mp ((List.mem_insertionSort _).mp member) with isPackage | isEvidence
    · exact packageReads file isPackage
    · exact evidenceReads file isEvidence
  have copies : copyFiles inputs.files = (inputs.identity.inputs content, none) := by
    rw [copyFiles_content reads, names_files package evidence]
    rfl
  have platforms : sorted ((platformRecordsOf amd64 arm64).map Prod.fst).toFinset = ["linux/amd64", "linux/arm64"] := by
    show sorted ["linux/amd64", "linux/arm64"].toFinset = _
    exact (List.toFinset_sort _ (by decide)).mpr (by decide)
  have encodes : encodeAscii (fileText (digestsOf (assetsWithManifest request inputs.identity
      (platformRecordsOf amd64 arm64) (inputs.identity.inputs content)))) = some _ :=
    encodeAscii_checksums publishable.isPackage
  simp only [prepareReleasePublication, found, copies, ← isRecords, platforms, encodes]
  rfl

/-- One that cannot be published leaves nothing. -/
theorem prepareReleasePublication_of_not_publishable
    (refused : ∀ identity content amd64 arm64,
      ¬ IsPublishable rootPath pyproject packageDir evidenceDir output request identity content amd64 arm64) :
    ∃ failure, prepareReleasePublication rootPath pyproject packageDir evidenceDir output request =
      ⟨.error failure, []⟩ := by
  cases found : checkedInputs rootPath pyproject packageDir evidenceDir output request with
  | error failure => exact ⟨failure, by rw [prepareReleasePublication, found]⟩
  | ok inputs =>
    obtain ⟨content, amd64, arm64, publishable, -⟩ := checkedInputs_ok_iff.mp found
    exact absurd publishable (refused _ content amd64 arm64)

/-- **What a publication does**: a release that cannot be published leaves nothing; one that can is published whole, with
checksums that are read back as the digests of all its assets. -/
theorem prepareReleasePublication_exact :
    (∃ failure, prepareReleasePublication rootPath pyproject packageDir evidenceDir output request =
        ⟨.error failure, []⟩ ∧ ∀ identity content amd64 arm64,
          ¬ IsPublishable rootPath pyproject packageDir evidenceDir output request identity content amd64 arm64) ∨
    ∃ identity content amd64 arm64 checksums,
      IsPublishable rootPath pyproject packageDir evidenceDir output request identity content amd64 arm64 ∧
      prepareReleasePublication rootPath pyproject packageDir evidenceDir output request =
        ⟨.ok ⟨(request.assets identity content amd64 arm64).length, imageReference request.imageName request.imageDigest,
            ["linux/amd64", "linux/arm64"], identity.name, request.tag⟩,
          request.assets identity content amd64 arm64 ++ [("RELEASE_SHA256SUMS", checksums)]⟩ ∧
      ∃ text, decodeAscii checksums = some text ∧
        Lists text.toList (digestsOf (request.assets identity content amd64 arm64)) := by
  by_cases publishes : ∃ identity content amd64 arm64,
      IsPublishable rootPath pyproject packageDir evidenceDir output request identity content amd64 arm64
  · obtain ⟨identity, content, amd64, arm64, publishable⟩ := publishes
    exact Or.inr ⟨identity, content, amd64, arm64, _, publishable, prepareReleasePublication_of_publishable publishable, _,
      decodeAscii_encodeAscii (encodeAscii_checksums publishable.isPackage), lists_checksums publishable.isPackage⟩
  · have refused : ∀ identity content amd64 arm64,
        ¬ IsPublishable rootPath pyproject packageDir evidenceDir output request identity content amd64 arm64 :=
      fun identity content amd64 arm64 publishable => publishes ⟨identity, content, amd64, arm64, publishable⟩
    obtain ⟨failure, fails⟩ := prepareReleasePublication_of_not_publishable refused
    exact Or.inl ⟨failure, fails, refused⟩

/-- A publication returns exactly for a release that can be published. -/
theorem prepareReleasePublication_ok_iff :
    (∃ summary, (prepareReleasePublication rootPath pyproject packageDir evidenceDir output request).result =
      .ok summary) ↔ ∃ identity content amd64 arm64,
        IsPublishable rootPath pyproject packageDir evidenceDir output request identity content amd64 arm64 := by
  constructor
  · rintro ⟨summary, returns⟩
    by_contra refused
    obtain ⟨failure, fails⟩ := prepareReleasePublication_of_not_publishable
      fun identity content amd64 arm64 publishable => refused ⟨identity, content, amd64, arm64, publishable⟩
    rw [fails] at returns
    cases returns
  · rintro ⟨identity, content, amd64, arm64, publishable⟩
    rw [prepareReleasePublication_of_publishable publishable]
    exact ⟨_, rfl⟩

end Published

end McpAuth
