/-
**`prepare_multiarch_image_evidence.py` — the evidence about a published two-platform image.**

The script compares the manifest of the registry with the digests that were scanned and writes the records of the two
platforms. `prepareImageEvidence_ok_iff`: evidence is written exactly when the manifest describes the two platforms with
those digests, in either order, and it is `ImageRelease.evidence` then, whatever else the manifest holds.

`canonical_evidence` puts the file within the round trip of `json.dumps`.
-/

import McpAuth.Library.JsonReader
import McpAuth.Library.Sha256
import McpAuth.Scripts.ReleaseBuilds
import McpAuth.Scripts.SecurityEvidence

namespace McpAuth

open Fallible JsonText PyText PyNumbers Sha256 TextRows

/-! ### Identities -/

/-- Raised when the published OCI index does not match the release contract. -/
structure MultiarchEvidenceError where
  message : String
  deriving DecidableEq

/-- What leaves a preparation: the evidence error, or another exception by its text. -/
inductive MultiarchFailure
  | evidence (error : MultiarchEvidenceError)
  | uncaught (exception : String)
  deriving DecidableEq

/-- `MultiarchEvidenceError(message)`. -/
def multiarchError (message : String) : MultiarchFailure := .evidence ⟨message⟩

/-- `^sha256:[0-9a-f]{64}$`. -/
def isImageDigest (text : String) : Bool := (afterPrefix "sha256:".toList text.toList).any isDigest

/-- `^[0-9a-f]{40}$`. -/
def isCommit (text : String) : Bool := text.toList.length == 40 && text.toList.all isHexDigit

/-- A `v` with something behind it. -/
def isReleaseTag (tag : String) : Bool :=
  match tag.toList with
  | 'v' :: _ :: _ => true
  | _ => false

/-- A repository of `ghcr.io` without a tag or a digest. -/
def isUntaggedImage (name : String) : Bool :=
  match afterPrefix "ghcr.io/".toList name.toList with
  | some repository => !name.toList.contains '@' && !repository.contains ':'
  | none => false

/-- The platforms of a release with their operating system and architecture. -/
def expectedPlatforms : List (String × String × String) :=
  [("linux/amd64", "linux", "amd64"), ("linux/arm64", "linux", "arm64")]

/-- What a preparation is called with. -/
structure ImageRelease where
  imageName : String
  indexDigest : String
  amd64Digest : String
  arm64Digest : String
  tag : String
  commit : String

/-- `_digest`. -/
def checkedDigest (value label : String) : Except MultiarchFailure String := do
  check (multiarchError (label ++ " must be a sha256 digest")) (isImageDigest value)
  .ok value

/-- `expected_digests`. -/
def ImageRelease.digests (release : ImageRelease) : List (String × String) :=
  [("linux/amd64", release.amd64Digest), ("linux/arm64", release.arm64Digest)]

/-- The checks of the arguments. -/
def checkRelease (release : ImageRelease) : Except MultiarchFailure Unit := do
  let _ ← checkedDigest release.indexDigest "index digest"
  let _ ← checkedDigest release.amd64Digest "amd64 digest"
  let _ ← checkedDigest release.arm64Digest "arm64 digest"
  check (multiarchError "amd64 and arm64 digests must be different") (release.amd64Digest != release.arm64Digest)
  check (multiarchError "source commit must be a full lowercase commit SHA") (isCommit release.commit)
  check (multiarchError "release tag must be a non-empty v-prefixed tag") (isReleaseTag release.tag)
  check (multiarchError "image name must be an untagged ghcr.io repository") (isUntaggedImage release.imageName)

/-! ### The manifest of the registry -/

/-- `_load`. -/
def loadImageManifest (path : String) : LoadedFile → Except MultiarchFailure JsonObject
  | .invalid exception => .error (multiarchError (path ++ ": invalid JSON: " ++ exception))
  | .raised exception => .error (.uncaught exception)
  | .document (.obj document) => .ok document
  | .document _ => .error (multiarchError (path ++ ": manifest must be a JSON object"))

section Manifest

variable [PyRepr]

/-- The platform of a descriptor as it is keyed. -/
def platformKey (platform : JsonObject) : String := (get platform "os").toStr ++ "/" ++ (get platform "architecture").toStr

/-- One turn of the loop over the descriptors. -/
def collectDescriptor (found : List (String × String)) (descriptor : Json) :
    Except MultiarchFailure (List (String × String)) := do
  let members ← required (multiarchError "every index descriptor must be an object") descriptor.asObject
  let incomplete := multiarchError "every descriptor requires platform and digest"
  let platform ← required incomplete (get members "platform").asObject
  let digest ← required incomplete (get members "digest").asText
  let key := platformKey platform
  check (multiarchError ("unexpected release platform: " ++ key)) (expectedPlatforms.lookup key).isSome
  check (multiarchError ("duplicate release platform: " ++ key)) (found.lookup key).isNone
  let digest ← checkedDigest digest (key ++ " digest")
  .ok (found ++ [(key, digest)])

/-- The manifest describes what was scanned. -/
def checkManifest (release : ImageRelease) (manifest : JsonObject) : Except MultiarchFailure (List (String × String)) := do
  check (multiarchError "registry index digest does not match the published subject")
    ((get manifest "digest").isText release.indexDigest)
  let twoManifests := multiarchError "registry index must contain exactly two platform manifests"
  let descriptors ← required twoManifests (get manifest "manifests").asList
  check twoManifests (descriptors.length == 2)
  let found ← descriptors.foldlM collectDescriptor []
  -- neither dictionary has a key twice
  check (multiarchError "registry platform digests do not match scanned subjects")
    (found.toFinset == release.digests.toFinset)
  .ok found

/-! ### The evidence -/

/-- `name@digest`. -/
def imageReference (name digest : String) : String := name ++ "@" ++ digest

/-- The record of a platform. -/
def ImageRelease.platformRecord (release : ImageRelease) (operatingSystem architecture digest : String) : JsonObject :=
  [("architecture", .str architecture), ("digest", .str digest), ("os", .str operatingSystem),
    ("reference", .str (imageReference release.imageName digest)),
    ("tags", .arr [.str (release.tag ++ "-" ++ architecture), .str ("sha-" ++ release.commit ++ "-" ++ architecture)])]

/-- The evidence with the records of the platforms. -/
def ImageRelease.evidenceOf (release : ImageRelease) (platformRecords : List (String × JsonObject)) : JsonObject :=
  [("index", .obj [("digest", .str release.indexDigest),
      ("reference", .str (imageReference release.imageName release.indexDigest)),
      ("tags", .arr [.str release.tag, .str ("sha-" ++ release.commit)])]),
    ("platforms", .obj (platformRecords.map fun record => (record.1, .obj record.2))), ("schema_version", .int 1)]

/-- What `prepare_multiarch_image_evidence` returns. -/
structure ImageSummary where
  indexDigest : String
  platforms : List String
  deriving DecidableEq

/-- Where the evidence is written: a symbolic link, or a file with the exception of writing it. -/
structure OutputFile where
  path : String
  isSymlink : Bool
  unwritable : Option String

/-- `prepare_multiarch_image_evidence`, with the text that it writes. -/
def prepareImageEvidence (manifestPath : String) (manifest : LoadedFile) (output : OutputFile) (release : ImageRelease) :
    Except MultiarchFailure (ImageSummary × String) := do
  checkRelease release
  let document ← loadImageManifest manifestPath manifest
  let found ← checkManifest release document
  let platformRecords ← expectedPlatforms.mapM fun platform => do
    let digest ← required (.uncaught ("KeyError: " ++ platform.1)) (found.lookup platform.1)
    .ok (platform.1, release.platformRecord platform.2.1 platform.2.2 digest)
  check (multiarchError (output.path ++ ": output cannot be a symbolic link")) !output.isSymlink
  match output.unwritable with
  | some exception => .error (.uncaught exception)
  | none =>
    .ok (⟨release.indexDigest, sorted (platformRecords.map Prod.fst).toFinset⟩,
      dumps (some 2) (.obj (release.evidenceOf platformRecords)) ++ "\n")

/-! ### What is accepted -/

/-- **The arguments of a release.** -/
structure IsRelease (release : ImageRelease) : Prop where
  index : isImageDigest release.indexDigest = true
  amd64 : isImageDigest release.amd64Digest = true
  arm64 : isImageDigest release.arm64Digest = true
  differ : release.amd64Digest ≠ release.arm64Digest
  commit : isCommit release.commit = true
  tag : isReleaseTag release.tag = true
  image : isUntaggedImage release.imageName = true

/-- **A descriptor of a platform.** -/
def DescribesPlatform (descriptor : Json) (platform digest : String) : Prop :=
  ∃ members record, descriptor = .obj members ∧ get members "platform" = .obj record ∧ platformKey record = platform ∧
    get members "digest" = .str digest

/-- **A manifest of what was scanned**: the two platforms in either order, with any other members. -/
structure IsImageIndex (release : ImageRelease) (manifest : JsonObject) : Prop where
  digest : get manifest "digest" = .str release.indexDigest
  platforms : ∃ first second, get manifest "manifests" = .arr [first, second] ∧
    (DescribesPlatform first "linux/amd64" release.amd64Digest ∧
        DescribesPlatform second "linux/arm64" release.arm64Digest ∨
      DescribesPlatform first "linux/arm64" release.arm64Digest ∧
        DescribesPlatform second "linux/amd64" release.amd64Digest)

/-- The records of the two platforms. -/
def ImageRelease.records (release : ImageRelease) : List (String × JsonObject) :=
  [("linux/amd64", release.platformRecord "linux" "amd64" release.amd64Digest),
    ("linux/arm64", release.platformRecord "linux" "arm64" release.arm64Digest)]

/-- The evidence of a release. -/
def ImageRelease.evidence (release : ImageRelease) : JsonObject := release.evidenceOf release.records

variable {release : ImageRelease}

omit [PyRepr] in
theorem checkedDigest_ok_iff {value label digest : String} :
    checkedDigest value label = .ok digest ↔ isImageDigest value = true ∧ digest = value := by
  simp only [checkedDigest, bind_eq_ok, check_eq_ok, exists_const, Except.ok.injEq, @eq_comm _ value]

omit [PyRepr] in
theorem checkRelease_ok_iff {done : Unit} : checkRelease release = .ok done ↔ IsRelease release := by
  simp only [checkRelease, bind_eq_ok, checkedDigest_ok_iff, check_eq_ok, exists_const, bne_iff_ne]
  constructor
  · rintro ⟨_, ⟨index, -⟩, _, ⟨amd64, -⟩, _, ⟨arm64, -⟩, differ, commit, tag, image⟩
    exact ⟨index, amd64, arm64, differ, commit, tag, image⟩
  · rintro ⟨index, amd64, arm64, differ, commit, tag, image⟩
    exact ⟨_, ⟨index, rfl⟩, _, ⟨amd64, rfl⟩, _, ⟨arm64, rfl⟩, differ, commit, tag, image⟩

omit [PyRepr] in
theorem loadImageManifest_ok_iff {path : String} {file : LoadedFile} {document : JsonObject} :
    loadImageManifest path file = .ok document ↔ file = .document (.obj document) := by
  cases file with
  | invalid exception => simp [loadImageManifest]
  | raised exception => simp [loadImageManifest]
  | document value => cases value <;> simp [loadImageManifest]

theorem collectDescriptor_ok_iff {found next : List (String × String)} {descriptor : Json} :
    collectDescriptor found descriptor = .ok next ↔ ∃ platform digest, DescribesPlatform descriptor platform digest ∧
      (expectedPlatforms.lookup platform).isSome = true ∧ (found.lookup platform).isNone = true ∧
      isImageDigest digest = true ∧ next = found ++ [(platform, digest)] := by
  simp only [collectDescriptor, bind_eq_ok, required_eq_ok, check_eq_ok, checkedDigest_ok_iff, asObject_eq_some,
    Json.asText_eq_some, exists_const, Except.ok.injEq, DescribesPlatform]
  constructor
  · rintro ⟨members, rfl, record, isRecord, digest, isDigest, expected, fresh, _, ⟨valid, rfl⟩, rfl⟩
    exact ⟨_, _, ⟨members, record, rfl, isRecord, rfl, isDigest⟩, expected, fresh, valid, rfl⟩
  · rintro ⟨_, digest, ⟨members, record, rfl, isRecord, rfl, isDigest⟩, expected, fresh, valid, rfl⟩
    exact ⟨members, rfl, record, isRecord, digest, isDigest, expected, fresh, digest, ⟨valid, rfl⟩, rfl⟩

omit [PyRepr] in
/-- Two entries that are as a set the digests of the release. -/
theorem pair_eq_digests {first second : String × String} :
    [first, second].toFinset = release.digests.toFinset ↔
      (first = ("linux/amd64", release.amd64Digest) ∧ second = ("linux/arm64", release.arm64Digest)) ∨
        (first = ("linux/arm64", release.arm64Digest) ∧ second = ("linux/amd64", release.amd64Digest)) := by
  have pairs : ∀ one other : String × String, [one, other].toFinset = {one, other} := by simp
  rw [ImageRelease.digests, pairs, pairs, ← Finset.coe_inj, Finset.coe_pair, Finset.coe_pair, Set.pair_eq_pair_iff]

/-- What is found in a manifest that is accepted. -/
theorem found_of_checkManifest {manifest : JsonObject} {found : List (String × String)}
    (accepts : checkManifest release manifest = .ok found) : IsImageIndex release manifest ∧
      found.lookup "linux/amd64" = some release.amd64Digest ∧ found.lookup "linux/arm64" = some release.arm64Digest := by
  simp only [checkManifest, bind_eq_ok, check_eq_ok, required_eq_ok, asList_eq_some, Json.isText_iff, exists_const,
    Except.ok.injEq, beq_iff_eq] at accepts
  obtain ⟨isDigest, descriptors, isList, two, _, collects, same, rfl⟩ := accepts
  obtain ⟨first, second, rfl⟩ := List.length_eq_two.mp two
  simp only [List.foldlM_cons, List.foldlM_nil, bind_eq_ok, collectDescriptor_ok_iff] at collects
  obtain ⟨_, ⟨platform, digest, describes, -, -, -, rfl⟩, _, ⟨platform', digest', describes', -, -, -, rfl⟩, ⟨⟩⟩ := collects
  rcases pair_eq_digests.mp same with ⟨isFirst, isSecond⟩ | ⟨isFirst, isSecond⟩
  · cases isFirst
    cases isSecond
    exact ⟨⟨isDigest, first, second, isList, Or.inl ⟨describes, describes'⟩⟩, rfl, rfl⟩
  · cases isFirst
    cases isSecond
    exact ⟨⟨isDigest, first, second, isList, Or.inr ⟨describes, describes'⟩⟩, rfl, rfl⟩

/-- Two descriptors of the platforms are collected in their order. -/
theorem collectDescriptors {first second : Json} {platform platform' digest digest' : String}
    (describes : DescribesPlatform first platform digest) (describes' : DescribesPlatform second platform' digest')
    (expected : (expectedPlatforms.lookup platform).isSome = true ∧ (expectedPlatforms.lookup platform').isSome = true)
    (differ : platform' ≠ platform) (valid : isImageDigest digest = true ∧ isImageDigest digest' = true) :
    [first, second].foldlM collectDescriptor [] = .ok [(platform, digest), (platform', digest')] := by
  have fresh : ([(platform, digest)].lookup platform').isNone = true := by
    rw [List.lookup_cons, beq_eq_false_iff_ne.mpr differ]
    rfl
  have one : collectDescriptor [] first = .ok [(platform, digest)] :=
    collectDescriptor_ok_iff.mpr ⟨platform, digest, describes, expected.1, rfl, valid.1, rfl⟩
  have other := collectDescriptor_ok_iff.mpr ⟨platform', digest', describes', expected.2, fresh, valid.2, rfl⟩
  rw [List.foldlM_cons]
  refine bind_eq_ok.mpr ⟨_, one, ?_⟩
  rw [List.foldlM_cons]
  exact bind_eq_ok.mpr ⟨_, other, rfl⟩

theorem checkManifest_total (isRelease : IsRelease release) {manifest : JsonObject}
    (isIndex : IsImageIndex release manifest) : ∃ found, checkManifest release manifest = .ok found := by
  obtain ⟨isDigest, first, second, isList, describes⟩ := isIndex
  have collects : ∃ found, [first, second].foldlM collectDescriptor [] = .ok found ∧
      found.toFinset = release.digests.toFinset := by
    rcases describes with ⟨one, other⟩ | ⟨one, other⟩
    · exact ⟨_, collectDescriptors one other ⟨rfl, rfl⟩ (by decide) ⟨isRelease.amd64, isRelease.arm64⟩,
        pair_eq_digests.mpr (Or.inl ⟨rfl, rfl⟩)⟩
    · exact ⟨_, collectDescriptors one other ⟨rfl, rfl⟩ (by decide) ⟨isRelease.arm64, isRelease.amd64⟩,
        pair_eq_digests.mpr (Or.inr ⟨rfl, rfl⟩)⟩
  obtain ⟨found, collected, same⟩ := collects
  refine ⟨found, ?_⟩
  simp only [checkManifest, bind_eq_ok, check_eq_ok, required_eq_ok, asList_eq_some, Json.isText_iff, exists_const,
    Except.ok.injEq, beq_iff_eq]
  exact ⟨isDigest, _, isList, rfl, found, collected, same, rfl⟩

/-- **Evidence is written exactly about a release whose manifest describes what was scanned.** -/
theorem prepareImageEvidence_ok_iff {manifestPath : String} {manifest : LoadedFile} {output : OutputFile}
    {summary : ImageSummary} {text : String} :
    prepareImageEvidence manifestPath manifest output release = .ok (summary, text) ↔
      IsRelease release ∧ (∃ document, manifest = .document (.obj document) ∧ IsImageIndex release document) ∧
        output.isSymlink = false ∧ output.unwritable = none ∧
        summary = ⟨release.indexDigest, ["linux/amd64", "linux/arm64"]⟩ ∧
        text = dumps (some 2) (.obj release.evidence) ++ "\n" := by
  have inOrder : sorted (release.records.map Prod.fst).toFinset = ["linux/amd64", "linux/arm64"] := by
    show sorted ["linux/amd64", "linux/arm64"].toFinset = _
    exact (List.toFinset_sort _ (by decide)).mpr (by decide)
  have records : ∀ {found : List (String × String)}, found.lookup "linux/amd64" = some release.amd64Digest →
      found.lookup "linux/arm64" = some release.arm64Digest →
      (expectedPlatforms.mapM fun platform => do
        let digest ← required (MultiarchFailure.uncaught ("KeyError: " ++ platform.1)) (found.lookup platform.1)
        .ok (platform.1, release.platformRecord platform.2.1 platform.2.2 digest)) = .ok release.records := by
    intro found isAmd isArm
    simp only [expectedPlatforms, List.mapM_cons, List.mapM_nil, isAmd, isArm, required]
    rfl
  simp only [prepareImageEvidence, bind_eq_ok, checkRelease_ok_iff, loadImageManifest_ok_iff, check_eq_ok, exists_const]
  constructor
  · rintro ⟨isRelease, document, rfl, found, accepts, platformRecords, isRecords, notSymlink, writes⟩
    obtain ⟨isIndex, isAmd, isArm⟩ := found_of_checkManifest accepts
    obtain rfl : release.records = platformRecords := Except.ok.inj ((records isAmd isArm).symm.trans isRecords)
    rw [Bool.not_eq_true'] at notSymlink
    split at writes
    · cases writes
    · rename_i writable
      rw [inOrder] at writes
      cases writes
      exact ⟨isRelease, ⟨document, rfl, isIndex⟩, notSymlink, writable, rfl, rfl⟩
  · rintro ⟨isRelease, ⟨document, rfl, isIndex⟩, notSymlink, writable, rfl, rfl⟩
    obtain ⟨found, accepts⟩ := checkManifest_total isRelease isIndex
    obtain ⟨-, isAmd, isArm⟩ := found_of_checkManifest accepts
    refine ⟨isRelease, document, rfl, found, accepts, _, records isAmd isArm, by rw [notSymlink]; rfl, ?_⟩
    rw [writable, inOrder]
    rfl

end Manifest

/-- **The evidence is read back as it was written.** -/
theorem canonical_evidence (release : ImageRelease) : Canonical (.obj release.evidence) := by
  have texts : ∀ values : List String, Canonical (.arr (values.map .str)) := by
    intro values
    refine .arr fun item member => ?_
    obtain ⟨value, -, rfl⟩ := List.mem_map.mp member
    exact .str value
  have record : ∀ operatingSystem architecture digest : String,
      Canonical (.obj (release.platformRecord operatingSystem architecture digest)) := by
    intro operatingSystem architecture digest
    refine .record ["architecture", "digest", "os", "reference", "tags"] (by decide) rfl ?_
    simp only [ImageRelease.platformRecord, List.forall_mem_cons]
    exact ⟨.str _, .str _, .str _, .str _, texts [_, _], by simp⟩
  refine .record ["index", "platforms", "schema_version"] (by decide) rfl ?_
  simp only [ImageRelease.evidence, ImageRelease.evidenceOf, List.forall_mem_cons]
  refine ⟨.record ["digest", "reference", "tags"] (by decide) rfl ?_,
    .record ["linux/amd64", "linux/arm64"] (by decide) rfl ?_, .int (by decide), by simp⟩
  · simp only [List.forall_mem_cons]
    exact ⟨.str _, .str _, texts [_, _], by simp⟩
  · simp only [ImageRelease.records, List.map_cons, List.map_nil, List.forall_mem_cons]
    exact ⟨record _ _ _, record _ _ _, by simp⟩

end McpAuth
