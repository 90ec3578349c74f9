/-
**`validate_security_evidence.py` — bills of materials and vulnerability reports.**

`_component_names` takes components from a stack until it is empty; `mem_componentNames` says that the names it collects
are those of the components of the document at any depth. `validateCyclonedx_ok_iff` puts it beside the format of the
document: a bill of materials is accepted exactly when the project is one of its components, however deep, and not the
only name.

`validateGrypeReport_ok_iff` is the same for a report, whose severities are counted without case, and
`validateSecurityEvidence_ok_iff` for the whole script.
-/

import McpAuth.Entrypoints.LogRedaction
import McpAuth.Library.JsonValue
import McpAuth.Library.TreeWalk
import McpAuth.Scripts.ReleaseArtifacts

namespace McpAuth

open Fallible PyText PyNumbers JsonText TreeWalk

/-! ### Documents -/

/-- Raised when generated supply-chain evidence violates its contract. -/
structure EvidenceValidationError where
  message : String
  deriving DecidableEq

/-- What leaves a validation: the evidence error, or another exception by its text. -/
inductive EvidenceFailure
  | evidence (error : EvidenceValidationError)
  | uncaught (exception : String)
  deriving DecidableEq

/-- `raise EvidenceValidationError(message)`. -/
def evidenceError {α : Type} (message : String) : Except EvidenceFailure α := .error (.evidence ⟨message⟩)

/-- `load_document`. -/
def loadDocument (path : String) : LoadedFile → Except EvidenceFailure JsonObject
  | .invalid exception => evidenceError (path ++ ": invalid JSON: " ++ exception)
  | .raised exception => .error (.uncaught exception)
  | .document (.obj document) => .ok document
  | .document _ => evidenceError (path ++ ": evidence document must be an object")

theorem loadDocument_ok_iff {path : String} {file : LoadedFile} {document : JsonObject} :
    loadDocument path file = .ok document ↔ file = .document (.obj document) := by
  cases file with
  | invalid exception => simp [loadDocument, evidenceError]
  | raised exception => simp [loadDocument]
  | document value => cases value <;> simp [loadDocument, evidenceError]

/-- `repr(value)`. -/
def Json.shown [TextRepr] [PyRepr] : Json → String
  | .str text => TextRepr.quoted text
  | value => value.toStr

/-- `value == 1`. -/
def isOne : Json → Bool
  | .int value => value == 1
  | .bool value => value
  | .float text => text == "1.0"
  | _ => false

/-- A dict or a list, which has no hash. -/
def isUnhashable : Json → Bool
  | .arr _ | .obj _ => true
  | _ => false

/-! ### Components -/

/-- The components inside a component. -/
def nestedComponents : Json → List Json
  | .obj members => match get members "components" with
    | .arr components => components
    | _ => []
  | _ => []

/-- The normalized name of a component that has one. -/
def componentName [UnicodeTables] : Json → Option String
  | .obj members => match get members "name" with
    | .str name => if name = "" then none else some (canonicalName name)
    | _ => none
  | _ => none

/-- `metadata["component"]`, where it is an object. -/
def metadataComponent (document : JsonObject) : List Json :=
  match get document "metadata" with
  | .obj metadata => match get metadata "component" with
    | .obj component => [.obj component]
    | _ => []
  | _ => []

/-- The components that `_component_names` starts with. -/
def rootComponents (document : JsonObject) : List Json :=
  nestedComponents (.obj document) ++ metadataComponent document

/-- `_component_names`. Every turn takes one component from the end, so the weight of the document is fuel enough. -/
def componentNames [UnicodeTables] (document : JsonObject) : Finset String :=
  let pending := rootComponents document
  ((drainFrom nestedComponents (pending.map Json.weight).sum pending).filterMap componentName).toFinset

/-- A component is heavier than what is inside. -/
theorem weight_nestedComponents (component : Json) :
    1 + ((nestedComponents component).map Json.weight).sum ≤ component.weight := by
  cases component with
  | obj members =>
    rw [nestedComponents, Json.weight]
    split
    · rename_i components isComponents
      have found : members.lookup "components" = some (.arr components) := by
        unfold JsonText.get at isComponents
        cases lookup : members.lookup "components" with
        | none => simp [lookup] at isComponents
        | some value => simpa [lookup] using isComponents
      have bound := weight_le_of_lookup found
      rw [Json.weight, weights_eq_sum] at bound
      omega
    · simp
  | arr items => simp [nestedComponents, Json.weight]
  | _ => simp [nestedComponents, Json.weight]

/-- **The names are those of the components at any depth.** -/
theorem mem_componentNames [UnicodeTables] {document : JsonObject} {name : String} :
    name ∈ componentNames document ↔
      ∃ root ∈ rootComponents document, ∃ component, Within nestedComponents component root ∧
        componentName component = some name := by
  rw [componentNames, List.mem_toFinset, List.mem_filterMap]
  simp only [mem_drainFrom weight_nestedComponents le_rfl]
  constructor
  · rintro ⟨component, ⟨root, isRoot, within⟩, isName⟩
    exact ⟨root, isRoot, component, within, isName⟩
  · rintro ⟨root, isRoot, component, within, isName⟩
    exact ⟨component, ⟨root, isRoot, within⟩, isName⟩

/-! ### Bills of materials -/

def supportedCyclonedxVersions : List String := ["1.5", "1.6", "1.7"]

def isHexLetter (char : Char) : Bool := isDigit char || ('a' ≤ asciiLowerChar char && asciiLowerChar char ≤ 'f')

/-- The characters of `SERIAL_NUMBER`, in order. -/
def serialNumberPattern : List (Char → Bool) :=
  "urn:uuid:".toList.map sameLetter ++ List.replicate 8 isHexLetter ++ [(· == '-')] ++ List.replicate 4 isHexLetter ++
    [(· == '-'), fun char => '1' ≤ char && char ≤ '5'] ++ List.replicate 3 isHexLetter ++
    [(· == '-'), fun char => ['8', '9', 'a', 'b'].contains (asciiLowerChar char)] ++ List.replicate 3 isHexLetter ++
    [(· == '-')] ++ List.replicate 12 isHexLetter

/-- `pattern.fullmatch(text)` for a pattern of single characters. -/
def fullMatches (pattern : List (Char → Bool)) (text : String) : Bool :=
  pattern.length == text.length && (pattern.zip text.toList).all fun pair => pair.1 pair.2

/-- What `validate_cyclonedx` returns. -/
structure CyclonedxEvidence where
  componentCount : ℕ
  expectedComponent : String
  specVersion : String
  deriving DecidableEq

section Documents

variable [UnicodeTables] [TextRepr] [PyRepr]

/-- `validate_cyclonedx`. -/
def validateCyclonedx (path : String) (file : LoadedFile) (expectedComponent : String) :
    Except EvidenceFailure CyclonedxEvidence := do
  let document ← loadDocument path file
  let invalid := fun message => EvidenceFailure.evidence ⟨path ++ ": " ++ message⟩
  check (invalid "bomFormat must be CycloneDX") ((get document "bomFormat").isText "CycloneDX")
  check (.uncaught "TypeError: unhashable type") !isUnhashable (get document "specVersion")
  let specVersion ← required (invalid ("unsupported CycloneDX specVersion " ++ Json.shown (get document "specVersion")))
    ((get document "specVersion").asText.filter supportedCyclonedxVersions.contains)
  check (invalid "CycloneDX document version must be 1") (isOne (get document "version"))
  check (invalid "valid urn:uuid serialNumber is required")
    ((get document "serialNumber").asText.any (fullMatches serialNumberPattern))
  let names := componentNames document
  check (invalid ("expected component " ++ TextRepr.quoted expectedComponent ++ " is missing"))
    (canonicalName expectedComponent ∈ names)
  check (invalid "SBOM must contain the project and its dependencies") !(names.card < 2)
  .ok ⟨names.card, canonicalName expectedComponent, specVersion⟩

/-- **A bill of materials that names the project and something else.** -/
structure IsCyclonedx (document : JsonObject) (expectedComponent version : String) : Prop where
  format : get document "bomFormat" = .str "CycloneDX"
  specVersion : get document "specVersion" = .str version
  supported : version ∈ supportedCyclonedxVersions
  version : isOne (get document "version") = true
  serialNumber : ∃ serial, get document "serialNumber" = .str serial ∧ fullMatches serialNumberPattern serial = true
  /-- The project is a component at some depth. -/
  project : ∃ root ∈ rootComponents document, ∃ component, Within nestedComponents component root ∧
    componentName component = some (canonicalName expectedComponent)
  /-- So is something of another name. -/
  dependency : ∃ root ∈ rootComponents document, ∃ component, Within nestedComponents component root ∧
    ∃ name, componentName component = some name ∧ name ≠ canonicalName expectedComponent

omit [TextRepr] [PyRepr] in
/-- The two conditions on the names. -/
theorem componentNames_iff {document : JsonObject} {expected : String} :
    expected ∈ componentNames document ∧ ¬ (componentNames document).card < 2 ↔
      (∃ root ∈ rootComponents document, ∃ component, Within nestedComponents component root ∧
        componentName component = some expected) ∧
      ∃ root ∈ rootComponents document, ∃ component, Within nestedComponents component root ∧
        ∃ name, componentName component = some name ∧ name ≠ expected := by
  rw [← mem_componentNames]
  refine and_congr_right fun member => ?_
  rw [not_lt, Nat.succ_le_iff]
  constructor
  · intro several
    obtain ⟨name, isName, other⟩ := Finset.exists_mem_ne several expected
    obtain ⟨root, isRoot, component, within, named⟩ := mem_componentNames.mp isName
    exact ⟨root, isRoot, component, within, name, named, other⟩
  · rintro ⟨root, isRoot, component, within, name, named, other⟩
    exact Finset.one_lt_card.mpr ⟨name, mem_componentNames.mpr ⟨root, isRoot, component, within, named⟩, expected, member,
      other⟩

/-- **A bill of materials is accepted exactly when it is well formed and names the project and something else.** -/
theorem validateCyclonedx_ok_iff {path : String} {file : LoadedFile} {expectedComponent : String}
    {evidence : CyclonedxEvidence} :
    validateCyclonedx path file expectedComponent = .ok evidence ↔
      ∃ document version, file = .document (.obj document) ∧ IsCyclonedx document expectedComponent version ∧
        evidence = ⟨(componentNames document).card, canonicalName expectedComponent, version⟩ := by
  simp only [validateCyclonedx, bind_eq_ok, loadDocument_ok_iff, check_eq_ok, required_eq_ok, exists_const,
    Except.ok.injEq]
  constructor
  · rintro ⟨document, rfl, format, -, version, isVersion, isFirst, isSerial, named, several, rfl⟩
    obtain ⟨isText, supported⟩ := Option.filter_eq_some_iff.mp isVersion
    obtain ⟨serial, serialText, matched⟩ := (Option.any_eq_true _ _).mp isSerial
    obtain ⟨project, dependency⟩ := componentNames_iff.mp ⟨of_decide_eq_true named, by simpa using several⟩
    refine ⟨document, version, rfl, ?_, rfl⟩
    exact
      { format := Json.isText_iff.mp format
        specVersion := Json.asText_eq_some.mp isText
        supported := by simpa using supported
        version := isFirst
        serialNumber := ⟨serial, Json.asText_eq_some.mp serialText, matched⟩
        project := project
        dependency := dependency }
  · rintro ⟨document, version, rfl, isCyclonedx, rfl⟩
    obtain ⟨serial, isSerial, matched⟩ := isCyclonedx.serialNumber
    obtain ⟨named, several⟩ := componentNames_iff.mpr ⟨isCyclonedx.project, isCyclonedx.dependency⟩
    refine ⟨document, rfl, Json.isText_iff.mpr isCyclonedx.format, ?_, version, ?_, isCyclonedx.version, ?_,
      decide_eq_true named, by simpa using several, rfl⟩
    · simp [isCyclonedx.specVersion, isUnhashable]
    · simp [isCyclonedx.specVersion, Json.asText, Option.filter, isCyclonedx.supported]
    · simp [isSerial, Json.asText, matched]

/-! ### Vulnerability reports -/

def expectedGrypeVersion : String := "0.116.1"

/-- What `validate_grype_report` returns. -/
structure GrypeEvidence where
  matchCount : ℕ
  severities : List (String × ℕ)
  toolVersion : String
  deriving DecidableEq

/-- The severity of a match in lower case. -/
def severityOf : Json → Option String
  | .obj found => match get found "vulnerability" with
    | .obj vulnerability => (get vulnerability "severity").asText.map lower
    | _ => none
  | _ => none

/-- One turn of the loop over the matches, with the severities so far. -/
def countMatch (path : String) (severities : List String) (found : Json) : Except EvidenceFailure (List String) :=
  match found with
  | .obj _ => .ok (severities ++ (severityOf found).toList)
  | _ => evidenceError (path ++ ": every vulnerability match must be an object")

/-- `dict(sorted(severities.items()))` of a counter. -/
def severityCounts (severities : List String) : List (String × ℕ) :=
  (sorted severities.toFinset).map fun severity => (severity, severities.count severity)

/-- `validate_grype_report`. -/
def validateGrypeReport (path : String) (file : LoadedFile) (expectedImage : String) :
    Except EvidenceFailure GrypeEvidence := do
  let document ← loadDocument path file
  let invalid := fun message => EvidenceFailure.evidence ⟨path ++ ": " ++ message⟩
  let descriptor ← required (invalid "report descriptor must identify Grype") (get document "descriptor").asObject
  check (invalid "report descriptor must identify Grype") ((get descriptor "name").isText "grype")
  check (invalid ("Grype version must be " ++ expectedGrypeVersion ++ ", got " ++ Json.shown (get descriptor "version")))
    ((get descriptor "version").isText expectedGrypeVersion)
  let found ← required (invalid "report matches must be an array") (get document "matches").asList
  let source ← required (invalid "report source must be a container image") (get document "source").asObject
  check (invalid "report source must be a container image") ((get source "type").isText "image")
  let noTarget := invalid ("report target must identify " ++ TextRepr.quoted expectedImage)
  let target ← required noTarget (get source "target").asObject
  check noTarget (contains expectedImage (dumps none (.obj target)))
  let severities ← found.foldlM (countMatch path) []
  .ok ⟨found.length, severityCounts severities, expectedGrypeVersion⟩

omit [TextRepr] [PyRepr] in
/-- The loop counts the severities of the matches when all of them are objects. -/
theorem countMatches_ok_iff {path : String} {found : List Json} {start severities : List String} :
    found.foldlM (countMatch path) start = .ok severities ↔
      (∀ entry ∈ found, ∃ members, entry = .obj members) ∧ severities = start ++ found.filterMap severityOf := by
  induction found generalizing start with
  | nil =>
    show Except.ok start = .ok severities ↔ _
    simp [eq_comm]
  | cons first later ih =>
    rw [List.foldlM_cons, bind_eq_ok]
    simp only [ih, List.mem_cons, forall_eq_or_imp]
    have next : (severityOf first).toList ++ later.filterMap severityOf = (first :: later).filterMap severityOf := by
      cases isSeverity : severityOf first <;> simp [isSeverity]
    cases first with
    | obj members =>
      rw [← next, ← List.append_assoc]
      constructor
      · rintro ⟨_, ⟨⟩, objects, same⟩
        exact ⟨⟨⟨members, rfl⟩, objects⟩, same⟩
      · rintro ⟨⟨-, objects⟩, same⟩
        exact ⟨_, rfl, objects, same⟩
    | _ => simp [countMatch, evidenceError]

/-- **A report of the scanner about the image.** -/
structure IsGrypeReport (document : JsonObject) (expectedImage : String) (found : List Json) : Prop where
  descriptor : ∃ descriptor, get document "descriptor" = .obj descriptor ∧ get descriptor "name" = .str "grype" ∧
    get descriptor "version" = .str expectedGrypeVersion
  isMatches : get document "matches" = .arr found
  objects : ∀ entry ∈ found, ∃ members, entry = .obj members
  source : ∃ source, get document "source" = .obj source ∧ get source "type" = .str "image" ∧
    ∃ target, get source "target" = .obj target ∧ contains expectedImage (dumps none (.obj target)) = true

/-- **A report is accepted exactly when it is one of the scanner about the image**, with its severities counted. -/
theorem validateGrypeReport_ok_iff {path : String} {file : LoadedFile} {expectedImage : String} {evidence : GrypeEvidence} :
    validateGrypeReport path file expectedImage = .ok evidence ↔
      ∃ document found, file = .document (.obj document) ∧ IsGrypeReport document expectedImage found ∧
        evidence = ⟨found.length, severityCounts (found.filterMap severityOf), expectedGrypeVersion⟩ := by
  simp only [validateGrypeReport, bind_eq_ok, loadDocument_ok_iff, check_eq_ok, required_eq_ok, asObject_eq_some,
    asList_eq_some, Json.isText_iff, countMatches_ok_iff, exists_const, Except.ok.injEq]
  constructor
  · rintro ⟨document, rfl, descriptor, isDescriptor, named, versioned, found, isMatches, source, isSource, typed, target,
      isTarget, identified, severities, ⟨objects, rfl⟩, rfl⟩
    exact ⟨document, found, rfl, ⟨⟨descriptor, isDescriptor, named, versioned⟩, isMatches, objects,
      ⟨source, isSource, typed, target, isTarget, identified⟩⟩, rfl⟩
  · rintro ⟨document, found, rfl, ⟨⟨descriptor, isDescriptor, named, versioned⟩, isMatches, objects,
      ⟨source, isSource, typed, target, isTarget, identified⟩⟩, rfl⟩
    exact ⟨document, rfl, descriptor, isDescriptor, named, versioned, found, isMatches, source, isSource, typed, target,
      isTarget, identified, _, ⟨objects, rfl⟩, rfl⟩

/-! ### The script -/

/-- A file of evidence: where it is, and what loading it does. -/
structure EvidenceFile where
  path : String
  loaded : LoadedFile

/-- What `main` prints. -/
structure SecuritySummary where
  imageSbom : CyclonedxEvidence
  sourceSbom : CyclonedxEvidence
  vulnerabilities : GrypeEvidence
  deriving DecidableEq

/-- `main`, up to what it prints. -/
def validateSecurityEvidence (sourceSbom imageSbom report : EvidenceFile) (component image : String) :
    Except EvidenceFailure SecuritySummary := do
  let imageEvidence ← validateCyclonedx imageSbom.path imageSbom.loaded component
  let sourceEvidence ← validateCyclonedx sourceSbom.path sourceSbom.loaded component
  let vulnerabilities ← validateGrypeReport report.path report.loaded image
  .ok ⟨imageEvidence, sourceEvidence, vulnerabilities⟩

/-- What is found in a bill of materials that is accepted. -/
def cyclonedxEvidence (document : JsonObject) (component version : String) : CyclonedxEvidence :=
  ⟨(componentNames document).card, canonicalName component, version⟩

/-- **Evidence is validated exactly when both bills of materials name the project and something else, and the report is one
of the scanner about the image.** -/
theorem validateSecurityEvidence_ok_iff {sourceSbom imageSbom report : EvidenceFile} {component image : String}
    {summary : SecuritySummary} :
    validateSecurityEvidence sourceSbom imageSbom report component image = .ok summary ↔
      ∃ ofImage imageVersion ofSource sourceVersion ofReport found,
        imageSbom.loaded = .document (.obj ofImage) ∧ IsCyclonedx ofImage component imageVersion ∧
        sourceSbom.loaded = .document (.obj ofSource) ∧ IsCyclonedx ofSource component sourceVersion ∧
        report.loaded = .document (.obj ofReport) ∧ IsGrypeReport ofReport image found ∧
        summary = ⟨cyclonedxEvidence ofImage component imageVersion, cyclonedxEvidence ofSource component sourceVersion,
          ⟨found.length, severityCounts (found.filterMap severityOf), expectedGrypeVersion⟩⟩ := by
  simp only [validateSecurityEvidence, bind_eq_ok, validateCyclonedx_ok_iff, validateGrypeReport_ok_iff, Except.ok.injEq,
    cyclonedxEvidence]
  constructor
  · rintro ⟨_, ⟨ofImage, imageVersion, imageLoads, isImage, rfl⟩, _, ⟨ofSource, sourceVersion, sourceLoads, isSource, rfl⟩,
      _, ⟨ofReport, found, reportLoads, isReport, rfl⟩, rfl⟩
    exact ⟨ofImage, imageVersion, ofSource, sourceVersion, ofReport, found, imageLoads, isImage, sourceLoads, isSource,
      reportLoads, isReport, rfl⟩
  · rintro ⟨ofImage, imageVersion, ofSource, sourceVersion, ofReport, found, imageLoads, isImage, sourceLoads, isSource,
      reportLoads, isReport, rfl⟩
    exact ⟨_, ⟨ofImage, imageVersion, imageLoads, isImage, rfl⟩, _, ⟨ofSource, sourceVersion, sourceLoads, isSource, rfl⟩,
      _, ⟨ofReport, found, reportLoads, isReport, rfl⟩, rfl⟩

end Documents

end McpAuth
