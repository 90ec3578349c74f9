/-
**`enforce_vulnerability_policy.py` — actionable findings and their exceptions.**

A report lists matches, a policy document lists exceptions. `actionableFindings` folds the matches into the
keys with a fix and the keys without one, `exceptionRecords` folds the exceptions into records under distinct
keys, and `evaluateVulnerabilityPolicy` compares the two sets of keys.

`actionableFindings_ok` and `actionableFindings_total`: a report is read exactly when every match in it can be,
and what is collected are the keys of its actionable and of its unfixed matches, each once (`Tracks`).
-/

import McpAuth.Library.Fallible
import McpAuth.Library.JsonText
import McpAuth.Library.Multidict
import McpAuth.Library.PyDate

namespace McpAuth

open PyText JsonText PyDate

/-! ### Errors and documents -/

/-- Raised when evidence or an exception violates the vulnerability policy. -/
structure VulnerabilityPolicyError where
  message : String
  deriving DecidableEq

/-- What leaves a function of the script: the policy error, or another exception by its text. -/
inductive GateError
  | policy (error : VulnerabilityPolicyError)
  | uncaught (exception : String)
  deriving DecidableEq

/-- What `json.loads(path.read_text())` did: its value, the text of an `OSError` or `JSONDecodeError`, or
another exception. -/
inductive LoadedFile
  | document (value : Json)
  | invalid (exception : String)
  | raised (exception : String)

/-- `repr` of a string. -/
class TextRepr where
  quoted : String → String

/-- `raise VulnerabilityPolicyError(message)`. -/
def policyError {α : Type} (message : String) : Except GateError α := .error (.policy ⟨message⟩)

/-- `_load_object`. -/
def loadObject (path : String) : LoadedFile → Except GateError JsonObject
  | .invalid exception => policyError (path ++ ": invalid JSON: " ++ exception)
  | .raised exception => .error (.uncaught exception)
  | .document value => match value.asObject with
    | some document => .ok document
    | none => policyError (path ++ ": document must be an object")

/-- `_required_string`. -/
def requiredString (document : JsonObject) (field context : String) : Except GateError String :=
  match get document field with
  | .str value =>
    if strip value = "" then policyError (context ++ ": " ++ field ++ " must be a non-empty string")
    else .ok (strip value)
  | _ => policyError (context ++ ": " ++ field ++ " must be a non-empty string")

/-! ### Findings -/

/-- Stable identity for one vulnerability finding in one installed artifact. -/
structure FindingKey where
  vulnerabilityId : String
  nameSpace : String
  package : String
  packageType : String
  installedVersion : String
  deriving DecidableEq

/-- The fields as a tuple, which is how keys compare. -/
def FindingKey.fields (key : FindingKey) : String ×ₗ String ×ₗ String ×ₗ String ×ₗ String :=
  toLex (key.vulnerabilityId, toLex (key.nameSpace, toLex (key.package,
    toLex (key.packageType, key.installedVersion))))

theorem FindingKey.fields_injective : Function.Injective FindingKey.fields := by
  intro first second same
  cases first
  cases second
  simp only [FindingKey.fields, EmbeddingLike.apply_eq_iff_eq, Prod.mk.injEq] at same
  obtain ⟨rfl, rfl, rfl, rfl, rfl⟩ := same
  rfl

instance : LinearOrder FindingKey := LinearOrder.lift' FindingKey.fields FindingKey.fields_injective

instance FindingKey.isTrans : IsTrans FindingKey (· ≤ ·) := inferInstance

instance FindingKey.antisymm : Std.Antisymm fun first second : FindingKey => first ≤ second := inferInstance

/-- `_finding_key`. -/
def findingKey (found : JsonObject) (context : String) : Except GateError FindingKey :=
  match get found "vulnerability", get found "artifact" with
  | .obj vulnerability, .obj artifact => do
    let vulnerabilityId ← requiredString vulnerability "id" context
    let nameSpace ← requiredString vulnerability "namespace" context
    let package ← requiredString artifact "name" context
    let packageType ← requiredString artifact "type" context
    let installedVersion ← requiredString artifact "version" context
    .ok ⟨vulnerabilityId, nameSpace, package, packageType, installedVersion⟩
  | _, _ => policyError (context ++ ": finding requires vulnerability and artifact")

def blockingSeverities : List String := ["critical", "high"]

/-- `isinstance(severity, str) and severity.lower() in BLOCKING_SEVERITIES`. -/
def isBlocking [UnicodeTables] (vulnerability : JsonObject) : Bool :=
  match get vulnerability "severity" with
  | .str severity => blockingSeverities.contains (lower severity)
  | _ => false

/-- `isinstance(version, str) and version.strip()`. -/
def isVersion : Json → Bool
  | .str version => strip version != ""
  | _ => false

/-- `has_fix`. -/
def hasFix (vulnerability : JsonObject) : Bool :=
  match get vulnerability "fix" with
  | .obj fix => match get fix "versions" with
    | .arr versions => versions.any isVersion
    | _ => false
  | _ => false

/-- `actionable`, a dictionary of matches, and `unfixed`, a set of keys. -/
abbrev Findings := List (FindingKey × JsonObject) × Finset FindingKey

/-- `f"{path}: {array}[{index}]"`. -/
def elementContext (path array : String) (index : ℕ) : String :=
  path ++ ": " ++ array ++ "[" ++ toString index ++ "]"

section Findings

variable [UnicodeTables]

/-- One turn of the loop over the matches. -/
def collectMatch (reportPath : String) (findings : Findings) (rawMatch : Json) (index : ℕ) :
    Except GateError Findings :=
  let context := elementContext reportPath "matches" index
  match rawMatch with
  | .obj found => match get found "vulnerability" with
    | .obj vulnerability =>
      if isBlocking vulnerability then do
        let key ← findingKey found context
        if hasFix vulnerability then .ok (Multidict.put Prod.fst (key, found) findings.1, findings.2)
        else .ok (findings.1, insert key findings.2)
      else .ok findings
    | _ => policyError (context ++ ": vulnerability must be an object")
  | _ => policyError (context ++ ": finding must be an object")

/-- The loop over the matches. -/
def collectMatches (reportPath : String) : ℕ → List Json → Findings → Except GateError Findings
  | _, [], findings => .ok findings
  | index, rawMatch :: later, findings => do
    let findings ← collectMatch reportPath findings rawMatch index
    collectMatches reportPath (index + 1) later findings

/-- `_actionable_findings`. -/
def actionableFindings (reportPath : String) (report : LoadedFile) : Except GateError Findings := do
  let report ← loadObject reportPath report
  match get report "matches" with
  | .arr matches' => collectMatches reportPath 0 matches' ([], ∅)
  | _ => policyError (reportPath ++ ": matches must be an array")

end Findings

/-! ### Exceptions -/

def expectedPolicySchemaVersion : String := "1.0"

def maxExceptionWindowDays : ℤ := 90

def requiredExceptionFields : Finset String :=
  {"expires_on", "installed_version", "namespace", "owner", "package", "package_type", "reason", "removal_plan",
    "reviewed_on", "vulnerability_id"}

/-- Validated metadata for one time-bounded exception. -/
structure ExceptionRecord where
  key : FindingKey
  expiresOn : Date
  deriving DecidableEq

/-- `_parse_policy_date`. -/
def parsePolicyDate (value context field : String) : Except GateError Date :=
  match Date.fromIsoFormat value with
  | some date => .ok date
  | none => policyError (context ++ ": " ++ field ++ " must use YYYY-MM-DD")

/-- `(last - first).days`. -/
def daysBetween (first last : Date) : ℤ := last.toOrdinal - first.toOrdinal

section Exceptions

variable [TextRepr]

/-- `repr` of a sorted list of strings. -/
def listRepr (values : List String) : String :=
  "[" ++ ", ".intercalate (values.map TextRepr.quoted) ++ "]"

/-- `repr` of a key. -/
def FindingKey.repr (key : FindingKey) : String :=
  "FindingKey(vulnerability_id=" ++ TextRepr.quoted key.vulnerabilityId ++
    ", namespace=" ++ TextRepr.quoted key.nameSpace ++ ", package=" ++ TextRepr.quoted key.package ++
    ", package_type=" ++ TextRepr.quoted key.packageType ++
    ", installed_version=" ++ TextRepr.quoted key.installedVersion ++ ")"

/-- The fields of an exception besides its key. -/
def checkReview (exception : JsonObject) (context : String) : Except GateError (Date × Date) := do
  let _ ← requiredString exception "owner" context
  let reason ← requiredString exception "reason" context
  let removalPlan ← requiredString exception "removal_plan" context
  if reason.length < 40 ∨ removalPlan.length < 40 then
    policyError (context ++ ": reason and removal_plan must document meaningful review context")
  else do
    let reviewedText ← requiredString exception "reviewed_on" context
    let reviewedOn ← parsePolicyDate reviewedText context "reviewed_on"
    let expiresText ← requiredString exception "expires_on" context
    let expiresOn ← parsePolicyDate expiresText context "expires_on"
    .ok (reviewedOn, expiresOn)

/-- The window of an exception. -/
def checkWindow (reviewedOn expiresOn effectiveDate : Date) (context : String) : Except GateError Unit :=
  if effectiveDate < reviewedOn then policyError (context ++ ": reviewed_on cannot be in the future")
  else if expiresOn < effectiveDate then
    policyError (context ++ ": exception expired on " ++ expiresOn.isoFormat)
  else if daysBetween reviewedOn expiresOn ≤ 0 ∨ maxExceptionWindowDays < daysBetween reviewedOn expiresOn then
    policyError (context ++ ": exception window must be between 1 and 90 days")
  else .ok ()

/-- The key of an exception. -/
def exceptionKey (exception : JsonObject) (context : String) : Except GateError FindingKey := do
  let vulnerabilityId ← requiredString exception "vulnerability_id" context
  let nameSpace ← requiredString exception "namespace" context
  let package ← requiredString exception "package" context
  let packageType ← requiredString exception "package_type" context
  let installedVersion ← requiredString exception "installed_version" context
  .ok ⟨vulnerabilityId, nameSpace, package, packageType, installedVersion⟩

/-- One turn of the loop over the exceptions. -/
def collectException (policyPath : String) (effectiveDate : Date) (records : List (FindingKey × ExceptionRecord))
    (rawException : Json) (index : ℕ) : Except GateError (List (FindingKey × ExceptionRecord)) :=
  let context := elementContext policyPath "exceptions" index
  match rawException with
  | .obj exception =>
    let actualFields := (exception.map Prod.fst).toFinset
    if actualFields ≠ requiredExceptionFields then
      policyError (context ++ ": invalid fields; missing=" ++
        listRepr (sorted (requiredExceptionFields \ actualFields)) ++ ", unexpected=" ++
        listRepr (sorted (actualFields \ requiredExceptionFields)))
    else do
      let key ← exceptionKey exception context
      let (reviewedOn, expiresOn) ← checkReview exception context
      checkWindow reviewedOn expiresOn effectiveDate context
      if key ∈ records.map Prod.fst then policyError (context ++ ": duplicate exception for " ++ key.repr)
      else .ok (Multidict.put Prod.fst (key, ⟨key, expiresOn⟩) records)
  | _ => policyError (context ++ ": exception must be an object")

/-- The loop over the exceptions. -/
def collectExceptions (policyPath : String) (effectiveDate : Date) :
    ℕ → List Json → List (FindingKey × ExceptionRecord) → Except GateError (List (FindingKey × ExceptionRecord))
  | _, [], records => .ok records
  | index, rawException :: later, records => do
    let records ← collectException policyPath effectiveDate records rawException index
    collectExceptions policyPath effectiveDate (index + 1) later records

/-- `_exception_records`. -/
def exceptionRecords (policyPath : String) (policy : LoadedFile) (effectiveDate : Date) :
    Except GateError (List (FindingKey × ExceptionRecord)) := do
  let policy ← loadObject policyPath policy
  if !(get policy "schema_version").isText expectedPolicySchemaVersion then
    policyError (policyPath ++ ": schema_version must be " ++ expectedPolicySchemaVersion)
  else match get policy "exceptions" with
    | .arr rawExceptions => collectExceptions policyPath effectiveDate 0 rawExceptions []
    | _ => policyError (policyPath ++ ": exceptions must be an array")

end Exceptions

/-! ### What is accepted -/

/-- A field with text other than whitespace; what counts is the text without the whitespace around it. -/
def Holds (document : JsonObject) (field text : String) : Prop :=
  ∃ value, get document field = .str value ∧ strip value = text ∧ text ≠ ""

/-- The five texts of a key. -/
structure HasKey (vulnerability artifact : JsonObject) (key : FindingKey) : Prop where
  vulnerabilityId : Holds vulnerability "id" key.vulnerabilityId
  nameSpace : Holds vulnerability "namespace" key.nameSpace
  package : Holds artifact "name" key.package
  packageType : Holds artifact "type" key.packageType
  installedVersion : Holds artifact "version" key.installedVersion

theorem Holds.unique {document : JsonObject} {field text text' : String} (holds : Holds document field text)
    (holds' : Holds document field text') : text = text' := by
  obtain ⟨value, isValue, stripped, -⟩ := holds
  obtain ⟨value', isValue', stripped', -⟩ := holds'
  rw [isValue, Json.str.injEq] at isValue'
  rw [← stripped, ← stripped', isValue']

theorem requiredString_ok_iff {document : JsonObject} {field context text : String} :
    requiredString document field context = .ok text ↔ Holds document field text := by
  unfold requiredString Holds
  constructor
  · intro yields
    split at yields
    · rename_i value isValue
      split at yields
      · cases yields
      · rename_i nonblank
        cases yields
        exact ⟨value, isValue, rfl, nonblank⟩
    · cases yields
  · rintro ⟨value, isValue, rfl, nonblank⟩
    simp only [isValue]
    rw [if_neg nonblank]

theorem loadObject_ok_iff {path : String} {file : LoadedFile} {document : JsonObject} :
    loadObject path file = .ok document ↔ file = .document (.obj document) := by
  cases file with
  | document value => cases value <;> simp [loadObject, Json.asObject, policyError]
  | invalid exception => simp [loadObject, policyError]
  | raised exception => simp [loadObject]

theorem HasKey.unique {vulnerability artifact : JsonObject} {key key' : FindingKey}
    (hasKey : HasKey vulnerability artifact key) (hasKey' : HasKey vulnerability artifact key') : key = key' := by
  apply FindingKey.fields_injective
  simp only [FindingKey.fields]
  rw [hasKey.vulnerabilityId.unique hasKey'.vulnerabilityId, hasKey.nameSpace.unique hasKey'.nameSpace,
    hasKey.package.unique hasKey'.package, hasKey.packageType.unique hasKey'.packageType,
    hasKey.installedVersion.unique hasKey'.installedVersion]

/-- The vulnerability and the artifact of a match. -/
def Describes (found : JsonObject) (vulnerability artifact : JsonObject) : Prop :=
  get found "vulnerability" = .obj vulnerability ∧ get found "artifact" = .obj artifact

theorem findingKey_ok_iff {found : JsonObject} {context : String} {key : FindingKey} :
    findingKey found context = .ok key ↔
      ∃ vulnerability artifact, Describes found vulnerability artifact ∧ HasKey vulnerability artifact key := by
  unfold findingKey Describes
  constructor
  · intro yields
    split at yields
    · rename_i vulnerability artifact isVulnerability isArtifact
      simp only [Fallible.bind_eq_ok, requiredString_ok_iff] at yields
      obtain ⟨_, id, _, nameSpace, _, name, _, type, _, version, built⟩ := yields
      cases built
      exact ⟨vulnerability, artifact, ⟨isVulnerability, isArtifact⟩, id, nameSpace, name, type, version⟩
    · cases yields
  · rintro ⟨vulnerability, artifact, ⟨isVulnerability, isArtifact⟩, hasKey⟩
    simp only [isVulnerability, isArtifact, Fallible.bind_eq_ok, requiredString_ok_iff]
    exact ⟨_, hasKey.vulnerabilityId, _, hasKey.nameSpace, _, hasKey.package, _, hasKey.packageType, _,
      hasKey.installedVersion, rfl⟩

/-- A version that is not blank. -/
theorem isVersion_iff {value : Json} : isVersion value = true ↔ ∃ version, value = .str version ∧ strip version ≠ "" := by
  cases value <;> simp [isVersion]

/-- The fix lists a version that is not blank. -/
def Fixed (vulnerability : JsonObject) : Prop :=
  ∃ fix versions version, get vulnerability "fix" = .obj fix ∧ get fix "versions" = .arr versions ∧
    Json.str version ∈ versions ∧ strip version ≠ ""

theorem hasFix_iff {vulnerability : JsonObject} : hasFix vulnerability = true ↔ Fixed vulnerability := by
  unfold hasFix Fixed
  constructor
  · intro found
    split at found
    · rename_i fix isFix
      split at found
      · rename_i versions isVersions
        obtain ⟨value, member, isVersion⟩ := List.any_eq_true.mp found
        obtain ⟨version, rfl, nonblank⟩ := isVersion_iff.mp isVersion
        exact ⟨fix, versions, version, isFix, isVersions, member, nonblank⟩
      · cases found
    · cases found
  · rintro ⟨fix, versions, version, isFix, isVersions, member, nonblank⟩
    simp only [isFix, isVersions]
    exact List.any_eq_true.mpr ⟨_, member, isVersion_iff.mpr ⟨version, rfl, nonblank⟩⟩

section Matches

variable [UnicodeTables]

/-- The severity is high or critical in some letter case. -/
def Blocking (vulnerability : JsonObject) : Prop :=
  ∃ severity, get vulnerability "severity" = .str severity ∧
    (lower severity = "critical" ∨ lower severity = "high")

theorem isBlocking_iff {vulnerability : JsonObject} : isBlocking vulnerability = true ↔ Blocking vulnerability := by
  unfold isBlocking Blocking
  cases get vulnerability "severity" <;> simp [blockingSeverities]

/-- A match with a blocking severity, its vulnerability and its key. -/
def Blocked (rawMatch : Json) (vulnerability : JsonObject) (key : FindingKey) : Prop :=
  ∃ found artifact, rawMatch = .obj found ∧ Describes found vulnerability artifact ∧ Blocking vulnerability ∧
    HasKey vulnerability artifact key

/-- A high or critical match with a fix. -/
def Actionable (rawMatch : Json) (key : FindingKey) : Prop :=
  ∃ vulnerability, Blocked rawMatch vulnerability key ∧ Fixed vulnerability

/-- A high or critical match without a fix. -/
def Unfixed (rawMatch : Json) (key : FindingKey) : Prop :=
  ∃ vulnerability, Blocked rawMatch vulnerability key ∧ ¬ Fixed vulnerability

/-- A match that can be read: it has a vulnerability, and a key where it blocks. -/
def WellFormedMatch (rawMatch : Json) : Prop :=
  ∃ found vulnerability, rawMatch = .obj found ∧ get found "vulnerability" = .obj vulnerability ∧
    (Blocking vulnerability → ∃ key, Blocked rawMatch vulnerability key)

/-- What a loop turn does with a match. -/
inductive Collected (findings : Findings) (rawMatch : Json) : Findings → Prop
  | passed {found vulnerability : JsonObject} : rawMatch = .obj found →
      get found "vulnerability" = .obj vulnerability → ¬ Blocking vulnerability →
      Collected findings rawMatch findings
  | actionable {found vulnerability : JsonObject} {key : FindingKey} : Blocked rawMatch vulnerability key →
      Fixed vulnerability → Collected findings rawMatch (Multidict.put Prod.fst (key, found) findings.1, findings.2)
  | unfixed {vulnerability : JsonObject} {key : FindingKey} : Blocked rawMatch vulnerability key →
      ¬ Fixed vulnerability → Collected findings rawMatch (findings.1, insert key findings.2)

/-- **What one turn does**: the match passes, or its key joins the actionable or the unfixed ones. -/
theorem collectMatch_collected {reportPath : String} {findings findings' : Findings} {rawMatch : Json} {index : ℕ}
    (collects : collectMatch reportPath findings rawMatch index = .ok findings') :
    Collected findings rawMatch findings' := by
  unfold collectMatch at collects
  split at collects
  · rename_i found
    split at collects
    · rename_i vulnerability isVulnerability
      split at collects
      · rename_i blocking
        obtain ⟨key, isKey, collects⟩ := Fallible.bind_eq_ok.mp collects
        obtain ⟨vulnerability', artifact, describes, hasKey⟩ := findingKey_ok_iff.mp isKey
        obtain rfl : vulnerability = vulnerability' := by
          have same := describes.1
          rwa [isVulnerability, Json.obj.injEq] at same
        have blocked : Blocked (.obj found) vulnerability key :=
          ⟨found, artifact, rfl, describes, isBlocking_iff.mp blocking, hasKey⟩
        split at collects
        · rename_i fixed
          cases collects
          exact .actionable blocked (hasFix_iff.mp fixed)
        · rename_i notFixed
          cases collects
          exact .unfixed blocked (mt hasFix_iff.mpr notFixed)
      · rename_i notBlocking
        cases collects
        exact .passed rfl isVulnerability (mt isBlocking_iff.mpr notBlocking)
    · cases collects
  · cases collects

/-- **A match is collected exactly when it can be read.** -/
theorem collectMatch_total {reportPath : String} {findings : Findings} {rawMatch : Json} {index : ℕ} :
    (∃ findings', collectMatch reportPath findings rawMatch index = .ok findings') ↔ WellFormedMatch rawMatch := by
  constructor
  · rintro ⟨findings', collects⟩
    cases collectMatch_collected collects with
    | passed isMatch isVulnerability notBlocking =>
      exact ⟨_, _, isMatch, isVulnerability, fun blocking => absurd blocking notBlocking⟩
    | actionable blocked _ =>
      obtain ⟨found, _, isMatch, describes, -⟩ := id blocked
      exact ⟨found, _, isMatch, describes.1, fun _ => ⟨_, blocked⟩⟩
    | unfixed blocked _ =>
      obtain ⟨found, _, isMatch, describes, -⟩ := id blocked
      exact ⟨found, _, isMatch, describes.1, fun _ => ⟨_, blocked⟩⟩
  · rintro ⟨found, vulnerability, rfl, isVulnerability, keyed⟩
    unfold collectMatch
    simp only [isVulnerability]
    by_cases blocking : isBlocking vulnerability = true
    · obtain ⟨key, _, artifact, same, describes, -, hasKey⟩ := keyed (isBlocking_iff.mp blocking)
      cases same
      have isKey : findingKey found (elementContext reportPath "matches" index) = .ok key :=
        findingKey_ok_iff.mpr ⟨vulnerability, artifact, describes, hasKey⟩
      rw [if_pos blocking, isKey]
      by_cases fixed : hasFix vulnerability = true
      · exact ⟨_, if_pos fixed⟩
      · exact ⟨_, if_neg fixed⟩
    · exact ⟨_, if_neg blocking⟩

/-- **What is collected of the matches seen**: their keys, each once. -/
structure Tracks (seen : List Json) (findings : Findings) : Prop where
  actionable : ∀ key, key ∈ findings.1.map Prod.fst ↔ ∃ rawMatch ∈ seen, Actionable rawMatch key
  unique : (findings.1.map Prod.fst).Nodup
  unfixed : ∀ key, key ∈ findings.2 ↔ ∃ rawMatch ∈ seen, Unfixed rawMatch key

theorem Blocked.unique {rawMatch : Json} {vulnerability vulnerability' : JsonObject} {key key' : FindingKey}
    (blocked : Blocked rawMatch vulnerability key) (blocked' : Blocked rawMatch vulnerability' key') :
    vulnerability = vulnerability' ∧ key = key' := by
  obtain ⟨found, artifact, rfl, describes, -, hasKey⟩ := blocked
  obtain ⟨_, artifact', same, describes', -, hasKey'⟩ := blocked'
  cases same
  have sameVulnerability := describes.1.symm.trans describes'.1
  have sameArtifact := describes.2.symm.trans describes'.2
  rw [Json.obj.injEq] at sameVulnerability sameArtifact
  subst sameVulnerability sameArtifact
  exact ⟨rfl, hasKey.unique hasKey'⟩

omit [UnicodeTables] in
/-- What one more match adds to what is found among the matches seen. -/
theorem exists_append_singleton {seen : List Json} {rawMatch : Json} {finds : Json → Prop} :
    (∃ candidate ∈ seen ++ [rawMatch], finds candidate) ↔ finds rawMatch ∨ ∃ candidate ∈ seen, finds candidate := by
  simp only [List.mem_append, List.mem_singleton, or_and_right, exists_or, exists_eq_left]
  exact Or.comm

/-- **One turn keeps track.** -/
theorem Tracks.collected {seen : List Json} {findings findings' : Findings} {rawMatch : Json}
    (tracks : Tracks seen findings) (collected : Collected findings rawMatch findings') :
    Tracks (seen ++ [rawMatch]) findings' := by
  cases collected with
  | @passed found vulnerability isMatch isVulnerability notBlocking =>
    have passes : ∀ vulnerability key, ¬ Blocked rawMatch vulnerability key := by
      rintro vulnerability' key ⟨found', artifact, isMatch', describes, blocking, -⟩
      rw [isMatch, Json.obj.injEq] at isMatch'
      subst isMatch'
      have same := describes.1
      rw [isVulnerability, Json.obj.injEq] at same
      exact notBlocking (same ▸ blocking)
    refine ⟨fun key => ?_, tracks.unique, fun key => ?_⟩
    · rw [exists_append_singleton, tracks.actionable key, or_iff_right]
      rintro ⟨_, blocked, -⟩
      exact passes _ _ blocked
    · rw [exists_append_singleton, tracks.unfixed key, or_iff_right]
      rintro ⟨_, blocked, -⟩
      exact passes _ _ blocked
  | @actionable found vulnerability key blocked fixed =>
    refine ⟨fun other => ?_, Multidict.nodup_map_put tracks.unique, fun other => ?_⟩
    · rw [exists_append_singleton, Multidict.mem_map_put, tracks.actionable other]
      refine or_congr_left ⟨?_, ?_⟩
      · rintro rfl
        exact ⟨vulnerability, blocked, fixed⟩
      · rintro ⟨_, blocked', -⟩
        exact (blocked'.unique blocked).2
    · rw [exists_append_singleton, tracks.unfixed other, or_iff_right]
      rintro ⟨_, blocked', notFixed⟩
      obtain ⟨rfl, -⟩ := blocked'.unique blocked
      exact notFixed fixed
  | @unfixed vulnerability key blocked notFixed =>
    refine ⟨fun other => ?_, tracks.unique, fun other => ?_⟩
    · rw [exists_append_singleton, tracks.actionable other, or_iff_right]
      rintro ⟨_, blocked', fixed⟩
      obtain ⟨rfl, -⟩ := blocked'.unique blocked
      exact notFixed fixed
    · rw [exists_append_singleton, Finset.mem_insert, tracks.unfixed other]
      refine or_congr_left ⟨?_, ?_⟩
      · rintro rfl
        exact ⟨vulnerability, blocked, notFixed⟩
      · rintro ⟨_, blocked', -⟩
        exact (blocked'.unique blocked).2

/-- **The whole loop keeps track.** -/
theorem Tracks.run {reportPath : String} {index : ℕ} {seen later : List Json} {findings result : Findings}
    (tracks : Tracks seen findings) (collects : collectMatches reportPath index later findings = .ok result) :
    Tracks (seen ++ later) result := by
  induction later generalizing index seen findings with
  | nil =>
    cases collects
    rwa [List.append_nil]
  | cons rawMatch later ih =>
    obtain ⟨findings', first, rest⟩ := Fallible.bind_eq_ok.mp collects
    have := ih (tracks.collected (collectMatch_collected first)) rest
    rwa [List.append_assoc] at this

theorem collectMatches_total {reportPath : String} {index : ℕ} {rawMatches : List Json} {findings : Findings} :
    (∃ result, collectMatches reportPath index rawMatches findings = .ok result) ↔
      ∀ rawMatch ∈ rawMatches, WellFormedMatch rawMatch := by
  induction rawMatches generalizing index findings with
  | nil => exact iff_of_true ⟨findings, rfl⟩ (by simp)
  | cons rawMatch later ih =>
    rw [List.forall_mem_cons]
    constructor
    · rintro ⟨result, collects⟩
      obtain ⟨findings', first, rest⟩ := Fallible.bind_eq_ok.mp collects
      exact ⟨collectMatch_total.mp ⟨findings', first⟩, ih.mp ⟨result, rest⟩⟩
    · rintro ⟨readable, others⟩
      obtain ⟨findings', first⟩ := collectMatch_total.mpr readable
      obtain ⟨result, rest⟩ := ih.mpr others
      exact ⟨result, Fallible.bind_eq_ok.mpr ⟨findings', first, rest⟩⟩

/-- The matches of a report. -/
def ReportOf (report : LoadedFile) (rawMatches : List Json) : Prop :=
  ∃ document, report = .document (.obj document) ∧ get document "matches" = .arr rawMatches

omit [UnicodeTables] in
theorem ReportOf.unique {report : LoadedFile} {rawMatches rawMatches' : List Json}
    (isReport : ReportOf report rawMatches) (isReport' : ReportOf report rawMatches') : rawMatches = rawMatches' := by
  obtain ⟨document, rfl, isMatches⟩ := isReport
  obtain ⟨_, same, isMatches'⟩ := isReport'
  cases same
  exact Json.arr.inj (isMatches.symm.trans isMatches')

/-- **What is found in a report.** -/
theorem actionableFindings_ok {reportPath : String} {report : LoadedFile} {findings : Findings}
    (found : actionableFindings reportPath report = .ok findings) :
    ∃ rawMatches, ReportOf report rawMatches ∧ (∀ rawMatch ∈ rawMatches, WellFormedMatch rawMatch) ∧
      Tracks rawMatches findings := by
  obtain ⟨document, loaded, collects⟩ := Fallible.bind_eq_ok.mp found
  split at collects
  · rename_i rawMatches isMatches
    have empty : Tracks [] ([], ∅) := ⟨by simp, List.nodup_nil, by simp⟩
    exact ⟨rawMatches, ⟨document, loadObject_ok_iff.mp loaded, isMatches⟩,
      collectMatches_total.mp ⟨findings, collects⟩, empty.run collects⟩
  · cases collects

/-- A readable report is read. -/
theorem actionableFindings_total {reportPath : String} {report : LoadedFile} {rawMatches : List Json}
    (isReport : ReportOf report rawMatches) (readable : ∀ rawMatch ∈ rawMatches, WellFormedMatch rawMatch) :
    ∃ findings, actionableFindings reportPath report = .ok findings := by
  obtain ⟨document, loaded, isMatches⟩ := isReport
  obtain ⟨findings, collects⟩ := collectMatches_total.mpr readable
  refine ⟨findings, Fallible.bind_eq_ok.mpr ⟨document, loadObject_ok_iff.mpr loaded, ?_⟩⟩
  simp only [isMatches]
  exact collects

end Matches

/-! ### The verdict -/

/-- `_finding_label`. -/
def findingLabel (key : FindingKey) : String :=
  key.vulnerabilityId ++ " (" ++ key.nameSpace ++ ") on " ++ key.package ++ " " ++ key.installedVersion ++
    " [" ++ key.packageType ++ "]"

/-- One entry of `approved_exceptions`. -/
structure ApprovedException where
  expiresOn : String
  installedVersion : String
  package : String
  vulnerabilityId : String
  deriving DecidableEq

/-- The returned summary. -/
structure GateSummary where
  actionableFindings : ℕ
  approvedExceptions : List ApprovedException
  effectiveDate : String
  status : String
  unfixedHighCriticalFindings : ℕ
  deriving DecidableEq

/-- `sorted(set(first) - set(second))` of two dictionaries. -/
def missingKeys {α β : Type} (first : List (FindingKey × α)) (second : List (FindingKey × β)) :
    List FindingKey :=
  ((first.map Prod.fst).toFinset \ (second.map Prod.fst).toFinset).sort (· ≤ ·)

/-- The entry of one approved key. -/
def approve (exceptions : List (FindingKey × ExceptionRecord)) (key : FindingKey) :
    Except GateError ApprovedException :=
  match exceptions.lookup key with
  | some record => .ok ⟨record.expiresOn.isoFormat, key.installedVersion, key.package, key.vulnerabilityId⟩
  | none => .error (.uncaught "KeyError")

/-- `evaluate_vulnerability_policy`. -/
def evaluateVulnerabilityPolicy [UnicodeTables] [TextRepr] (reportPath policyPath : String)
    (report policy : LoadedFile) (today : Date) : Except GateError GateSummary := do
  let (actionable, unfixed) ← actionableFindings reportPath report
  let exceptions ← exceptionRecords policyPath policy today
  let unapproved := missingKeys actionable exceptions
  let stale := missingKeys exceptions actionable
  let errors := unapproved.map (fun key => "unapproved actionable finding: " ++ findingLabel key) ++
    stale.map fun key => "stale exception no longer matches evidence: " ++ findingLabel key
  if errors ≠ [] then policyError ("; ".intercalate errors)
  else do
    let approved ← ((actionable.map Prod.fst).toFinset.sort (· ≤ ·)).mapM (approve exceptions)
    .ok ⟨actionable.length, approved, today.isoFormat, "passed", unfixed.card⟩

end McpAuth
