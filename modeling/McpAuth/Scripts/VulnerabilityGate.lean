/-
**The vulnerability gate passes exactly when findings and live exceptions match one to one.**

`exceptionRecords_ok_iff`: the records of a policy are those of its exceptions, in order, when each is
reviewed and live and no two share a key. `evaluate_ok_iff` puts them beside the findings of the report.

`gate_exact` is the result: which documents pass on which date, that the summary depends on the set of
matches and the set of exceptions alone, and that the passing dates are an interval of at most 91 days.
-/

import McpAuth.Library.Rearrangement
import McpAuth.Scripts.VulnerabilityPolicy

namespace McpAuth

open PyText JsonText PyDate

/-! ### Reviewed exceptions -/

/-- What an exception says: its key and its window. -/
structure Review where
  key : FindingKey
  reviewedOn : Date
  expiresOn : Date

/-- The record of a review. -/
def Review.record (review : Review) : FindingKey × ExceptionRecord := (review.key, ⟨review.key, review.expiresOn⟩)

/-- The fields of an exception, exactly the required ones, with text in each of them. -/
structure ReviewFields (exception : JsonObject) (review : Review) : Prop where
  fields : ∀ name, name ∈ exception.map Prod.fst ↔ name ∈ requiredExceptionFields
  vulnerabilityId : Holds exception "vulnerability_id" review.key.vulnerabilityId
  nameSpace : Holds exception "namespace" review.key.nameSpace
  package : Holds exception "package" review.key.package
  packageType : Holds exception "package_type" review.key.packageType
  installedVersion : Holds exception "installed_version" review.key.installedVersion
  owner : ∃ text, Holds exception "owner" text
  reason : ∃ text, Holds exception "reason" text ∧ 40 ≤ text.length
  removalPlan : ∃ text, Holds exception "removal_plan" text ∧ 40 ≤ text.length
  reviewedOn : ∃ text, Holds exception "reviewed_on" text ∧ Date.fromIsoFormat text = some review.reviewedOn
  expiresOn : ∃ text, Holds exception "expires_on" text ∧ Date.fromIsoFormat text = some review.expiresOn

/-- An exception of the document with its review. -/
def Reviewed (rawException : Json) (review : Review) : Prop :=
  ∃ exception, rawException = .obj exception ∧ ReviewFields exception review

/-- The window is 1 to 90 days long and holds the date. -/
structure Live (review : Review) (today : Date) : Prop where
  reviewed : review.reviewedOn ≤ today
  unexpired : today ≤ review.expiresOn
  positive : 1 ≤ daysBetween review.reviewedOn review.expiresOn
  bounded : daysBetween review.reviewedOn review.expiresOn ≤ 90

theorem ReviewFields.unique {exception : JsonObject} {review review' : Review}
    (fields : ReviewFields exception review) (fields' : ReviewFields exception review') : review = review' := by
  obtain ⟨reviewed, holdsReviewed, isReviewed⟩ := fields.reviewedOn
  obtain ⟨_, holdsReviewed', isReviewed'⟩ := fields'.reviewedOn
  obtain ⟨expires, holdsExpires, isExpires⟩ := fields.expiresOn
  obtain ⟨_, holdsExpires', isExpires'⟩ := fields'.expiresOn
  rw [← holdsReviewed.unique holdsReviewed', isReviewed, Option.some.injEq] at isReviewed'
  rw [← holdsExpires.unique holdsExpires', isExpires, Option.some.injEq] at isExpires'
  have sameKey : review.key = review'.key := by
    apply FindingKey.fields_injective
    simp only [FindingKey.fields]
    rw [fields.vulnerabilityId.unique fields'.vulnerabilityId, fields.nameSpace.unique fields'.nameSpace,
      fields.package.unique fields'.package, fields.packageType.unique fields'.packageType,
      fields.installedVersion.unique fields'.installedVersion]
  obtain ⟨key, reviewedOn, expiresOn⟩ := review
  obtain ⟨key', reviewedOn', expiresOn'⟩ := review'
  dsimp only at sameKey isReviewed' isExpires'
  rw [sameKey, isReviewed', isExpires']

theorem Reviewed.unique {rawException : Json} {review review' : Review} (reviewed : Reviewed rawException review)
    (reviewed' : Reviewed rawException review') : review = review' := by
  obtain ⟨exception, rfl, fields⟩ := reviewed
  obtain ⟨_, same, fields'⟩ := reviewed'
  cases same
  exact fields.unique fields'

section Records

theorem exceptionKey_ok_iff {exception : JsonObject} {context : String} {key : FindingKey} :
    exceptionKey exception context = .ok key ↔
      Holds exception "vulnerability_id" key.vulnerabilityId ∧ Holds exception "namespace" key.nameSpace ∧
        Holds exception "package" key.package ∧ Holds exception "package_type" key.packageType ∧
        Holds exception "installed_version" key.installedVersion := by
  unfold exceptionKey
  simp only [Fallible.bind_eq_ok, requiredString_ok_iff]
  constructor
  · rintro ⟨_, id, _, nameSpace, _, package, _, type, _, version, built⟩
    cases built
    exact ⟨id, nameSpace, package, type, version⟩
  · rintro ⟨id, nameSpace, package, type, version⟩
    exact ⟨_, id, _, nameSpace, _, package, _, type, _, version, rfl⟩

theorem parsePolicyDate_ok_iff {value context field : String} {date : Date} :
    parsePolicyDate value context field = .ok date ↔ Date.fromIsoFormat value = some date := by
  unfold parsePolicyDate
  cases Date.fromIsoFormat value <;> simp [policyError]

theorem checkReview_ok_iff {exception : JsonObject} {context : String} {reviewedOn expiresOn : Date} :
    checkReview exception context = .ok (reviewedOn, expiresOn) ↔
      (∃ text, Holds exception "owner" text) ∧
        (∃ text, Holds exception "reason" text ∧ 40 ≤ text.length) ∧
        (∃ text, Holds exception "removal_plan" text ∧ 40 ≤ text.length) ∧
        (∃ text, Holds exception "reviewed_on" text ∧ Date.fromIsoFormat text = some reviewedOn) ∧
        (∃ text, Holds exception "expires_on" text ∧ Date.fromIsoFormat text = some expiresOn) := by
  unfold checkReview
  simp only [Fallible.bind_eq_ok, requiredString_ok_iff]
  constructor
  · rintro ⟨owner, isOwner, reason, isReason, plan, isPlan, rest⟩
    split at rest
    · cases rest
    · rename_i long
      obtain ⟨longReason, longPlan⟩ := not_or.mp long
      simp only [Fallible.bind_eq_ok, requiredString_ok_iff, parsePolicyDate_ok_iff] at rest
      obtain ⟨reviewed, isReviewed, _, reviewedDate, expires, isExpires, _, expiresDate, built⟩ := rest
      cases built
      exact ⟨⟨owner, isOwner⟩, ⟨reason, isReason, not_lt.mp longReason⟩, ⟨plan, isPlan, not_lt.mp longPlan⟩,
        ⟨reviewed, isReviewed, reviewedDate⟩, expires, isExpires, expiresDate⟩
  · rintro ⟨⟨owner, isOwner⟩, ⟨reason, isReason, longReason⟩, ⟨plan, isPlan, longPlan⟩,
      ⟨reviewed, isReviewed, reviewedDate⟩, expires, isExpires, expiresDate⟩
    refine ⟨owner, isOwner, reason, isReason, plan, isPlan, ?_⟩
    rw [if_neg (not_or.mpr ⟨not_lt.mpr longReason, not_lt.mpr longPlan⟩)]
    simp only [Fallible.bind_eq_ok, requiredString_ok_iff, parsePolicyDate_ok_iff]
    exact ⟨reviewed, isReviewed, _, reviewedDate, expires, isExpires, _, expiresDate, rfl⟩

theorem checkWindow_ok_iff {review : Review} {today : Date} {context : String} :
    checkWindow review.reviewedOn review.expiresOn today context = .ok () ↔ Live review today := by
  unfold checkWindow
  constructor
  · intro checks
    split at checks
    · cases checks
    rename_i reviewed
    split at checks
    · cases checks
    rename_i unexpired
    split at checks
    · cases checks
    rename_i window
    obtain ⟨positive, bounded⟩ := not_or.mp window
    rw [maxExceptionWindowDays] at bounded
    exact ⟨not_lt.mp reviewed, not_lt.mp unexpired, by omega, by omega⟩
  · rintro ⟨reviewed, unexpired, positive, bounded⟩
    have window : ¬ (daysBetween review.reviewedOn review.expiresOn ≤ 0 ∨
        maxExceptionWindowDays < daysBetween review.reviewedOn review.expiresOn) := by
      rw [maxExceptionWindowDays]
      omega
    rw [if_neg (not_lt.mpr reviewed), if_neg (not_lt.mpr unexpired), if_neg window]

variable [TextRepr]

/-- **What one turn does**: a reviewed and live exception with a new key is appended. -/
theorem collectException_ok_iff {policyPath : String} {today : Date}
    {records records' : List (FindingKey × ExceptionRecord)} {rawException : Json} {index : ℕ} :
    collectException policyPath today records rawException index = .ok records' ↔
      ∃ review, Reviewed rawException review ∧ Live review today ∧ review.key ∉ records.map Prod.fst ∧
        records' = records ++ [review.record] := by
  have appended : ∀ {entry : FindingKey × ExceptionRecord}, entry.1 ∉ records.map Prod.fst →
      Multidict.put Prod.fst entry records = records ++ [entry] := by
    intro entry absent
    refine Multidict.put_of_absent (Multidict.find_eq_none.mpr fun other member same => absent ?_)
    exact List.mem_map.mpr ⟨other, member, same⟩
  constructor
  · intro collects
    unfold collectException at collects
    split at collects
    · rename_i exception
      dsimp only at collects
      split at collects
      · cases collects
      rename_i fields
      simp only [Fallible.bind_eq_ok] at collects
      obtain ⟨key, isKey, ⟨reviewedOn, expiresOn⟩, review, _, window, collects⟩ := collects
      split at collects
      · cases collects
      rename_i absent
      cases collects
      obtain ⟨id, nameSpace, package, type, version⟩ := exceptionKey_ok_iff.mp isKey
      obtain ⟨owner, reason, plan, reviewed, expires⟩ := checkReview_ok_iff.mp review
      have sameFields : ∀ name, name ∈ exception.map Prod.fst ↔ name ∈ requiredExceptionFields := by
        intro name
        rw [← not_not.mp fields, List.mem_toFinset]
      refine ⟨⟨key, reviewedOn, expiresOn⟩, ⟨exception, rfl, ?_⟩, checkWindow_ok_iff.mp window, absent,
        appended absent⟩
      exact ⟨sameFields, id, nameSpace, package, type, version, owner, reason, plan, reviewed, expires⟩
    · cases collects
  · rintro ⟨review, ⟨exception, rfl, fields⟩, live, absent, rfl⟩
    have sameFields : ¬ (exception.map Prod.fst).toFinset ≠ requiredExceptionFields := by
      refine not_not.mpr (Finset.ext fun name => ?_)
      rw [List.mem_toFinset, fields.fields]
    unfold collectException
    dsimp only
    rw [if_neg sameFields]
    simp only [Fallible.bind_eq_ok]
    refine ⟨review.key, exceptionKey_ok_iff.mpr ⟨fields.vulnerabilityId, fields.nameSpace, fields.package,
      fields.packageType, fields.installedVersion⟩, (review.reviewedOn, review.expiresOn),
      checkReview_ok_iff.mpr ⟨fields.owner, fields.reason, fields.removalPlan, fields.reviewedOn,
        fields.expiresOn⟩, (), checkWindow_ok_iff.mpr live, ?_⟩
    rw [if_neg absent, appended absent]
    rfl

/-- What holds of every exception of a passing policy. -/
def Approved (today : Date) (rawException : Json) (review : Review) : Prop :=
  Reviewed rawException review ∧ Live review today

/-- **The whole loop appends the records of the reviews**, and no key comes twice. -/
theorem collectExceptions_ok_iff {policyPath : String} {today : Date} {index : ℕ} {rawExceptions : List Json}
    {records result : List (FindingKey × ExceptionRecord)} (unique : (records.map Prod.fst).Nodup) :
    collectExceptions policyPath today index rawExceptions records = .ok result ↔
      ∃ reviews, List.Forall₂ (Approved today) rawExceptions reviews ∧
        (records.map Prod.fst ++ reviews.map Review.key).Nodup ∧ result = records ++ reviews.map Review.record := by
  induction rawExceptions generalizing index records with
  | nil =>
    rw [collectExceptions, Except.ok.injEq]
    constructor
    · rintro rfl
      exact ⟨[], .nil, by simpa using unique, by simp⟩
    · rintro ⟨_, ⟨⟩, -, rfl⟩
      simp
  | cons rawException later ih =>
    rw [collectExceptions, Fallible.bind_eq_ok]
    simp only [collectException_ok_iff]
    constructor
    · rintro ⟨_, ⟨review, reviewed, live, absent, rfl⟩, rest⟩
      have unique' : ((records ++ [review.record]).map Prod.fst).Nodup := by
        rw [List.map_append]
        exact List.nodup_append'.mpr ⟨unique, List.nodup_singleton _, by simpa [Review.record] using absent⟩
      obtain ⟨reviews, approved, distinct, rfl⟩ := (ih unique').mp rest
      refine ⟨review :: reviews, .cons ⟨reviewed, live⟩ approved, ?_, by simp⟩
      simpa [Review.record] using distinct
    · rintro ⟨_, approved, distinct, rfl⟩
      cases approved with
      | @cons _ review _ reviews first approved =>
        have absent : review.key ∉ records.map Prod.fst := fun member =>
          (List.nodup_append'.mp distinct).2.2 member (by simp)
        have unique' : ((records ++ [review.record]).map Prod.fst).Nodup := by
          rw [List.map_append]
          exact List.nodup_append'.mpr ⟨unique, List.nodup_singleton _, by simpa [Review.record] using absent⟩
        refine ⟨_, ⟨review, first.1, first.2, absent, rfl⟩, (ih unique').mpr ⟨reviews, approved, ?_, by simp⟩⟩
        simpa [Review.record] using distinct

/-- The exceptions of a policy document. -/
def PolicyOf (policy : LoadedFile) (rawExceptions : List Json) : Prop :=
  ∃ document, policy = .document (.obj document) ∧ get document "schema_version" = .str "1.0" ∧
    get document "exceptions" = .arr rawExceptions

omit [TextRepr] in
theorem PolicyOf.unique {policy : LoadedFile} {rawExceptions rawExceptions' : List Json}
    (isPolicy : PolicyOf policy rawExceptions) (isPolicy' : PolicyOf policy rawExceptions') :
    rawExceptions = rawExceptions' := by
  obtain ⟨document, rfl, -, isArray⟩ := isPolicy
  obtain ⟨_, same, -, isArray'⟩ := isPolicy'
  cases same
  exact Json.arr.inj (isArray.symm.trans isArray')

/-- **Which policies are accepted, and what is recorded.** -/
theorem exceptionRecords_ok_iff {policyPath : String} {policy : LoadedFile} {today : Date}
    {records : List (FindingKey × ExceptionRecord)} :
    exceptionRecords policyPath policy today = .ok records ↔
      ∃ rawExceptions reviews, PolicyOf policy rawExceptions ∧
        List.Forall₂ (Approved today) rawExceptions reviews ∧ (reviews.map Review.key).Nodup ∧
        records = reviews.map Review.record := by
  have none : (([] : List (FindingKey × ExceptionRecord)).map Prod.fst).Nodup := List.nodup_nil
  unfold exceptionRecords
  simp only [Fallible.bind_eq_ok, loadObject_ok_iff]
  constructor
  · rintro ⟨document, loaded, collects⟩
    split at collects
    · cases collects
    rename_i version
    split at collects
    · rename_i rawExceptions isArray
      obtain ⟨reviews, approved, distinct, rfl⟩ := (collectExceptions_ok_iff none).mp collects
      have isVersion : get document "schema_version" = .str "1.0" := Json.isText_iff.mp (by
        simpa [expectedPolicySchemaVersion] using version)
      exact ⟨rawExceptions, reviews, ⟨document, loaded, isVersion, isArray⟩, approved, distinct, rfl⟩
    · cases collects
  · rintro ⟨rawExceptions, reviews, ⟨document, loaded, isVersion, isArray⟩, approved, distinct, rfl⟩
    refine ⟨document, loaded, ?_⟩
    have version : (get document "schema_version").isText expectedPolicySchemaVersion = true :=
      Json.isText_iff.mpr isVersion
    simp only [version, isArray]
    exact (collectExceptions_ok_iff none).mpr ⟨reviews, approved, distinct, rfl⟩

end Records

/-! ### The verdict -/

/-- The entry of one approved key, where it has a record. -/
def approvedOf (exceptions : List (FindingKey × ExceptionRecord)) (key : FindingKey) : Option ApprovedException :=
  (exceptions.lookup key).map fun record =>
    ⟨record.expiresOn.isoFormat, key.installedVersion, key.package, key.vulnerabilityId⟩

/-- The summary of keys that match one to one. -/
def summaryOf (actionable unfixed : Finset FindingKey) (exceptions : List (FindingKey × ExceptionRecord))
    (today : Date) : GateSummary where
  actionableFindings := actionable.card
  approvedExceptions := (actionable.sort (· ≤ ·)).filterMap (approvedOf exceptions)
  effectiveDate := today.isoFormat
  status := "passed"
  unfixedHighCriticalFindings := unfixed.card

theorem missingKeys_eq_nil {α β : Type} {first : List (FindingKey × α)} {second : List (FindingKey × β)} :
    missingKeys first second = [] ↔ ∀ key, key ∈ first.map Prod.fst → key ∈ second.map Prod.fst := by
  have sorted : ∀ keys : Finset FindingKey, keys.sort (· ≤ ·) = [] ↔ keys = ∅ := by
    intro keys
    rw [← List.toFinset_eq_empty_iff, Finset.sort_toFinset]
  rw [missingKeys, sorted, Finset.sdiff_eq_empty_iff_subset]
  simp only [Finset.subset_iff, List.mem_toFinset]

/-- Every key with a record is approved. -/
theorem mapM_approve {exceptions : List (FindingKey × ExceptionRecord)} {keys : List FindingKey}
    (recorded : ∀ key ∈ keys, key ∈ exceptions.map Prod.fst) :
    keys.mapM (approve exceptions) = .ok (keys.filterMap (approvedOf exceptions)) := by
  induction keys with
  | nil => rfl
  | cons key later ih =>
    obtain ⟨here, others⟩ := List.forall_mem_cons.mp recorded
    obtain ⟨record, found⟩ : ∃ record, exceptions.lookup key = some record := by
      rw [← Option.isSome_iff_exists, List.lookup_isSome_iff]
      obtain ⟨entry, member, isKey⟩ := List.mem_map.mp here
      exact ⟨entry, member, by simpa using isKey.symm⟩
    have first : approve exceptions key =
        .ok ⟨record.expiresOn.isoFormat, key.installedVersion, key.package, key.vulnerabilityId⟩ := by
      rw [approve, found]
    rw [List.mapM_cons, first, ih others, List.filterMap_cons, approvedOf, found]
    rfl

section Gate

variable [UnicodeTables] [TextRepr] {reportPath policyPath : String}

/-- **What an evaluation returns.** -/
theorem evaluate_ok_iff {report policy : LoadedFile} {today : Date} {summary : GateSummary} :
    evaluateVulnerabilityPolicy reportPath policyPath report policy today = .ok summary ↔
      ∃ findings exceptions, actionableFindings reportPath report = .ok findings ∧
        exceptionRecords policyPath policy today = .ok exceptions ∧
        (∀ key, key ∈ findings.1.map Prod.fst ↔ key ∈ exceptions.map Prod.fst) ∧
        summary = summaryOf (findings.1.map Prod.fst).toFinset findings.2 exceptions today := by
  have approves : ∀ {findings : Findings} {exceptions : List (FindingKey × ExceptionRecord)},
      (∀ key, key ∈ findings.1.map Prod.fst ↔ key ∈ exceptions.map Prod.fst) →
      ((findings.1.map Prod.fst).toFinset.sort (· ≤ ·)).mapM (approve exceptions) =
        .ok (((findings.1.map Prod.fst).toFinset.sort (· ≤ ·)).filterMap (approvedOf exceptions)) := by
    intro findings exceptions same
    refine mapM_approve fun key member => (same key).mp ?_
    rwa [Finset.mem_sort, List.mem_toFinset] at member
  have distinct : ∀ {findings : Findings}, actionableFindings reportPath report = .ok findings →
      findings.1.length = (findings.1.map Prod.fst).toFinset.card := by
    intro findings found
    obtain ⟨_, -, -, tracks⟩ := actionableFindings_ok found
    rw [List.toFinset_card_of_nodup tracks.unique, List.length_map]
  unfold evaluateVulnerabilityPolicy
  simp only [Fallible.bind_eq_ok]
  constructor
  · rintro ⟨findings, found, exceptions, recorded, returns⟩
    split at returns
    · cases returns
    rename_i noErrors
    rw [not_not, List.append_eq_nil_iff, List.map_eq_nil_iff, List.map_eq_nil_iff, missingKeys_eq_nil,
      missingKeys_eq_nil] at noErrors
    have same : ∀ key, key ∈ findings.1.map Prod.fst ↔ key ∈ exceptions.map Prod.fst :=
      fun key => ⟨noErrors.1 key, noErrors.2 key⟩
    refine ⟨findings, exceptions, found, recorded, same, ?_⟩
    obtain ⟨approved, collected, built⟩ := Fallible.bind_eq_ok.mp returns
    rw [approves same, Except.ok.injEq] at collected
    rw [Except.ok.injEq, distinct found, ← collected] at built
    exact built.symm
  · rintro ⟨findings, exceptions, found, recorded, same, rfl⟩
    refine ⟨findings, found, exceptions, recorded, ?_⟩
    have noErrors : ¬ ((missingKeys findings.1 exceptions).map
          (fun key => "unapproved actionable finding: " ++ findingLabel key) ++
        (missingKeys exceptions findings.1).map
          (fun key => "stale exception no longer matches evidence: " ++ findingLabel key) ≠ []) := by
      rw [not_not, List.append_eq_nil_iff, List.map_eq_nil_iff, List.map_eq_nil_iff, missingKeys_eq_nil,
        missingKeys_eq_nil]
      exact ⟨fun key => (same key).mp, fun key => (same key).mpr⟩
    rw [if_neg noErrors, approves same, distinct found]
    rfl

/-- The policy passes on a date. -/
def Passes (reportPath policyPath : String) (report policy : LoadedFile) (today : Date) : Prop :=
  ∃ summary, evaluateVulnerabilityPolicy reportPath policyPath report policy today = .ok summary ∧
    summary.status = "passed"

/-- Both documents can be read, every exception is reviewed and live, no two exceptions share a key, and the
keys of the actionable matches are the keys of the exceptions. -/
def GateOpen (report policy : LoadedFile) (today : Date) : Prop :=
  ∃ rawMatches rawExceptions, ReportOf report rawMatches ∧ (∀ rawMatch ∈ rawMatches, WellFormedMatch rawMatch) ∧
    PolicyOf policy rawExceptions ∧
    (∀ rawException ∈ rawExceptions, ∃ review, Reviewed rawException review ∧ Live review today) ∧
    (rawExceptions.Pairwise fun first second => ∀ review review', Reviewed first review →
      Reviewed second review' → review.key ≠ review'.key) ∧
    ∀ key, (∃ rawMatch ∈ rawMatches, Actionable rawMatch key) ↔
      ∃ rawException ∈ rawExceptions, ∃ review, Reviewed rawException review ∧ review.key = key

omit [UnicodeTables] [TextRepr] in
/-- The reviews of exceptions, where each has one. -/
theorem reviews_iff {today : Date} {rawExceptions : List Json} :
    (∀ rawException ∈ rawExceptions, ∃ review, Reviewed rawException review ∧ Live review today) ↔
      ∃ reviews, List.Forall₂ (Approved today) rawExceptions reviews := by
  induction rawExceptions with
  | nil => exact iff_of_true (by simp) ⟨[], .nil⟩
  | cons rawException later ih =>
    rw [List.forall_mem_cons, ih]
    constructor
    · rintro ⟨⟨review, approved⟩, reviews, others⟩
      exact ⟨review :: reviews, .cons approved others⟩
    · rintro ⟨_, forall₂⟩
      cases forall₂ with
      | cons first others => exact ⟨⟨_, first⟩, _, others⟩

omit [UnicodeTables] [TextRepr] in
/-- The reviews are those of the exceptions. -/
theorem exists_reviewed_iff {today : Date} {rawExceptions : List Json} {reviews : List Review}
    (approved : List.Forall₂ (Approved today) rawExceptions reviews) {property : Review → Prop} :
    (∃ rawException ∈ rawExceptions, ∃ review, Reviewed rawException review ∧ property review) ↔
      ∃ review ∈ reviews, property review := by
  induction approved with
  | nil => simp
  | @cons rawException review later reviews first others ih =>
    rw [List.exists_mem_cons_iff, List.exists_mem_cons_iff, ih]
    refine or_congr_left ⟨?_, fun holds => ⟨review, first.1, holds⟩⟩
    rintro ⟨review', reviewed, holds⟩
    rwa [first.1.unique reviewed]

omit [UnicodeTables] [TextRepr] in
/-- No key comes twice exactly when no two exceptions share one. -/
theorem nodup_reviews_iff {today : Date} {rawExceptions : List Json} {reviews : List Review}
    (approved : List.Forall₂ (Approved today) rawExceptions reviews) :
    (reviews.map Review.key).Nodup ↔ rawExceptions.Pairwise fun first second => ∀ review review',
      Reviewed first review → Reviewed second review' → review.key ≠ review'.key := by
  induction approved with
  | nil => simp
  | @cons rawException review later reviews first others ih =>
    rw [List.map_cons, List.nodup_cons, List.pairwise_cons, ih]
    refine and_congr_left fun _ => ?_
    have shares := @exists_reviewed_iff today later reviews others fun other => other.key = review.key
    rw [List.mem_map, ← shares]
    constructor
    · intro absent other member review' review'' reviewed reviewed' same
      refine absent ⟨other, member, review'', reviewed', ?_⟩
      rw [← same, first.1.unique reviewed]
    · rintro differ ⟨other, member, review', reviewed, same⟩
      exact differ other member review review' first.1 reviewed same.symm

omit [UnicodeTables] [TextRepr] in
/-- The recorded keys are those of the exceptions. -/
theorem mem_recorded_iff {today : Date} {rawExceptions : List Json} {reviews : List Review}
    (approved : List.Forall₂ (Approved today) rawExceptions reviews) {key : FindingKey} :
    key ∈ (reviews.map Review.record).map Prod.fst ↔
      ∃ rawException ∈ rawExceptions, ∃ review, Reviewed rawException review ∧ review.key = key := by
  rw [exists_reviewed_iff approved, List.map_map, List.mem_map]
  rfl

/-- **Which documents pass.** -/
theorem gatePasses_iff {report policy : LoadedFile} {today : Date} :
    Passes reportPath policyPath report policy today ↔ GateOpen report policy today := by
  constructor
  · rintro ⟨summary, evaluates, -⟩
    obtain ⟨findings, exceptions, found, recorded, same, -⟩ := evaluate_ok_iff.mp evaluates
    obtain ⟨rawMatches, isReport, readable, tracks⟩ := actionableFindings_ok found
    obtain ⟨rawExceptions, reviews, isPolicy, approved, distinct, rfl⟩ := exceptionRecords_ok_iff.mp recorded
    refine ⟨rawMatches, rawExceptions, isReport, readable, isPolicy, reviews_iff.mpr ⟨reviews, approved⟩,
      (nodup_reviews_iff approved).mp distinct, fun key => ?_⟩
    rw [← tracks.actionable key, same key, mem_recorded_iff approved]
  · rintro ⟨rawMatches, rawExceptions, isReport, readable, isPolicy, reviewed, distinct, same⟩
    obtain ⟨reviews, approved⟩ := reviews_iff.mp reviewed
    obtain ⟨findings, found⟩ := @actionableFindings_total _ reportPath _ _ isReport readable
    have recorded : exceptionRecords policyPath policy today = .ok (reviews.map Review.record) :=
      exceptionRecords_ok_iff.mpr ⟨rawExceptions, reviews, isPolicy, approved,
        (nodup_reviews_iff approved).mpr distinct, rfl⟩
    obtain ⟨_, isReport', -, tracks⟩ := actionableFindings_ok found
    obtain rfl := isReport.unique isReport'
    refine ⟨_, evaluate_ok_iff.mpr ⟨findings, _, found, recorded, fun key => ?_, rfl⟩, rfl⟩
    rw [tracks.actionable key, same key, mem_recorded_iff approved]

/-! ### Order and multiplicity -/

/-- Two reports with the same matches, in any order and any number of times. -/
def SameMatches (report report' : LoadedFile) : Prop :=
  ∃ rawMatches rawMatches', ReportOf report rawMatches ∧ ReportOf report' rawMatches' ∧
    ∀ rawMatch, rawMatch ∈ rawMatches ↔ rawMatch ∈ rawMatches'

/-- Two policies with the same exceptions in any order. -/
def SameExceptions (policy policy' : LoadedFile) : Prop :=
  ∃ rawExceptions rawExceptions', PolicyOf policy rawExceptions ∧ PolicyOf policy' rawExceptions' ∧
    rawExceptions.Perm rawExceptions'

omit [UnicodeTables] [TextRepr] in
theorem SameMatches.symm {report report' : LoadedFile} (same : SameMatches report report') :
    SameMatches report' report := by
  obtain ⟨rawMatches, rawMatches', isReport, isReport', same⟩ := same
  exact ⟨rawMatches', rawMatches, isReport', isReport, fun rawMatch => (same rawMatch).symm⟩

omit [UnicodeTables] [TextRepr] in
theorem SameExceptions.symm {policy policy' : LoadedFile} (same : SameExceptions policy policy') :
    SameExceptions policy' policy := by
  obtain ⟨rawExceptions, rawExceptions', isPolicy, isPolicy', perm⟩ := same
  exact ⟨rawExceptions', rawExceptions, isPolicy', isPolicy, perm.symm⟩

omit [TextRepr] in
/-- **The same matches leave the same keys.** -/
theorem findings_of_sameMatches {report report' : LoadedFile} (same : SameMatches report report')
    {findings : Findings} (found : actionableFindings reportPath report = .ok findings) :
    ∃ findings', actionableFindings reportPath report' = .ok findings' ∧
      (∀ key, key ∈ findings'.1.map Prod.fst ↔ key ∈ findings.1.map Prod.fst) ∧ findings'.2 = findings.2 := by
  obtain ⟨rawMatches, rawMatches', isReport, isReport', same⟩ := same
  obtain ⟨_, isFound, readable, tracks⟩ := actionableFindings_ok found
  obtain rfl := isReport.unique isFound
  obtain ⟨findings', found'⟩ := @actionableFindings_total _ reportPath _ _ isReport'
    fun rawMatch member => readable rawMatch ((same rawMatch).mpr member)
  obtain ⟨_, isFound', -, tracks'⟩ := actionableFindings_ok found'
  obtain rfl := isReport'.unique isFound'
  refine ⟨findings', found', fun key => ?_, Finset.ext fun key => ?_⟩
  · rw [tracks.actionable, tracks'.actionable]
    simp only [same]
  · rw [tracks.unfixed, tracks'.unfixed]
    simp only [same]

omit [UnicodeTables] in
/-- **The same exceptions leave the same records up to their order.** -/
theorem records_of_sameExceptions {policy policy' : LoadedFile} (same : SameExceptions policy policy')
    {today : Date} {exceptions : List (FindingKey × ExceptionRecord)}
    (recorded : exceptionRecords policyPath policy today = .ok exceptions) :
    ∃ exceptions', exceptionRecords policyPath policy' today = .ok exceptions' ∧ exceptions.Perm exceptions' := by
  obtain ⟨rawExceptions, rawExceptions', isPolicy, isPolicy', perm⟩ := same
  obtain ⟨_, reviews, isRecorded, approved, distinct, rfl⟩ := exceptionRecords_ok_iff.mp recorded
  obtain rfl := isPolicy.unique isRecorded
  obtain ⟨reviews', approved', perm'⟩ := List.perm_comp_forall₂ perm.symm approved
  refine ⟨_, exceptionRecords_ok_iff.mpr ⟨rawExceptions', reviews', isPolicy', approved', ?_, rfl⟩,
    (perm'.symm.map Review.record)⟩
  exact (perm'.symm.map Review.key).nodup_iff.mp distinct

/-- **A summary does not depend on order and multiplicity.** -/
theorem evaluate_of_same {report report' policy policy' : LoadedFile} (sameMatches : SameMatches report report')
    (sameExceptions : SameExceptions policy policy') {today : Date} {summary : GateSummary}
    (evaluates : evaluateVulnerabilityPolicy reportPath policyPath report policy today = .ok summary) :
    evaluateVulnerabilityPolicy reportPath policyPath report' policy' today = .ok summary := by
  obtain ⟨findings, exceptions, found, recorded, same, rfl⟩ := evaluate_ok_iff.mp evaluates
  obtain ⟨findings', found', sameKeys, sameUnfixed⟩ := findings_of_sameMatches sameMatches found
  obtain ⟨exceptions', recorded', perm⟩ := records_of_sameExceptions sameExceptions recorded
  have unique : (exceptions.map Prod.fst).Nodup := by
    obtain ⟨_, reviews, -, -, distinct, rfl⟩ := exceptionRecords_ok_iff.mp recorded
    rwa [List.map_map]
  have approves : approvedOf exceptions = approvedOf exceptions' := by
    funext key
    rw [approvedOf, approvedOf, Rearrangement.lookup_eq_of_perm perm unique]
  refine evaluate_ok_iff.mpr ⟨findings', exceptions', found', recorded', fun key => ?_, ?_⟩
  · rw [sameKeys, same, (perm.map Prod.fst).mem_iff]
  · have keys : (findings'.1.map Prod.fst).toFinset = (findings.1.map Prod.fst).toFinset := by
      ext key
      rw [List.mem_toFinset, List.mem_toFinset, sameKeys]
    rw [summaryOf, summaryOf, keys, sameUnfixed, approves]

/-! ### The dates that pass -/

omit [TextRepr] in
/-- Only the windows look at the date. -/
theorem GateOpen.of_live {report policy : LoadedFile} {first today : Date} (opened : GateOpen report policy first)
    (live : ∀ rawExceptions, PolicyOf policy rawExceptions → ∀ rawException ∈ rawExceptions,
      ∀ review, Reviewed rawException review → Live review today) : GateOpen report policy today := by
  obtain ⟨rawMatches, rawExceptions, isReport, readable, isPolicy, reviewed, distinct, same⟩ := opened
  refine ⟨rawMatches, rawExceptions, isReport, readable, isPolicy, ?_, distinct, same⟩
  intro rawException member
  obtain ⟨review, isReviewed, -⟩ := reviewed rawException member
  exact ⟨review, isReviewed, live rawExceptions isPolicy rawException member review isReviewed⟩

omit [TextRepr] in
theorem GateOpen.live {report policy : LoadedFile} {today : Date} (opened : GateOpen report policy today)
    {rawExceptions : List Json} (isPolicy : PolicyOf policy rawExceptions) {rawException : Json}
    (member : rawException ∈ rawExceptions) {review : Review} (isReviewed : Reviewed rawException review) :
    Live review today := by
  obtain ⟨_, _, -, -, isPolicy', reviewed, -, -⟩ := opened
  obtain rfl := isPolicy.unique isPolicy'
  obtain ⟨review', isReviewed', live⟩ := reviewed rawException member
  rwa [isReviewed.unique isReviewed']

omit [TextRepr] in
/-- **Between two dates that pass, all dates pass.** -/
theorem gateOpen_ordConnected (report policy : LoadedFile) : Set.OrdConnected {today | GateOpen report policy today} := by
  constructor
  intro first opened last opened' today between
  refine GateOpen.of_live opened fun rawExceptions isPolicy rawException member review isReviewed => ?_
  have early := GateOpen.live opened isPolicy member isReviewed
  have late := GateOpen.live opened' isPolicy member isReviewed
  exact ⟨early.reviewed.trans between.1, between.2.trans late.unexpired, early.positive, early.bounded⟩

omit [TextRepr] in
/-- **With an exception, at most 91 dates pass.** -/
theorem card_gateOpen_le {report policy : LoadedFile} {rawExceptions : List Json}
    (isPolicy : PolicyOf policy rawExceptions) (nonempty : rawExceptions ≠ []) {dates : Finset Date}
    (open' : ∀ today ∈ dates, GateOpen report policy today) : dates.card ≤ 91 := by
  obtain rfl | ⟨date, member⟩ := dates.eq_empty_or_nonempty
  · simp
  obtain ⟨rawException, listed⟩ := List.exists_mem_of_ne_nil _ nonempty
  obtain ⟨_, _, -, -, isPolicy', reviewed, -, -⟩ := open' date member
  obtain rfl := isPolicy.unique isPolicy'
  obtain ⟨review, isReviewed, live⟩ := reviewed rawException listed
  have window : review.expiresOn.toOrdinal ≤ review.reviewedOn.toOrdinal + 90 := by
    have bounded := live.bounded
    rw [daysBetween] at bounded
    omega
  refine Date.card_le_of_window window fun today inside => ?_
  have live := (open' today inside).live isPolicy listed isReviewed
  exact ⟨live.reviewed, live.unexpired⟩

/-- **The vulnerability gate passes exactly when findings and live exceptions match one to one.** The summary
depends on the set of matches and the set of exceptions alone, and with at least one exception the passing
dates are an interval of at most 91 days. -/
theorem gate_exact (reportPath policyPath : String) :
    (∀ report policy today, Passes reportPath policyPath report policy today ↔ GateOpen report policy today) ∧
      (∀ report report' policy policy', SameMatches report report' → SameExceptions policy policy' → ∀ today,
        (evaluateVulnerabilityPolicy reportPath policyPath report policy today).toOption =
          (evaluateVulnerabilityPolicy reportPath policyPath report' policy' today).toOption) ∧
      (∀ report policy rawExceptions, PolicyOf policy rawExceptions → rawExceptions ≠ [] →
        Set.OrdConnected {today | Passes reportPath policyPath report policy today} ∧
          ∀ dates : Finset Date, (∀ today ∈ dates, Passes reportPath policyPath report policy today) →
            dates.card ≤ 91) := by
  refine ⟨fun _ _ _ => gatePasses_iff, ?_, ?_⟩
  · intro report report' policy policy' sameMatches sameExceptions today
    ext summary
    have back := sameMatches.symm
    have back' := sameExceptions.symm
    rw [Fallible.toOption_eq_some, Fallible.toOption_eq_some]
    exact ⟨evaluate_of_same sameMatches sameExceptions, evaluate_of_same back back'⟩
  · intro report policy rawExceptions isPolicy nonempty
    simp only [gatePasses_iff]
    exact ⟨gateOpen_ordConnected report policy, fun dates => card_gateOpen_le isPolicy nonempty⟩

end Gate

/-! ### One exception -/

/-- A high match of the Python runtime with a fix. -/
def pythonMatch : Json := .obj
  [("artifact", .obj [("name", .str "python"), ("type", .str "binary"), ("version", .str "3.13.14")]),
    ("vulnerability", .obj
      [("fix", .obj [("versions", .arr [.str "3.15.0"])]), ("id", .str "CVE-TEST"), ("namespace", .str "nvd:cpe"),
        ("severity", .str "High")])]

/-- Its exception, spelled with a space after the version. -/
def pythonException : Json := .obj
  [("expires_on", .str "2026-09-30"), ("installed_version", .str "3.13.14 "), ("namespace", .str "nvd:cpe"),
    ("owner", .str "maintainers"), ("package", .str "python"), ("package_type", .str "binary"),
    ("reason", .str "The fix is outside the supported runtime line."),
    ("removal_plan", .str "Remove it when a fixed runtime image exists."),
    ("reviewed_on", .str "2026-08-09"), ("vulnerability_id", .str "CVE-TEST")]

def pythonReport (rawMatches : List Json) : LoadedFile := .document (.obj [("matches", .arr rawMatches)])

def pythonPolicy : LoadedFile :=
  .document (.obj [("schema_version", .str "1.0"), ("exceptions", .arr [pythonException])])

/-- The last day of the exception. -/
def lastDay : Date := ⟨2026, 9, 30, by decide, by decide, by decide⟩

/-- `repr` of a string that needs no escape. -/
abbrev plainQuotes : TextRepr := ⟨fun text => "'" ++ text ++ "'"⟩

/-- The gate is open on the last day, also when the match is listed twice. -/
theorem gate_exact_python :
    let _ := asciiTables
    let _ := plainQuotes
    GateOpen (pythonReport [pythonMatch]) pythonPolicy lastDay ∧
      evaluateVulnerabilityPolicy "grype.json" "exceptions.json" (pythonReport [pythonMatch, pythonMatch]) pythonPolicy
          lastDay =
        .ok ⟨1, [⟨"2026-09-30", "3.13.14", "python", "CVE-TEST"⟩], "2026-09-30", "passed", 0⟩ ∧
      Set.OrdConnected
        {today | Passes "grype.json" "exceptions.json" (pythonReport [pythonMatch]) pythonPolicy today} := by
  intro _ _
  obtain ⟨passes, independent, window⟩ := gate_exact "grype.json" "exceptions.json"
  have evaluates : evaluateVulnerabilityPolicy "grype.json" "exceptions.json" (pythonReport [pythonMatch]) pythonPolicy
      lastDay = .ok ⟨1, [⟨"2026-09-30", "3.13.14", "python", "CVE-TEST"⟩], "2026-09-30", "passed", 0⟩ := by
    decide +kernel
  have isPolicy : PolicyOf pythonPolicy [pythonException] := ⟨_, rfl, rfl, rfl⟩
  have sameMatches : SameMatches (pythonReport [pythonMatch]) (pythonReport [pythonMatch, pythonMatch]) :=
    ⟨_, _, ⟨_, rfl, rfl⟩, ⟨_, rfl, rfl⟩, by simp⟩
  have sameExceptions : SameExceptions pythonPolicy pythonPolicy := ⟨_, _, isPolicy, isPolicy, .refl _⟩
  have doubled := independent _ _ _ _ sameMatches sameExceptions lastDay
  rw [evaluates] at doubled
  exact ⟨(passes _ _ _).mp ⟨_, evaluates, rfl⟩, Fallible.toOption_eq_some.mp doubled.symm,
    (window _ _ _ isPolicy (by simp)).1⟩

end McpAuth
