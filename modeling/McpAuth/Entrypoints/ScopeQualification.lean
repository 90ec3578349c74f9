/-
**Entra scope qualification as a canonical form.**

Token scopes, global scopes and tool policies are qualified independently with one resource URI.
`CanonicalQualification` is what makes them comparable: qualified lists are fixed, short names stay apart, and
qualified requirements are among the qualified grants exactly when each is granted in the original names.
`qualification_canonical_iff`: it holds exactly when the URI, without its trailing slashes, contains `://`.
-/

import McpAuth.Entrypoints.Settings
import McpAuth.Library.Tagging

namespace McpAuth

open PyText Tagging

/-- The prefix of `qualify_scopes`. -/
def resourcePrefix (resourceUri : String) : String := rstripChar '/' resourceUri ++ "/"

/-- A URI-qualified scope. -/
abbrev UriQualified (scope : String) : Prop := contains "://" scope = true

/-- The scope is granted, in the namespace in which it was issued. -/
def GrantedOriginally (resourceUri : String) (granted : List String) (scope : String) : Prop :=
  if UriQualified scope then
    scope ∈ granted ∨ ∃ short ∈ granted, ¬ UriQualified short ∧ scope = resourcePrefix resourceUri ++ short
  else scope ∈ granted ∨ resourcePrefix resourceUri ++ scope ∈ granted

/-- **Qualification with this URI is canonical.** -/
structure CanonicalQualification (resourceUri : String) : Prop where
  idempotent : ∀ scopes, qualifyScopes (qualifyScopes scopes resourceUri) resourceUri =
    qualifyScopes scopes resourceUri
  injective : Set.InjOn (qualifyScope resourceUri) { scope | ¬ UriQualified scope }
  satisfied : ∀ granted required : List String, (∀ scope ∈ granted, scope ≠ "") →
    (∀ scope ∈ required, scope ≠ "") →
    (qualifyScopes required resourceUri ⊆ qualifyScopes granted resourceUri ↔
      ∀ scope ∈ required, GrantedOriginally resourceUri granted scope)

section Laws

variable {resourceUri : String}

/-- One scope is qualified by tagging short names with the prefix. -/
theorem qualifyScope_eq_canon (resourceUri : String) :
    qualifyScope resourceUri = canon UriQualified (resourcePrefix resourceUri ++ ·) := rfl

theorem prefix_injective (resourceUri : String) : Function.Injective (resourcePrefix resourceUri ++ ·) := by
  intro first second same
  have chars := congrArg String.toList same
  simp only [String.toList_append, List.append_cancel_left_eq] at chars
  exact String.toList_injective chars

theorem qualifyScope_of_short {scope : String} (short : ¬ UriQualified scope) :
    qualifyScope resourceUri scope = resourcePrefix resourceUri ++ scope := if_neg short

/-- A prefix with `://` qualifies whatever follows it. -/
theorem prefix_qualifies (qualifies : contains "://" (rstripChar '/' resourceUri) = true) (scope : String) :
    UriQualified (resourcePrefix resourceUri ++ scope) := by
  simp only [contains, decide_eq_true_eq] at qualifies
  simp only [UriQualified, contains, decide_eq_true_eq, resourcePrefix, String.toList_append, List.append_assoc]
  exact qualifies.trans (List.infix_append' [] _ _)

/-- The slash that joins a URI and a name makes no `://`. -/
theorem prefix_letter_iff (resourceUri : String) :
    UriQualified (resourcePrefix resourceUri ++ "x") ↔ contains "://" (rstripChar '/' resourceUri) = true := by
  refine ⟨fun qualified => ?_, fun qualifies => prefix_qualifies qualifies "x"⟩
  have text : (resourcePrefix resourceUri ++ "x").toList = (rstripChar '/' resourceUri).toList ++ ['/'] ++ ['x'] := by
    simp [resourcePrefix]
  rw [UriQualified, contains, decide_eq_true_eq, text] at qualified
  rw [contains, decide_eq_true_eq]
  have pattern : "://".toList = [':', '/'] ++ ['/'] := rfl
  rcases List.infix_concat_iff.mp qualified with atEnd | inPrefix
  · rcases List.suffix_concat_iff.mp atEnd with none | ⟨before, same, -⟩
    · cases none
    · rw [pattern] at same
      have last := (List.append_inj' same rfl).2
      cases last
  · rcases List.infix_concat_iff.mp inPrefix with atEnd | inUri
    · -- The URI would end with a slash, but these were stripped.
      rcases List.suffix_concat_iff.mp atEnd with none | ⟨before, same, ends⟩
      · cases none
      · obtain rfl : [':', '/'] = before := (List.append_inj' (pattern.symm.trans same) rfl).1
        obtain ⟨start, uri⟩ := ends
        rw [rstripChar, String.toList_ofList] at uri
        have nonempty : resourceUri.toList.rdropWhile (· == '/') ≠ [] := by simp [← uri]
        have last := List.rdropWhile_last_not (· == '/') resourceUri.toList nonempty
        simp [← uri] at last
    · exact inUri

/-- Members of a list of non-empty scopes are its qualified members. -/
theorem mem_qualifyScopes_image {scopes : List String} (nonempty : ∀ scope ∈ scopes, scope ≠ "") {scope : String} :
    scope ∈ qualifyScopes scopes resourceUri ↔ scope ∈ qualifyScope resourceUri '' { name | name ∈ scopes } := by
  rw [mem_qualifyScopes]
  constructor
  · rintro ⟨short, member, -, same⟩
    exact ⟨short, member, same⟩
  · rintro ⟨short, member, same⟩
    exact ⟨short, member, nonempty short member, same⟩

theorem qualifyScopes_ne_empty {scopes : List String} {scope : String}
    (member : scope ∈ qualifyScopes scopes resourceUri) : scope ≠ "" := by
  obtain ⟨short, -, nonempty, rfl⟩ := mem_qualifyScopes.mp member
  by_cases qualified : UriQualified short
  · rwa [qualifyScope_eq_canon, canon_of_qualified qualified]
  · rw [qualifyScope_eq_canon, canon_of_short qualified]
    intro empty
    have chars := congrArg String.toList empty
    simp [resourcePrefix] at chars

theorem qualifyScopes_singleton {scope : String} (nonempty : scope ≠ "") :
    qualifyScopes [scope] resourceUri = [qualifyScope resourceUri scope] := by
  have kept : [scope].filter (· ≠ "") = [scope] := by simp [nonempty]
  rw [qualifyScopes, kept]
  exact sorted_singleton _

/-- **Qualifying twice is qualifying once** when the prefix qualifies. -/
theorem qualifyScopes_idem (qualifies : contains "://" (rstripChar '/' resourceUri) = true)
    (scopes : List String) :
    qualifyScopes (qualifyScopes scopes resourceUri) resourceUri = qualifyScopes scopes resourceUri := by
  have fixed : ∀ name, qualifyScope resourceUri (qualifyScope resourceUri name) = qualifyScope resourceUri name := by
    intro name
    rw [qualifyScope_eq_canon]
    exact canon_idem_iff.mpr (Or.inr (Or.inl (prefix_qualifies qualifies name)))
  refine qualifyScopes_congr fun scope => ?_
  rw [mem_qualifyScopes]
  constructor
  · rintro ⟨once, member, -, rfl⟩
    obtain ⟨short, inside, nonempty, rfl⟩ := mem_qualifyScopes.mp member
    rw [fixed]
    exact mem_qualifyScopes.mpr ⟨short, inside, nonempty, rfl⟩
  · intro member
    obtain ⟨short, -, -, rfl⟩ := mem_qualifyScopes.mp member
    exact ⟨_, member, qualifyScopes_ne_empty member, fixed short⟩

/-- **Qualified requirements are met exactly when they were granted** in the original names. -/
theorem qualifyScopes_subset_iff (qualifies : contains "://" (rstripChar '/' resourceUri) = true)
    {granted required : List String} (grantedNonempty : ∀ scope ∈ granted, scope ≠ "")
    (requiredNonempty : ∀ scope ∈ required, scope ≠ "") :
    qualifyScopes required resourceUri ⊆ qualifyScopes granted resourceUri ↔
      ∀ scope ∈ required, GrantedOriginally resourceUri granted scope := by
  have each : ∀ scope, qualifyScope resourceUri scope ∈ qualifyScopes granted resourceUri ↔
      GrantedOriginally resourceUri granted scope := by
    intro scope
    rw [mem_qualifyScopes_image grantedNonempty, qualifyScope_eq_canon]
    exact canon_mem_image_iff (prefix_injective resourceUri) fun _ => prefix_qualifies qualifies scope
  constructor
  · intro met scope member
    exact (each scope).mp (met (mem_qualifyScopes.mpr ⟨scope, member, requiredNonempty scope member, rfl⟩))
  · intro originally scope member
    obtain ⟨short, inside, -, rfl⟩ := mem_qualifyScopes.mp member
    exact (each short).mpr (originally short inside)

/-- **Qualification is canonical exactly when the URI contains `://`**, its trailing slashes apart. -/
theorem qualification_canonical_iff (resourceUri : String) :
    CanonicalQualification resourceUri ↔ contains "://" (rstripChar '/' resourceUri) = true := by
  refine ⟨fun canonical => ?_, fun qualifies => ⟨qualifyScopes_idem qualifies,
    canon_injOn (prefix_injective resourceUri), fun _ _ => qualifyScopes_subset_iff qualifies⟩⟩
  by_contra unqualified
  -- The name `x` is put under the prefix, and again, since `://` does not occur.
  have short : ¬ UriQualified "x" := by decide
  have once : qualifyScope resourceUri "x" = resourcePrefix resourceUri ++ "x" := qualifyScope_of_short short
  have still : ¬ UriQualified (resourcePrefix resourceUri ++ "x") :=
    mt (prefix_letter_iff resourceUri).mp unqualified
  have twice : qualifyScope resourceUri (resourcePrefix resourceUri ++ "x") =
      resourcePrefix resourceUri ++ (resourcePrefix resourceUri ++ "x") := qualifyScope_of_short still
  have nonempty : "x" ≠ "" := by decide
  have list : qualifyScopes ["x"] resourceUri = [resourcePrefix resourceUri ++ "x"] := by
    rw [qualifyScopes_singleton nonempty, once]
  have nonemptyOnce : resourcePrefix resourceUri ++ "x" ≠ "" :=
    @qualifyScopes_ne_empty resourceUri ["x"] _ (list ▸ List.mem_singleton_self _)
  have same := canonical.idempotent ["x"]
  rw [list, qualifyScopes_singleton nonemptyOnce, twice] at same
  have lengths := congrArg (fun text => text.toList.length) (List.cons.inj same).1
  simp [resourcePrefix] at lengths

end Laws

/-- Settings of an Entra server whose Application ID URI has no authority. -/
def urnSettings : Settings where
  runtimeHostLength := runtimeHostLength_default
  resourceServerUrl := exampleResource
  authProvider := .entra
  entraTenantId := some "11111111-1111-1111-1111-111111111111"
  entraAudience := some "urn:report"
  entraApplicationIdUri := some "urn:report"

/-- Accepted settings with a URN: a scope issued in qualified form is qualified again, and no longer meets the
requirement that names it. -/
theorem urn_not_canonical :
    let _ := asciiTables
    urnSettings.validate = .ok urnSettings ∧
      qualifyScopes ["read"] "urn:report" = ["urn:report/read"] ∧
      qualifyScopes ["urn:report/read"] "urn:report" = ["urn:report/urn:report/read"] ∧
      GrantedOriginally "urn:report" ["urn:report/read"] "read" ∧
      ¬ CanonicalQualification "urn:report" := by
  intro _
  refine ⟨by rfl, qualifyScopes_singleton (by decide), qualifyScopes_singleton (by decide), ?_, fun canonical => ?_⟩
  · rw [GrantedOriginally, if_neg (by decide)]
    exact Or.inr (by decide)
  · have qualifies := (qualification_canonical_iff "urn:report").mp canonical
    revert qualifies
    decide

end McpAuth
