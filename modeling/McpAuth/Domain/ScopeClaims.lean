/-
**OAuth scopes and roles of a verified claim set.**

* `scopesFromClaims` — the words of `scope` and `scp`, deduplicated and sorted; `roles` is not read.
* `rolesFromClaims` — the non-empty strings of the `roles` list.
* `qualifyScopes` — short scope names under the resource URI; a name with `://` is kept.

A claim of the wrong type contributes nothing. `mem_scopesFromClaims`, `mem_rolesFromClaims` and
`mem_qualifyScopes` say what the three lists hold.
-/

import McpAuth.Library.JsonText
import McpAuth.Library.PyText

namespace McpAuth

open PyText JsonText

/-! ### Claims -/

/-- The words of a claim, when it is a string. -/
def claimWords (claims : JsonObject) (name : String) : Finset String :=
  match get claims name with
  | .str value => (split value).toFinset
  | _ => ∅

/-- `scopes_from_claims`. -/
def scopesFromClaims (claims : JsonObject) : List String :=
  sorted (claimWords claims "scope" ∪ claimWords claims "scp")

/-- `roles_from_claims`. -/
def rolesFromClaims (claims : JsonObject) : List String :=
  match get claims "roles" with
  | .arr roles => sorted ((roles.filterMap Json.asText).filter (· ≠ "")).toFinset
  | _ => []

theorem claimWords_congr {first second : JsonObject} {name : String}
    (same : get first name = get second name) : claimWords first name = claimWords second name := by
  unfold claimWords
  rw [same]

theorem ne_empty_of_mem_claimWords {claims : JsonObject} {name word : String}
    (member : word ∈ claimWords claims name) : word ≠ "" := by
  unfold claimWords at member
  split at member
  · exact ne_empty_of_mem_split (List.mem_toFinset.mp member)
  · exact absurd member (Finset.notMem_empty _)

@[simp] theorem mem_scopesFromClaims {claims : JsonObject} {scope : String} :
    scope ∈ scopesFromClaims claims ↔
      scope ∈ claimWords claims "scope" ∨ scope ∈ claimWords claims "scp" := by
  rw [scopesFromClaims, mem_sorted, Finset.mem_union]

theorem mem_rolesFromClaims {claims : JsonObject} {role : String} :
    role ∈ rolesFromClaims claims ↔
      role ≠ "" ∧ ∃ roles, get claims "roles" = .arr roles ∧ .str role ∈ roles := by
  unfold rolesFromClaims
  constructor
  · intro member
    split at member
    · rename_i roles shape
      rw [mem_sorted, List.mem_toFinset, List.mem_filter, List.mem_filterMap] at member
      obtain ⟨⟨value, inside, isText⟩, nonempty⟩ := member
      rw [Json.asText_eq_some] at isText
      exact ⟨by simpa using nonempty, roles, shape, isText ▸ inside⟩
    · cases member
  · rintro ⟨nonempty, roles, shape, inside⟩
    rw [shape]
    show role ∈ sorted ((roles.filterMap Json.asText).filter (· ≠ "")).toFinset
    rw [mem_sorted, List.mem_toFinset, List.mem_filter, List.mem_filterMap]
    exact ⟨⟨.str role, inside, rfl⟩, by simpa using nonempty⟩

/-- Scopes do not depend on any claim but `scope` and `scp`. -/
theorem scopesFromClaims_congr {first second : JsonObject}
    (sameScope : get first "scope" = get second "scope")
    (sameScp : get first "scp" = get second "scp") :
    scopesFromClaims first = scopesFromClaims second := by
  rw [scopesFromClaims, scopesFromClaims, claimWords_congr sameScope, claimWords_congr sameScp]

/-- Roles do not depend on any claim but `roles`. -/
theorem rolesFromClaims_congr {first second : JsonObject}
    (same : get first "roles" = get second "roles") :
    rolesFromClaims first = rolesFromClaims second := by
  unfold rolesFromClaims
  rw [same]

/-! ### Qualification -/

/-- One scope of `qualify_scopes`: kept when it is URI-qualified, else put under the resource. -/
def qualifyScope (resourceUri scope : String) : String :=
  if contains "://" scope then scope else rstripChar '/' resourceUri ++ "/" ++ scope

/-- `qualify_scopes`. -/
def qualifyScopes (scopes : List String) (resourceUri : String) : List String :=
  sorted ((scopes.filter (· ≠ "")).map (qualifyScope resourceUri)).toFinset

theorem mem_qualifyScopes {scopes : List String} {resourceUri scope : String} :
    scope ∈ qualifyScopes scopes resourceUri ↔
      ∃ short ∈ scopes, short ≠ "" ∧ qualifyScope resourceUri short = scope := by
  rw [qualifyScopes, mem_sorted, List.mem_toFinset, List.mem_map]
  constructor
  · rintro ⟨short, member, same⟩
    rw [List.mem_filter] at member
    exact ⟨short, member.1, by simpa using member.2, same⟩
  · rintro ⟨short, member, nonempty, same⟩
    exact ⟨short, List.mem_filter.mpr ⟨member, by simpa using nonempty⟩, same⟩

/-- Two qualified lists with the same members are the same list. -/
theorem qualifyScopes_congr {first second : List String} {resourceUri : String}
    (same : ∀ scope, scope ∈ qualifyScopes first resourceUri ↔
      scope ∈ qualifyScopes second resourceUri) :
    qualifyScopes first resourceUri = qualifyScopes second resourceUri := sorted_congr same

end McpAuth
