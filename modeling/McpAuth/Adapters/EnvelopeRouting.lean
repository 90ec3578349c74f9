/-
**Admission makes the routing headers unambiguous.**

`RearrangedHeaders` relates two header lists by any number of reorderings, changes of letter case in names,
and insertions or removals of headers that route nothing.

* `validateEnvelopeWithin_iff` — admission as a statement about counts, under any two budgets;
* `rearranged_values` — rearranging keeps the values under each routing name, up to their order;
* `envelope_exact` — so the target of an admitted list is the target of every rearrangement of it.
-/

import McpAuth.Adapters.HttpTransport
import McpAuth.Library.Rearrangement

namespace McpAuth

open PyText Rearrangement

/-! ### Headers under a name -/

/-- The headers of a name, in any letter case. -/
def headersNamed (name : Bytes) (headers : List (Bytes × Bytes)) : List (Bytes × Bytes) :=
  headers.filter fun header => lowerBytes header.1 == name

theorem mem_lowerNames_iff {name : Bytes} {headers : List (Bytes × Bytes)} :
    name ∈ (headers.map Prod.fst).map lowerBytes ↔ headersNamed name headers ≠ [] := by
  rw [headersNamed, ne_eq, List.filter_eq_nil_iff]
  simp only [List.map_map, List.mem_map, Function.comp_apply, beq_iff_eq]
  push Not
  rfl

/-- **No critical name is repeated exactly when each has at most one header.** -/
theorem criticalNames_nodup_iff {headers : List (Bytes × Bytes)} :
    (criticalNames (headers.map Prod.fst)).Nodup ↔
      ∀ name ∈ criticalSingletonHeaders, (headersNamed name headers).length ≤ 1 := by
  have counted : ∀ name ∈ criticalSingletonHeaders,
      (criticalNames (headers.map Prod.fst)).count name = (headersNamed name headers).length := by
    intro name critical
    rw [criticalNames, List.count_filter (by simpa using critical), List.map_map, List.count, List.countP_map,
      headersNamed, List.countP_eq_length_filter]
    rfl
  rw [List.nodup_iff_count_le_one]
  constructor
  · intro once name critical
    rw [← counted name critical]
    exact once name
  · intro once name
    by_cases critical : name ∈ criticalSingletonHeaders
    · rw [counted name critical]
      exact once name critical
    · have absent : name ∉ criticalNames (headers.map Prod.fst) := by
        intro member
        exact critical (by simpa using (List.mem_filter.mp member).2)
      rw [List.count_eq_zero_of_not_mem absent]
      omega

/-- **Admission, as a statement about counts.** -/
theorem validateEnvelopeWithin_iff {maxHeaderCount maxHeaderBytes : ℤ} {scope : HttpScope} :
    validateEnvelopeWithin maxHeaderCount maxHeaderBytes scope = none ↔
      scope.headers.length ≤ maxHeaderCount ∧
      headerBytes scope.headers ≤ maxHeaderBytes ∧
      (∀ name ∈ criticalSingletonHeaders, (headersNamed name scope.headers).length ≤ 1) ∧
      (headersNamed (asciiBytes "content-length") scope.headers = [] ∨
        headersNamed (asciiBytes "transfer-encoding") scope.headers = []) := by
  rw [validateEnvelopeWithin_none_iff, criticalNames_nodup_iff, mem_lowerNames_iff, mem_lowerNames_iff,
    not_and_or, not_not, not_not]

/-! ### Rearrangements -/

/-- Equal but for the letter case of the name. -/
def SameHeader (header header' : Bytes × Bytes) : Prop :=
  lowerBytes header.1 = lowerBytes header'.1 ∧ header.2 = header'.2

instance (header header' : Bytes × Bytes) : Decidable (SameHeader header header') :=
  inferInstanceAs (Decidable (lowerBytes header.1 = lowerBytes header'.1 ∧ header.2 = header'.2))

/-- The header routes nothing. -/
def Unrouted (header : Bytes × Bytes) : Prop := isRoutingHeader header = false

/-- Two header lists that differ in order, in the letter case of names and in headers that route nothing. -/
abbrev RearrangedHeaders : List (Bytes × Bytes) → List (Bytes × Bytes) → Prop := Rearranged SameHeader Unrouted

/-- The names that `_target_from_scope` reads. -/
def routingNames : List Bytes := ["mcp-protocol-version", "mcp-method", "mcp-name"].map asciiBytes

/-- The value of a header under a name. -/
def valueUnder (name : Bytes) (header : Bytes × Bytes) : Option Bytes :=
  if lowerBytes header.1 == name then some header.2 else none

theorem headersNamed_values (name : Bytes) (headers : List (Bytes × Bytes)) :
    (headersNamed name headers).map Prod.snd = headers.filterMap (valueUnder name) := by
  induction headers with
  | nil => rfl
  | cons header headers ih =>
    rw [headersNamed] at ih ⊢
    rw [List.filter_cons]
    split
    · rename_i named
      rw [List.map_cons, List.filterMap_cons_some (by rw [valueUnder, if_pos named]), ih]
    · rename_i other
      rw [List.filterMap_cons_none (by rw [valueUnder, if_neg other]), ih]

/-- **Rearranging keeps the values under each routing name**, up to their order. -/
theorem rearranged_values {headers headers' : List (Bytes × Bytes)} (rearranged : RearrangedHeaders headers headers')
    {name : Bytes} (routing : name ∈ routingNames) :
    ((headersNamed name headers).map Prod.snd).Perm ((headersNamed name headers').map Prod.snd) := by
  rw [headersNamed_values, headersNamed_values]
  refine rearranged.perm_filterMap ?respects ?blind
  case respects =>
    rintro header header' ⟨sameName, sameValue⟩
    rw [valueUnder, valueUnder, sameName, sameValue]
  case blind =>
    intro header unrouted
    simp only [Unrouted, isRoutingHeader, Bool.or_eq_false_iff] at unrouted
    simp only [routingNames, List.map_cons, List.map_nil, List.mem_cons, List.not_mem_nil, or_false] at routing
    rcases routing with rfl | rfl | rfl
    · simp [valueUnder, unrouted.1.1]
    · simp [valueUnder, unrouted.1.2]
    · simp [valueUnder, unrouted.2]

/-- A header that occurs at most once reads the same after a rearrangement. -/
theorem singleHeader_rearranged {scope : HttpScope} {headers' : List (Bytes × Bytes)}
    (rearranged : RearrangedHeaders scope.headers headers') {name : Bytes} (routing : name ∈ routingNames)
    (once : (headersNamed name scope.headers).length ≤ 1) :
    singleHeader { scope with headers := headers' } name = singleHeader scope name := by
  have perm := rearranged_values rearranged routing
  have same : (headersNamed name headers').map Prod.snd = (headersNamed name scope.headers).map Prod.snd := by
    cases values : (headersNamed name scope.headers).map Prod.snd with
    | nil => exact (values ▸ perm).nil_eq.symm
    | cons value more =>
      have short : (value :: more).length ≤ 1 := by rw [← values, List.length_map]; exact once
      have alone : more = [] := by simpa using short
      subst alone
      exact List.singleton_perm.mp (values ▸ perm) |>.symm
  rw [headersNamed, headersNamed] at same
  rw [singleHeader, singleHeader, same]

/-- **Admission is exact, and the target of an admitted list is that of all its rearrangements.** -/
theorem envelope_exact (maxHeaderCount maxHeaderBytes : ℤ) (scope : HttpScope) :
    (validateEnvelopeWithin maxHeaderCount maxHeaderBytes scope = none ↔
      scope.headers.length ≤ maxHeaderCount ∧
      headerBytes scope.headers ≤ maxHeaderBytes ∧
      (∀ name ∈ criticalSingletonHeaders, (headersNamed name scope.headers).length ≤ 1) ∧
      (headersNamed (asciiBytes "content-length") scope.headers = [] ∨
        headersNamed (asciiBytes "transfer-encoding") scope.headers = [])) ∧
    (validateEnvelopeWithin maxHeaderCount maxHeaderBytes scope = none →
      ∀ headers', RearrangedHeaders scope.headers headers' →
        targetFromScope { scope with headers := headers' } = targetFromScope scope) := by
  refine ⟨validateEnvelopeWithin_iff, fun admitted headers' rearranged => ?_⟩
  obtain ⟨-, -, once, -⟩ := validateEnvelopeWithin_iff.mp admitted
  have single : ∀ name ∈ routingNames,
      singleHeader { scope with headers := headers' } name = singleHeader scope name := by
    intro name routing
    have critical : ∀ name ∈ routingNames, name ∈ criticalSingletonHeaders := by decide
    exact singleHeader_rearranged rearranged routing (once name (critical name routing))
  unfold targetFromScope
  rw [single _ (by decide), single _ (by decide), single _ (by decide)]

/-- A modern call of `report`. -/
def reportScope : HttpScope :=
  ⟨"http", "POST", "/mcp", [(asciiBytes "mcp-protocol-version", asciiBytes "2026-07-28"),
    (asciiBytes "mcp-method", asciiBytes "tools/call"), (asciiBytes "mcp-name", asciiBytes "report")]⟩

/-- The same headers in another order, with other letter cases and one more. -/
def reportHeaders : List (Bytes × Bytes) :=
  [(asciiBytes "Mcp-Name", asciiBytes "report"), (asciiBytes "Accept", asciiBytes "*/*"),
    (asciiBytes "MCP-Method", asciiBytes "tools/call"),
    (asciiBytes "mcp-protocol-version", asciiBytes "2026-07-28")]

theorem reportHeaders_rearranged : RearrangedHeaders reportScope.headers reportHeaders := by
  have reordered : reportScope.headers.Perm reportScope.headers.reverse := (List.reverse_perm _).symm
  have recased : List.Forall₂ SameHeader reportScope.headers.reverse
      (reportHeaders.take 1 ++ reportHeaders.drop 2) :=
    .cons (by decide) (.cons (by decide) (.cons (by decide) .nil))
  have inserted : RearrangedHeaders (reportHeaders.take 1 ++ reportHeaders.drop 2) reportHeaders :=
    .inserted (by decide : isRoutingHeader (asciiBytes "Accept", asciiBytes "*/*") = false)
  exact .trans (.reordered reordered) (.trans (.respelled recased) inserted)

theorem envelope_exact_report :
    targetFromScope { reportScope with headers := reportHeaders } = some ⟨"tools/call", "report"⟩ := by
  have admitted : validateEnvelopeWithin 64 1024 reportScope = none := by decide
  have aimed : targetFromScope reportScope = some ⟨"tools/call", "report"⟩ := by decide +kernel
  rw [← aimed]
  exact (envelope_exact 64 1024 reportScope).2 admitted reportHeaders reportHeaders_rearranged

end McpAuth
