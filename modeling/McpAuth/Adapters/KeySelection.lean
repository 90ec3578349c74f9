/-
**Indexing and selecting a JWKS key, independently of the order of the document.**

`fromDictArgument` is `_compatible_key` up to its call of `PyJWK.from_dict`: the entry that is passed.
`keySelection_exact`: indexing raises exactly for a document that repeats a usable `kid`; otherwise the
entry that is passed is exactly the eligible one; and neither depends on the order of the document or on
entries without a usable `kid`.
-/

import McpAuth.Adapters.JwksKeyResolver

namespace McpAuth

open JsonText Rearrangement

/-! ### The entry that is passed -/

/-- The entry that `_compatible_key` passes to `PyJWK.from_dict`. -/
def fromDictArgument (keys : KeySet) (kid algorithm : String) : Option JsonObject :=
  match keys.lookup kid with
  | none => none
  | some raw =>
    if !(get raw "alg").isNone && !(get raw "alg").isText algorithm then none
    else if !(get raw "kty").isText (expectedKeyType algorithm) then none
    else if algorithm = "ES256" && !(get raw "crv").isText "P-256" then none
    else some raw

/-- `_compatible_key` is `PyJWK.from_dict` of that entry, `None` where it raises. -/
theorem compatibleKey_eq [PyJwt] (keys : KeySet) (kid algorithm : String) :
    compatibleKey keys kid algorithm = (fromDictArgument keys kid algorithm).bind fun raw =>
      if PyJwt.keyAccepted raw algorithm then some ⟨raw, algorithm⟩ else none := by
  unfold compatibleKey fromDictArgument
  cases keys.lookup kid with
  | none => rfl
  | some raw =>
    dsimp only
    split
    · rfl
    · split
      · rfl
      · split <;> rfl

/-- Indexing and selection of one document. -/
def selectEntry (rawKeys : List Json) (kid algorithm : String) : Except Raised (Option JsonObject) := do
  let keys ← indexKeys rawKeys
  .ok (fromDictArgument keys kid algorithm)

/-! ### Eligible entries -/

/-- The entry is a signature key under the `kid` and of the algorithm's type. -/
structure Eligible (entry : JsonObject) (kid algorithm : String) : Prop where
  kid : get entry "kid" = .str kid
  use : get entry "use" = .null ∨ get entry "use" = .str "sig"
  keyOps : get entry "key_ops" = .null ∨
    ∃ operations, get entry "key_ops" = .arr operations ∧ .str "verify" ∈ operations
  fits : KeyFits entry algorithm

/-- Two object entries carry one usable `kid`. -/
def RepeatsKid (rawKeys : List Json) : Prop :=
  ∃ i j : ℕ, i < j ∧ ∃ first second kid, rawKeys[i]? = some (.obj first) ∧ rawKeys[j]? = some (.obj second) ∧
    usableKid first = some kid ∧ usableKid second = some kid

/-- The entry is not an object, or has no usable `kid`. -/
def Unkeyed (raw : Json) : Prop := ∀ key, raw = .obj key → usableKid key = none

theorem kidEntry_of_unkeyed {raw : Json} (unkeyed : Unkeyed raw) : kidEntry raw = none := by
  rw [Option.eq_none_iff_forall_ne_some]
  rintro ⟨kid, key⟩ isEntry
  obtain ⟨isObject, usable⟩ := kidEntry_eq_some.mp isEntry
  rw [unkeyed key isObject] at usable
  cases usable

theorem isSigningKey_iff {key : JsonObject} :
    isSigningKey key = true ↔ (get key "use" = .null ∨ get key "use" = .str "sig") ∧
      (get key "key_ops" = .null ∨ ∃ operations, get key "key_ops" = .arr operations ∧ .str "verify" ∈ operations) := by
  have operations : ((get key "key_ops").asList.any fun operations => operations.any (·.isText "verify")) = true ↔
      ∃ operations, get key "key_ops" = .arr operations ∧ .str "verify" ∈ operations := by
    cases get key "key_ops" <;> simp [Json.asList, Json.isText_iff]
  rw [isSigningKey, Bool.and_eq_true, Bool.or_eq_true, Bool.or_eq_true, operations, Json.isNone_iff, Json.isNone_iff,
    Json.isText_iff]

/-- **Which entry is passed**: the one found under the `kid`, when it fits the algorithm. -/
theorem fromDictArgument_eq_some {keys : KeySet} {kid algorithm : String} {entry : JsonObject}
    (accepted : algorithm = "RS256" ∨ algorithm = "ES256") :
    fromDictArgument keys kid algorithm = some entry ↔ keys.lookup kid = some entry ∧ KeyFits entry algorithm := by
  have decided : ∀ raw : JsonObject,
      (if !(get raw "alg").isNone && !(get raw "alg").isText algorithm then none
        else if !(get raw "kty").isText (expectedKeyType algorithm) then none
        else if algorithm = "ES256" && !(get raw "crv").isText "P-256" then none else some raw) = some entry ↔
      raw = entry ∧ KeyFits entry algorithm := by
    intro raw
    have fits : KeyFits raw algorithm ↔
        ((get raw "alg").isNone = true ∨ (get raw "alg").isText algorithm = true) ∧
          (get raw "kty").isText (expectedKeyType algorithm) = true ∧
          (algorithm = "ES256" → (get raw "crv").isText "P-256" = true) := by
      simp only [Json.isNone_iff, Json.isText_iff]
      constructor
      · rintro ⟨advertised, typed⟩
        rcases typed with ⟨rfl, kty⟩ | ⟨rfl, kty, crv⟩
        · exact ⟨advertised, kty, by simp⟩
        · exact ⟨advertised, kty, fun _ => crv⟩
      · rintro ⟨advertised, kty, crv⟩
        rcases accepted with rfl | rfl
        · exact ⟨advertised, Or.inl ⟨rfl, kty⟩⟩
        · exact ⟨advertised, Or.inr ⟨rfl, kty, crv rfl⟩⟩
    have isEntry : raw = entry ∧ KeyFits entry algorithm ↔ raw = entry ∧ KeyFits raw algorithm := by
      constructor <;> rintro ⟨rfl, fits⟩ <;> exact ⟨rfl, fits⟩
    rw [isEntry, fits]
    cases (get raw "alg").isNone <;> cases (get raw "alg").isText algorithm <;>
      cases (get raw "kty").isText (expectedKeyType algorithm) <;> cases (get raw "crv").isText "P-256" <;>
      by_cases curve : algorithm = "ES256" <;> simp [curve]
  unfold fromDictArgument
  cases keys.lookup kid with
  | none => simp
  | some raw =>
    dsimp only
    rw [decided raw, Option.some.injEq]

/-- Indexing raises exactly for a repeated usable `kid`. -/
theorem indexKeys_raises_iff (rawKeys : List Json) :
    (∃ error, indexKeys rawKeys = .error error) ↔ RepeatsKid rawKeys := by
  have raises : (∃ error, indexKeys rawKeys = .error error) ↔ ¬ ((kidEntries rawKeys).map Prod.fst).Nodup := by
    rw [indexKeys_eq]
    split <;> simp_all
  rw [raises, List.Nodup, List.pairwise_map, kidEntries, List.pairwise_filterMap, List.pairwise_iff_getElem]
  push Not
  constructor
  · rintro ⟨i, j, bound, bound', before, ⟨kid, first⟩, isFirst, ⟨kid', second⟩, isSecond, same⟩
    obtain ⟨object, usable⟩ := kidEntry_eq_some.mp isFirst
    obtain ⟨object', usable'⟩ := kidEntry_eq_some.mp isSecond
    have sameKid : kid = kid' := same
    subst sameKid
    exact ⟨i, j, before, first, second, kid, List.getElem?_eq_some_iff.mpr ⟨bound, object⟩,
      List.getElem?_eq_some_iff.mpr ⟨bound', object'⟩, usable, usable'⟩
  · rintro ⟨i, j, before, first, second, kid, atI, atJ, usable, usable'⟩
    obtain ⟨bound, object⟩ := List.getElem?_eq_some_iff.mp atI
    obtain ⟨bound', object'⟩ := List.getElem?_eq_some_iff.mp atJ
    exact ⟨i, j, bound, bound', before, (kid, first), kidEntry_eq_some.mpr ⟨object, usable⟩, (kid, second),
      kidEntry_eq_some.mpr ⟨object', usable'⟩, rfl⟩

/-- **Exactly the eligible entry is passed.** -/
theorem fromDictArgument_indexed {rawKeys : List Json} {keys : KeySet} (built : indexKeys rawKeys = .ok keys)
    {kid algorithm : String} (bounded : kid ≠ "" ∧ kid.length ≤ maxKidLength)
    (accepted : algorithm = "RS256" ∨ algorithm = "ES256") (entry : JsonObject) :
    fromDictArgument keys kid algorithm = some entry ↔ .obj entry ∈ rawKeys ∧ Eligible entry kid algorithm := by
  rw [indexKeys_eq] at built
  split at built
  · rename_i unique
    cases built
    have uniqueKept : (((kidEntries rawKeys).filter fun entry => isSigningKey entry.2).map Prod.fst).Nodup :=
      (List.filter_sublist.map Prod.fst).nodup unique
    rw [fromDictArgument_eq_some accepted, lookup_eq_some_iff_of_nodup uniqueKept, List.mem_filter, mem_kidEntries,
      usableKid_eq_some, isSigningKey_iff]
    constructor
    · rintro ⟨⟨⟨member, isKid, -⟩, use, keyOps⟩, fits⟩
      exact ⟨member, isKid, use, keyOps, fits⟩
    · rintro ⟨member, isKid, use, keyOps, fits⟩
      exact ⟨⟨⟨member, isKid, bounded⟩, use, keyOps⟩, fits⟩
  · cases built

/-- A rearranged document is indexed alike. -/
theorem selectEntry_rearranged {rawKeys rawKeys' : List Json} (rearranged : Rearranged Eq Unkeyed rawKeys rawKeys')
    (kid algorithm : String) : selectEntry rawKeys' kid algorithm = selectEntry rawKeys kid algorithm := by
  have perm : (kidEntries rawKeys).Perm (kidEntries rawKeys') :=
    rearranged.perm_filterMap (fun same => by rw [same]) kidEntry_of_unkeyed
  have sameUnique := (perm.map Prod.fst).nodup_iff
  rw [selectEntry, selectEntry, indexKeys_eq, indexKeys_eq]
  by_cases unique : ((kidEntries rawKeys).map Prod.fst).Nodup
  · have uniqueKept : (((kidEntries rawKeys).filter fun entry => isSigningKey entry.2).map Prod.fst).Nodup :=
      (List.filter_sublist.map Prod.fst).nodup unique
    have found := lookup_eq_of_perm (perm.filter fun entry => isSigningKey entry.2) uniqueKept kid
    rw [if_pos unique, if_pos (sameUnique.mp unique)]
    show Except.ok _ = Except.ok _
    rw [fromDictArgument, fromDictArgument, found]
  · rw [if_neg unique, if_neg fun unique' => unique (sameUnique.mpr unique')]

/-- **The right key, independently of document order.** For every document, usable `kid` and accepted
algorithm: indexing raises exactly for a repeated usable `kid`; otherwise `_compatible_key` passes exactly the
eligible entry to `PyJWK.from_dict`; and a rearranged document raises or selects the same. -/
theorem keySelection_exact {kid algorithm : String} (bounded : kid ≠ "" ∧ kid.length ≤ maxKidLength)
    (accepted : algorithm = "RS256" ∨ algorithm = "ES256") (rawKeys : List Json) :
    ((∃ error, indexKeys rawKeys = .error error) ↔ RepeatsKid rawKeys) ∧
    (∀ keys, indexKeys rawKeys = .ok keys →
      (∀ entry, fromDictArgument keys kid algorithm = some entry ↔
        .obj entry ∈ rawKeys ∧ Eligible entry kid algorithm) ∧
      ∀ pyJwt : PyJwt, compatibleKey keys kid algorithm = (fromDictArgument keys kid algorithm).bind fun raw =>
        if pyJwt.keyAccepted raw algorithm then some ⟨raw, algorithm⟩ else none) ∧
    ∀ rawKeys', Rearranged Eq Unkeyed rawKeys rawKeys' →
      selectEntry rawKeys' kid algorithm = selectEntry rawKeys kid algorithm :=
  ⟨indexKeys_raises_iff rawKeys,
    fun _ built => ⟨fromDictArgument_indexed built bounded accepted, fun _ => compatibleKey_eq _ kid algorithm⟩,
    fun _ rearranged => selectEntry_rearranged rearranged kid algorithm⟩

/-- A signature key, an encryption key and an entry that is no object. -/
def mixedKeys : List Json :=
  [.obj [("kid", .str "enc"), ("kty", .str "RSA"), ("use", .str "enc")], .null,
    .obj [("kid", .str "sig"), ("kty", .str "RSA"), ("use", .str "sig")]]

theorem keySelection_exact_mixed :
    selectEntry mixedKeys "sig" "RS256" =
      .ok (some [("kid", .str "sig"), ("kty", .str "RSA"), ("use", .str "sig")]) ∧
    selectEntry mixedKeys.reverse "sig" "RS256" = selectEntry mixedKeys "sig" "RS256" := by
  obtain ⟨-, selected, rearranged⟩ := keySelection_exact (by decide : "sig" ≠ "" ∧ "sig".length ≤ maxKidLength)
    (Or.inl rfl : "RS256" = "RS256" ∨ "RS256" = "ES256") mixedKeys
  refine ⟨?_, rearranged _ (.reordered (List.reverse_perm mixedKeys).symm)⟩
  have built : ∃ keys, indexKeys mixedKeys = .ok keys := ⟨_, rfl⟩
  obtain ⟨keys, built⟩ := built
  have eligible : Eligible [("kid", .str "sig"), ("kty", .str "RSA"), ("use", .str "sig")] "sig" "RS256" :=
    ⟨rfl, Or.inr rfl, Or.inl rfl, Or.inl rfl, Or.inl ⟨rfl, rfl⟩⟩
  rw [selectEntry, built]
  show Except.ok _ = _
  rw [((selected keys built).1 _).mpr ⟨by simp [mixedKeys], eligible⟩]

end McpAuth
