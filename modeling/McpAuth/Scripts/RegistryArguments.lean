/-
**The arguments that the Registry metadata runs the container with.**

`_validate_runtime_arguments` stores the entries of the list by name and looks at what is stored. What an entry says
is thus looked at only where no later entry has its name.

`runtime_arguments_hardened_iff`: what the check accepts is a hardened list (each entry is one of the expected
arguments, and each of these is there once) exactly when no name occurs twice, or the list is rejected whatever its
repetitions, as one that is not `Settled`: a name is none of the five, or the last entry under one of them is not the
expected argument. `_validate_environment` rejects a repeated name (`environment_unrepeated`).
-/

import Mathlib.Data.List.Dedup
import Mathlib.Data.Finset.Dedup
import McpAuth.Library.Fallible
import McpAuth.Library.JsonText
import McpAuth.Library.Multidict

namespace McpAuth

open JsonText Multidict PyText

/-! ### The checks -/

/-- Raised when Registry metadata violates a project invariant. -/
structure ValidationError where
  message : String
  deriving DecidableEq

def require (condition : Bool) (message : String) : Except ValidationError Unit :=
  if condition then .ok () else .error ⟨message⟩

/-- An object with its string `name`. -/
structure NamedEntry where
  name : String
  members : JsonObject
  isName : get members "name" = .str name

def NamedEntry.json (entry : NamedEntry) : Json := .obj entry.members

/-- An element of the list `field`, with its name. -/
def namedEntry (field : String) : Json → Except ValidationError NamedEntry
  | .obj members =>
    match isName : get members "name" with
    | .str name => .ok ⟨name, members, isName⟩
    | _ => .error ⟨field ++ " entries must have string names"⟩
  | _ => .error ⟨field ++ " entries must be objects"⟩

/-- `expected_values`. -/
def expectedValues : List (String × Option String) :=
  [("--read-only", none), ("--tmpfs", some "/tmp:rw,noexec,nosuid,nodev,size=16m"), ("--cap-drop", some "ALL"),
    ("--security-opt", some "no-new-privileges:true"), ("--publish", some "127.0.0.1:8000:8000")]

/-- The loop over `args`: `by_name[name] = item`. -/
def argumentsByName : List Json → List NamedEntry → Except ValidationError (List NamedEntry)
  | [], byName => .ok byName
  | item :: later, byName => do
    let entry ← namedEntry "runtimeArguments" item
    argumentsByName later (put NamedEntry.name entry byName)

/-- One turn of the loop over `expected_values`. -/
def checkArgument (byName : List NamedEntry) (expected : String × Option String) : Except ValidationError Unit :=
  match find NamedEntry.name expected.1 byName with
  | none => .error ⟨"KeyError: " ++ expected.1⟩
  | some entry => do
    require ((get entry.members "type").isText "named") (expected.1 ++ " must be a named argument")
    match expected.2 with
    | none => require (entry.members.lookup "value").isNone (expected.1 ++ " must remain a valueless flag")
    | some value => require ((get entry.members "value").isText value) (expected.1 ++ " value drifted")

/-- The loop over `expected_values`. -/
def checkArguments (byName : List NamedEntry) : List (String × Option String) → Except ValidationError Unit
  | [] => .ok ()
  | expected :: later => do
    checkArgument byName expected
    checkArguments byName later

/-- `_validate_runtime_arguments`. -/
def validateRuntimeArguments (package : JsonObject) : Except ValidationError Unit :=
  match get package "runtimeArguments" with
  | .arr args => do
    let byName ← argumentsByName args []
    require ((byName.map NamedEntry.name).toFinset = (expectedValues.map Prod.fst).toFinset)
      "runtime hardening arguments drifted"
    checkArguments byName expectedValues
  | _ => .error ⟨"OCI package runtimeArguments are required"⟩

/-- The loop over `values`: a name may not occur again. -/
def environmentByName : List Json → List NamedEntry → Except ValidationError (List NamedEntry)
  | [], byName => .ok byName
  | item :: later, byName => do
    let entry ← namedEntry "environmentVariables" item
    require (find NamedEntry.name entry.name byName).isNone
      ("duplicate environment variable metadata: " ++ entry.name)
    environmentByName later (put NamedEntry.name entry byName)

/-- `by_name.get(name, {}).get(field)`. -/
def fieldOf (byName : List NamedEntry) (name field : String) : Json :=
  match find NamedEntry.name name byName with
  | some entry => get entry.members field
  | none => .null

/-- `value is True`. -/
def isTrue : Json → Bool
  | .bool value => value
  | _ => false

/-- `choices == ["entra", "generic"]`. -/
def isProviderChoices : Json → Bool
  | .arr [first, second] => first.isText "entra" && second.isText "generic"
  | _ => false

/-- `conditional`: the provider that needs a variable. -/
def conditionalVariables : List (String × String) :=
  [("MCP_SERVER_ENTRA_TENANT_ID", "entra"), ("MCP_SERVER_ENTRA_AUDIENCE", "entra"),
    ("MCP_SERVER_ENTRA_APPLICATION_ID_URI", "entra"), ("MCP_SERVER_GENERIC_ISSUER_URL", "generic"),
    ("MCP_SERVER_GENERIC_AUDIENCE", "generic")]

/-- One turn of the loop over `conditional`. -/
def checkConditional (byName : List NamedEntry) (required : String × String) : Except ValidationError Unit :=
  match find NamedEntry.name required.1 byName with
  | none => .error ⟨"missing conditional provider metadata: " ++ required.1⟩
  | some entry => do
    require
      (match get entry.members "description" with
        | .str description => contains ("AUTH_PROVIDER=" ++ required.2) description
        | _ => false)
      (required.1 ++ " must document its provider condition")
    require (!isTrue (get entry.members "isRequired")) (required.1 ++ " must not be globally required")

/-- `_validate_environment`. -/
def validateEnvironment (package : JsonObject) : Except ValidationError Unit :=
  match get package "environmentVariables" with
  | .arr values => do
    let byName ← environmentByName values []
    for name in ["MCP_SERVER_RESOURCE_SERVER_URL", "MCP_SERVER_AUTH_PROVIDER"] do
      require (isTrue (fieldOf byName name "isRequired")) (name ++ " must remain required")
    require (isProviderChoices (fieldOf byName "MCP_SERVER_AUTH_PROVIDER" "choices"))
      "MCP_SERVER_AUTH_PROVIDER choices must remain entra/generic"
    require ((fieldOf byName "MCP_SERVER_REQUIRED_SCOPES" "default").isText "[\"mcp:tools:call\"]")
      "baseline scope metadata drifted"
    require ((fieldOf byName "MCP_SERVER_TRANSPORT_ALLOWED_HOSTS" "default").isText "[\"127.0.0.1:8000\"]")
      "local transport Host allowlist drifted"
    for required in conditionalVariables do
      checkConditional byName required
  | _ => .error ⟨"OCI package environmentVariables are required"⟩

def imagePrefix : String := "ghcr.io/brunovicco/mcp-server-auth-template:v"

def transportUrl : String := "http://127.0.0.1:8000/mcp"

/-- `_validate_package`. -/
def validatePackage [UnicodeTables] (server : JsonObject) (version : String) : Except ValidationError Unit :=
  match get server "packages" with
  | .arr [.obj package] => do
    require ((get package "registryType").isText "oci") "package registryType must be oci"
    require ((get package "runtimeHint").isText "docker") "OCI package runtimeHint must be docker"
    for forbidden in ["registryBaseUrl", "version", "fileSha256"] do
      require (package.lookup forbidden).isNone ("OCI package must not declare " ++ forbidden)
    require ((get package "identifier").isText (imagePrefix ++ version))
      "OCI identifier must use the immutable release tag"
    require (!contains "latest" (lower (imagePrefix ++ version))) "latest is forbidden"
    match get package "transport" with
    | .obj transport => do
      require ((get transport "type").isText "streamable-http") "transport must be streamable-http"
      require ((get transport "url").isText transportUrl) "transport URL must remain loopback /mcp"
      validateRuntimeArguments package
      validateEnvironment package
    | _ => .error ⟨"package transport is required"⟩
  | .arr [_] => .error ⟨"packages[0] must be an object"⟩
  | _ => .error ⟨"exactly one OCI package is expected"⟩

/-! ### What the checks accept -/

theorem require_ok_iff {condition : Bool} {message : String} :
    require condition message = .ok () ↔ condition = true := by
  unfold require
  cases condition <;> simp

theorem NamedEntry.eq_of_members {entry other : NamedEntry} (same : entry.members = other.members) : entry = other := by
  obtain ⟨name, members, isName⟩ := entry
  obtain ⟨otherName, otherMembers, isOtherName⟩ := other
  subst same
  cases isName.symm.trans isOtherName
  rfl

theorem namedEntry_ok_iff {field : String} {item : Json} {entry : NamedEntry} :
    namedEntry field item = .ok entry ↔ item = entry.json := by
  constructor
  · intro yields
    unfold namedEntry at yields
    split at yields
    · split at yields
      · cases yields
        rfl
      · cases yields
    · cases yields
  · rintro rfl
    rw [NamedEntry.json, namedEntry]
    split
    · exact congrArg Except.ok (NamedEntry.eq_of_members rfl)
    · rename_i noName
      exact absurd entry.isName (noName entry.name)

theorem argumentsByName_ok_iff {items : List Json} {start byName : List NamedEntry} :
    argumentsByName items start = .ok byName ↔
      ∃ args : List NamedEntry, items = args.map NamedEntry.json ∧
        byName = args.foldl (fun kept entry => put NamedEntry.name entry kept) start := by
  induction items generalizing start with
  | nil =>
    rw [argumentsByName, Except.ok.injEq]
    constructor
    · intro same
      exact ⟨[], rfl, same.symm⟩
    · rintro ⟨args, listed, stored⟩
      rw [List.map_eq_nil_iff.mp listed.symm] at stored
      exact stored.symm
  | cons item later ih =>
    rw [argumentsByName, Fallible.bind_eq_ok]
    constructor
    · rintro ⟨entry, isEntry, yields⟩
      obtain ⟨args, listed, stored⟩ := ih.mp yields
      exact ⟨entry :: args, by rw [List.map_cons, namedEntry_ok_iff.mp isEntry, listed], stored⟩
    · rintro ⟨args, listed, stored⟩
      cases args with
      | nil => cases listed
      | cons entry args =>
        rw [List.map_cons, List.cons.injEq] at listed
        exact ⟨entry, namedEntry_ok_iff.mpr listed.1, ih.mpr ⟨args, listed.2, stored⟩⟩

/-- **An entry is the expected argument.** -/
structure NamedEntry.Is (entry : NamedEntry) (expected : String × Option String) : Prop where
  named : entry.name = expected.1
  typed : get entry.members "type" = .str "named"
  valued : match expected.2 with
    | none => entry.members.lookup "value" = none
    | some value => get entry.members "value" = .str value

theorem checkArgument_ok_iff {byName : List NamedEntry} {expected : String × Option String} :
    checkArgument byName expected = .ok () ↔
      ∃ entry, find NamedEntry.name expected.1 byName = some entry ∧ entry.Is expected := by
  unfold checkArgument
  cases found : find NamedEntry.name expected.1 byName with
  | none => simp
  | some entry =>
    have named : entry.name = expected.1 := (mem_of_find found).2
    have valueIff : (match expected.2 with
          | none => require (entry.members.lookup "value").isNone (expected.1 ++ " must remain a valueless flag")
          | some value => require ((get entry.members "value").isText value) (expected.1 ++ " value drifted")) = .ok () ↔
        match expected.2 with
          | none => entry.members.lookup "value" = none
          | some value => get entry.members "value" = .str value := by
      cases expected.2 with
      | none => rw [require_ok_iff, Option.isNone_iff_eq_none]
      | some value => rw [require_ok_iff, Json.isText_iff]
    simp only [Option.some.injEq, exists_eq_left']
    rw [Fallible.bind_eq_ok]
    constructor
    · rintro ⟨_, typed, valued⟩
      exact ⟨named, Json.isText_iff.mp (require_ok_iff.mp typed), valueIff.mp valued⟩
    · rintro ⟨-, typed, valued⟩
      exact ⟨(), require_ok_iff.mpr (Json.isText_iff.mpr typed), valueIff.mpr valued⟩

theorem checkArguments_ok_iff {byName : List NamedEntry} {expectations : List (String × Option String)} :
    checkArguments byName expectations = .ok () ↔
      ∀ expected ∈ expectations, checkArgument byName expected = .ok () := by
  induction expectations with
  | nil => simp [checkArguments]
  | cons expected later ih =>
    rw [checkArguments, Fallible.bind_eq_ok, List.forall_mem_cons, ← ih]
    exact ⟨fun ⟨(), first, rest⟩ => ⟨first, rest⟩, fun ⟨first, rest⟩ => ⟨(), first, rest⟩⟩

/-- **Every name is one of the five, and the last entry under each of these is the expected argument.** -/
structure Settled (args : List NamedEntry) : Prop where
  known : ∀ entry ∈ args, entry.name ∈ expectedValues.map Prod.fst
  last : ∀ expected ∈ expectedValues, ∃ entry, (under NamedEntry.name expected.1 args).getLast? = some entry ∧
    entry.Is expected

/-- **The check sees the last entry under each name.** -/
theorem validateRuntimeArguments_ok_iff {package : JsonObject} :
    validateRuntimeArguments package = .ok () ↔
      ∃ args : List NamedEntry, get package "runtimeArguments" = .arr (args.map NamedEntry.json) ∧ Settled args := by
  unfold validateRuntimeArguments
  generalize get package "runtimeArguments" = value
  cases value with
  | arr items =>
    rw [Fallible.bind_eq_ok]
    constructor
    · rintro ⟨byName, stored, yields⟩
      obtain ⟨args, rfl, rfl⟩ := argumentsByName_ok_iff.mp stored
      obtain ⟨_, sameNames, checked⟩ := Fallible.bind_eq_ok.mp yields
      rw [require_ok_iff, decide_eq_true_eq, Finset.ext_iff] at sameNames
      refine ⟨args, rfl, ?_, ?_⟩
      · intro entry member
        have stored : entry.name ∈ (args.foldl (fun kept entry => put NamedEntry.name entry kept) []).map NamedEntry.name :=
          (mem_map_foldl_put args []).mpr (Or.inr (List.mem_map_of_mem member))
        exact List.mem_toFinset.mp ((sameNames _).mp (List.mem_toFinset.mpr stored))
      · intro expected isExpected
        obtain ⟨entry, found, is⟩ := checkArgument_ok_iff.mp (checkArguments_ok_iff.mp checked expected isExpected)
        exact ⟨entry, (find_foldl_put _ _).symm.trans found, is⟩
    · rintro ⟨args, same, settled⟩
      cases same
      refine ⟨_, argumentsByName_ok_iff.mpr ⟨args, rfl, rfl⟩, Fallible.bind_eq_ok.mpr ⟨(), ?_, ?_⟩⟩
      · rw [require_ok_iff, decide_eq_true_eq, Finset.ext_iff]
        intro name
        rw [List.mem_toFinset, List.mem_toFinset, mem_map_foldl_put]
        constructor
        · rintro (isStart | isName)
          · cases isStart
          · obtain ⟨entry, member, rfl⟩ := List.mem_map.mp isName
            exact settled.known entry member
        · intro isName
          obtain ⟨expected, isExpected, rfl⟩ := List.mem_map.mp isName
          obtain ⟨entry, isLast, is⟩ := settled.last expected isExpected
          exact Or.inr (List.mem_map.mpr ⟨entry, (mem_under.mp (List.mem_of_getLast? isLast)).1, is.named⟩)
      · refine checkArguments_ok_iff.mpr fun expected isExpected => checkArgument_ok_iff.mpr ?_
        obtain ⟨entry, isLast, is⟩ := settled.last expected isExpected
        exact ⟨entry, (find_foldl_put _ _).trans isLast, is⟩
  | _ =>
    refine iff_of_false (fun yields => nomatch yields) ?_
    rintro ⟨args, listed, -⟩
    cases listed

/-! ### Hardened lists -/

/-- **Each entry is one of the expected arguments, and each of these is there once.** -/
structure Hardened (args : List NamedEntry) : Prop where
  only : ∀ entry ∈ args, ∃ expected ∈ expectedValues, entry.Is expected
  once : ∀ expected ∈ expectedValues, (args.map NamedEntry.name).count expected.1 = 1

theorem expected_unique {expected other : String × Option String} (isExpected : expected ∈ expectedValues)
    (isOther : other ∈ expectedValues) (same : expected.1 = other.1) : expected = other := by
  have unique : (expectedValues.map Prod.fst).Nodup := by decide
  exact List.inj_on_of_nodup_map unique isExpected isOther same

/-- **A list is hardened exactly when it is settled and repeats no name.** -/
theorem hardened_iff {args : List NamedEntry} : Hardened args ↔ (args.map NamedEntry.name).Nodup ∧ Settled args := by
  constructor
  · intro hardened
    refine ⟨?_, ?_, ?_⟩
    · refine List.nodup_iff_count_le_one.mpr fun name => ?_
      by_cases occurs : name ∈ args.map NamedEntry.name
      · obtain ⟨entry, member, rfl⟩ := List.mem_map.mp occurs
        obtain ⟨expected, isExpected, is⟩ := hardened.only entry member
        exact (is.named ▸ hardened.once expected isExpected).le
      · exact (List.count_eq_zero.mpr occurs).le.trans zero_le_one
    · intro entry member
      obtain ⟨expected, isExpected, is⟩ := hardened.only entry member
      exact List.mem_map.mpr ⟨expected, isExpected, is.named.symm⟩
    · intro expected isExpected
      have occurs : expected.1 ∈ args.map NamedEntry.name :=
        List.count_pos_iff.mp (hardened.once expected isExpected ▸ Nat.zero_lt_one)
      obtain ⟨first, isFirst, firstNamed⟩ := List.mem_map.mp occurs
      have nonempty : under NamedEntry.name expected.1 args ≠ [] :=
        List.ne_nil_of_mem (mem_under.mpr ⟨isFirst, firstNamed⟩)
      obtain ⟨member, named⟩ := mem_under.mp (List.getLast_mem nonempty)
      obtain ⟨other, isOther, is⟩ := hardened.only _ member
      have same := expected_unique isOther isExpected (is.named.symm.trans named)
      exact ⟨_, List.getLast?_eq_some_getLast nonempty, same ▸ is⟩
  · rintro ⟨unique, settled⟩
    constructor
    · intro entry member
      obtain ⟨expected, isExpected, named⟩ := List.mem_map.mp (settled.known entry member)
      obtain ⟨last, isLast, is⟩ := settled.last expected isExpected
      rw [named, under_eq_singleton unique member] at isLast
      cases isLast
      exact ⟨expected, isExpected, is⟩
    · intro expected isExpected
      obtain ⟨last, isLast, is⟩ := settled.last expected isExpected
      have occurs := List.mem_map_of_mem (f := NamedEntry.name) (mem_under.mp (List.mem_of_getLast? isLast)).1
      rw [is.named] at occurs
      exact le_antisymm (List.nodup_iff_count_le_one.mp unique _) (List.count_pos_iff.mpr occurs)

/-- **What is accepted is hardened exactly when no name occurs twice, or what the last entries say is rejected.** -/
theorem runtime_arguments_hardened_iff {package : JsonObject} {args : List NamedEntry}
    (listed : get package "runtimeArguments" = .arr (args.map NamedEntry.json)) :
    (validateRuntimeArguments package = .ok () → Hardened args) ↔
      (args.map NamedEntry.name).Nodup ∨ ¬ Settled args := by
  have acceptedIff : validateRuntimeArguments package = .ok () ↔ Settled args := by
    rw [validateRuntimeArguments_ok_iff]
    constructor
    · rintro ⟨others, listed', settled⟩
      have same : args = others := by
        have sameJson := listed.symm.trans listed'
        rw [Json.arr.injEq] at sameJson
        refine List.map_injective_iff.mpr (fun entry other same => ?_) sameJson
        exact NamedEntry.eq_of_members (Json.obj.inj same)
      exact same ▸ settled
    · intro settled
      exact ⟨args, listed, settled⟩
  rw [acceptedIff, hardened_iff]
  tauto

/-! ### A repeated argument -/

/-- An argument of type `named`. -/
def namedArgument (name value : String) : NamedEntry :=
  ⟨name, [("name", .str name), ("type", .str "named"), ("value", .str value)], rfl⟩

/-- The expected arguments. -/
def expectedArguments : List NamedEntry :=
  [⟨"--read-only", [("name", .str "--read-only"), ("type", .str "named")], rfl⟩,
    namedArgument "--tmpfs" "/tmp:rw,noexec,nosuid,nodev,size=16m", namedArgument "--cap-drop" "ALL",
    namedArgument "--security-opt" "no-new-privileges:true", namedArgument "--publish" "127.0.0.1:8000:8000"]

/-- A package with these runtime arguments. -/
def packageWith (args : List NamedEntry) : JsonObject := [("runtimeArguments", .arr (args.map NamedEntry.json))]

theorem expected_arguments_hardened : Hardened expectedArguments := by
  have listed : get (packageWith expectedArguments) "runtimeArguments" =
      .arr (expectedArguments.map NamedEntry.json) := rfl
  have distinct : (expectedArguments.map NamedEntry.name).Nodup := by decide
  have accepted : validateRuntimeArguments (packageWith expectedArguments) = .ok () := by decide
  exact (runtime_arguments_hardened_iff listed).mpr (Or.inl distinct) accepted

/-- A port published on every interface passes in front of the expected one. -/
theorem second_publish_passes :
    ¬ ∀ (package : JsonObject) (args : List NamedEntry), get package "runtimeArguments" = .arr (args.map NamedEntry.json) →
      validateRuntimeArguments package = .ok () → Hardened args := by
  intro always
  let args := namedArgument "--publish" "0.0.0.0:8000:8000" :: expectedArguments
  have accepted : validateRuntimeArguments (packageWith args) = .ok () := by decide
  have hardened := always (packageWith args) args rfl accepted
  have twice : (args.map NamedEntry.name).count "--publish" = 2 := by decide
  have once := hardened.once ("--publish", some "127.0.0.1:8000:8000") (by decide)
  exact absurd (twice.symm.trans once) (by decide)

/-! ### The package -/

theorem environmentByName_ok {items : List Json} {start byName : List NamedEntry}
    (yields : environmentByName items start = .ok byName) (unique : (start.map NamedEntry.name).Nodup) :
    ∃ values : List NamedEntry, items = values.map NamedEntry.json ∧
      ((start ++ values).map NamedEntry.name).Nodup := by
  induction items generalizing start with
  | nil => exact ⟨[], rfl, by rwa [List.append_nil]⟩
  | cons item later ih =>
    rw [environmentByName, Fallible.bind_eq_ok] at yields
    obtain ⟨entry, isEntry, yields⟩ := yields
    obtain ⟨_, absent, yields⟩ := Fallible.bind_eq_ok.mp yields
    rw [require_ok_iff, Option.isNone_iff_eq_none] at absent
    rw [put_of_absent absent] at yields
    have fresh : entry.name ∉ start.map NamedEntry.name := by
      intro occurs
      obtain ⟨other, member, same⟩ := List.mem_map.mp occurs
      exact find_eq_none.mp absent other member same
    have uniqueNext : ((start ++ [entry]).map NamedEntry.name).Nodup := by
      rw [List.map_append, List.map_singleton, ← List.concat_eq_append]
      exact unique.concat fresh
    obtain ⟨values, rfl, distinct⟩ := ih yields uniqueNext
    refine ⟨entry :: values, by rw [List.map_cons, namedEntry_ok_iff.mp isEntry], ?_⟩
    rwa [List.append_assoc, List.singleton_append] at distinct

/-- **The environment variables of an accepted package have different names.** -/
theorem environment_unrepeated {package : JsonObject} (accepted : validateEnvironment package = .ok ()) :
    ∃ values : List NamedEntry, get package "environmentVariables" = .arr (values.map NamedEntry.json) ∧
      (values.map NamedEntry.name).Nodup := by
  unfold validateEnvironment at accepted
  generalize get package "environmentVariables" = listed at accepted ⊢
  cases listed with
  | arr items =>
    obtain ⟨byName, stored, -⟩ := Fallible.bind_eq_ok.mp accepted
    obtain ⟨values, rfl, unique⟩ := environmentByName_ok stored List.nodup_nil
    exact ⟨values, rfl, unique⟩
  | _ => cases accepted

/-- **An accepted package has settled arguments and different variables.** -/
theorem validatePackage_ok [UnicodeTables] {server : JsonObject} {version : String}
    (accepted : validatePackage server version = .ok ()) :
    ∃ package : JsonObject, get server "packages" = .arr [.obj package] ∧
      (∃ args : List NamedEntry, get package "runtimeArguments" = .arr (args.map NamedEntry.json) ∧ Settled args) ∧
      ∃ values : List NamedEntry, get package "environmentVariables" = .arr (values.map NamedEntry.json) ∧
        (values.map NamedEntry.name).Nodup := by
  unfold validatePackage at accepted
  split at accepted
  · rename_i package listed
    refine ⟨package, listed, ?_⟩
    obtain ⟨_, -, accepted⟩ := Fallible.bind_eq_ok.mp accepted
    obtain ⟨_, -, accepted⟩ := Fallible.bind_eq_ok.mp accepted
    obtain ⟨_, -, accepted⟩ := Fallible.bind_eq_ok.mp accepted
    obtain ⟨_, -, accepted⟩ := Fallible.bind_eq_ok.mp accepted
    obtain ⟨_, -, accepted⟩ := Fallible.bind_eq_ok.mp accepted
    split at accepted
    · obtain ⟨_, -, accepted⟩ := Fallible.bind_eq_ok.mp accepted
      obtain ⟨_, -, accepted⟩ := Fallible.bind_eq_ok.mp accepted
      obtain ⟨_, arguments, environment⟩ := Fallible.bind_eq_ok.mp accepted
      exact ⟨validateRuntimeArguments_ok_iff.mp arguments, environment_unrepeated environment⟩
    · cases accepted
  · cases accepted
  · cases accepted

end McpAuth
