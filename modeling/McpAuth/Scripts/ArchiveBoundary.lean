/-
**The content boundary of a release archive.**

`SdistSound` and `WheelSound` say what an archive is meant to be, by the positions its names lead to (`resolve`) and not
by the comparisons that the checks make.

* `wheelSound_of_passes`: every accepted wheel is sound.
* `sdistSound_iff`: an accepted source distribution is sound exactly when its members keep their roles (`RolesKept`):
  no regular file is the root or `src/<module>` itself, and no directory has the name of a required file. The loop adds
  a name to `root_files`, and takes a path with `src/<module>`, without a look at the type.
-/

import McpAuth.Scripts.ReleaseArtifacts

namespace McpAuth

open PyText RelativePath

/-! ### Sound archives -/

section Sdist

variable (identity : ProjectIdentity) (members : List TarMember)

/-- The member leads to this position. -/
def TarMember.LiesAt (member : TarMember) (position : List String) : Prop := resolve member.name = some position

instance (member : TarMember) (position : List String) : Decidable (member.LiesAt position) :=
  inferInstanceAs (Decidable (_ = _))

/-- The member lies strictly below `src/<module>`. -/
def TarMember.LiesInSource (member : TarMember) : Prop :=
  ∃ below ≠ [], member.LiesAt (identity.root :: "src" :: identity.module :: below)

/-- **A source distribution inside its boundary, and complete.** -/
structure SdistSound : Prop where
  typed : ∀ member ∈ members, member.type = .regular ∨ member.type = .directory
  contained : ∀ member ∈ members, ∃ below, member.LiesAt (identity.root :: below)
  distinct : (members.map fun member => resolve member.name).Nodup
  listed : ∀ member ∈ members, member.type = .regular →
    (∃ file ∈ allowedSdistRootFiles, member.LiesAt [identity.root, file]) ∨ member.LiesInSource identity
  complete : ∀ file ∈ allowedSdistRootFiles,
    ∃ member ∈ members, member.type = .regular ∧ member.LiesAt [identity.root, file]
  sourced : ∃ member ∈ members, member.type = .regular ∧ member.LiesInSource identity

/-- **No regular file is the root or the module itself, and no directory is a required file.** -/
structure RolesKept : Prop where
  files : ∀ member ∈ members, member.type = .regular →
    ¬ member.LiesAt [identity.root] ∧ ¬ member.LiesAt [identity.root, "src", identity.module]
  directories : ∀ member ∈ members, member.type = .directory →
    ∀ file ∈ allowedSdistRootFiles, ¬ member.LiesAt [identity.root, file]

end Sdist

/-- **A wheel inside its boundary.** -/
structure WheelSound (identity : ProjectIdentity) (members : List ZipMember) : Prop where
  contained : ∀ member ∈ members, ∃ below, resolve member.filename = some (identity.module :: below) ∨
    resolve member.filename = some (identity.distInfo :: below)
  distinct : (members.map fun member => resolve member.filename).Nodup
  noSymlink : ∀ member ∈ members, member.isSymlink = false
  packaged : ∃ member ∈ members, ∃ below ≠ [], resolve member.filename = some (identity.module :: below)

/-! ### Source distributions -/

/-- Names that are safe and clean to different texts lead to different positions. -/
theorem nodup_resolve {μ : Type} {members : List μ} {nameOf : μ → String}
    (safe : ∀ member ∈ members, IsSafe (nameOf member)) (distinct : (members.map fun member => cleanName (nameOf member)).Nodup) :
    (members.map fun member => resolve (nameOf member)).Nodup := by
  have same : (members.map fun member => resolve (nameOf member)) =
      (members.map fun member => cleanName (nameOf member)).map fun name => some (segments name) := by
    rw [List.map_map]
    exact List.map_congr_left fun member inside => (safe member inside).resolve
  rw [same]
  exact distinct.map fun name other same => segments_injective (Option.some.inj same)

section Member

variable {identity : ProjectIdentity}

theorem SdistMember.liesAt_iff {member : TarMember} (admitted : SdistMember identity member) (below : List String) :
    member.LiesAt (identity.root :: below) ↔ member.parts.tail = below := by
  have parts := admitted.parts_eq
  rw [TarMember.LiesAt, admitted.safe.resolve, Option.some.injEq]
  rw [TarMember.parts] at parts ⊢
  rw [parts]
  simp

theorem SdistPlace.cases {member : TarMember} {relative : List String} (place : SdistPlace identity member relative) :
    relative = [] ∨ (∃ file ∈ allowedSdistRootFiles, relative = [file]) ∨
      ∃ rest, relative = "src" :: identity.module :: rest := by
  cases place with
  | root => exact Or.inl rfl
  | file allowed _ => exact Or.inr (Or.inl ⟨_, allowed, rfl⟩)
  | source rest => exact Or.inr (Or.inr ⟨rest, rfl⟩)

theorem underSource_iff {relative : List String} :
    underSource identity relative = true ↔ ∃ rest, relative = "src" :: identity.module :: rest := by
  rw [underSource, List.isPrefixOf_iff_prefix]
  constructor
  · rintro ⟨rest, rfl⟩
    exact ⟨rest, rfl⟩
  · rintro ⟨rest, rfl⟩
    exact ⟨rest, rfl⟩

/-- A regular file at the module or below is below it where the roles are kept. -/
theorem RolesKept.liesInSource {members : List TarMember} (kept : RolesKept identity members) {member : TarMember}
    (inside : member ∈ members) (admitted : SdistMember identity member) (regular : member.type = .regular)
    {rest : List String} (relative : member.parts.tail = "src" :: identity.module :: rest) :
    member.LiesInSource identity := by
  have atSource := (admitted.liesAt_iff _).mpr relative
  refine ⟨rest, ?_, atSource⟩
  rintro rfl
  exact (kept.files member inside regular).2 atSource

end Member

section Accepted

variable [TextRepr] [MessageParser] [UnicodeTables] {path : ArtifactPath} {identity : ProjectIdentity}

theorem SdistPasses.rolesKept {members : List TarMember} (passes : SdistPasses path identity members)
    (sound : SdistSound identity members) : RolesKept identity members := by
  constructor
  · intro member inside regular
    have liesAt := (passes.admitted member inside).liesAt_iff
    rcases sound.listed member inside regular with ⟨file, -, isFile⟩ | ⟨below, deep, inSource⟩
    · rw [liesAt] at isFile
      rw [liesAt, liesAt, isFile]
      exact ⟨by simp, by simp⟩
    · rw [liesAt] at inSource
      rw [liesAt, liesAt, inSource]
      exact ⟨by simp, by simpa using deep⟩
  · intro member inside directory file allowed isFile
    obtain ⟨other, isOther, regular, otherAt⟩ := sound.complete file allowed
    have same : member = other :=
      List.inj_on_of_nodup_map sound.distinct inside isOther (isFile.trans otherAt.symm)
    rw [same, regular] at directory
    cases directory

theorem SdistPasses.sound {members : List TarMember} (passes : SdistPasses path identity members)
    (kept : RolesKept identity members) : SdistSound identity members where
  typed member inside := (passes.admitted member inside).type
  contained member inside := ⟨_, ((passes.admitted member inside).liesAt_iff _).mpr rfl⟩
  distinct := nodup_resolve (fun member inside => (passes.admitted member inside).safe) passes.distinct
  listed := by
    intro member inside regular
    have admitted := passes.admitted member inside
    rcases admitted.place.cases with isRoot | ⟨file, allowed, isFile⟩ | ⟨rest, inSource⟩
    · exact absurd ((admitted.liesAt_iff _).mpr isRoot) (kept.files member inside regular).1
    · exact Or.inl ⟨file, allowed, (admitted.liesAt_iff _).mpr isFile⟩
    · exact Or.inr (kept.liesInSource inside admitted regular inSource)
  complete := by
    intro file allowed
    obtain ⟨member, inside, isFile⟩ := passes.complete file allowed
    have admitted := passes.admitted member inside
    have atFile := (admitted.liesAt_iff _).mpr isFile
    rcases admitted.type with regular | directory
    · exact ⟨member, inside, regular, atFile⟩
    · exact absurd atFile (kept.directories member inside directory file allowed)
  sourced := by
    obtain ⟨member, inside, inSource, regular⟩ := passes.sourced
    obtain ⟨rest, relative⟩ := underSource_iff.mp inSource
    exact ⟨member, inside, regular, kept.liesInSource inside (passes.admitted member inside) regular relative⟩

/-- **An accepted source distribution is sound exactly when its members keep their roles.** -/
theorem sdistSound_iff {members : List TarMember} (passes : SdistPasses path identity members) :
    SdistSound identity members ↔ RolesKept identity members :=
  ⟨passes.rolesKept, passes.sound⟩

end Accepted

/-! ### Wheels -/

/-- A path starts with its first segment, and goes on with a slash where there is a second. -/
theorem toList_of_segments {name first : String} {later : List String} (parts : segments name = first :: later) :
    name.toList = first.toList ++ if later = [] then [] else '/' :: (joinWith '/' later).toList := by
  rw [← join_segments name, parts]
  cases later with
  | nil => simp [joinWith]
  | cons next rest =>
    rw [joinWith, joinWith, String.toList_ofList, String.toList_ofList, List.map_cons, List.map_cons,
      intercalate_cons_cons, if_neg (List.cons_ne_nil _ _)]

theorem WheelMember.packaged {identity : ProjectIdentity} {member : ZipMember} (admitted : WheelMember identity member)
    (inModule : startsWithText (identity.module ++ "/") (cleanName member.filename) = true) :
    ∃ below ≠ [], member.parts = identity.module :: below := by
  rw [startsWithText, List.isPrefixOf_iff_prefix, String.toList_append] at inModule
  obtain ⟨rest, chars⟩ := inModule
  rw [List.append_assoc] at chars
  obtain ⟨first, below, parts⟩ := List.exists_cons_of_ne_nil (segments_ne_nil (cleanName member.filename))
  have top := admitted.top
  rw [ZipMember.parts, parts, List.head?_cons, Option.some.injEq, Option.some.injEq] at top
  have text := chars.trans (toList_of_segments parts)
  rcases top with rfl | rfl
  · refine ⟨below, ?_, parts⟩
    rintro rfl
    rw [if_pos rfl] at text
    exact absurd (List.append_cancel_left text) (by simp)
  · rw [ProjectIdentity.distInfo, ProjectIdentity.root, String.toList_append, String.toList_append,
      String.toList_append, List.append_assoc, List.append_assoc, List.append_assoc] at text
    have next : some '/' = some '-' := congrArg List.head? (List.append_cancel_left text)
    exact absurd next (by decide)

/-- **Every accepted wheel is sound.** -/
theorem wheelSound_of_passes [TextRepr] [MessageParser] [UnicodeTables] {path : ArtifactPath}
    {identity : ProjectIdentity} {members : List ZipMember} (passes : WheelPasses path identity members) :
    WheelSound identity members where
  contained := by
    intro member inside
    have admitted := passes.admitted member inside
    rw [admitted.safe.resolve]
    rcases admitted.top with isModule | isDistInfo
    · exact ⟨_, Or.inl (congrArg some (List.cons_head?_tail isModule).symm)⟩
    · exact ⟨_, Or.inr (congrArg some (List.cons_head?_tail isDistInfo).symm)⟩
  distinct := nodup_resolve (fun member inside => (passes.admitted member inside).safe) passes.distinct
  noSymlink member inside := (passes.admitted member inside).noSymlink
  packaged := by
    obtain ⟨member, inside, inModule⟩ := passes.packaged
    have admitted := passes.admitted member inside
    obtain ⟨below, deep, parts⟩ := admitted.packaged inModule
    exact ⟨member, inside, below, deep, admitted.safe.resolve.trans (congrArg some parts)⟩

/-! ### The boundary -/

/-- **What `validate_sdist` accepts is sound exactly when its members keep their roles or it is rejected anyway, and
what `validate_wheel` accepts is sound.** -/
theorem archives_sound_iff [TextRepr] [MessageParser] [UnicodeTables] (identity : ProjectIdentity) :
    (∀ (path : ArtifactPath) (members : List TarMember),
      (validateSdist path identity (.read members) = .ok () → SdistSound identity members) ↔
        RolesKept identity members ∨ ¬ SdistPasses path identity members) ∧
    ∀ (path : ArtifactPath) (members : List ZipMember),
      validateWheel path identity (.read members) = .ok () → WheelSound identity members := by
  constructor
  · intro path members
    rw [validateSdist_ok_iff]
    by_cases passes : SdistPasses path identity members
    · rw [sdistSound_iff passes]
      simp [passes]
    · simp [passes]
  · intro path members accepted
    exact wheelSound_of_passes ((validateWheel_ok_iff path identity).mp accepted)

/-! ### A directory for a required file -/

/-- Headers on lines of their own, as `Name: value`. -/
def lineHeader (raw : Bytes) (name : String) : Option HeaderValue :=
  ((decodeAscii raw).map fun text => splitOnChar '\n' text).bind fun lines =>
    (lines.find? (startsWithText (name ++ ": "))).map fun line =>
      let value := String.ofList (line.toList.drop (name.length + 2))
      ⟨true, value, value⟩

/-- A regular file of a source distribution of `demo` 1. -/
def demoFile (name text : String) : TarMember := ⟨"demo-1/" ++ name, .regular, text.length, .read (asciiBytes text)⟩

/-- Its license is a directory. -/
def licenseDirectory : List TarMember :=
  [⟨"demo-1/LICENSE", .directory, 0, .read []⟩, demoFile ".gitignore" "", demoFile "CHANGELOG.md" "",
    demoFile "PKG-INFO" "Name: demo\nVersion: 1\n", demoFile "README.md" "", demoFile "README.pt-BR.md" "",
    demoFile "pyproject.toml" "", demoFile "src/demo/__init__.py" ""]

theorem license_directory_passes :
    ¬ ∀ [TextRepr] [MessageParser] [UnicodeTables] (path : ArtifactPath) (identity : ProjectIdentity)
      (members : List TarMember),
      validateSdist path identity (.read members) = .ok () → SdistSound identity members := by
  intro always
  let _ : TextRepr := ⟨id⟩
  let _ : MessageParser := ⟨lineHeader⟩
  let _ : UnicodeTables := asciiTables
  have accepted : validateSdist ⟨"dist/demo-1.tar.gz", "demo-1.tar.gz"⟩ ⟨"demo", "demo", "1"⟩
      (.read licenseDirectory) = .ok () := by decide +kernel
  have sound := always _ _ _ accepted
  obtain ⟨member, inside, regular, isLicense⟩ := sound.complete "LICENSE" (by decide)
  have absent : ∀ member ∈ licenseDirectory, member.type = .regular → ¬ member.LiesAt ["demo-1", "LICENSE"] := by
    decide +kernel
  exact absent member inside regular isLicense

end McpAuth
