/-
**Relative paths — where the segments of a path lead.**

`resolve` goes along the segments between the slashes: an empty one and `.` stay, `..` goes up, any other goes down. A
path that is absolute or goes above its start leads nowhere.

`resolve_plain`, `resolve_slash`: plain segments lead to themselves, with or without a slash behind the last.
-/

import McpAuth.Library.PyText

namespace RelativePath

open PyText

/-- The segments between the slashes. -/
def segments (path : String) : List String := splitOnChar '/' path

/-- A segment that goes down. -/
def IsPlain (segment : String) : Prop := segment ≠ "" ∧ segment ≠ "." ∧ segment ≠ ".."

instance (segment : String) : Decidable (IsPlain segment) := inferInstanceAs (Decidable (_ ∧ _ ∧ _))

/-- One segment, from a position below the start. -/
def enter (position : List String) (segment : String) : Option (List String) :=
  if segment = "" ∨ segment = "." then some position
  else if segment = ".." then if position = [] then none else some position.dropLast
  else some (position ++ [segment])

def walk : List String → List String → Option (List String)
  | position, [] => some position
  | position, segment :: later => (enter position segment).bind (walk · later)

/-- `path.startswith("/")`. -/
def isAbsolute (path : String) : Bool := path.toList.head? = some '/'

/-- **The position that a path leads to.** -/
def resolve (path : String) : Option (List String) :=
  if isAbsolute path then none else walk [] (segments path)

theorem enter_plain {segment : String} (plain : IsPlain segment) (position : List String) :
    enter position segment = some (position ++ [segment]) := by
  rw [enter, if_neg (not_or.mpr ⟨plain.1, plain.2.1⟩), if_neg plain.2.2]

theorem walk_append (position first second : List String) :
    walk position (first ++ second) = (walk position first).bind (walk · second) := by
  induction first generalizing position with
  | nil => rfl
  | cons segment later ih =>
    rw [List.cons_append, walk, walk, Option.bind_assoc]
    congr 1
    funext next
    exact ih next

/-- Plain segments go down one by one. -/
theorem walk_plain {path : List String} (plain : ∀ segment ∈ path, IsPlain segment) (position : List String) :
    walk position path = some (position ++ path) := by
  induction path generalizing position with
  | nil => rw [walk, List.append_nil]
  | cons segment later ih =>
    rw [walk, enter_plain (plain segment List.mem_cons_self), Option.bind_some,
      ih fun other member => plain other (List.mem_cons_of_mem _ member), List.append_assoc, List.singleton_append]

theorem segments_ne_nil (path : String) : segments path ≠ [] := splitOnChar_ne_nil '/' path

theorem join_segments (path : String) : joinWith '/' (segments path) = path := joinWith_splitOnChar '/' path

/-- Different paths have different segments. -/
theorem segments_injective : Function.Injective segments := by
  intro path other same
  rw [← join_segments path, same, join_segments]

theorem segments_slash (path : String) : segments (path ++ "/") = segments path ++ [""] := by
  have chars : (path ++ "/").toList = path.toList ++ '/' :: [] := String.toList_append
  rw [segments, splitOnChar, chars, List.splitOn_append_cons_self, List.map_append]
  rfl

theorem isAbsolute_slash {path : String} (nonempty : path ≠ "") : isAbsolute (path ++ "/") = isAbsolute path := by
  unfold isAbsolute
  rw [String.toList_append]
  cases chars : path.toList with
  | nil => exact absurd (String.toList_eq_nil_iff.mp chars) nonempty
  | cons first later => rfl

/-- An absolute path has an empty segment in front. -/
theorem segments_absolute {path : String} (absolute : isAbsolute path = true) : "" ∈ segments path := by
  rw [isAbsolute, decide_eq_true_eq] at absolute
  obtain ⟨later, chars⟩ := List.head?_eq_some_iff.mp absolute
  have split := List.splitOn_append_cons_self (a := '/') [] later
  rw [segments, splitOnChar, chars]
  rw [List.nil_append] at split
  rw [split]
  exact List.mem_map_of_mem List.mem_cons_self

section Plain

variable {path : String} (plain : ∀ segment ∈ segments path, IsPlain segment)
include plain

theorem isAbsolute_plain : isAbsolute path = false := by
  by_contra absolute
  exact (plain "" (segments_absolute (Bool.not_eq_false _ ▸ absolute))).1 rfl

theorem ne_empty_plain : path ≠ "" := by
  rintro rfl
  exact (plain "" (by decide)).1 rfl

/-- **Plain segments lead to themselves.** -/
theorem resolve_plain : resolve path = some (segments path) := by
  rw [resolve, isAbsolute_plain plain, if_neg Bool.false_ne_true, walk_plain plain, List.nil_append]

/-- **A slash behind them changes nothing.** -/
theorem resolve_slash : resolve (path ++ "/") = some (segments path) := by
  rw [resolve, isAbsolute_slash (ne_empty_plain plain), isAbsolute_plain plain, if_neg Bool.false_ne_true, segments_slash,
    walk_append, walk_plain plain, List.nil_append]
  rfl

end Plain

end RelativePath
