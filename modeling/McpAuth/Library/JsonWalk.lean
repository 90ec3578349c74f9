/-
**The walk of `json.loads` over a whole syntax tree.**

`Syntax.All` says that a property holds at every node. The hook that is given to `loads` is called for every
object, members first; where the hook keeps the members of an object that it `accepts` and refuses any other,
the walk succeeds exactly on a tree whose every node is readable and whose every object is accepted
(`loadsValue_ok_iff`), and it ends in the plain `ValueError` exactly where the first obstacle, from left to
right, is a huge integer (`loadsValue_value_iff`).
-/

import McpAuth.Library.JsonText
import McpAuth.Library.Fallible

namespace JsonText

/-! ### Properties of every node -/

mutual

/-- The property holds at every node. -/
def Syntax.All (holds : Syntax → Prop) : Syntax → Prop
  | .arr items => holds (.arr items) ∧ Syntax.AllItems holds items
  | .obj members => holds (.obj members) ∧ Syntax.AllMembers holds members
  | node => holds node

def Syntax.AllItems (holds : Syntax → Prop) : List Syntax → Prop
  | [] => True
  | item :: items => item.All holds ∧ Syntax.AllItems holds items

def Syntax.AllMembers (holds : Syntax → Prop) : List (String × Syntax) → Prop
  | [] => True
  | (_, item) :: members => item.All holds ∧ Syntax.AllMembers holds members

end

mutual

theorem Syntax.all_and {first second : Syntax → Prop} :
    ∀ node : Syntax, node.All (fun node => first node ∧ second node) ↔ node.All first ∧ node.All second
  | .leaf _ => Iff.rfl
  | .grammarError => Iff.rfl
  | .hugeInteger => Iff.rfl
  | .arr items => by
    rw [Syntax.All, Syntax.All, Syntax.All, Syntax.allItems_and items]
    exact and_and_and_comm
  | .obj members => by
    rw [Syntax.All, Syntax.All, Syntax.All, Syntax.allMembers_and members]
    exact and_and_and_comm

theorem Syntax.allItems_and {first second : Syntax → Prop} : ∀ items : List Syntax,
    Syntax.AllItems (fun node => first node ∧ second node) items ↔
      Syntax.AllItems first items ∧ Syntax.AllItems second items
  | [] => by simp [Syntax.AllItems]
  | item :: items => by
    rw [Syntax.AllItems, Syntax.AllItems, Syntax.AllItems, Syntax.all_and item, Syntax.allItems_and items]
    exact and_and_and_comm

theorem Syntax.allMembers_and {first second : Syntax → Prop} : ∀ members : List (String × Syntax),
    Syntax.AllMembers (fun node => first node ∧ second node) members ↔
      Syntax.AllMembers first members ∧ Syntax.AllMembers second members
  | [] => by simp [Syntax.AllMembers]
  | (_, item) :: members => by
    rw [Syntax.AllMembers, Syntax.AllMembers, Syntax.AllMembers, Syntax.all_and item, Syntax.allMembers_and members]
    exact and_and_and_comm

end

mutual

/-- The value that a readable tree denotes. -/
def Syntax.value : Syntax → Json
  | .leaf value => value
  | .arr items => .arr (Syntax.values items)
  | .obj members => .obj (Syntax.memberValues members)
  | .grammarError | .hugeInteger => .null

def Syntax.values : List Syntax → List Json
  | [] => []
  | item :: items => item.value :: Syntax.values items

def Syntax.memberValues : List (String × Syntax) → JsonObject
  | [] => []
  | (name, item) :: members => (name, item.value) :: Syntax.memberValues members

end

theorem Syntax.memberValues_names (members : List (String × Syntax)) :
    (Syntax.memberValues members).map Prod.fst = members.map Prod.fst := by
  induction members with
  | nil => rfl
  | cons member members ih =>
    obtain ⟨name, item⟩ := member
    simp [Syntax.memberValues, ih]

/-! ### Obstacles -/

/-- The scanner can read the node itself. -/
def Syntax.Readable (node : Syntax) : Prop := node ≠ .grammarError ∧ node ≠ .hugeInteger

/-- An object's names are acceptable. -/
def Syntax.Accepted (accepts : List String → Prop) (node : Syntax) : Prop :=
  ∀ members, node = .obj members → accepts (members.map Prod.fst)

/-- No obstacle at this node. -/
def Syntax.Free (accepts : List String → Prop) (node : Syntax) : Prop := node.Readable ∧ node.Accepted accepts

mutual

/-- From left to right, the first obstacle is a huge integer. -/
def Syntax.HugeFirst (accepts : List String → Prop) : Syntax → Prop
  | .hugeInteger => True
  | .arr items => Syntax.HugeFirstItems accepts items
  | .obj members => Syntax.HugeFirstMembers accepts members
  | .leaf _ | .grammarError => False

def Syntax.HugeFirstItems (accepts : List String → Prop) : List Syntax → Prop
  | [] => False
  | item :: items => item.HugeFirst accepts ∨
      item.All (Syntax.Free accepts) ∧ Syntax.HugeFirstItems accepts items

def Syntax.HugeFirstMembers (accepts : List String → Prop) : List (String × Syntax) → Prop
  | [] => False
  | (_, item) :: members => item.HugeFirst accepts ∨
      item.All (Syntax.Free accepts) ∧ Syntax.HugeFirstMembers accepts members

end

section Walk

variable {ε : Type} {accepts : List String → Prop} {hook : JsonObject → Except ε JsonObject}

/-- The hook keeps an object whose names are acceptable, and refuses any other. -/
structure KeepsAccepted (accepts : List String → Prop) (hook : JsonObject → Except ε JsonObject) : Prop where
  keeps : ∀ pairs, accepts (pairs.map Prod.fst) → hook pairs = .ok pairs
  refuses : ∀ pairs, ¬ accepts (pairs.map Prod.fst) → ∃ error, hook pairs = .error error

theorem KeepsAccepted.ok_iff (keeping : KeepsAccepted accepts hook) {pairs object : JsonObject} :
    hook pairs = .ok object ↔ accepts (pairs.map Prod.fst) ∧ pairs = object := by
  by_cases acceptable : accepts (pairs.map Prod.fst)
  · simp [keeping.keeps pairs acceptable, acceptable]
  · obtain ⟨error, refused⟩ := keeping.refuses pairs acceptable
    simp [refused, acceptable]

mutual

/-- **The walk succeeds exactly on a tree without obstacles**, with the value that the tree denotes. -/
theorem loadsValue_ok_iff (keeping : KeepsAccepted accepts hook) :
    ∀ (node : Syntax) (value : Json),
      loadsValue hook node = .ok value ↔ node.All (Syntax.Free accepts) ∧ node.value = value
  | .leaf found, value => by
    simp [loadsValue, Syntax.All, Syntax.value, Syntax.Free, Syntax.Readable, Syntax.Accepted]
  | .grammarError, value => by simp [loadsValue, Syntax.All, Syntax.Free, Syntax.Readable]
  | .hugeInteger, value => by simp [loadsValue, Syntax.All, Syntax.Free, Syntax.Readable]
  | .arr items, value => by
    rw [loadsValue, Fallible.bind_eq_ok]
    simp only [loadsItems_ok_iff keeping, Except.ok.injEq, Syntax.All, Syntax.value]
    constructor
    · rintro ⟨values, ⟨free, rfl⟩, rfl⟩
      exact ⟨⟨⟨⟨by simp, by simp⟩, by simp [Syntax.Accepted]⟩, free⟩, rfl⟩
    · rintro ⟨⟨-, free⟩, rfl⟩
      exact ⟨_, ⟨free, rfl⟩, rfl⟩
  | .obj members, value => by
    rw [loadsValue, Fallible.bind_eq_ok]
    simp only [loadsMembers_ok_iff keeping, Syntax.All, Syntax.value]
    constructor
    · rintro ⟨pairs, ⟨free, rfl⟩, hooked⟩
      cases hooks : hook (Syntax.memberValues members) with
      | error error => simp [hooks] at hooked
      | ok object =>
        obtain ⟨acceptable, rfl⟩ := keeping.ok_iff.mp hooks
        rw [Syntax.memberValues_names] at acceptable
        refine ⟨⟨⟨⟨by simp, by simp⟩, ?_⟩, free⟩, by simpa [hooks] using hooked⟩
        intro others same
        cases same
        exact acceptable
    · rintro ⟨⟨⟨-, accepted⟩, free⟩, rfl⟩
      have acceptable := accepted members rfl
      rw [← Syntax.memberValues_names] at acceptable
      exact ⟨_, ⟨free, rfl⟩, by rw [keeping.keeps _ acceptable]⟩

theorem loadsItems_ok_iff (keeping : KeepsAccepted accepts hook) :
    ∀ (items : List Syntax) (values : List Json),
      loadsItems hook items = .ok values ↔ Syntax.AllItems (Syntax.Free accepts) items ∧ Syntax.values items = values
  | [], values => by simp [loadsItems, Syntax.AllItems, Syntax.values]
  | item :: items, values => by
    rw [loadsItems, Fallible.bind_eq_ok]
    simp only [Fallible.bind_eq_ok, loadsValue_ok_iff keeping item, loadsItems_ok_iff keeping items, Except.ok.injEq,
      Syntax.AllItems, Syntax.values]
    constructor
    · rintro ⟨_, ⟨free, rfl⟩, _, ⟨later, rfl⟩, rfl⟩
      exact ⟨⟨free, later⟩, rfl⟩
    · rintro ⟨⟨free, later⟩, rfl⟩
      exact ⟨_, ⟨free, rfl⟩, _, ⟨later, rfl⟩, rfl⟩

theorem loadsMembers_ok_iff (keeping : KeepsAccepted accepts hook) :
    ∀ (members : List (String × Syntax)) (pairs : JsonObject),
      loadsMembers hook members = .ok pairs ↔
        Syntax.AllMembers (Syntax.Free accepts) members ∧ Syntax.memberValues members = pairs
  | [], pairs => by simp [loadsMembers, Syntax.AllMembers, Syntax.memberValues]
  | (name, item) :: members, pairs => by
    rw [loadsMembers, Fallible.bind_eq_ok]
    simp only [Fallible.bind_eq_ok, loadsValue_ok_iff keeping item, loadsMembers_ok_iff keeping members,
      Except.ok.injEq, Syntax.AllMembers, Syntax.memberValues]
    constructor
    · rintro ⟨_, ⟨free, rfl⟩, _, ⟨later, rfl⟩, rfl⟩
      exact ⟨⟨free, later⟩, rfl⟩
    · rintro ⟨⟨free, later⟩, rfl⟩
      exact ⟨_, ⟨free, rfl⟩, _, ⟨later, rfl⟩, rfl⟩

end

mutual

/-- **The walk ends in the plain `ValueError` exactly where a huge integer is the first obstacle.** -/
theorem loadsValue_value_iff (keeping : KeepsAccepted accepts hook) :
    ∀ node : Syntax, loadsValue hook node = .error .value ↔ node.HugeFirst accepts
  | .leaf found => by simp [loadsValue, Syntax.HugeFirst]
  | .grammarError => by simp [loadsValue, Syntax.HugeFirst]
  | .hugeInteger => by simp [loadsValue, Syntax.HugeFirst]
  | .arr items => by
    rw [loadsValue, Fallible.bind_eq_error, loadsItems_value_iff keeping items, Syntax.HugeFirst]
    simp
  | .obj members => by
    rw [loadsValue, Fallible.bind_eq_error, loadsMembers_value_iff keeping members, Syntax.HugeFirst]
    refine or_iff_left ?_
    rintro ⟨pairs, -, hooked⟩
    cases hooks : hook pairs <;> simp [hooks] at hooked

theorem loadsItems_value_iff (keeping : KeepsAccepted accepts hook) :
    ∀ items : List Syntax, loadsItems hook items = .error .value ↔ Syntax.HugeFirstItems accepts items
  | [] => by simp [loadsItems, Syntax.HugeFirstItems]
  | item :: items => by
    rw [loadsItems, Fallible.bind_eq_error]
    simp only [Fallible.bind_eq_error, loadsValue_value_iff keeping item, loadsItems_value_iff keeping items,
      loadsValue_ok_iff keeping item, Syntax.HugeFirstItems, reduceCtorEq, and_false, exists_false, or_false]
    refine or_congr_right ⟨?_, ?_⟩
    · rintro ⟨_, ⟨free, -⟩, later⟩
      exact ⟨free, later⟩
    · rintro ⟨free, later⟩
      exact ⟨_, ⟨free, rfl⟩, later⟩

theorem loadsMembers_value_iff (keeping : KeepsAccepted accepts hook) :
    ∀ members : List (String × Syntax),
      loadsMembers hook members = .error .value ↔ Syntax.HugeFirstMembers accepts members
  | [] => by simp [loadsMembers, Syntax.HugeFirstMembers]
  | (name, item) :: members => by
    rw [loadsMembers, Fallible.bind_eq_error]
    simp only [Fallible.bind_eq_error, loadsValue_value_iff keeping item, loadsMembers_value_iff keeping members,
      loadsValue_ok_iff keeping item, Syntax.HugeFirstMembers, reduceCtorEq, and_false, exists_false, or_false]
    refine or_congr_right ⟨?_, ?_⟩
    · rintro ⟨_, ⟨free, -⟩, later⟩
      exact ⟨free, later⟩
    · rintro ⟨free, later⟩
      exact ⟨_, ⟨free, rfl⟩, later⟩

end

end Walk

end JsonText
