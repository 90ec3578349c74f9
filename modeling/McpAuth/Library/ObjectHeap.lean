/-
**A heap of Python objects and the values read off it.**

Lists, dicts and model instances live at addresses; a reference is an immutable scalar or an address. An
allocation puts a new object behind those that exist, so code that only allocates leaves every object that
it was given as it was: `Heap.alloc_extends`.

`Reads heap ref value` says that a JSON value is what is read at a reference. `Reads.mono`: what was read
before an allocation is read after it.
-/

import Mathlib.Data.List.Forall2
import McpAuth.Library.JsonText

namespace ObjectHeap

open JsonText

/-! ### Objects -/

/-- An immutable scalar, or the address of an object. -/
inductive Ref
  | scalar (value : Json)
  | address (location : ℕ)

/-- One object: a `list`, a `dict`, or a model instance with its class and its fields. -/
inductive Cell
  | list (items : List Ref)
  | dict (members : List (String × Ref))
  | model (type : String) (fields : List (String × Ref))

/-- The objects in the order of their allocation; an address is a position. -/
abbrev Heap := List Cell

/-- A new object and its address. -/
def Heap.alloc (heap : Heap) (cell : Cell) : Heap × Ref := (heap ++ [cell], .address heap.length)

/-- **An allocation changes no object that exists.** -/
theorem Heap.alloc_extends (heap : Heap) (cell : Cell) : heap <+: (heap.alloc cell).1 :=
  List.prefix_append heap [cell]

/-- The new object is at its address. -/
@[simp] theorem Heap.alloc_new (heap : Heap) (cell : Cell) :
    (heap.alloc cell).1[heap.length]? = some cell := by
  simp [Heap.alloc]

/-- An object that exists is found in every larger heap. -/
theorem getElem?_of_prefix {heap larger : Heap} (grows : heap <+: larger) {location : ℕ} {cell : Cell}
    (found : heap[location]? = some cell) : larger[location]? = some cell := by
  obtain ⟨bound, rfl⟩ := List.getElem?_eq_some_iff.mp found
  exact List.prefix_iff_getElem?.mp grows location bound

/-! ### Reading values -/

mutual

/-- The JSON value read at a reference. -/
def Reads (heap : Heap) (ref : Ref) : Json → Prop
  | .arr items => ∃ location refs, ref = .address location ∧ heap[location]? = some (.list refs) ∧
      ReadsItems heap refs items
  | .obj members => ∃ location refs, ref = .address location ∧ heap[location]? = some (.dict refs) ∧
      ReadsMembers heap refs members
  | value => ref = .scalar value

/-- The JSON values read at the items of a list. -/
def ReadsItems (heap : Heap) : List Ref → List Json → Prop
  | refs, [] => refs = []
  | refs, item :: items => ∃ ref rest, refs = ref :: rest ∧ Reads heap ref item ∧ ReadsItems heap rest items

/-- The JSON members read at the members of a dict. -/
def ReadsMembers (heap : Heap) : List (String × Ref) → JsonObject → Prop
  | refs, [] => refs = []
  | refs, (name, value) :: members => ∃ ref rest, refs = (name, ref) :: rest ∧ Reads heap ref value ∧
      ReadsMembers heap rest members

end

mutual

/-- **A larger heap reads the same values.** -/
theorem Reads.mono {heap larger : Heap} (grows : heap <+: larger) {ref : Ref} :
    ∀ {value : Json}, Reads heap ref value → Reads larger ref value
  | .arr _, ⟨location, refs, isRef, found, items⟩ =>
    ⟨location, refs, isRef, getElem?_of_prefix grows found, ReadsItems.mono grows items⟩
  | .obj _, ⟨location, refs, isRef, found, members⟩ =>
    ⟨location, refs, isRef, getElem?_of_prefix grows found, ReadsMembers.mono grows members⟩
  | .null, isRef => isRef
  | .bool _, isRef => isRef
  | .int _, isRef => isRef
  | .float _, isRef => isRef
  | .str _, isRef => isRef

theorem ReadsItems.mono {heap larger : Heap} (grows : heap <+: larger) :
    ∀ {refs : List Ref} {items : List Json}, ReadsItems heap refs items → ReadsItems larger refs items
  | _, [], empty => empty
  | _, _ :: _, ⟨ref, rest, isRefs, first, later⟩ =>
    ⟨ref, rest, isRefs, first.mono grows, later.mono grows⟩

theorem ReadsMembers.mono {heap larger : Heap} (grows : heap <+: larger) :
    ∀ {refs : List (String × Ref)} {members : JsonObject},
      ReadsMembers heap refs members → ReadsMembers larger refs members
  | _, [], empty => empty
  | _, (_, _) :: _, ⟨ref, rest, isRefs, first, later⟩ =>
    ⟨ref, rest, isRefs, first.mono grows, later.mono grows⟩

end

theorem readsItems_iff {heap : Heap} {refs : List Ref} {items : List Json} :
    ReadsItems heap refs items ↔ List.Forall₂ (Reads heap) refs items := by
  induction items generalizing refs with
  | nil => simp [ReadsItems]
  | cons item items ih =>
    rw [List.forall₂_cons_right_iff]
    constructor
    · rintro ⟨ref, rest, isRefs, first, later⟩
      exact ⟨ref, rest, first, ih.mp later, isRefs⟩
    · rintro ⟨ref, rest, first, later, isRefs⟩
      exact ⟨ref, rest, isRefs, first, ih.mpr later⟩

/-- The reference under a name reads the member under it. -/
theorem ReadsMembers.lookup {heap : Heap} {refs : List (String × Ref)} {members : JsonObject}
    (reads : ReadsMembers heap refs members) (name : String) :
    match members.lookup name with
    | some value => ∃ ref, refs.lookup name = some ref ∧ Reads heap ref value
    | none => refs.lookup name = none := by
  induction members generalizing refs with
  | nil =>
    have empty : refs = [] := reads
    simp [empty]
  | cons member members ih =>
    obtain ⟨first, value⟩ := member
    obtain ⟨ref, rest, rfl, here, later⟩ := reads
    by_cases same : name = first
    · subst same
      simpa using here
    · have differs : (name == first) = false := by simpa using same
      simpa only [List.lookup_cons, differs] using ih later

/-- A dict with one member replaced is read as the value with the member replaced. -/
theorem ReadsMembers.replace {heap larger : Heap} (grows : heap <+: larger) {refs : List (String × Ref)}
    {members : JsonObject} (reads : ReadsMembers heap refs members) {name : String} {ref : Ref} {value : Json}
    (new : Reads larger ref value) :
    ReadsMembers larger (refs.map fun member => if member.1 == name then (name, ref) else member)
      (members.map fun member => if member.1 == name then (name, value) else member) := by
  induction members generalizing refs with
  | nil =>
    have empty : refs = [] := reads
    subst empty
    rfl
  | cons member members ih =>
    obtain ⟨first, old⟩ := member
    obtain ⟨oldRef, rest, rfl, here, later⟩ := reads
    by_cases same : first = name
    · subst same
      simp only [List.map_cons, beq_self_eq_true, if_true]
      exact ⟨ref, _, rfl, new, ih later⟩
    · have differs : (first == name) = false := by simpa using same
      simp only [List.map_cons, differs]
      exact ⟨oldRef, _, rfl, here.mono grows, ih later⟩

end ObjectHeap
