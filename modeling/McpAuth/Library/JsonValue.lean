/-
**JSON values as trees and as text.**

* `asObject_eq_some`, `asList_eq_some` — which values are objects and lists;
* `Json.weight` — the number of nodes of a value, which bounds every walk over it;
* `dumps` — `json.dumps` with sorted keys: with an indentation, or on one line.
-/

import McpAuth.Library.JsonText
import Mathlib.Algebra.GroupWithZero.Nat

namespace JsonText

open PyText

theorem asObject_eq_some {value : Json} {members : JsonObject} : value.asObject = some members ↔ value = .obj members := by
  cases value <;> simp [Json.asObject]

theorem asList_eq_some {value : Json} {items : List Json} : value.asList = some items ↔ value = .arr items := by
  cases value <;> simp [Json.asList]

/-! ### Nodes -/

mutual

/-- The number of nodes of a value. -/
def Json.weight : Json → ℕ
  | .arr items => 1 + Json.weights items
  | .obj members => 1 + Json.memberWeights members
  | _ => 1

def Json.weights : List Json → ℕ
  | [] => 0
  | item :: later => item.weight + Json.weights later

def Json.memberWeights : List (String × Json) → ℕ
  | [] => 0
  | (_, value) :: later => value.weight + Json.memberWeights later

end

theorem weights_eq_sum (items : List Json) : Json.weights items = (items.map Json.weight).sum := by
  induction items with
  | nil => rfl
  | cons item later ih => rw [Json.weights, ih, List.map_cons, List.sum_cons]

/-- A member is no heavier than the members. -/
theorem weight_le_of_lookup {members : JsonObject} {name : String} {value : Json}
    (found : members.lookup name = some value) : value.weight ≤ Json.memberWeights members := by
  induction members with
  | nil => cases found
  | cons entry later ih =>
    obtain ⟨key, other⟩ := entry
    rw [List.lookup_cons] at found
    rw [Json.memberWeights]
    split at found
    · cases found
      omega
    · have below := ih found
      omega

/-! ### `json.dumps` -/

/-- `\\uXXXX`. -/
def escapedUnit (unit : ℕ) : List Char :=
  '\\' :: 'u' :: [unit / 4096, unit / 256 % 16, unit / 16 % 16, unit % 16].map Nat.digitChar

/-- A character of a string, as `json.dumps` writes it. -/
def escapedChar (char : Char) : List Char :=
  if char = '"' then ['\\', '"']
  else if char = '\\' then ['\\', '\\']
  else if char = '\n' then ['\\', 'n']
  else if char = '\r' then ['\\', 'r']
  else if char = '\t' then ['\\', 't']
  else if char = '\x08' then ['\\', 'b']
  else if char = '\x0c' then ['\\', 'f']
  else if ' ' ≤ char ∧ char ≤ '~' then [char]
  else if char.toNat < 0x10000 then escapedUnit char.toNat
  else
    let rest := char.toNat - 0x10000
    escapedUnit (0xD800 + rest / 1024) ++ escapedUnit (0xDC00 + rest % 1024)

def quotedText (text : String) : List Char := '"' :: text.toList.flatMap escapedChar ++ ['"']

/-- A float, whose `repr` differs from its JSON where it is not finite. -/
def floatText (text : String) : String :=
  if text = "nan" then "NaN" else if text = "inf" then "Infinity" else if text = "-inf" then "-Infinity" else text

/-- The line break before an element at a level, where there is an indentation. -/
def breakAt (indent : Option ℕ) (level : ℕ) : List Char :=
  match indent with
  | none => []
  | some width => '\n' :: List.replicate (width * level) ' '

/-- What stands between two elements at a level. -/
def separatorAt (indent : Option ℕ) (level : ℕ) : List Char :=
  if indent.isSome then ',' :: breakAt indent level else [',', ' ']

/-- A container with its elements at the next level. -/
def container (indent : Option ℕ) (level : ℕ) (start stop : Char) (elements : List (List Char)) : List Char :=
  if elements = [] then [start, stop]
  else start :: breakAt indent (level + 1) ++ (separatorAt indent (level + 1)).intercalate elements ++
    breakAt indent level ++ [stop]

def memberText (member : String × List Char) : List Char := quotedText member.1 ++ ':' :: ' ' :: member.2

mutual

/-- The text of a value at a level. -/
def dumpAt (indent : Option ℕ) (level : ℕ) : Json → List Char
  | .null => "null".toList
  | .bool value => if value then "true".toList else "false".toList
  | .int value => (toString value).toList
  | .float text => (floatText text).toList
  | .str text => quotedText text
  | .arr items => container indent level '[' ']' (dumpItems indent (level + 1) items)
  | .obj members =>
    let sorted := (dumpMembers indent (level + 1) members).insertionSort fun first second => first.1 ≤ second.1
    container indent level '\x7b' '\x7d' (sorted.map memberText)

def dumpItems (indent : Option ℕ) (level : ℕ) : List Json → List (List Char)
  | [] => []
  | item :: later => dumpAt indent level item :: dumpItems indent level later

def dumpMembers (indent : Option ℕ) (level : ℕ) : List (String × Json) → List (String × List Char)
  | [] => []
  | (name, value) :: later => (name, dumpAt indent level value) :: dumpMembers indent level later

end

/-- `json.dumps(value, indent=indent, sort_keys=True)`. -/
def dumps (indent : Option ℕ) (value : Json) : String := String.ofList (dumpAt indent 0 value)

example : dumps none (.obj [("b", .arr [.int 1, .bool true]), ("a", .str "\n")]) =
    "\x7b\"a\": \"\\n\", \"b\": [1, true]\x7d" := by decide +kernel

end JsonText
