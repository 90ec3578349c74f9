/-
**JSON values and `json.loads` with an `object_pairs_hook`.**

* `Json` — a Python value that JSON can denote. `None` is `Json.null`, and `get` follows
  `dict.get(name)`: a missing member and a `null` member read the same.
* `Syntax` / `Document` — what the grammar makes of a text. A node that the scanner cannot read is a
  leaf: `grammarError` where it raises `JSONDecodeError`, `hugeInteger` where it raises the plain
  `ValueError` of an integer literal with more than 4300 digits.
* `loads` — the scanner's walk over that syntax: left to right, an object's hook after its members,
  and the first failure ends it.

The grammar itself (text to `Document`) is a parameter of every user of this module.
-/

import McpAuth.Library.PyNumbers

namespace JsonText

/-! ### Values -/

/-- A Python value that JSON can denote. A float is kept as its `repr`, which determines it. -/
inductive Json
  | null
  | bool (value : Bool)
  | int (value : Int)
  | float (text : String)
  | str (value : String)
  | arr (items : List Json)
  | obj (members : List (String × Json))

/-- A Python `dict` with string keys. -/
abbrev JsonObject := List (String × Json)

/-- `members.get(name)`. -/
def get (members : JsonObject) (name : String) : Json := (members.lookup name).getD .null

/-- `value == text` for a string `text`. -/
def Json.isText (value : Json) (text : String) : Bool :=
  match value with
  | .str found => found == text
  | _ => false

/-- `value is None`. -/
def Json.isNone : Json → Bool
  | .null => true
  | _ => false

/-- The string, when `isinstance(value, str)`. -/
def Json.asText : Json → Option String
  | .str value => some value
  | _ => none

/-- The list, when `isinstance(value, list)`. -/
def Json.asList : Json → Option (List Json)
  | .arr items => some items
  | _ => none

/-- The dictionary, when `isinstance(value, dict)`. -/
def Json.asObject : Json → Option JsonObject
  | .obj members => some members
  | _ => none

/-- `bool(value)`: zero and empty values are falsy. -/
def Json.truthy : Json → Bool
  | .null => false
  | .bool value => value
  | .int value => value != 0
  | .float text => text != "0.0" && text != "-0.0"
  | .str value => value != ""
  | .arr items => !items.isEmpty
  | .obj members => !members.isEmpty

/-- The parts of `str` and `int` that need `str.isprintable` or the binary value of a float: the text of
a list or a dict, and `int` of a float, `none` where it raises. -/
class PyRepr where
  containerText : Json → String
  intOfFloat : String → Option Int

/-- `str(value)`. -/
def Json.toStr [PyRepr] : Json → String
  | .null => "None"
  | .bool true => "True"
  | .bool false => "False"
  | .int value => toString value
  | .float text => text
  | .str value => value
  | value => PyRepr.containerText value

/-- `int(value)`, `none` where it raises. -/
def Json.toInt [PyRepr] [PyText.UnicodeTables] : Json → Option Int
  | .bool value => some (if value then 1 else 0)
  | .int value => some value
  | .float text => PyRepr.intOfFloat text
  | .str value => PyNumbers.parseInt 10 value
  | .null | .arr _ | .obj _ => none

theorem Json.isText_iff {value : Json} {text : String} :
    value.isText text = true ↔ value = .str text := by
  cases value <;> simp [Json.isText]

theorem Json.isNone_iff {value : Json} : value.isNone = true ↔ value = .null := by
  cases value <;> simp [Json.isNone]

theorem Json.asText_eq_some {value : Json} {text : String} :
    value.asText = some text ↔ value = .str text := by
  cases value <;> simp [Json.asText]

/-- Two dictionaries that read the same under every name outside `names`. -/
def AgreeOff (names : List String) (first second : JsonObject) : Prop :=
  ∀ name, name ∉ names → get first name = get second name

theorem AgreeOff.symm {names : List String} {first second : JsonObject}
    (agree : AgreeOff names first second) : AgreeOff names second first :=
  fun name outside => (agree name outside).symm

/-- Adding one member changes what is read under its name only. -/
theorem agreeOff_cons (name : String) (value : Json) (members : JsonObject) :
    AgreeOff [name] members ((name, value) :: members) := by
  intro other outside
  have differs : (other == name) = false := by simpa using outside
  unfold JsonText.get
  rw [List.lookup_cons, differs]

/-! ### `json.loads` -/

/-- What the JSON grammar makes of one value of a text. -/
inductive Syntax
  | leaf (value : Json)
  | arr (items : List Syntax)
  | obj (members : List (String × Syntax))
  | grammarError
  | hugeInteger

/-- What the JSON grammar makes of a whole text: its value and whether other text follows it. -/
structure Document where
  root : Syntax
  extraData : Bool

/-- The exceptions of `json.loads`: `JSONDecodeError`, a plain `ValueError`, or whatever the hook
raised. -/
inductive LoadsError (ε : Type)
  | jsonDecode
  | value
  | hook (error : ε)

variable {ε : Type}

mutual

/-- The scanner's walk over one value. -/
def loadsValue (hook : JsonObject → Except ε JsonObject) : Syntax → Except (LoadsError ε) Json
  | .leaf value => .ok value
  | .grammarError => .error .jsonDecode
  | .hugeInteger => .error .value
  | .arr items => do
    let values ← loadsItems hook items
    .ok (.arr values)
  | .obj members => do
    let pairs ← loadsMembers hook members
    match hook pairs with
    | .ok object => .ok (.obj object)
    | .error error => .error (.hook error)

/-- The scanner's walk over the items of an array. -/
def loadsItems (hook : JsonObject → Except ε JsonObject) :
    List Syntax → Except (LoadsError ε) (List Json)
  | [] => .ok []
  | item :: rest => do
    let value ← loadsValue hook item
    let values ← loadsItems hook rest
    .ok (value :: values)

/-- The scanner's walk over the members of an object. -/
def loadsMembers (hook : JsonObject → Except ε JsonObject) :
    List (String × Syntax) → Except (LoadsError ε) JsonObject
  | [] => .ok []
  | (name, item) :: rest => do
    let value ← loadsValue hook item
    let pairs ← loadsMembers hook rest
    .ok ((name, value) :: pairs)

end

/-- `json.loads(text, object_pairs_hook=hook)` of a text with the given syntax. -/
def loads (hook : JsonObject → Except ε JsonObject) (document : Document) :
    Except (LoadsError ε) Json := do
  let value ← loadsValue hook document.root
  if document.extraData then .error .jsonDecode else .ok value

end JsonText
