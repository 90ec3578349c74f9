/-
**`logging.py` — what the log redactor does to an event.**

`redact_security_secrets` replaces what stands under a sensitive key and runs two substitutions over every string:
`_BEARER_PATTERN` first, then `_QUERY_SECRET_PATTERN`. Both ignore case.

`LogPlace.redact_eq_iff`: two events that differ in one place have the same redaction exactly when a key above the
place is sensitive or is used again below it, or the values have the same redaction under their key.
-/

import McpAuth.Library.Multidict
import McpAuth.Library.PyNumbers
import McpAuth.Library.PyText
import McpAuth.Library.Substitution

namespace McpAuth

open PyText PyNumbers Substitution

/-! ### Patterns -/

/-- `str.isalnum` outside ASCII. -/
class WordTable where
  isAlnum : Char → Bool

/-- `\w`. -/
def isWord [WordTable] (char : Char) : Bool :=
  if isAscii char then ('a' ≤ char && char ≤ 'z') || ('A' ≤ char && char ≤ 'Z') || isDigit char || char == '_'
  else WordTable.isAlnum char

/-- The characters outside ASCII that match a letter when case is ignored. -/
def extraCases : List (Char × Char) := [('i', '\u0130'), ('i', '\u0131'), ('k', '\u212a'), ('s', '\u017f')]

/-- A character that matches a lower-case letter, or another character of a pattern, when case is ignored. -/
def sameLetter (letter char : Char) : Bool :=
  asciiLowerChar char == letter || extraCases.contains (letter, char)

/-- The text starts with the word. -/
def startsWith : List Char → List Char → Bool
  | [], _ => true
  | _ :: _, [] => false
  | letter :: word, char :: text => sameLetter letter char && startsWith word text

def isCredentialChar (char : Char) : Bool := !isSpace char && char != ',' && char != ';'

def isValueChar (char : Char) : Bool := !isSpace char && char != '&'

def bearerWord : List Char := "bearer".toList

def redactedText : String := "[REDACTED]"

/-- `_BEARER_PATTERN` with its replacement. -/
def bearerPattern [WordTable] : Matcher Char := fun prev text =>
  if prev.any isWord then none
  else if startsWith bearerWord text then
    let behind := text.drop bearerWord.length
    let space := behind.takeWhile isSpace
    let credential := (behind.drop space.length).takeWhile isCredentialChar
    if space = [] ∨ credential = [] then none
    else some (bearerWord.length + space.length + credential.length - 1, "Bearer ".toList ++ redactedText.toList)
  else none

/-- The names of `_QUERY_SECRET_PATTERN`. -/
def querySecretNames : List (List Char) :=
  ["access_token".toList, "refresh_token".toList, "id_token".toList, "client_secret".toList]

/-- `_QUERY_SECRET_PATTERN` with its replacement. -/
def querySecretPattern : Matcher Char := fun _ text =>
  match querySecretNames.find? fun name => startsWith (name ++ ['=']) text with
  | none => none
  | some name =>
    let value := (text.drop (name.length + 1)).takeWhile isValueChar
    if value = [] then none
    else some (name.length + value.length, text.take name.length ++ '=' :: redactedText.toList)

/-- What becomes of a string. -/
def redactText [WordTable] (text : String) : String :=
  String.ofList (sub querySecretPattern (sub bearerPattern text.toList))

/-! ### Values -/

variable {α : Type}

/-- A key of a nested dict: a `str`, or another key with its `str(key)`. -/
inductive LogKey (α : Type)
  | text (text : String)
  | other (key : α) (shown : String)

/-- `str(key)`. -/
def LogKey.shown : LogKey α → String
  | .text key => key
  | .other _ shown => shown

/-- A value of an event. -/
inductive LogValue (α : Type)
  | dict (entries : List (LogKey α × LogValue α))
  | list (items : List (LogValue α))
  | tuple (items : List (LogValue α))
  | text (text : String)
  | other (scalar : α)

/-- `_SENSITIVE_LOG_FIELDS`. -/
def sensitiveLogFields : List String :=
  ["access_token", "authorization", "bearer_token", "client_secret", "code_verifier", "id_token", "password",
    "proxy_authorization", "refresh_token", "token"]

/-- `key.lower().replace("-", "_")`. -/
def normalizedKey [UnicodeTables] (key : String) : String :=
  String.ofList ((lower key).toList.map fun char => if char = '-' then '_' else char)

def isSensitive [UnicodeTables] (key : String) : Bool := sensitiveLogFields.contains (normalizedKey key)

/-- `{key: value for key, value in entries}`. -/
def dictOf (entries : List (String × LogValue α)) : List (LogKey α × LogValue α) :=
  (entries.foldl (fun kept entry => Multidict.put Prod.fst entry kept) []).map fun entry => (.text entry.1, entry.2)

variable [UnicodeTables] [WordTable]

mutual

/-- `_redact_log_value`. -/
def redactLogValue (key : String) (value : LogValue α) : LogValue α :=
  if isSensitive key then .text redactedText
  else
    match value with
    | .dict entries => .dict (dictOf (redactEntries entries))
    | .list items => .list (redactItems items)
    | .tuple items => .tuple (redactItems items)
    | .text string => .text (redactText string)
    | .other scalar => .other scalar

def redactEntries : List (LogKey α × LogValue α) → List (String × LogValue α)
  | [] => []
  | (key, value) :: later => (key.shown, redactLogValue key.shown value) :: redactEntries later

def redactItems : List (LogValue α) → List (LogValue α)
  | [] => []
  | item :: later => redactLogValue "" item :: redactItems later

end

/-- `redact_security_secrets` of the entries of an event. -/
def redactSecuritySecrets (event : List (String × LogValue α)) : List (String × LogValue α) :=
  event.map fun entry => (entry.1, redactLogValue entry.1 entry.2)

/-! ### One place of an event -/

/-- What stands around a value inside a value. -/
inductive LogFrame (α : Type)
  | dict (before : List (LogKey α × LogValue α)) (key : LogKey α) (after : List (LogKey α × LogValue α))
  | list (before after : List (LogValue α))
  | tuple (before after : List (LogValue α))

namespace LogFrame

def fill : LogFrame α → LogValue α → LogValue α
  | .dict before key after, value => .dict (before ++ (key, value) :: after)
  | .list before after, value => .list (before ++ value :: after)
  | .tuple before after, value => .tuple (before ++ value :: after)

/-- The key under which the value inside is redacted. -/
def name : LogFrame α → String
  | .dict _ key _ => key.shown
  | .list .. => ""
  | .tuple .. => ""

/-- A later key of the dict has the same `str`. -/
def Overwrites : LogFrame α → Prop
  | .dict _ key after => ∃ entry ∈ after, entry.1.shown = key.shown
  | .list .. => False
  | .tuple .. => False

end LogFrame

/-- A place in an event: what stands around it, from the outside in. -/
structure LogPlace (α : Type) where
  before : List (String × LogValue α)
  key : String
  after : List (String × LogValue α)
  frames : List (LogFrame α)

namespace LogPlace

/-- The event with a value at the place. -/
def fill (place : LogPlace α) (value : LogValue α) : List (String × LogValue α) :=
  place.before ++ (place.key, place.frames.foldr LogFrame.fill value) :: place.after

/-- The key under which the value at the place is redacted. -/
def name (place : LogPlace α) : String := (place.frames.getLast?.map LogFrame.name).getD place.key

/-- Nothing is left of the value: a key above it is sensitive, or is used again below it. -/
def Hides (place : LogPlace α) : Prop :=
  isSensitive place.key = true ∨ ∃ frame ∈ place.frames, isSensitive frame.name = true ∨ frame.Overwrites

end LogPlace

theorem redactEntries_eq_map (entries : List (LogKey α × LogValue α)) :
    redactEntries entries = entries.map fun entry => (entry.1.shown, redactLogValue entry.1.shown entry.2) := by
  induction entries with
  | nil => rw [redactEntries, List.map_nil]
  | cons entry entries ih => rw [redactEntries, ih, List.map_cons]

theorem redactItems_eq_map (items : List (LogValue α)) : redactItems items = items.map (redactLogValue "") := by
  induction items with
  | nil => rw [redactItems, List.map_nil]
  | cons item items ih => rw [redactItems, ih, List.map_cons]

omit [UnicodeTables] [WordTable] in
/-- Two dicts that are built from the same entries but one. -/
theorem dictOf_eq_iff {before after : List (String × LogValue α)} {key : String} {value other : LogValue α} :
    dictOf (before ++ (key, value) :: after) = dictOf (before ++ (key, other) :: after) ↔
      (∃ entry ∈ after, entry.1 = key) ∨ value = other := by
  have injective : Function.Injective fun entry : String × LogValue α =>
      ((.text entry.1, entry.2) : LogKey α × LogValue α) := by
    rintro ⟨key, value⟩ ⟨key', value'⟩ same
    cases same
    rfl
  have sameKey : (key, value).1 = (key, other).1 := rfl
  rw [dictOf, dictOf, (List.map_injective_iff.mpr injective).eq_iff, Multidict.foldl_put_eq_iff sameKey]
  simp

/-- **One frame**: the redaction of what is inside shows unless the key is sensitive or the entry is stored over. -/
theorem redact_fill_iff {frame : LogFrame α} {key : String} {value other : LogValue α} :
    redactLogValue key (frame.fill value) = redactLogValue key (frame.fill other) ↔
      isSensitive key = true ∨ frame.Overwrites ∨ redactLogValue frame.name value = redactLogValue frame.name other := by
  cases sensitive : isSensitive key with
  | true => simp [redactLogValue.eq_def, sensitive]
  | false =>
    rw [redactLogValue.eq_def, redactLogValue.eq_def key, sensitive]
    cases frame with
    | dict before inner after =>
      simp only [LogFrame.fill, LogFrame.name, LogFrame.Overwrites, Bool.false_eq_true, if_false, false_or,
        LogValue.dict.injEq, redactEntries_eq_map, List.map_append, List.map_cons]
      rw [dictOf_eq_iff]
      simp
    | list before after =>
      simp [LogFrame.fill, LogFrame.name, LogFrame.Overwrites, redactItems_eq_map]
    | tuple before after =>
      simp [LogFrame.fill, LogFrame.name, LogFrame.Overwrites, redactItems_eq_map]

/-- What is inside frames shows unless one of them hides it. -/
theorem redact_frames_iff {frames : List (LogFrame α)} {key : String} {value other : LogValue α} :
    redactLogValue key (frames.foldr LogFrame.fill value) = redactLogValue key (frames.foldr LogFrame.fill other) ↔
      (isSensitive key = true ∨ ∃ frame ∈ frames, isSensitive frame.name = true ∨ frame.Overwrites) ∨
        redactLogValue ((frames.getLast?.map LogFrame.name).getD key) value =
          redactLogValue ((frames.getLast?.map LogFrame.name).getD key) other := by
  induction frames generalizing key with
  | nil =>
    refine ⟨Or.inr, ?_⟩
    rintro ((sensitive | ⟨_, member, _⟩) | same)
    · simp [redactLogValue.eq_def, sensitive]
    · cases member
    · exact same
  | cons frame frames ih =>
    have last : ((frame :: frames).getLast?.map LogFrame.name).getD key =
        (frames.getLast?.map LogFrame.name).getD frame.name := by
      rw [List.getLast?_cons]
      cases frames.getLast? <;> rfl
    have rearrange : ∀ a b c d e : Prop, (a ∨ b ∨ (c ∨ d) ∨ e) ↔ (a ∨ (c ∨ b) ∨ d) ∨ e := by tauto
    rw [List.foldr_cons, List.foldr_cons, redact_fill_iff, ih, last, List.exists_mem_cons_iff]
    exact rearrange _ _ _ _ _

/-- **One place**: the redaction of the value shows unless the place hides it. -/
theorem LogPlace.redact_eq_iff {place : LogPlace α} {value other : LogValue α} :
    redactSecuritySecrets (place.fill value) = redactSecuritySecrets (place.fill other) ↔
      place.Hides ∨ redactLogValue place.name value = redactLogValue place.name other := by
  rw [LogPlace.Hides, LogPlace.name, ← redact_frames_iff]
  simp [redactSecuritySecrets, LogPlace.fill]

theorem redact_text_iff {key text other : String} :
    redactLogValue key (.text text : LogValue α) = redactLogValue key (.text other) ↔
      isSensitive key = true ∨ redactText text = redactText other := by
  cases sensitive : isSensitive key with
  | true => simp [redactLogValue.eq_def, sensitive]
  | false => simp [redactLogValue.eq_def, sensitive]

end McpAuth
