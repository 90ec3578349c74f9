/-
**Decoding `Mcp-Name` undoes its encoding.**

`encodeHeaderValue` is the client's side: a plain name stands for itself, any other name goes into the
Base64 sentinel. `decodeHeaderValueStrict` is `_decode_header_value` with the exceptions of the decoders;
`decodeHeaderValueStrict_ascii` connects it to `decodeHeaderValue`, in which they have become `None`.

`headerName_roundTrip`: every name is read back from its encoding and from its sentinel form, a modern call
that carries the encoding of a non-empty name is aimed at this name, and no ASCII value makes the decoder
raise.
-/

import McpAuth.Adapters.EnvelopeRouting
import McpAuth.Library.Base64

namespace McpAuth

open PyText

/-! ### The client's encoding -/

/-- A printable ASCII character. -/
def isPrintableAscii (char : Char) : Bool := 0x20 ≤ char.toNat && char.toNat ≤ 0x7E

/-- The value has the sentinel syntax; prefix and suffix may overlap. -/
def IsSentinel (value : String) : Prop :=
  base64Prefix.toList <+: value.toList ∧ base64Suffix.toList <:+ value.toList

instance (value : String) : Decidable (IsSentinel value) :=
  inferInstanceAs (Decidable (_ ∧ _))

/-- A name that needs no encoding. -/
structure IsPlainName (name : String) : Prop where
  printable : name.toList.all isPrintableAscii = true
  noLeading : ∀ char ∈ name.toList.head?, isSpace char = false
  noTrailing : ∀ char ∈ name.toList.getLast?, isSpace char = false
  noSentinel : ¬ IsSentinel name

instance (name : String) : Decidable (IsPlainName name) :=
  decidable_of_iff (name.toList.all isPrintableAscii = true ∧ (∀ char ∈ name.toList.head?, isSpace char = false) ∧
      (∀ char ∈ name.toList.getLast?, isSpace char = false) ∧ ¬ IsSentinel name)
    ⟨fun plain => ⟨plain.1, plain.2.1, plain.2.2.1, plain.2.2.2⟩,
      fun plain => ⟨plain.printable, plain.noLeading, plain.noTrailing, plain.noSentinel⟩⟩

/-- `"=?base64?" + base64(utf8(name)) + "?="`. -/
def sentinelForm (name : String) : String :=
  String.ofList (base64Prefix.toList ++ b64encodeChars (utf8Bytes name) ++ base64Suffix.toList)

/-- The header value for a name. -/
def encodeHeaderValue (name : String) : String := if IsPlainName name then name else sentinelForm name

/-! ### The decoder with its exceptions -/

/-- What the decoders raise: the `ValueError` of a `str` that is not ASCII, `binascii.Error`, or
`UnicodeDecodeError`. -/
inductive CodecError
  | nonAscii
  | binascii
  | unicodeDecode
  deriving DecidableEq

/-- `base64.b64decode(encoded, validate=True)`. -/
def b64decodeStrict (encoded : List Char) : Except CodecError Bytes :=
  if encoded.all isAscii then
    match b64decodeChars encoded with
    | some raw => .ok raw
    | none => .error .binascii
  else .error .nonAscii

/-- `raw.decode("utf-8")`. -/
def decodeUtf8Strict (raw : Bytes) : Except CodecError String :=
  match decodeUtf8 raw with
  | some text => .ok text
  | none => .error .unicodeDecode

/-- `_decode_header_value`, with what it raises. -/
def decodeHeaderValueStrict (value : String) : Except CodecError (Option String) :=
  let chars := value.toList
  if base64Prefix.toList <+: chars ∧ base64Suffix.toList <:+ chars then
    let encoded := (chars.take (chars.length - base64Suffix.length)).drop base64Prefix.length
    match (b64decodeStrict encoded).bind decodeUtf8Strict with
    | .ok text => .ok (some text)
    -- `except (binascii.Error, UnicodeDecodeError)`
    | .error .binascii => .ok none
    | .error .unicodeDecode => .ok none
    | .error .nonAscii => .error .nonAscii
  else if strip value ≠ value then .ok none
  else .ok (some value)

/-- **On ASCII values the decoder never raises**, and the caught exceptions are its `None`. -/
theorem decodeHeaderValueStrict_ascii {value : String} (ascii : IsAsciiText value) :
    decodeHeaderValueStrict value = .ok (decodeHeaderValue value) := by
  unfold decodeHeaderValueStrict decodeHeaderValue
  dsimp only
  split
  · have inside : ((value.toList.take (value.toList.length - base64Suffix.length)).drop
        base64Prefix.length).all isAscii = true := by
      rw [List.all_eq_true]
      intro char member
      exact ascii char (List.mem_of_mem_take (List.mem_of_mem_drop member))
    rw [b64decodeStrict, if_pos inside]
    cases b64decodeChars ((value.toList.take (value.toList.length - base64Suffix.length)).drop
        base64Prefix.length) with
    | none => rfl
    | some raw =>
      show (match decodeUtf8Strict raw with
        | .ok text => _ | .error .binascii => _ | .error .unicodeDecode => _ | .error .nonAscii => _) =
          Except.ok (decodeUtf8 raw)
      unfold decodeUtf8Strict
      cases decodeUtf8 raw <;> rfl
  · split <;> rfl

/-! ### Round trips -/

/-- A text without space at its ends is not changed by `strip`. -/
theorem strip_eq_self {text : String} (noLeading : ∀ char ∈ text.toList.head?, isSpace char = false)
    (noTrailing : ∀ char ∈ text.toList.getLast?, isSpace char = false) : strip text = text := by
  have left : text.toList.dropWhile isSpace = text.toList := by
    cases chars : text.toList with
    | nil => rfl
    | cons char rest =>
      have plain := noLeading char (by simp [chars])
      simp [plain]
  have right : text.toList.rdropWhile isSpace = text.toList := by
    rw [List.rdropWhile_eq_self_iff]
    intro nonempty
    have plain := noTrailing _ (List.getLast_mem_getLast? nonempty)
    simp [plain]
  rw [strip, left, right, String.ofList_toList]

/-- **A name is read back from its sentinel form.** -/
theorem decodeHeaderValue_sentinelForm (name : String) : decodeHeaderValue (sentinelForm name) = some name := by
  have opens : base64Prefix.toList <+: (sentinelForm name).toList := by
    rw [sentinelForm, String.toList_ofList, List.append_assoc]
    exact List.prefix_append _ _
  have closes : base64Suffix.toList <:+ (sentinelForm name).toList := by
    rw [sentinelForm, String.toList_ofList]
    exact List.suffix_append _ _
  have inside : ((sentinelForm name).toList.take ((sentinelForm name).toList.length - base64Suffix.length)).drop
      base64Prefix.length = b64encodeChars (utf8Bytes name) := by
    have suffixLength : base64Suffix.length = base64Suffix.toList.length := rfl
    have prefixLength : base64Prefix.length = base64Prefix.toList.length := rfl
    rw [sentinelForm, String.toList_ofList, List.length_append, suffixLength, Nat.add_sub_cancel, List.take_left,
      prefixLength, List.drop_left]
  unfold decodeHeaderValue
  dsimp only
  rw [if_pos ⟨opens, closes⟩, inside, b64decodeChars_encode]
  exact decodeUtf8_utf8Bytes name

theorem decodeHeaderValue_plain {name : String} (plain : IsPlainName name) : decodeHeaderValue name = some name := by
  unfold decodeHeaderValue
  have noSentinel : ¬ (base64Prefix.toList <+: name.toList ∧ base64Suffix.toList <:+ name.toList) := plain.noSentinel
  dsimp only
  rw [if_neg noSentinel, if_neg (not_not.mpr (strip_eq_self plain.noLeading plain.noTrailing))]

/-- **Decoding undoes encoding.** -/
theorem decodeHeaderValue_encode (name : String) : decodeHeaderValue (encodeHeaderValue name) = some name := by
  unfold encodeHeaderValue
  split
  · rename_i plain
    exact decodeHeaderValue_plain plain
  · exact decodeHeaderValue_sentinelForm name

/-- Encoded names are ASCII. -/
theorem isAsciiText_encodeHeaderValue (name : String) : IsAsciiText (encodeHeaderValue name) := by
  unfold encodeHeaderValue
  split
  · rename_i plain
    intro char member
    have printable := List.all_eq_true.mp plain.printable char member
    simp only [isPrintableAscii, Bool.and_eq_true, decide_eq_true_eq] at printable
    simp only [isAscii, decide_eq_true_eq]
    omega
  · intro char member
    rw [sentinelForm, String.toList_ofList, List.mem_append, List.mem_append] at member
    have opening : IsAsciiText base64Prefix := by decide
    have closing : IsAsciiText base64Suffix := by decide
    rcases member with (opens | digit) | closes
    · exact opening char opens
    · exact isAscii_b64encodeChars _ char digit
    · exact closing char closes

/-! ### Targets -/

/-- A well-formed header set of a modern `tools/call` whose `mcp-name` has the given value; other headers
are arbitrary. -/
structure CallsWithName (scope : HttpScope) (value : String) : Prop where
  post : scope.method = "POST"
  version : (headersNamed (asciiBytes "mcp-protocol-version") scope.headers).map Prod.snd =
    [asciiBytes modernProtocolVersion]
  method : (headersNamed (asciiBytes "mcp-method") scope.headers).map Prod.snd = [asciiBytes "tools/call"]
  name : (headersNamed (asciiBytes "mcp-name") scope.headers).map Prod.snd = [asciiBytes value]

theorem singleHeader_of_values {scope : HttpScope} {name : Bytes} {value : String}
    (values : (headersNamed name scope.headers).map Prod.snd = [asciiBytes value]) (ascii : IsAsciiText value) :
    singleHeader scope name = some value := by
  rw [headersNamed] at values
  rw [singleHeader, values]
  exact decodeAscii_asciiBytes ascii

/-- **Every name is read back, at every step**: from its encoding and its sentinel form by the decoder, from a
modern call that carries the encoding by `_target_from_scope`; and the decoder raises on no ASCII value. -/
theorem headerName_roundTrip (name : String) :
    decodeHeaderValue (encodeHeaderValue name) = some name ∧
    decodeHeaderValue (sentinelForm name) = some name ∧
    (name ≠ "" → ∀ scope, CallsWithName scope (encodeHeaderValue name) →
      targetFromScope scope = some ⟨"tools/call", name⟩) ∧
    ∀ value, IsAsciiText value → decodeHeaderValueStrict value = .ok (decodeHeaderValue value) := by
  refine ⟨decodeHeaderValue_encode name, decodeHeaderValue_sentinelForm name, fun nonempty scope calls => ?_,
    fun value ascii => decodeHeaderValueStrict_ascii ascii⟩
  have modern := singleHeader_of_values calls.version (by decide)
  have method := singleHeader_of_values calls.method (by decide)
  have named := singleHeader_of_values calls.name (isAsciiText_encodeHeaderValue name)
  unfold targetFromScope
  rw [if_neg (not_not.mpr calls.post)]
  dsimp only
  rw [named, modern, method]
  simp [decodeHeaderValue_encode, nonempty]

/-- A modern call of a tool whose name is not ASCII. -/
def relatorioScope : HttpScope :=
  ⟨"http", "POST", "/mcp", [(asciiBytes "mcp-protocol-version", asciiBytes "2026-07-28"),
    (asciiBytes "mcp-method", asciiBytes "tools/call"),
    (asciiBytes "mcp-name", asciiBytes "=?base64?cmVsYXTDs3Jpbw==?=")]⟩

theorem headerName_roundTrip_relatorio :
    decodeHeaderValue "=?base64?cmVsYXTDs3Jpbw==?=" = some "relatório" ∧
      targetFromScope relatorioScope = some ⟨"tools/call", "relatório"⟩ := by
  have encoded : encodeHeaderValue "relatório" = "=?base64?cmVsYXTDs3Jpbw==?=" := by decide +kernel
  obtain ⟨decodes, -, aims, -⟩ := headerName_roundTrip "relatório"
  rw [encoded] at decodes aims
  exact ⟨decodes, aims (by decide) relatorioScope ⟨rfl, by decide, by decide, by decide⟩⟩

end McpAuth
