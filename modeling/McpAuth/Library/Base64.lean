/-
**Base64 — encoding, and that decoding undoes it.**

`b64encodeChars` writes groups of three bytes as four digits and pads the last group. `base64Digit_base64Char`
says that the alphabet is read back, `b64decodeChars_group` what one unpadded group decodes to, and
`b64decodeChars_encode` is the round trip of a whole byte string.

`utf8Bytes` / `decodeUtf8_utf8Bytes` are the same for UTF-8, and `asciiBytes` for ASCII.
-/

import McpAuth.Library.PyText

namespace PyText

/-! ### Base64 -/

/-- The digit of a six-bit value. -/
def base64Char (value : ℕ) : Char :=
  if value < 26 then Char.ofNat ('A'.toNat + value)
  else if value < 52 then Char.ofNat ('a'.toNat + (value - 26))
  else if value < 62 then Char.ofNat ('0'.toNat + (value - 52))
  else if value = 62 then '+'
  else '/'

/-- The digits of a byte string, padded to whole groups of four. -/
def b64encodeChars : Bytes → List Char
  | [] => []
  | [a] => [base64Char (a.toNat / 4), base64Char (a.toNat % 4 * 16), '=', '=']
  | [a, b] => [base64Char (a.toNat / 4), base64Char (a.toNat % 4 * 16 + b.toNat / 16),
      base64Char (b.toNat % 16 * 4), '=']
  | a :: b :: c :: rest => base64Char (a.toNat / 4) :: base64Char (a.toNat % 4 * 16 + b.toNat / 16) ::
      base64Char (b.toNat % 16 * 4 + c.toNat / 64) :: base64Char (c.toNat % 64) :: b64encodeChars rest

/-- **The alphabet is read back.** -/
theorem base64Digit_base64Char : ∀ value < 64, base64Digit (base64Char value) = some value := by decide

/-- A digit is an ASCII character and no padding. -/
theorem base64Char_plain : ∀ value < 64, base64Char value ≠ '=' ∧ isAscii (base64Char value) = true := by decide

/-- One group of digits without padding, and what follows it. -/
theorem b64decodeChars_group {first second third fourth : ℕ} (firstDigit : first < 64)
    (secondDigit : second < 64) (thirdDigit : third < 64) (fourthDigit : fourth < 64) (rest : List Char) :
    b64decodeChars (base64Char first :: base64Char second :: base64Char third :: base64Char fourth :: rest) =
      (b64decodeChars rest).map fun tail => UInt8.ofNat (first * 4 + second / 16) ::
        UInt8.ofNat (second % 16 * 16 + third / 4) :: UInt8.ofNat (third % 4 * 64 + fourth) :: tail := by
  have unpadded := (base64Char_plain fourth fourthDigit).1
  rw [b64decodeChars, base64Digit_base64Char first firstDigit, base64Digit_base64Char second secondDigit,
    base64Digit_base64Char third thirdDigit, base64Digit_base64Char fourth fourthDigit]
  · cases b64decodeChars rest <;> rfl
  · intro _ isPadding
    exact absurd isPadding unpadded
  · intro isPadding
    exact absurd isPadding unpadded

/-- A byte whose value is put together from its parts. -/
theorem ofNat_eq_of_toNat {byte : UInt8} {value : ℕ} (same : value = byte.toNat) : UInt8.ofNat value = byte := by
  rw [same, UInt8.ofNat_toNat]

/-- **Decoding undoes encoding.** -/
theorem b64decodeChars_encode (raw : Bytes) : b64decodeChars (b64encodeChars raw) = some raw := by
  induction raw using b64encodeChars.induct with
  | case1 => rfl
  | case2 a =>
    have bound := a.toNat_lt
    have first : UInt8.ofNat (a.toNat / 4 * 4 + a.toNat % 4 * 16 / 16) = a := ofNat_eq_of_toNat (by omega)
    rw [b64encodeChars, b64decodeChars, base64Digit_base64Char _ (by omega), base64Digit_base64Char _ (by omega)]
    exact congrArg (fun byte => some [byte]) first
  | case3 a b =>
    have boundA := a.toNat_lt
    have boundB := b.toNat_lt
    have first : UInt8.ofNat (a.toNat / 4 * 4 + (a.toNat % 4 * 16 + b.toNat / 16) / 16) = a :=
      ofNat_eq_of_toNat (by omega)
    have second : UInt8.ofNat ((a.toNat % 4 * 16 + b.toNat / 16) % 16 * 16 + b.toNat % 16 * 4 / 4) = b :=
      ofNat_eq_of_toNat (by omega)
    have unpadded := (base64Char_plain (b.toNat % 16 * 4) (by omega)).1
    rw [b64encodeChars, b64decodeChars, base64Digit_base64Char _ (by omega), base64Digit_base64Char _ (by omega),
      base64Digit_base64Char _ (by omega)]
    · show some [UInt8.ofNat _, UInt8.ofNat _] = _
      rw [first, second]
    · intro isPadding
      exact absurd isPadding unpadded
  | case4 a b c rest ih =>
    have boundA := a.toNat_lt
    have boundB := b.toNat_lt
    have boundC := c.toNat_lt
    have first : UInt8.ofNat (a.toNat / 4 * 4 + (a.toNat % 4 * 16 + b.toNat / 16) / 16) = a :=
      ofNat_eq_of_toNat (by omega)
    have second : UInt8.ofNat ((a.toNat % 4 * 16 + b.toNat / 16) % 16 * 16 +
        (b.toNat % 16 * 4 + c.toNat / 64) / 4) = b := ofNat_eq_of_toNat (by omega)
    have third : UInt8.ofNat ((b.toNat % 16 * 4 + c.toNat / 64) % 4 * 64 + c.toNat % 64) = c :=
      ofNat_eq_of_toNat (by omega)
    rw [b64encodeChars, b64decodeChars_group (by omega) (by omega) (by omega) (by omega), ih, first, second, third]
    rfl

/-- Encoded bytes are ASCII. -/
theorem isAscii_b64encodeChars (raw : Bytes) : ∀ char ∈ b64encodeChars raw, isAscii char = true := by
  have padding : isAscii '=' = true := by decide
  have plain : ∀ value < 64, isAscii (base64Char value) = true := fun value digit => (base64Char_plain value digit).2
  induction raw using b64encodeChars.induct with
  | case1 => simp [b64encodeChars]
  | case2 a =>
    have bound := a.toNat_lt
    simp only [b64encodeChars, List.mem_cons, List.not_mem_nil, or_false]
    rintro char (rfl | rfl | rfl | rfl)
    · exact plain _ (by omega)
    · exact plain _ (by omega)
    · exact padding
    · exact padding
  | case3 a b =>
    have boundA := a.toNat_lt
    have boundB := b.toNat_lt
    simp only [b64encodeChars, List.mem_cons, List.not_mem_nil, or_false]
    rintro char (rfl | rfl | rfl | rfl)
    · exact plain _ (by omega)
    · exact plain _ (by omega)
    · exact plain _ (by omega)
    · exact padding
  | case4 a b c rest ih =>
    have boundA := a.toNat_lt
    have boundB := b.toNat_lt
    have boundC := c.toNat_lt
    simp only [b64encodeChars, List.mem_cons]
    rintro char (rfl | rfl | rfl | rfl | later)
    · exact plain _ (by omega)
    · exact plain _ (by omega)
    · exact plain _ (by omega)
    · exact plain _ (by omega)
    · exact ih char later

/-! ### UTF-8 and ASCII -/

/-- `text.encode("utf-8")`. -/
def utf8Bytes (text : String) : Bytes := text.toUTF8.data.toList

/-- **Decoding undoes encoding.** -/
theorem decodeUtf8_utf8Bytes (text : String) : decodeUtf8 (utf8Bytes text) = some text := by
  have valid : text.toByteArray.IsValidUTF8 := text.isValidUTF8
  have same : (⟨(utf8Bytes text).toArray⟩ : ByteArray) = text.toByteArray := by
    simp [utf8Bytes]
  rw [decodeUtf8, same, String.fromUTF8?, dif_pos valid]
  rfl

/-- An ASCII text is read back from its bytes. -/
theorem decodeAscii_asciiBytes {text : String} (ascii : IsAsciiText text) :
    decodeAscii (asciiBytes text) = some text := by
  refine decodeAscii_encodeAscii ?_
  rw [encodeAscii, if_pos (List.all_eq_true.mpr ascii), asciiBytes]

/-- An ASCII text has one byte for each character. -/
theorem utf8Bytes_of_ascii {text : String} (ascii : IsAsciiText text) : utf8Bytes text = asciiBytes text := by
  have encoded : text.toUTF8 = (text.toList.flatMap String.utf8EncodeChar).toByteArray := String.utf8Encode_toList.symm
  have bytes : ∀ raw : List UInt8, raw.toByteArray.data.toList = raw := by
    intro raw
    simp
  have single : ∀ char ∈ text.toList, String.utf8EncodeChar char = [UInt8.ofNat char.toNat] := by
    intro char member
    have small : char.toNat < 128 := by simpa [isAscii] using ascii char member
    exact if_pos (Nat.le_of_lt_succ small)
  rw [utf8Bytes, encoded, bytes, asciiBytes, List.flatMap_congr single]
  exact List.flatMap_pure_eq_map _ _

end PyText
