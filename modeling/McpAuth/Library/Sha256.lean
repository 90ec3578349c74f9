/-
**SHA-256.**

The message is padded to blocks of 64 bytes; each block is extended to 64 words and compressed into the eight words of
the state. `hexdigest` is the state in lower-case hexadecimal digits, 64 of them whatever the message
(`isDigest_hexdigest`).
-/

import McpAuth.Library.PyText

namespace Sha256

open PyText

/-! ### Words -/

/-- The words of the state. -/
structure State where
  a : UInt32
  b : UInt32
  c : UInt32
  d : UInt32
  e : UInt32
  f : UInt32
  g : UInt32
  h : UInt32

def State.initial : State :=
  ⟨0x6a09e667, 0xbb67ae85, 0x3c6ef372, 0xa54ff53a,
   0x510e527f, 0x9b05688c, 0x1f83d9ab, 0x5be0cd19⟩

/-- The constants of the rounds. -/
def roundConstants : List UInt32 :=
  [0x428a2f98, 0x71374491, 0xb5c0fbcf, 0xe9b5dba5, 0x3956c25b, 0x59f111f1, 0x923f82a4, 0xab1c5ed5,
   0xd807aa98, 0x12835b01, 0x243185be, 0x550c7dc3, 0x72be5d74, 0x80deb1fe, 0x9bdc06a7, 0xc19bf174,
   0xe49b69c1, 0xefbe4786, 0x0fc19dc6, 0x240ca1cc, 0x2de92c6f, 0x4a7484aa, 0x5cb0a9dc, 0x76f988da,
   0x983e5152, 0xa831c66d, 0xb00327c8, 0xbf597fc7, 0xc6e00bf3, 0xd5a79147, 0x06ca6351, 0x14292967,
   0x27b70a85, 0x2e1b2138, 0x4d2c6dfc, 0x53380d13, 0x650a7354, 0x766a0abb, 0x81c2c92e, 0x92722c85,
   0xa2bfe8a1, 0xa81a664b, 0xc24b8b70, 0xc76c51a3, 0xd192e819, 0xd6990624, 0xf40e3585, 0x106aa070,
   0x19a4c116, 0x1e376c08, 0x2748774c, 0x34b0bcb5, 0x391c0cb3, 0x4ed8aa4a, 0x5b9cca4f, 0x682e6ff3,
   0x748f82ee, 0x78a5636f, 0x84c87814, 0x8cc70208, 0x90befffa, 0xa4506ceb, 0xbef9a3f7, 0xc67178f2]

def rotateRight (count word : UInt32) : UInt32 := (word >>> count) ||| (word <<< (32 - count))

/-- The next word of a schedule, the last one first. -/
def nextWord : List UInt32 → UInt32
  | recent =>
    let early := recent.getD 14 0
    let late := recent.getD 1 0
    let small := rotateRight 7 early ^^^ rotateRight 18 early ^^^ (early >>> 3)
    let large := rotateRight 17 late ^^^ rotateRight 19 late ^^^ (late >>> 10)
    large + recent.getD 6 0 + small + recent.getD 15 0

def extend : ℕ → List UInt32 → List UInt32
  | 0, recent => recent
  | more + 1, recent => extend more (nextWord recent :: recent)

/-- The 64 words of a block of 16. -/
def schedule (block : List UInt32) : List UInt32 := (extend 48 block.reverse).reverse

/-! ### Compression -/

/-- One round, for its constant and its word. -/
def round (state : State) (input : UInt32 × UInt32) : State :=
  let choice := (state.e &&& state.f) ^^^ (~~~state.e &&& state.g)
  let majority := (state.a &&& state.b) ^^^ (state.a &&& state.c) ^^^ (state.b &&& state.c)
  let large := rotateRight 6 state.e ^^^ rotateRight 11 state.e ^^^ rotateRight 25 state.e
  let small := rotateRight 2 state.a ^^^ rotateRight 13 state.a ^^^ rotateRight 22 state.a
  let first := state.h + large + choice + input.1 + input.2
  ⟨first + small + majority, state.a, state.b, state.c, state.d + first, state.e, state.f, state.g⟩

def compress (state : State) (block : List UInt32) : State :=
  let last := (roundConstants.zip (schedule block)).foldl round state
  ⟨state.a + last.a, state.b + last.b, state.c + last.c, state.d + last.d,
   state.e + last.e, state.f + last.f, state.g + last.g, state.h + last.h⟩

/-! ### Messages -/

/-- The bytes of a number, big-endian. -/
def bigEndian : ℕ → ℕ → Bytes
  | 0, _ => []
  | count + 1, value => bigEndian count (value / 256) ++ [UInt8.ofNat value]

/-- The message with its padding and its length in bits. -/
def padded (message : Bytes) : Bytes :=
  message ++ 0x80 :: List.replicate ((119 - message.length % 64) % 64) 0 ++ bigEndian 8 (8 * message.length)

/-- The words of a block of bytes. -/
def words : Bytes → List UInt32
  | first :: second :: third :: fourth :: later =>
    (first.toUInt32 <<< 24 ||| second.toUInt32 <<< 16 ||| third.toUInt32 <<< 8 ||| fourth.toUInt32) :: words later
  | _ => []

/-- The state after a number of blocks. -/
def absorb : ℕ → State → List UInt32 → State
  | 0, state, _ => state
  | blocks + 1, state, message => absorb blocks (compress state (message.take 16)) (message.drop 16)

def digest (message : Bytes) : State :=
  absorb ((padded message).length / 64) .initial (words (padded message))

/-! ### Digits -/

def hexWord (word : UInt32) : List Char :=
  [28, 24, 20, 16, 12, 8, 4, 0].map fun shift => Nat.digitChar (word.toNat / 2 ^ shift % 16)

/-- `hashlib.sha256(message).hexdigest()`. -/
def hexdigest (message : Bytes) : String :=
  let state := digest message
  String.ofList ([state.a, state.b, state.c, state.d, state.e, state.f, state.g, state.h].flatMap hexWord)

example : hexdigest [] = "e3b0c44298fc1c149afbf4c8996fb92427ae41e4649b934ca495991b7852b855" := by decide +kernel

/-- A digit of a digest. -/
def isHexDigit (char : Char) : Bool := ('0' ≤ char && char ≤ '9') || ('a' ≤ char && char ≤ 'f')

/-- `[0-9a-f]` 64 times. -/
def isDigest (text : List Char) : Bool := text.length == 64 && text.all isHexDigit

theorem isHexDigit_digitChar : ∀ value < 16, isHexDigit (Nat.digitChar value) = true := by decide

/-- **A digest has 64 hexadecimal digits.** -/
theorem isDigest_hexdigest (message : Bytes) : isDigest (hexdigest message).toList = true := by
  have digits : ∀ word : UInt32, ∀ char ∈ hexWord word, isHexDigit char = true := by
    intro word char member
    obtain ⟨shift, -, rfl⟩ := List.mem_map.mp member
    exact isHexDigit_digitChar _ (Nat.mod_lt _ (by decide))
  rw [isDigest, hexdigest, String.toList_ofList, Bool.and_eq_true, List.all_eq_true]
  refine ⟨rfl, fun char member => ?_⟩
  obtain ⟨word, -, inside⟩ := List.mem_flatMap.mp member
  exact digits word char inside

end Sha256
