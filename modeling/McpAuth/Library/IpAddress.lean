/-
**IP addresses — parsing, prefix networks and the address classes of Python's `ipaddress`.**

* `Network` — a prefix network; `contains` compares the bits above the host part;
* `IPAddress` — an IPv4 address, or an IPv6 address with its optional scope id;
* `ipAddress` — `ipaddress.ip_address(text)`, `none` where it raises `ValueError`;
* `compressed` — the text of an address, zero hextets shortened;
* `isPrivate`, `isGlobal`, `isLoopback`, `isLinkLocal`, `isMulticast`, `isUnspecified`, `isReserved` —
  the predicates of the same names, with the fixed network lists. An IPv4-mapped IPv6 address is
  classified by the IPv4 address it maps (`classify`).

`isGlobal_excludes`: a global address is not private, loopback, link-local or unspecified. The lists leave
multicast networks and most reserved IPv6 networks global.
-/

import McpAuth.Library.PyNumbers

namespace IpAddress

open PyNumbers

/-! ### Prefix networks -/

/-- A network: an address in it and the number of host bits. -/
structure Network where
  base : Nat
  hostBits : Nat
  deriving DecidableEq

/-- `address in network`. -/
def Network.contains (network : Network) (value : Nat) : Bool :=
  value / 2 ^ network.hostBits == network.base / 2 ^ network.hostBits

/-- `IPv4Network("a.b.c.d/length")`. -/
def ipv4Network (a b c d length : Nat) : Network :=
  ⟨((a * 256 + b) * 256 + c) * 256 + d, 32 - length⟩

/-- `IPv6Network` of the leading hextets, the others zero, and a prefix length. -/
def ipv6Network (hextets : List Nat) (length : Nat) : Network :=
  ⟨hextets.foldl (fun value hextet => value * 2 ^ 16 + hextet) 0 * 2 ^ (16 * (8 - hextets.length)),
    128 - length⟩

@[simp] theorem contains_iff {network : Network} {value : Nat} :
    network.contains value = true ↔
      value / 2 ^ network.hostBits = network.base / 2 ^ network.hostBits := by
  simp [Network.contains]

/-! ### Addresses -/

/-- An IP address; the scope id is the zone of an IPv6 literal. -/
inductive IPAddress
  | v4 (value : Fin (2 ^ 32))
  | v6 (value : Fin (2 ^ 128)) (scopeId : Option String)
  deriving DecidableEq

/-- The IPv4 address inside an IPv4-mapped IPv6 address. -/
def mappedValue (value : Nat) : Option Nat :=
  if value / 2 ^ 32 = 0xFFFF then some (value % 2 ^ 32) else none

/-- `address.ipv4_mapped`, `none` for an IPv4 address. -/
def IPAddress.ipv4Mapped : IPAddress → Option IPAddress
  | .v4 _ => none
  | .v6 value _ => (mappedValue value).map fun mapped => .v4 (Fin.ofNat (2 ^ 32) mapped)

/-- A predicate given by family; a mapped address has the class of what it maps. -/
def classify (ipv4 ipv6 : Nat → Bool) : IPAddress → Bool
  | .v4 value => ipv4 value
  | .v6 value _ =>
    match mappedValue value with
    | some mapped => ipv4 mapped
    | none => ipv6 value

/-! ### The network lists -/

def ipv4PrivateNetworks : List Network :=
  [ipv4Network 0 0 0 0 8, ipv4Network 10 0 0 0 8, ipv4Network 127 0 0 0 8,
    ipv4Network 169 254 0 0 16, ipv4Network 172 16 0 0 12, ipv4Network 192 0 0 0 24,
    ipv4Network 192 0 0 170 31, ipv4Network 192 0 2 0 24, ipv4Network 192 168 0 0 16,
    ipv4Network 198 18 0 0 15, ipv4Network 198 51 100 0 24, ipv4Network 203 0 113 0 24,
    ipv4Network 240 0 0 0 4, ipv4Network 255 255 255 255 32]

def ipv4PrivateExceptions : List Network :=
  [ipv4Network 192 0 0 9 32, ipv4Network 192 0 0 10 32]

/-- `100.64.0.0/10`, shared address space: neither private nor global. -/
def ipv4SharedNetwork : Network := ipv4Network 100 64 0 0 10

def ipv4LoopbackNetwork : Network := ipv4Network 127 0 0 0 8

def ipv4LinkLocalNetwork : Network := ipv4Network 169 254 0 0 16

def ipv4MulticastNetwork : Network := ipv4Network 224 0 0 0 4

def ipv4ReservedNetwork : Network := ipv4Network 240 0 0 0 4

def ipv6PrivateNetworks : List Network :=
  [ipv6Network [0, 0, 0, 0, 0, 0, 0, 1] 128, ipv6Network [] 128,
    ipv6Network [0, 0, 0, 0, 0, 0xFFFF] 96, ipv6Network [0x64, 0xFF9B, 1] 48, ipv6Network [0x100] 64,
    ipv6Network [0x2001] 23, ipv6Network [0x2001, 0xDB8] 32, ipv6Network [0x2002] 16,
    ipv6Network [0x3FFF] 20, ipv6Network [0xFC00] 7, ipv6Network [0xFE80] 10]

def ipv6PrivateExceptions : List Network :=
  [ipv6Network [0x2001, 1, 0, 0, 0, 0, 0, 1] 128, ipv6Network [0x2001, 1, 0, 0, 0, 0, 0, 2] 128,
    ipv6Network [0x2001, 3] 32, ipv6Network [0x2001, 4, 0x112] 48, ipv6Network [0x2001, 0x20] 28,
    ipv6Network [0x2001, 0x30] 28]

def ipv6LinkLocalNetwork : Network := ipv6Network [0xFE80] 10

def ipv6MulticastNetwork : Network := ipv6Network [0xFF00] 8

def ipv6ReservedNetworks : List Network :=
  [ipv6Network [] 8, ipv6Network [0x100] 8, ipv6Network [0x200] 7, ipv6Network [0x400] 6,
    ipv6Network [0x800] 5, ipv6Network [0x1000] 4, ipv6Network [0x4000] 3, ipv6Network [0x6000] 3,
    ipv6Network [0x8000] 3, ipv6Network [0xA000] 3, ipv6Network [0xC000] 3, ipv6Network [0xE000] 4,
    ipv6Network [0xF000] 5, ipv6Network [0xF800] 6, ipv6Network [0xFE00] 9]

/-! ### Address classes -/

/-- In one of the networks, and in none of the exceptions. -/
def listed (networks exceptions : List Network) (value : Nat) : Bool :=
  networks.any (·.contains value) && exceptions.all (!·.contains value)

def ipv4IsPrivate : Nat → Bool := listed ipv4PrivateNetworks ipv4PrivateExceptions

def ipv6IsPrivate : Nat → Bool := listed ipv6PrivateNetworks ipv6PrivateExceptions

def IPAddress.isPrivate : IPAddress → Bool := classify ipv4IsPrivate ipv6IsPrivate

def IPAddress.isGlobal : IPAddress → Bool :=
  classify (fun value => !ipv4SharedNetwork.contains value && !ipv4IsPrivate value)
    fun value => !ipv6IsPrivate value

def IPAddress.isLoopback : IPAddress → Bool := classify ipv4LoopbackNetwork.contains (· == 1)

def IPAddress.isLinkLocal : IPAddress → Bool :=
  classify ipv4LinkLocalNetwork.contains ipv6LinkLocalNetwork.contains

def IPAddress.isMulticast : IPAddress → Bool :=
  classify ipv4MulticastNetwork.contains ipv6MulticastNetwork.contains

def IPAddress.isUnspecified : IPAddress → Bool := classify (· == 0) (· == 0)

def IPAddress.isReserved : IPAddress → Bool :=
  classify ipv4ReservedNetwork.contains fun value => ipv6ReservedNetworks.any (·.contains value)

/-! ### What a global address is not -/

/-- A class that implies another by family implies it. -/
theorem classify_mono {ipv4 ipv6 ipv4' ipv6' : Nat → Bool}
    (inside : ∀ value, ipv4 value = true → ipv4' value = true)
    (inside' : ∀ value, ipv6 value = true → ipv6' value = true) {address : IPAddress}
    (holds : classify ipv4 ipv6 address = true) : classify ipv4' ipv6' address = true := by
  cases address with
  | v4 value => exact inside _ holds
  | v6 value scopeId =>
    unfold classify at holds ⊢
    dsimp only at holds ⊢
    cases mapped : mappedValue value with
    | none =>
      rw [mapped] at holds
      exact inside' _ holds
    | some inner =>
      rw [mapped] at holds
      exact inside _ holds

/-- Two classes that exclude each other by family exclude each other. -/
theorem classify_disjoint {ipv4 ipv6 ipv4' ipv6' : Nat → Bool}
    (apart : ∀ value, ipv4 value = true → ipv4' value = false)
    (apart' : ∀ value, ipv6 value = true → ipv6' value = false) {address : IPAddress}
    (holds : classify ipv4 ipv6 address = true) : classify ipv4' ipv6' address = false := by
  have negated : classify (fun value => !ipv4' value) (fun value => !ipv6' value) address = true :=
    classify_mono (fun value member => by simpa using apart value member)
      (fun value member => by simpa using apart' value member) holds
  cases address with
  | v4 value => simpa [classify] using negated
  | v6 value scopeId =>
    unfold classify at negated ⊢
    dsimp only at negated ⊢
    cases mapped : mappedValue value <;> simpa [mapped] using negated

/-- A class inside a listed network and outside the exceptions is listed. -/
theorem listed_of_contains {networks exceptions : List Network} {network : Network} {value : Nat}
    (member : network ∈ networks) (inside : network.contains value = true)
    (avoids : ∀ exception ∈ exceptions, exception.contains value = false) :
    listed networks exceptions value = true := by
  have some : networks.any (·.contains value) = true :=
    List.any_eq_true.mpr ⟨network, member, inside⟩
  have none : exceptions.all (!·.contains value) = true :=
    List.all_eq_true.mpr fun exception isException => by
      rw [avoids exception isException]
      rfl
  rw [listed, some, none]
  rfl

/-- An IPv4 network with a first octet other than 192 avoids the exceptions. -/
theorem ipv4_avoids {value : Nat} (elsewhere : value / 2 ^ 24 ≠ 192) :
    ∀ exception ∈ ipv4PrivateExceptions, exception.contains value = false := by
  intro exception member
  rw [← Bool.not_eq_true, contains_iff]
  simp only [ipv4PrivateExceptions, List.mem_cons, List.not_mem_nil, or_false] at member
  rcases member with rfl | rfl <;> simp only [ipv4Network] <;> omega

/-- An IPv6 network outside `2001::/16` avoids the exceptions. -/
theorem ipv6_avoids {value : Nat} (elsewhere : value / 2 ^ 112 ≠ 0x2001) :
    ∀ exception ∈ ipv6PrivateExceptions, exception.contains value = false := by
  intro exception member
  rw [← Bool.not_eq_true, contains_iff]
  simp only [ipv6PrivateExceptions, List.mem_cons, List.not_mem_nil, or_false] at member
  rcases member with rfl | rfl | rfl | rfl | rfl | rfl <;>
    simp only [ipv6Network, List.foldl, List.length] <;> omega

/-- The loopback and link-local IPv4 networks are private. -/
theorem ipv4_isPrivate_of_contains {network : Network} {value : Nat}
    (special : network = ipv4LoopbackNetwork ∨ network = ipv4LinkLocalNetwork)
    (inside : network.contains value = true) : ipv4IsPrivate value = true := by
  have member : network ∈ ipv4PrivateNetworks := by
    rcases special with rfl | rfl <;> decide
  refine listed_of_contains member inside (ipv4_avoids ?_)
  rw [contains_iff] at inside
  rcases special with rfl | rfl
  · simp only [ipv4LoopbackNetwork, ipv4Network] at inside
    omega
  · simp only [ipv4LinkLocalNetwork, ipv4Network] at inside
    omega

theorem ipv6_isPrivate_of_linkLocal {value : Nat}
    (linkLocal : ipv6LinkLocalNetwork.contains value = true) : ipv6IsPrivate value = true := by
  refine listed_of_contains (by decide) linkLocal (ipv6_avoids ?_)
  rw [contains_iff] at linkLocal
  simp only [ipv6LinkLocalNetwork, ipv6Network, List.foldl, List.length] at linkLocal
  omega

/-- **What a global address is not.** -/
theorem isGlobal_excludes {address : IPAddress} (isGlobal : address.isGlobal = true) :
    address.isPrivate = false ∧ address.isLoopback = false ∧ address.isLinkLocal = false ∧
      address.isUnspecified = false := by
  have notPrivate : address.isPrivate = false :=
    classify_disjoint (fun value holds => by simpa using (Bool.and_eq_true_iff.mp holds).2)
      (fun value holds => by simpa using holds) isGlobal
  have exclude : ∀ {ipv4 ipv6 : Nat → Bool}, (∀ value, ipv4 value = true → ipv4IsPrivate value = true) →
      (∀ value, ipv6 value = true → ipv6IsPrivate value = true) →
      classify ipv4 ipv6 address = false := by
    intro ipv4 ipv6 inside inside'
    rw [← Bool.not_eq_true]
    intro holds
    have isPrivate : address.isPrivate = true := classify_mono inside inside' holds
    rw [notPrivate] at isPrivate
    cases isPrivate
  refine ⟨notPrivate, exclude (fun value => ipv4_isPrivate_of_contains (Or.inl rfl)) ?_,
    exclude (fun value => ipv4_isPrivate_of_contains (Or.inr rfl)) (fun value => ipv6_isPrivate_of_linkLocal),
    exclude ?_ ?_⟩
  · intro value one
    have isOne : value = 1 := by simpa using one
    subst isOne
    decide
  · intro value zero
    have isZero : value = 0 := by simpa using zero
    subst isZero
    decide
  · intro value zero
    have isZero : value = 0 := by simpa using zero
    subst isZero
    decide

example : (IPAddress.v4 0xE0000001).isGlobal = true ∧ (IPAddress.v4 0xE0000001).isMulticast = true := by
  decide

/-! ### Parsing -/

/-- `_parse_octet`. -/
def parseOctet (octet : List Char) : Option Nat :=
  if octet = [] ∨ !octet.all isDigit ∨ 3 < octet.length then none
  else if octet ≠ ['0'] ∧ octet.head? = some '0' then none
  else
    let value := digitsValue 10 (octet.map fun char => char.toNat - '0'.toNat)
    if 255 < value then none else some value

/-- `IPv4Address(text)` as a number. -/
def parseIpv4 (text : List Char) : Option Nat := do
  let octets := text.splitOn '.'
  if octets.length ≠ 4 then none
  else
    let values ← octets.mapM parseOctet
    some (digitsValue 256 values)

/-- `_parse_hextet`. -/
def parseHextet (hextet : List Char) : Option Nat :=
  if hextet = [] ∨ 4 < hextet.length then none
  else (hextet.mapM hexDigit).map (digitsValue 16)

/-- The colon-separated parts, an IPv4 suffix rewritten as two hextets. -/
def ipv6Parts (text : List Char) : Option (List (List Char)) :=
  let parts := text.splitOn ':'
  if parts.length < 3 then none
  else match parts.getLast? with
    | none => none
    | some suffix =>
      if '.' ∈ suffix then
        (parseIpv4 suffix).map fun value =>
          parts.dropLast ++ [Nat.toDigits 16 (value / 2 ^ 16), Nat.toDigits 16 (value % 2 ^ 16)]
      else some parts

/-- The parts on one side of a `::`, whose outer end may be empty only alone. -/
def skipSide (outer : Option (List Char)) (parts : List (List Char)) : Option (List (List Char)) :=
  if outer = some [] then (if parts.length = 1 then some [] else none) else some parts

/-- `IPv6Address._ip_int_from_string`. -/
def parseIpv6Value (text : List Char) : Option Nat := do
  let parts ← ipv6Parts text
  if 9 < parts.length then none
  else
    let inner := (parts.drop 1).dropLast
    match inner.findIdx? (· = []) with
    | none =>
      if parts.length ≠ 8 then none
      else
        let values ← parts.mapM parseHextet
        some (digitsValue (2 ^ 16) values)
    | some before =>
      if 1 < (inner.filter (· = [])).length then none
      else
        let high ← skipSide parts.head? (parts.take (before + 1))
        let low ← skipSide parts.getLast? (parts.drop (before + 2))
        if 8 ≤ high.length + low.length then none
        else
          let highValues ← high.mapM parseHextet
          let lowValues ← low.mapM parseHextet
          some (digitsValue (2 ^ 16)
            (highValues ++ List.replicate (8 - (high.length + low.length)) 0 ++ lowValues))

/-- `IPv6Address(text)`: the scope id follows the first `%`. -/
def parseIpv6 (text : List Char) : Option (Nat × Option String) :=
  if '/' ∈ text then none
  else
    let address := text.takeWhile (· ≠ '%')
    match text.dropWhile (· ≠ '%') with
    | [] => (parseIpv6Value address).map fun value => (value, none)
    | _ :: scopeId =>
      if scopeId = [] ∨ '%' ∈ scopeId then none
      else (parseIpv6Value address).map fun value => (value, some (String.ofList scopeId))

/-- `ipaddress.ip_address(text)`. -/
def ipAddress (text : String) : Option IPAddress :=
  match parseIpv4 text.toList with
  | some value => some (.v4 (Fin.ofNat (2 ^ 32) value))
  | none => (parseIpv6 text.toList).map fun parsed => .v6 (Fin.ofNat (2 ^ 128) parsed.1) parsed.2

example : ipAddress "127.0.0.1" = some (.v4 2130706433) := by decide

example : ipAddress "::ffff:224.0.0.1" = some (.v6 281474439839745 none) := by decide

/-! ### Text -/

/-- A number in lower-case digits of a base. -/
def digitsText (base value : Nat) : String := String.ofList (Nat.toDigits base value)

/-- The digits of a number, most significant first. -/
def digitsAt (base count value : Nat) : List Nat :=
  ((List.range count).map fun place => value / base ^ place % base).reverse

/-- A run of zero hextets. -/
structure ZeroRun where
  start : Nat := 0
  length : Nat := 0

/-- The first longest run of zero hextets. -/
def longestZeros : List Nat → Nat → ZeroRun → ZeroRun → ZeroRun
  | [], _, _, best => best
  | hextet :: later, index, current, best =>
    if hextet = 0 then
      let current := if current.length = 0 then ⟨index, 1⟩ else ⟨current.start, current.length + 1⟩
      longestZeros later (index + 1) current (if best.length < current.length then current else best)
    else longestZeros later (index + 1) {} best

/-- `_compress_hextets` of the hextets in hexadecimal. -/
def compressHextets (hextets : List Nat) : List String :=
  let parts := hextets.map (digitsText 16)
  let zeros := longestZeros hextets 0 {} {}
  let zerosEnd := zeros.start + zeros.length
  if 1 < zeros.length then
    (if zeros.start = 0 then [""] else []) ++ parts.take zeros.start ++ [""] ++ parts.drop zerosEnd ++
      (if zerosEnd = parts.length then [""] else [])
  else parts

/-- `_string_from_ip_int`. -/
def ipv4Text (value : Nat) : String := ".".intercalate ((digitsAt 256 4 value).map (digitsText 10))

/-- `_string_from_ip_int`. -/
def ipv6Text (value : Nat) : String := ":".intercalate (compressHextets (digitsAt (2 ^ 16) 8 value))

/-- `address.compressed`. -/
def IPAddress.compressed : IPAddress → String
  | .v4 value => ipv4Text value
  | .v6 value scopeId =>
    let text := match mappedValue value with
      | some mapped => ipv6Text (value / 2 ^ 32) ++ ":" ++ ipv4Text mapped
      | none => ipv6Text value
    match scopeId with
    | some zone => text ++ "%" ++ zone
    | none => text

example : (IPAddress.v6 0x20010DB8000000000000000000000001 none).compressed = "2001:db8::1" := by decide

end IpAddress
