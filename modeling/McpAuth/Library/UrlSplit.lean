/-
**URLs as Python's `urllib.parse.urlsplit` reads them, and the `idna` codec.**

* `urlsplit` — the five parts of a URL, `none` where it raises `ValueError`;
* `SplitResult.username`, `password`, `hostname`, `port` — the properties computed from `netloc`;
* `idnaEncode` — `host.encode("idna").decode("ascii")`, `none` where it raises `UnicodeError`.

`rstrip_lower_fixed`: a lowered ASCII host without trailing dots is its own lowered and stripped form.
-/

import McpAuth.Library.IpAddress
import McpAuth.Library.PyText

namespace UrlSplit

open PyText PyNumbers IpAddress

/-! ### Text -/

theorem lowered_upper : ∀ code < 91, 65 ≤ code →
    isAscii (Char.ofNat (code + 32)) = true ∧
      ¬ ('A' ≤ Char.ofNat (code + 32) ∧ Char.ofNat (code + 32) ≤ 'Z') := by decide

/-- An uppercase letter is lowered to an ASCII character that is not uppercase. -/
theorem asciiLowerChar_of_upper {char : Char} (upper : 'A' ≤ char ∧ char ≤ 'Z') :
    isAscii (asciiLowerChar char) = true ∧ ¬ ('A' ≤ asciiLowerChar char ∧ asciiLowerChar char ≤ 'Z') := by
  have low : 65 ≤ char.toNat := UInt32.le_iff_toNat_le.mp upper.1
  have high : char.toNat ≤ 90 := UInt32.le_iff_toNat_le.mp upper.2
  rw [asciiLowerChar, if_pos upper]
  exact lowered_upper char.toNat (by omega) low

theorem asciiLowerChar_idem (char : Char) :
    asciiLowerChar (asciiLowerChar char) = asciiLowerChar char := by
  by_cases upper : 'A' ≤ char ∧ char ≤ 'Z'
  · exact if_neg (asciiLowerChar_of_upper upper).2
  · have kept : asciiLowerChar char = char := if_neg upper
    rw [kept, kept]

theorem isAscii_asciiLowerChar {char : Char} (ascii : isAscii char = true) :
    isAscii (asciiLowerChar char) = true := by
  by_cases upper : 'A' ≤ char ∧ char ≤ 'Z'
  · exact (asciiLowerChar_of_upper upper).1
  · have kept : asciiLowerChar char = char := if_neg upper
    rw [kept, ascii]

/-- A lowered ASCII host without its trailing dots. -/
theorem rstrip_lower_fixed [UnicodeTables] {text : String} (ascii : IsAsciiText text) :
    IsAsciiText (rstripChar '.' (lower text)) ∧
      rstripChar '.' (lower (rstripChar '.' (lower text))) = rstripChar '.' (lower text) := by
  have lowered : lower text = asciiLower text := if_pos ascii
  have chars : (rstripChar '.' (lower text)).toList =
      (text.toList.map asciiLowerChar).rdropWhile (· == '.') := by
    rw [lowered, rstripChar, asciiLower, String.toList_ofList, String.toList_ofList]
  have fromText : ∀ char ∈ (rstripChar '.' (lower text)).toList,
      ∃ source ∈ text.toList, asciiLowerChar source = char := by
    intro char member
    rw [chars] at member
    exact List.mem_map.mp ((List.rdropWhile_prefix _ _).subset member)
  have stripped : IsAsciiText (rstripChar '.' (lower text)) := by
    intro char member
    obtain ⟨source, inside, rfl⟩ := fromText char member
    exact isAscii_asciiLowerChar (ascii source inside)
  refine ⟨stripped, ?_⟩
  have again : lower (rstripChar '.' (lower text)) = rstripChar '.' (lower text) := by
    have fixed : (rstripChar '.' (lower text)).toList.map asciiLowerChar =
        (rstripChar '.' (lower text)).toList := by
      conv_rhs => rw [← List.map_id (rstripChar '.' (lower text)).toList]
      refine List.map_congr_left fun char member => ?_
      obtain ⟨source, -, rfl⟩ := fromText char member
      exact asciiLowerChar_idem source
    have unfolded : lower (rstripChar '.' (lower text)) = asciiLower (rstripChar '.' (lower text)) :=
      if_pos stripped
    rw [unfolded, asciiLower, fixed, String.ofList_toList]
  rw [again, rstripChar, chars, List.rdropWhile_idempotent, ← chars, String.ofList_toList]

/-- The text before the first `char`, or the whole text. -/
def before (char : Char) (text : List Char) : List Char := text.takeWhile (· ≠ char)

/-- The text after the first `char`, or nothing. -/
def after (char : Char) (text : List Char) : List Char := (text.dropWhile (· ≠ char)).drop 1

/-- `text.rpartition(char)[2]`: the text after the last `char`, or the whole text. -/
def afterLast (char : Char) (text : List Char) : List Char :=
  (text.reverse.takeWhile (· ≠ char)).reverse

/-- `text.rpartition(char)[0]`: the text before the last `char`, or nothing. -/
def beforeLast (char : Char) (text : List Char) : List Char :=
  ((text.reverse.dropWhile (· ≠ char)).drop 1).reverse

/-! ### `urlsplit` -/

/-- A `SplitResult`. -/
structure SplitResult where
  scheme : String
  netloc : String
  path : String
  query : String
  fragment : String
  deriving DecidableEq

def isAlpha (char : Char) : Bool := ('a' ≤ char && char ≤ 'z') || ('A' ≤ char && char ≤ 'Z')

def isSchemeChar (char : Char) : Bool :=
  isAlpha char || isDigit char || char == '+' || char == '-' || char == '.'

/-- `_splitnetloc`: the authority ends at the first of `/`, `?` and `#`. -/
def isNetlocEnd (char : Char) : Bool := char == '/' || char == '?' || char == '#'

/-- The scheme and the rest of a URL. -/
def splitScheme (url : List Char) : List Char × List Char :=
  let scheme := before ':' url
  if ':' ∈ url ∧ scheme.head?.any isAlpha ∧ scheme.all isSchemeChar then
    (scheme.map asciiLowerChar, after ':' url)
  else ([], url)

/-- `re.match(r"\Av[a-fA-F0-9]+\..+\Z", host)` of a host that starts with `v`. -/
def isFutureHost (host : List Char) : Bool :=
  let digits := (host.drop 1).takeWhile fun char => (hexDigit char).isSome
  let rest := (host.drop 1).dropWhile fun char => (hexDigit char).isSome
  !digits.isEmpty && rest.head? == some '.' && !(rest.drop 1).isEmpty && !(rest.drop 1).contains '\n'

/-- `_check_bracketed_host` raises no error. -/
def bracketedHostOk (host : List Char) : Bool :=
  if host.head? = some 'v' then isFutureHost host
  else match ipAddress (String.ofList host) with
    | some (.v6 _ _) => true
    | _ => false

/-- `_check_bracketed_netloc` raises no error. -/
def bracketedNetlocOk (netloc : List Char) : Bool :=
  let hostAndPort := afterLast '@' netloc
  if '[' ∈ hostAndPort then
    let bracketed := after '[' hostAndPort
    let port := after ']' bracketed
    (before '[' hostAndPort).isEmpty && (port.isEmpty || port.head? == some ':') &&
      bracketedHostOk (before ']' bracketed)
  else bracketedHostOk (before ':' hostAndPort)

/-- `_checknetloc` raises no error: no separator appears under NFKC normalization. -/
def netlocOk [UnicodeTables] (netloc : List Char) : Bool :=
  if netloc.all isAscii then true
  else
    let bare := netloc.filter fun char =>
      !(char == '@' || char == ':' || char == '#' || char == '?')
    let normalized := (UnicodeTables.nfkc (String.ofList bare)).toList
    normalized == bare ||
      !normalized.any fun char =>
        char == '/' || char == '?' || char == '#' || char == '@' || char == ':'

section Split

variable [UnicodeTables]

/-- `urlsplit(url)`. -/
def urlsplit (url : String) : Option SplitResult :=
  let stripped := (url.toList.dropWhile fun char => char.toNat ≤ 0x20).filter fun char =>
    !(char == '\t' || char == '\r' || char == '\n')
  let (scheme, rest) := splitScheme stripped
  let hasNetloc := rest.take 2 = ['/', '/']
  let netloc := if hasNetloc then (rest.drop 2).takeWhile fun char => !isNetlocEnd char else []
  let rest := if hasNetloc then (rest.drop 2).dropWhile fun char => !isNetlocEnd char else rest
  if (('[' ∈ netloc) ≠ (']' ∈ netloc)) ∨ ('[' ∈ netloc ∧ !bracketedNetlocOk netloc) then none
  else if !netlocOk netloc then none
  else
    some
      { scheme := String.ofList scheme
        netloc := String.ofList netloc
        path := String.ofList (before '?' (before '#' rest))
        query := String.ofList (after '?' (before '#' rest))
        fragment := String.ofList (after '#' rest) }

/-- `_userinfo[0]`. -/
def SplitResult.username (parsed : SplitResult) : Option String :=
  let netloc := parsed.netloc.toList
  if '@' ∈ netloc then some (String.ofList (before ':' (beforeLast '@' netloc))) else none

/-- `_userinfo[1]`. -/
def SplitResult.password (parsed : SplitResult) : Option String :=
  let netloc := parsed.netloc.toList
  if '@' ∈ netloc ∧ ':' ∈ beforeLast '@' netloc then
    some (String.ofList (after ':' (beforeLast '@' netloc)))
  else none

/-- `_hostinfo`: the host and the port text. -/
def SplitResult.hostinfo (parsed : SplitResult) : List Char × List Char :=
  let hostinfo := afterLast '@' parsed.netloc.toList
  if '[' ∈ hostinfo then
    let bracketed := after '[' hostinfo
    (before ']' bracketed, after ':' (after ']' bracketed))
  else (before ':' hostinfo, after ':' hostinfo)

/-- `parsed.hostname`: lowercase up to a zone. -/
def SplitResult.hostname (parsed : SplitResult) : Option String :=
  let host := parsed.hostinfo.1
  if host = [] then none
  else
    let name := lower (String.ofList (before '%' host))
    some (name ++ String.ofList (host.dropWhile (· ≠ '%')))

/-- `parsed.port`, `none` where it raises `ValueError`. -/
def SplitResult.port (parsed : SplitResult) : Option (Option Nat) :=
  let port := parsed.hostinfo.2
  if port = [] then some none
  else if !port.all isDigit then none
  else
    let value := digitsValue 10 (port.map fun char => char.toNat - '0'.toNat)
    if 65535 < value then none else some (some value)

/-- pydantic's `AnyHttpUrl`: its text has a punycode host and a percent-encoded path. -/
structure AnyHttpUrl where
  text : String
  ascii : IsAsciiText text

/-! ### The `idna` codec -/

/-- `host.encode("idna").decode("ascii")`. -/
def idnaEncode (host : String) : Option String :=
  if host = "" then some ""
  else if IsAsciiText host then
    let labels := host.toList.splitOn '.'
    if labels.dropLast.any (·.isEmpty) ∨ labels.any (fun label => 64 ≤ label.length) then none
    else some host
  else (UnicodeTables.toAscii host).filter fun encoded => IsAsciiText encoded

/-- The codec yields ASCII. -/
theorem isAsciiText_of_idnaEncode {host encoded : String} (encodes : idnaEncode host = some encoded) :
    IsAsciiText encoded := by
  unfold idnaEncode at encodes
  split at encodes
  · cases encodes
    decide
  · split at encodes
    · rename_i ascii
      dsimp only at encodes
      split at encodes
      · cases encodes
      · cases encodes
        exact ascii
    · have kept := (Option.filter_eq_some_iff.mp encodes).2
      simpa using kept

/-- An ASCII host is encoded as itself or not at all. -/
theorem idnaEncode_ascii {host encoded : String} (ascii : IsAsciiText host)
    (encodes : idnaEncode host = some encoded) : encoded = host := by
  unfold idnaEncode at encodes
  split at encodes
  · rename_i empty
    cases encodes
    exact empty.symm
  · dsimp only at encodes
    split at encodes
    · cases encodes
    · cases encodes
      rfl

end Split

end UrlSplit
