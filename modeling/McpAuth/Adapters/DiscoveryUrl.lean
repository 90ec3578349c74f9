/-
**The discovery URL is the issuer's well-known document.**

The constructor of the policy looks at the parts that `urlsplit` reads of the issuer and builds the
discovery URL from its text. A delimiter at the end of the text leaves no trace in the parts, but what is
appended after it is no path.

`discoveryParts_text` gives the parts of the discovery URL. `discovery_wellKnown_iff`: it is the issuer's
well-known document exactly for the issuers whose text has neither `?` nor `#`.
-/

import McpAuth.Adapters.OidcNetworkPolicy
import McpAuth.Library.UrlText

namespace McpAuth

open PyText UrlSplit UrlText

section Discovery

variable [UnicodeTables]

/-! ### The parts of the discovery URL -/

theorem ParseFacts.scheme_ne_empty {url : String} {parsed : SplitResult} {origin : Origin}
    (facts : ParseFacts url parsed origin) : parsed.scheme ≠ "" := by
  intro empty
  have noScheme : origin.scheme = "" := by
    rw [facts.scheme, empty]
    exact if_pos (by decide)
  rcases facts.isHttp with http | https
  · rw [noScheme] at http
    exact absurd http (by decide)
  · rw [noScheme] at https
    exact absurd https (by decide)

/-- **The parts of a URL that is parsed.** -/
theorem parseUrl_parts {url : String} {origin : Origin} (parses : parseUrl url = .ok origin) :
    ∃ (parts : UrlParts) (parsed : SplitResult), url.toList = parts.text ∧ urlsplit url = some parsed ∧
      SplitOf parts parsed ∧ parts.netloc ≠ [] := by
  obtain ⟨parsed, facts⟩ := parseUrl_ok_iff.mp parses
  have clean : ∀ char ∈ url.toList, ¬ char.toNat < 0x20 := by
    intro char member control
    refine facts.printable (Or.inr (List.any_eq_true.mpr ⟨char, member, ?_⟩))
    simpa using control
  have scheme := facts.scheme_ne_empty
  have netloc : parsed.netloc ≠ "" := by
    intro empty
    obtain ⟨hostname, isHostname, -, -⟩ := facts.host
    have noHost : parsed.hostname = none := by
      simp [SplitResult.hostname, SplitResult.hostinfo, empty, afterLast, before]
    rw [noHost] at isHostname
    cases isHostname
  obtain ⟨parts, isText, split⟩ := urlsplit_parts facts.split clean scheme netloc
  refine ⟨parts, parsed, isText, facts.split, split, fun empty => netloc ?_⟩
  rw [split.netloc, empty]

omit [UnicodeTables] in
theorem discoveryTail_starts (parts : UrlParts) :
    ∀ char ∈ (parts.tail.rdropWhile (· == '/') ++ discoverySuffix.toList).head?, isNetlocEnd char = true := by
  intro char isHead
  cases stripped : parts.tail.rdropWhile (· == '/') with
  | nil =>
    rw [stripped, List.nil_append] at isHead
    cases isHead
    decide
  | cons first later =>
    obtain ⟨rest, whole⟩ := List.rdropWhile_prefix (· == '/') parts.tail
    rw [stripped, List.cons_append, List.head?_cons] at isHead
    rw [stripped] at whole
    exact parts.tail_starts char (by rw [← whole]; exact isHead)

/-- The parts of the discovery URL of an issuer. -/
def discoveryParts (parts : UrlParts) : UrlParts :=
  { parts with
    tail := parts.tail.rdropWhile (· == '/') ++ discoverySuffix.toList
    tail_starts := discoveryTail_starts parts }

omit [UnicodeTables] in
/-- **The slashes that are stripped are those of the tail.** -/
theorem discoveryParts_text {issuerUrl : String} {parts : UrlParts} (isText : issuerUrl.toList = parts.text)
    (nonempty : parts.netloc ≠ []) :
    (rstripChar '/' issuerUrl ++ discoverySuffix).toList = (discoveryParts parts).text := by
  obtain ⟨last, isLast⟩ : ∃ last, parts.netloc.getLast? = some last :=
    ⟨_, List.getLast?_eq_some_getLast nonempty⟩
  have ends : (parts.scheme ++ [':', '/', '/'] ++ parts.netloc).getLast? = some last := by
    rw [List.getLast?_append, isLast]
    rfl
  have notSlash : last ≠ '/' := by
    rintro rfl
    have free := parts.netloc_free '/' (List.mem_of_getLast? isLast)
    exact absurd free (by decide)
  have stripped : (rstripChar '/' issuerUrl).toList =
      parts.scheme ++ [':', '/', '/'] ++ parts.netloc ++ parts.tail.rdropWhile (· == '/') := by
    rw [rstripChar, String.toList_ofList, isText]
    exact rdropWhile_append _ ends (by simpa using notSlash)
  rw [String.toList_append, stripped]
  simp [discoveryParts, UrlParts.text]

/-! ### The well-known document -/

/-- The discovery URL of a policy is the well-known document of its issuer. -/
structure WellKnown (policy : OidcNetworkSecurityPolicy) : Prop where
  reads : ∃ issuer discovery, urlsplit policy.issuerUrl = some issuer ∧
    urlsplit policy.discoveryUrl = some discovery ∧ discovery.scheme = issuer.scheme ∧
    discovery.hostname = issuer.hostname ∧ discovery.port = issuer.port ∧
    discovery.path = rstripChar '/' issuer.path ++ discoverySuffix ∧
    discovery.query = "" ∧ discovery.fragment = ""
  origin : parseUrl policy.discoveryUrl = .ok policy.issuerOrigin
  kind : policy.requestKind policy.discoveryUrl = .ok .discovery

omit [UnicodeTables] in
theorem after_eq_nil_of_not_mem {char : Char} {text : List Char} (absent : char ∉ text) :
    before char text = text ∧ after char text = [] := by
  have passes : ∀ other ∈ text, decide (other ≠ char) = true := by
    intro other member
    rw [decide_eq_true_eq]
    rintro rfl
    exact absent member
  rw [before, after, List.takeWhile_eq_self_iff.mpr passes, List.dropWhile_eq_nil_iff.mpr passes]
  exact ⟨rfl, rfl⟩

omit [UnicodeTables] in
/-- A delimiter with nothing after it ends the text. -/
theorem eq_before_append {char : Char} {text : List Char} (present : char ∈ text) (nothing : after char text = []) :
    text = before char text ++ [char] := by
  induction text with
  | nil => cases present
  | cons first later ih =>
    by_cases same : first = char
    · subst same
      have empty : later = [] := by simpa [after] using nothing
      simp [before, empty]
    · have inside : char ∈ later := (List.mem_cons.mp present).resolve_left (Ne.symm same)
      have kept := ih inside (by simpa [after, same] using nothing)
      conv_lhs => rw [kept]
      simp [before, same]

/-- What the constructor checked of the tail of an issuer. -/
structure CleanTail (parts : UrlParts) : Prop where
  noQuery : after '?' (before '#' parts.tail) = []
  noFragment : after '#' parts.tail = []

omit [UnicodeTables] in
theorem suffix_free : '?' ∉ discoverySuffix.toList ∧ '#' ∉ discoverySuffix.toList := by
  decide +kernel

omit [UnicodeTables] in
/-- **What is appended to a path stays in the path.** -/
theorem discoveryParts_split {parts : UrlParts} (noMark : '?' ∉ parts.tail) (noHash : '#' ∉ parts.tail) :
    (discoveryParts parts).split.path = rstripChar '/' parts.split.path ++ discoverySuffix ∧
      (discoveryParts parts).split.query = "" ∧ (discoveryParts parts).split.fragment = "" := by
  obtain ⟨suffixNoMark, suffixNoHash⟩ := suffix_free
  have within := (List.rdropWhile_prefix (· == '/') parts.tail).subset
  have noMark' : '?' ∉ (discoveryParts parts).tail := by
    intro member
    exact (List.mem_append.mp member).elim (fun inside => noMark (within inside)) suffixNoMark
  have noHash' : '#' ∉ (discoveryParts parts).tail := by
    intro member
    exact (List.mem_append.mp member).elim (fun inside => noHash (within inside)) suffixNoHash
  obtain ⟨sameHash, nothingHash⟩ := after_eq_nil_of_not_mem noHash'
  obtain ⟨sameMark, nothingMark⟩ := after_eq_nil_of_not_mem noMark'
  refine ⟨?_, ?_, ?_⟩
  · have issuerPath : parts.split.path = String.ofList parts.tail := by
      rw [UrlParts.split, (after_eq_nil_of_not_mem noHash).1, (after_eq_nil_of_not_mem noMark).1]
    rw [issuerPath, UrlParts.split, sameHash, sameMark, rstripChar, String.toList_ofList]
    apply String.toList_injective
    simp [discoveryParts]
  · rw [UrlParts.split, sameHash, nothingMark]
  · rw [UrlParts.split, nothingHash]

omit [UnicodeTables] in
theorem discoveryParts_tail {parts : UrlParts} {last : Char} {first : List Char} (other : last ≠ '/')
    (ends : parts.tail = first ++ [last]) :
    (discoveryParts parts).tail = first ++ last :: discoverySuffix.toList := by
  show parts.tail.rdropWhile (· == '/') ++ discoverySuffix.toList = _
  rw [ends, List.rdropWhile_concat_neg _ _ _ (by simpa using other), List.append_assoc]
  rfl

omit [UnicodeTables] in
/-- **What is appended after a delimiter is a query or a fragment.** -/
theorem discoveryParts_delimited {parts : UrlParts} (clean : CleanTail parts)
    (delimited : '?' ∈ parts.tail ∨ '#' ∈ parts.tail) :
    (discoveryParts parts).split.query ≠ "" ∨ (discoveryParts parts).split.fragment ≠ "" := by
  have suffixNonempty : String.ofList discoverySuffix.toList ≠ "" := by decide +kernel
  by_cases hash : '#' ∈ parts.tail
  · right
    have ends := eq_before_append hash clean.noFragment
    have free := UrlParts.before_free '#' parts.tail
    have kept := discoveryParts_tail (by decide : '#' ≠ '/') ends
    rw [UrlParts.split, kept, UrlParts.after_append free]
    exact suffixNonempty
  · left
    have mark := delimited.resolve_right hash
    have sameTail := (after_eq_nil_of_not_mem hash).1
    have ends := eq_before_append mark (by rw [← sameTail]; exact clean.noQuery)
    have free := UrlParts.before_free '?' parts.tail
    have kept := discoveryParts_tail (by decide : '?' ≠ '/') ends
    have noHash : '#' ∉ (discoveryParts parts).tail := by
      intro member
      rcases List.mem_append.mp member with inside | suffix
      · exact hash ((List.rdropWhile_prefix _ _).subset inside)
      · exact suffix_free.2 suffix
    rw [UrlParts.split, (after_eq_nil_of_not_mem noHash).1, kept, UrlParts.after_append free]
    exact suffixNonempty

omit [UnicodeTables] in
/-- A delimiter of an issuer's text is in its tail. -/
theorem mem_tail_iff {parts : UrlParts} (named : IsScheme parts.scheme) {char : Char}
    (ends : isNetlocEnd char = true) (other : char ≠ '/') (visible : ¬ char.toNat ≤ 0x20)
    (noScheme : isSchemeChar char = false) : char ∈ parts.text ↔ char ∈ parts.tail := by
  have notColon : char ≠ ':' := by
    rintro rfl
    exact absurd ends (by decide)
  have notScheme : char ∉ parts.scheme := by
    intro member
    rw [← List.takeWhile_append_dropWhile (p := fun char : Char => decide (char.toNat ≤ 0x20)) (l := parts.scheme)]
      at member
    rcases List.mem_append.mp member with skipped | kept
    · exact visible (by simpa using List.mem_takeWhile_imp skipped)
    · have isChar := List.all_eq_true.mp named.2 char kept
      rw [noScheme] at isChar
      cases isChar
  have notNetloc : char ∉ parts.netloc := by
    intro member
    rw [parts.netloc_free char member] at ends
    cases ends
  simp [UrlParts.text, notScheme, notNetloc, other, notColon]

/-- What is known of the text of an issuer that is parsed. -/
structure IssuerText (issuerUrl : String) (parts : UrlParts) (origin : Origin) : Prop where
  text : issuerUrl.toList = parts.text
  clean : ∀ char ∈ parts.text, ¬ char.toNat < 0x20
  facts : ParseFacts issuerUrl parts.split origin
  named : IsScheme parts.scheme
  nonempty : parts.netloc ≠ []

theorem issuerText_of_parseUrl {issuerUrl : String} {origin : Origin} (parses : parseUrl issuerUrl = .ok origin) :
    ∃ parts, IssuerText issuerUrl parts origin := by
  obtain ⟨parts, parsed, isText, split, reads, nonempty⟩ := parseUrl_parts parses
  obtain rfl : parsed = parts.split := by
    cases parsed
    rw [UrlParts.split, ← reads.scheme, ← reads.netloc, ← reads.path, ← reads.query, ← reads.fragment]
  obtain ⟨parsed, facts⟩ := parseUrl_ok_iff.mp parses
  have same := facts.split
  rw [split, Option.some.injEq] at same
  subst same
  have clean : ∀ char ∈ parts.text, ¬ char.toNat < 0x20 := by
    intro char member control
    rw [← isText] at member
    exact facts.printable (Or.inr (List.any_eq_true.mpr ⟨char, member, by simpa using control⟩))
  exact ⟨parts, isText, clean, facts, isScheme_of_urlsplit isText clean split facts.scheme_ne_empty, nonempty⟩

/-- **The discovery URL is read with the issuer's scheme and netloc.** -/
theorem discovery_split {issuerUrl : String} {parts : UrlParts} {origin : Origin}
    (issuer : IssuerText issuerUrl parts origin) :
    urlsplit (rstripChar '/' issuerUrl ++ discoverySuffix) = some (discoveryParts parts).split ∧
      ¬ ('\\' ∈ (rstripChar '/' issuerUrl ++ discoverySuffix).toList ∨
        (rstripChar '/' issuerUrl ++ discoverySuffix).toList.any fun char => char.toNat < 0x20) := by
  have isDiscovery := discoveryParts_text issuer.text issuer.nonempty
  have fromText : ∀ char ∈ (discoveryParts parts).text, char ∈ parts.text ∨ char ∈ discoverySuffix.toList := by
    intro char member
    rw [← isDiscovery, String.toList_append] at member
    refine (List.mem_append.mp member).imp_left fun inside => ?_
    rw [rstripChar, String.toList_ofList] at inside
    rw [← issuer.text]
    exact (List.rdropWhile_prefix _ _).subset inside
  have suffixClean : ∀ char ∈ discoverySuffix.toList, char ≠ '\\' ∧ ¬ char.toNat < 0x20 := by
    have checked : discoverySuffix.toList.all (fun char => decide (char ≠ '\\' ∧ ¬ char.toNat < 0x20)) = true := by
      decide +kernel
    exact fun char member => of_decide_eq_true (List.all_eq_true.mp checked char member)
  have clean : ∀ char ∈ (discoveryParts parts).text, ¬ char.toNat < 0x20 := by
    intro char member
    exact (fromText char member).elim (issuer.clean char) fun suffix => (suffixClean char suffix).2
  constructor
  · exact urlsplit_retailed issuer.text isDiscovery issuer.clean clean rfl rfl issuer.facts.split
      issuer.facts.scheme_ne_empty
  · rw [isDiscovery]
    rintro (backslash | control)
    · rcases fromText _ backslash with inside | suffix
      · exact issuer.facts.printable (Or.inl (issuer.text ▸ inside))
      · exact (suffixClean _ suffix).1 rfl
    · obtain ⟨char, member, isControl⟩ := List.any_eq_true.mp control
      exact clean char member (by simpa using isControl)

/-- **The discovery URL is the issuer's well-known document exactly for an issuer without delimiters.** -/
theorem discovery_wellKnown_iff {issuerUrl : String} {allowInsecureLoopback : Bool}
    {jwksAllowedOrigins : List String} {dnsTimeoutSeconds httpTimeoutSeconds : Rat}
    {discoveryMaxBytes jwksMaxBytes : Int} {policy : OidcNetworkSecurityPolicy}
    (accepted : OidcNetworkSecurityPolicy.init issuerUrl allowInsecureLoopback jwksAllowedOrigins
      dnsTimeoutSeconds httpTimeoutSeconds discoveryMaxBytes jwksMaxBytes = .ok policy) :
    WellKnown policy ↔ '?' ∉ issuerUrl.toList ∧ '#' ∉ issuerUrl.toList := by
  obtain ⟨-, isIssuer, -⟩ := init_trusts accepted
  obtain ⟨_, issuerOrigin, parsedIssuer, allowed, checks, rfl⟩ := init_ok_iff.mp accepted
  obtain ⟨parts, issuer⟩ := issuerText_of_parseUrl isIssuer
  obtain ⟨split, printable⟩ := discovery_split issuer
  have mark := mem_tail_iff issuer.named (by decide : isNetlocEnd '?' = true) (by decide) (by decide) (by decide)
  have hash := mem_tail_iff issuer.named (by decide : isNetlocEnd '#' = true) (by decide) (by decide) (by decide)
  rw [issuer.text, mark, hash]
  constructor
  · rintro ⟨⟨_, discovery, -, isDiscovery, -, -, -, -, noQuery, noFragment⟩, -, -⟩
    dsimp only at isDiscovery
    rw [split, Option.some.injEq] at isDiscovery
    subst isDiscovery
    have query := checks.noQuery
    have same := checks.split
    rw [issuer.facts.split, Option.some.injEq] at same
    rw [← same] at query
    have clean : CleanTail parts := by
      constructor
      · simpa [UrlParts.split] using query
      · simpa [UrlParts.split] using issuer.facts.noFragment
    rw [← not_or]
    intro delimited
    exact (discoveryParts_delimited clean delimited).elim (· noQuery) (· noFragment)
  · rintro ⟨noMark, noHash⟩
    obtain ⟨path, noQuery, noFragment⟩ := discoveryParts_split noMark noHash
    refine ⟨⟨_, _, issuer.facts.split, split, rfl, rfl, rfl, path, noQuery, noFragment⟩, ?_, if_pos rfl⟩
    exact parseUrl_ok_iff.mpr ⟨_, printable, split, issuer.facts.scheme, issuer.facts.isHttp, issuer.facts.port,
      issuer.facts.host, issuer.facts.noUserinfo, noFragment⟩

end Discovery

/-- The discovery URL of `https://issuer.example`. -/
theorem discovery_wellKnown_plain :
    let _ := asciiTables
    WellKnown issuerPolicy := by
  intro _
  exact (discovery_wellKnown_iff issuerPolicy_init).mpr (by decide)

/-- The trust boundary of `https://issuer.example?`, whose query is empty. -/
def markedPolicy : OidcNetworkSecurityPolicy :=
  { issuerPolicy with
    issuerUrl := "https://issuer.example?"
    discoveryUrl := "https://issuer.example?/.well-known/openid-configuration" }

/-- The issuer is accepted, and its discovery URL has a query and no path. -/
theorem discovery_query_marked :
    let _ := asciiTables
    OidcNetworkSecurityPolicy.init "https://issuer.example?" = .ok markedPolicy ∧
      urlsplit markedPolicy.discoveryUrl = some
        ⟨"https", "issuer.example", "", "/.well-known/openid-configuration", ""⟩ ∧
      ¬ WellKnown markedPolicy := by
  intro _
  have split : urlsplit markedPolicy.discoveryUrl = some
      ⟨"https", "issuer.example", "", "/.well-known/openid-configuration", ""⟩ := by
    decide +kernel
  have accepted : OidcNetworkSecurityPolicy.init "https://issuer.example?" = .ok markedPolicy :=
    init_ok_iff.mpr ⟨⟨"https", "issuer.example", 443⟩, _, ⟨"https", "issuer.example", "", "", ""⟩, [],
      { timeouts := by decide +kernel
        sizes := by decide
        parsed := by decide +kernel
        secure := Or.inl rfl
        split := by decide +kernel
        noQuery := rfl
        isOrigin := by decide +kernel
        allows := rfl }, rfl⟩
  refine ⟨accepted, split, ?_⟩
  rintro ⟨⟨_, discovery, -, isDiscovery, -, -, -, -, noQuery, -⟩, -, -⟩
  rw [split, Option.some.injEq] at isDiscovery
  subst isDiscovery
  exact absurd noQuery (by decide)

end McpAuth
