import Mathlib.Tactic.NormNum
import StellarSettle.Core.TextPatterns

/-!
# The check of webhook addresses

`validateWebhookUrl` compares the host of a URL, as text, with a list of names and of patterns.
What must not be reached is a set of addresses.  The parser, which is not part of the
repository, reports a host that is an address as a number, and the text is that of its
serializer.
-/

namespace StellarSettle.UrlValidation

open StellarSettle.TextPatterns

/-! ## Hosts -/

abbrev Ipv4 := BitVec 32

abbrev Ipv6 := BitVec 128

/-- A scheme that is not one of the web keeps the text of its host as it is, like a domain. -/
inductive Host where
  | domain (name : String)
  | ipv4 (address : Ipv4)
  | ipv6 (address : Ipv6)
  deriving DecidableEq, Repr

/-- The parts of a parsed URL that are read, the protocol with its colon. -/
structure Url where
  protocol : String
  host : Option Host
  deriving DecidableEq, Repr

def octet (address : Ipv4) (index : ℕ) : ℕ := address.toNat / 256 ^ (3 - index) % 256

def octetText (value : ℕ) : List Char := (toString value).toList

def serializeIpv4 (address : Ipv4) : List Char :=
  octetText (octet address 0) ++ '.' :: (octetText (octet address 1) ++ '.' ::
    (octetText (octet address 2) ++ '.' :: octetText (octet address 3)))

def piece (address : Ipv6) (index : ℕ) : ℕ := address.toNat / 65536 ^ (7 - index) % 65536

/-- The number of zero pieces from an index on. -/
def zeroRun (address : Ipv6) (index : ℕ) : ℕ :=
  (((List.range 8).drop index).takeWhile fun other => piece address other == 0).length

/-- Where the first of the longest runs of at least two zero pieces starts. -/
def compressed (address : Ipv6) : Option ℕ :=
  (List.range 8).find? fun index =>
    decide (1 < zeroRun address index) &&
      (List.range 8).all fun other => decide (zeroRun address other ≤ zeroRun address index)

/-- The pieces from an index on.  Within a run that is left out, zero pieces are ignored. -/
def serializePieces (address : Ipv6) : Bool → List ℕ → List Char
  | _, [] => []
  | ignored, index :: rest =>
      if ignored ∧ piece address index = 0 then serializePieces address true rest
      else if compressed address = some index then
        (if index = 0 then "::" else ":").toList ++ serializePieces address true rest
      else
        Nat.toDigits 16 (piece address index) ++ (if index = 7 then [] else [':']) ++
          serializePieces address false rest

def serializeIpv6 (address : Ipv6) : List Char :=
  '[' :: serializePieces address false (List.range 8) ++ [']']

def Host.serialize : Host → List Char
  | domain name => name.toList
  | ipv4 address => serializeIpv4 address
  | ipv6 address => serializeIpv6 address

/-- `url.hostname`, empty without a host. -/
def Url.hostname (url : Url) : String := String.ofList ((url.host.map Host.serialize).getD [])

/-- Hosts are in the Latin letters. -/
def toLowerCase (text : String) : List Char := text.toList.map Char.toLower

/-! ## The check -/

def BLOCKED_HOSTS : List String := ["localhost", "127.0.0.1", "0.0.0.0", "169.254.169.254"]

/-- A pattern that starts where the text starts, and may have to end where it ends. -/
structure Anchored where
  alternatives : List (List Piece)
  toEnd : Bool := false

def Anchored.test (pattern : Anchored) (text : List Char) : Bool :=
  pattern.alternatives.any fun pieces =>
    match matchLength pieces text with
    | some length => !pattern.toEnd || length == text.length
    | none => false

def oneOf (first last : Char) : Piece := once fun c => decide (first ≤ c ∧ c ≤ last)

def BLOCKED_CIDR : List Anchored :=
  [ { alternatives := [literal "10."] },
    { alternatives :=
        [ literal "172." ++ literal "1" ++ [oneOf '6' '9'] ++ literal ".",
          literal "172." ++ literal "2" ++ [oneOf '0' '9'] ++ literal ".",
          literal "172." ++ literal "3" ++ [oneOf '0' '1'] ++ literal "." ] },
    { alternatives := [literal "192.168."] },
    { alternatives := [literal "127."] },
    { alternatives := [literal "::1"], toEnd := true },
    { alternatives := [literal "fe80:"] },
    { alternatives := [literal "fc00:"] } ]

structure UrlValidationError where
  message : String
  deriving DecidableEq, Repr

/-- What the check reads: the parser, which fails on a text that is no URL, and the environment. -/
structure Environment where
  parse : String → Option Url
  nodeEnv : Option String

def validateWebhookUrl (environment : Environment) (urlString : String) :
    Except UrlValidationError Unit :=
  match environment.parse urlString with
  | none => .error ⟨"Invalid URL format"⟩
  | some url =>
      if url.protocol ∉ ["http:", "https:"] then
        .error ⟨"Only HTTP and HTTPS protocols are allowed"⟩
      else
        let hostname := toLowerCase url.hostname
        if String.ofList hostname ∈ BLOCKED_HOSTS then
          .error ⟨"Destination host is not allowed"⟩
        else if BLOCKED_CIDR.any fun pattern => pattern.test hostname then
          .error ⟨"Private IP ranges are not allowed"⟩
        else if url.protocol = "http:" ∧ environment.nodeEnv = some "production" then
          .error ⟨"HTTP is not allowed in production; use HTTPS"⟩
        else .ok ()

example : serializeIpv6 1#128 = "[::1]".toList := by decide +kernel

example : serializeIpv6 0xfe80000000000000000000000000000a#128 = "[fe80::a]".toList := by
  decide +kernel

/-! ## Addresses that must not be reached -/

/-- The address agrees with the base in its leading bits. -/
def InBlock {width : ℕ} (base : BitVec width) (length : ℕ) (address : BitVec width) : Prop :=
  address.toNat / 2 ^ (width - length) = base.toNat / 2 ^ (width - length)

def ipv4 (first second third fourth : ℕ) : Ipv4 :=
  BitVec.ofNat 32 (((first * 256 + second) * 256 + third) * 256 + fourth)

def LinkLocal (address : Ipv4) : Prop := InBlock (ipv4 169 254 0 0) 16 address

/-- Loopback, private, link-local and unspecified addresses. -/
def InternalIpv4 (address : Ipv4) : Prop :=
  InBlock (ipv4 127 0 0 0) 8 address ∨ InBlock (ipv4 10 0 0 0) 8 address ∨
    InBlock (ipv4 172 16 0 0) 12 address ∨ InBlock (ipv4 192 168 0 0) 16 address ∨
      LinkLocal address ∨ InBlock (ipv4 0 0 0 0) 32 address

/-- Loopback, unspecified, unique-local and link-local addresses, and those that map an internal
one. -/
def InternalIpv6 (address : Ipv6) : Prop :=
  InBlock 1#128 128 address ∨ InBlock 0#128 128 address ∨
    InBlock (0xfc00#128 <<< 112) 7 address ∨ InBlock (0xfe80#128 <<< 112) 10 address ∨
      InBlock (0xffff#128 <<< 32) 96 address ∧ InternalIpv4 (address.setWidth 32)

/-- The host denotes by itself an address that must not be reached. -/
def Host.Internal : Host → Prop
  | domain name =>
      toLowerCase name = "localhost".toList ∨ toLowerCase name = "localhost.".toList
  | ipv4 address => InternalIpv4 address
  | ipv6 address => InternalIpv6 address

/-- The internal hosts that the lists know: no IPv6 address, and one link-local address. -/
def Host.Listed : Host → Prop
  | domain name => toLowerCase name = "localhost".toList
  | ipv4 address => LinkLocal address → address = UrlValidation.ipv4 169 254 169 254
  | ipv6 _ => False

/-! ## Octets -/

theorem octet_lt (address : Ipv4) (index : ℕ) : octet address index < 256 :=
  Nat.mod_lt _ (by norm_num)

theorem dot_not_mem_octetText (value : ℕ) : '.' ∉ octetText value :=
  not_mem_toString (by decide) value

theorem octetText_injective {first second : ℕ} (hsame : octetText first = octetText second) :
    first = second :=
  toString_injective (String.toList_inj.1 hsame)

theorem toNat_eq_octets (address : Ipv4) :
    address.toNat = ((octet address 0 * 256 + octet address 1) * 256 + octet address 2) * 256 +
      octet address 3 := by
  have hbound := address.isLt
  simp only [octet, Nat.reduceSub, Nat.reducePow] at *
  omega

/-- Addresses are told apart by their texts. -/
theorem serializeIpv4_injective {first second : Ipv4}
    (hsame : serializeIpv4 first = serializeIpv4 second) : first = second := by
  obtain ⟨hfirst, hsame⟩ := splitsAt (dot_not_mem_octetText _) (dot_not_mem_octetText _) hsame
  obtain ⟨hsecond, hsame⟩ := splitsAt (dot_not_mem_octetText _) (dot_not_mem_octetText _) hsame
  obtain ⟨hthird, hfourth⟩ := splitsAt (dot_not_mem_octetText _) (dot_not_mem_octetText _) hsame
  apply BitVec.eq_of_toNat_eq
  rw [toNat_eq_octets, toNat_eq_octets, octetText_injective hfirst, octetText_injective hsecond,
    octetText_injective hthird, octetText_injective hfourth]

theorem map_toLower_octetText (value : ℕ) (hvalue : value < 256) :
    (octetText value).map Char.toLower = octetText value := by
  revert value
  decide +kernel

theorem map_toLower_serializeIpv4 (address : Ipv4) :
    (serializeIpv4 address).map Char.toLower = serializeIpv4 address := by
  have hdot : Char.toLower '.' = '.' := by decide
  simp only [serializeIpv4, List.map_append, List.map_cons, hdot,
    map_toLower_octetText _ (octet_lt _ _)]

/-- A pattern of one label matches an octet. -/
def LabelMatches (pattern : List Piece) (value : ℕ) : Prop :=
  StartsWith (pattern ++ [once (· == '.')]) (octetText value ++ ['.'])

instance (pattern : List Piece) (value : ℕ) : Decidable (LabelMatches pattern value) :=
  inferInstanceAs (Decidable (StartsWith _ _))

theorem startsWith_octet {pattern rest : List Piece} {value : ℕ} {text : List Char}
    (hpattern : ∀ piece ∈ pattern, piece.accepts '.' = false) :
    StartsWith (pattern ++ once (· == '.') :: rest) (octetText value ++ '.' :: text) ↔
      LabelMatches pattern value ∧ StartsWith rest text := by
  rw [LabelMatches, startsWith_separated hpattern (dot_not_mem_octetText value),
    startsWith_separated hpattern (dot_not_mem_octetText value)]
  simp [startsWith_nil]

/-- The octets that the patterns name. -/
theorem labelMatches_literal : ∀ value < 256,
    (LabelMatches (literal "10") value ↔ value = 10) ∧
      (LabelMatches (literal "127") value ↔ value = 127) ∧
      (LabelMatches (literal "172") value ↔ value = 172) ∧
      (LabelMatches (literal "192") value ↔ value = 192) ∧
      (LabelMatches (literal "168") value ↔ value = 168) := by
  decide +kernel

theorem labelMatches_range : ∀ value < 256,
    (LabelMatches (literal "1" ++ [oneOf '6' '9']) value ∨
        LabelMatches (literal "2" ++ [oneOf '0' '9']) value ∨
          LabelMatches (literal "3" ++ [oneOf '0' '1']) value ↔
      16 ≤ value ∧ value ≤ 31) := by
  decide +kernel

/-- One of the patterns matches. -/
def MatchesCidr (hostname : List Char) : Prop :=
  (BLOCKED_CIDR.any fun pattern => pattern.test hostname) = true

theorem test_of_open {alternatives : List (List Piece)} {text : List Char} :
    Anchored.test { alternatives := alternatives } text = true ↔
      ∃ pieces ∈ alternatives, StartsWith pieces text := by
  simp only [Anchored.test, List.any_eq_true, startsWith_iff]
  refine exists_congr fun pieces => and_congr_right fun _ => ?_
  cases matchLength pieces text <;> simp

/-- The words of the pattern do not start with this character. -/
def avoids (c : Char) (pieces : List Piece) : Bool :=
  pieces.head?.any fun piece => decide (0 < piece.least) && !piece.accepts c

theorem not_test_of_avoids {pattern : Anchored} {c : Char} {text : List Char}
    (havoids : ∀ pieces ∈ pattern.alternatives, avoids c pieces = true) :
    pattern.test (c :: text) = false := by
  rw [Anchored.test, List.any_eq_false]
  intro pieces hpieces
  have hnone : matchLength pieces (c :: text) = none := by
    rw [← Option.not_isSome_iff_eq_none, ← startsWith_iff]
    have hfirst := havoids pieces hpieces
    cases pieces with
    | nil => cases hfirst
    | cons first rest =>
        simp only [avoids, List.head?_cons, Option.any_some, Bool.and_eq_true,
          decide_eq_true_eq, Bool.not_eq_true'] at hfirst
        exact not_startsWith_cons hfirst.1 hfirst.2
  simp [hnone]

theorem octetText_head (value : ℕ) :
    ∃ c rest, octetText value = c :: rest ∧ c.isDigit = true := by
  have hne : octetText value ≠ [] := by
    rw [octetText, Nat.toString_eq_repr, Nat.toList_repr]
    exact Nat.toDigits_ne_nil
  obtain ⟨c, rest, hcons⟩ := List.exists_cons_of_ne_nil hne
  refine ⟨c, rest, hcons, ?_⟩
  have hmem : c ∈ octetText value := by simp [hcons]
  rw [octetText, Nat.toString_eq_repr, Nat.toList_repr] at hmem
  exact Nat.isDigit_of_mem_toDigits (by decide) (by decide) hmem

/-- A pattern of the first octet. -/
theorem startsWith_first {pattern : List Piece} {address : Ipv4}
    (hpattern : ∀ piece ∈ pattern, piece.accepts '.' = false) :
    StartsWith (pattern ++ [once (· == '.')]) (serializeIpv4 address) ↔
      LabelMatches pattern (octet address 0) := by
  rw [serializeIpv4, startsWith_octet hpattern]
  exact and_iff_left startsWith_nil

/-- A pattern of the first two octets. -/
theorem startsWith_second {first second : List Piece} {address : Ipv4}
    (hfirst : ∀ piece ∈ first, piece.accepts '.' = false)
    (hsecond : ∀ piece ∈ second, piece.accepts '.' = false) :
    StartsWith (first ++ once (· == '.') :: (second ++ [once (· == '.')]))
        (serializeIpv4 address) ↔
      LabelMatches first (octet address 0) ∧ LabelMatches second (octet address 1) := by
  rw [serializeIpv4, startsWith_octet hfirst, startsWith_octet hsecond]
  exact and_congr_right fun _ => and_iff_left startsWith_nil

/-- The patterns of IPv6 addresses match the text of no IPv4 address. -/
theorem not_test_ipv6 (address : Ipv4) {pattern : Anchored}
    (hpattern : pattern ∈ BLOCKED_CIDR.drop 4) :
    pattern.test (serializeIpv4 address) = false := by
  obtain ⟨c, rest, hhead, hdigit⟩ := octetText_head (octet address 0)
  have hcolon : c ≠ ':' := fun hc => by rw [hc] at hdigit; cases hdigit
  have hletter : c ≠ 'f' := fun hc => by rw [hc] at hdigit; cases hdigit
  rw [serializeIpv4, hhead, List.cons_append]
  apply not_test_of_avoids
  simp only [BLOCKED_CIDR, List.drop_succ_cons, List.drop_zero, List.mem_cons,
    List.not_mem_nil, or_false] at hpattern
  rcases hpattern with rfl | rfl | rfl <;> simp [avoids, literal, once, hcolon, hletter]

/-- The addresses that the patterns match. -/
theorem matchesCidr_serializeIpv4 (address : Ipv4) :
    MatchesCidr (serializeIpv4 address) ↔
      octet address 0 = 10 ∨ (octet address 0 = 172 ∧ 16 ≤ octet address 1 ∧
        octet address 1 ≤ 31) ∨ (octet address 0 = 192 ∧ octet address 1 = 168) ∨
          octet address 0 = 127 := by
  obtain ⟨h10, h127, h172, h192, _⟩ := labelMatches_literal _ (octet_lt address 0)
  obtain ⟨_, _, _, _, h168⟩ := labelMatches_literal _ (octet_lt address 1)
  have hrange := labelMatches_range _ (octet_lt address 1)
  have hten : StartsWith (literal "10.") (serializeIpv4 address) ↔ octet address 0 = 10 := by
    rw [← h10, ← startsWith_first (by decide)]
    rfl
  have hloop : StartsWith (literal "127.") (serializeIpv4 address) ↔ octet address 0 = 127 := by
    rw [← h127, ← startsWith_first (by decide)]
    rfl
  have hsixteen : StartsWith (literal "192.168.") (serializeIpv4 address) ↔
      octet address 0 = 192 ∧ octet address 1 = 168 := by
    rw [← h192, ← h168, ← startsWith_second (by decide) (by decide)]
    rfl
  have htwelve : ∀ tens units : List Piece, (∀ piece ∈ tens ++ units, piece.accepts '.' = false) →
      (StartsWith (literal "172." ++ tens ++ units ++ literal ".") (serializeIpv4 address) ↔
        octet address 0 = 172 ∧ LabelMatches (tens ++ units) (octet address 1)) := by
    intro tens units hlabel
    rw [← h172, ← startsWith_second (by decide) hlabel, List.append_assoc (literal "172."),
      List.append_assoc (literal "172.")]
    rfl
  have hteens := htwelve (literal "1") [oneOf '6' '9'] (by decide)
  have htwenties := htwelve (literal "2") [oneOf '0' '9'] (by decide)
  have hthirties := htwelve (literal "3") [oneOf '0' '1'] (by decide)
  have hlater : ((BLOCKED_CIDR.drop 4).any fun pattern =>
      pattern.test (serializeIpv4 address)) = false :=
    List.any_eq_false.2 fun pattern hpattern => by simp [not_test_ipv6 address hpattern]
  rw [MatchesCidr, ← List.take_append_drop 4 BLOCKED_CIDR, List.any_append, hlater, Bool.or_false]
  simp only [BLOCKED_CIDR, List.take_succ_cons, List.take_zero, List.any_cons, List.any_nil,
    Bool.or_false, Bool.or_eq_true, test_of_open, List.mem_cons, List.not_mem_nil, or_false,
    exists_eq_or_imp, exists_eq_left, hten, hloop, hsixteen, hteens, htwenties, hthirties,
    ← and_or_left, hrange]

/-! ## What the check covers -/

/-- The lists forbid the host of this text. -/
def Blocked (hostname : List Char) : Prop :=
  String.ofList hostname ∈ BLOCKED_HOSTS ∨ MatchesCidr hostname

theorem linkLocal_iff (address : Ipv4) :
    LinkLocal address ↔ octet address 0 = 169 ∧ octet address 1 = 254 := by
  have hbound := address.isLt
  have hbase : (ipv4 169 254 0 0).toNat = 2851995648 := by decide
  rw [LinkLocal, InBlock, hbase]
  simp only [octet, Nat.reduceSub, Nat.reducePow, Nat.reduceDiv] at *
  omega

/-- An internal address that is not link-local is matched by a pattern, or unspecified. -/
theorem internalIpv4_iff (address : Ipv4) :
    InternalIpv4 address ↔
      MatchesCidr (serializeIpv4 address) ∨ LinkLocal address ∨ address = ipv4 0 0 0 0 := by
  have hbound := address.isLt
  have hloop : (ipv4 127 0 0 0).toNat = 2130706432 := by decide
  have hten : (ipv4 10 0 0 0).toNat = 167772160 := by decide
  have htwelve : (ipv4 172 16 0 0).toNat = 2886729728 := by decide
  have hsixteen : (ipv4 192 168 0 0).toNat = 3232235520 := by decide
  have hzero : (ipv4 0 0 0 0).toNat = 0 := by decide
  rw [matchesCidr_serializeIpv4, InternalIpv4, ← BitVec.toNat_inj]
  simp only [InBlock, hloop, hten, htwelve, hsixteen, hzero, octet, Nat.reduceSub, Nat.reducePow,
    Nat.reduceDiv, Nat.div_one] at *
  by_cases hlocal : LinkLocal address
  · simp only [hlocal, true_or, or_true]
  · simp only [hlocal, false_or]
    omega

theorem not_blocked_of_bracket (text : List Char) : ¬Blocked ('[' :: text) := by
  rintro (hlisted | hmatches)
  · have hhead : ∀ host ∈ BLOCKED_HOSTS, host.toList.head? ≠ some '[' := by decide +kernel
    exact hhead _ hlisted (by rw [String.toList_ofList, List.head?_cons])
  · obtain ⟨pattern, hpattern, htest⟩ := List.any_eq_true.1 hmatches
    have havoids : ∀ pattern ∈ BLOCKED_CIDR,
        (pattern.alternatives.all (avoids '[')) = true := by
      simp [BLOCKED_CIDR, avoids, literal, once]
    rw [not_test_of_avoids (List.all_eq_true.1 (havoids pattern hpattern))] at htest
    cases htest

theorem mem_blockedHosts_iff (address : Ipv4) :
    String.ofList (serializeIpv4 address) ∈ BLOCKED_HOSTS ↔
      address = ipv4 127 0 0 1 ∨ address = ipv4 0 0 0 0 ∨ address = ipv4 169 254 169 254 := by
  have hhosts : BLOCKED_HOSTS =
      ["localhost", String.ofList (serializeIpv4 (ipv4 127 0 0 1)),
        String.ofList (serializeIpv4 (ipv4 0 0 0 0)),
        String.ofList (serializeIpv4 (ipv4 169 254 169 254))] := by
    decide +kernel
  have hname : String.ofList (serializeIpv4 address) ≠ "localhost" := by
    intro hname
    have hdot : '.' ∈ serializeIpv4 address := by simp [serializeIpv4]
    rw [← String.toList_ofList (l := serializeIpv4 address), hname] at hdot
    exact absurd hdot (by decide)
  have hexact : ∀ other, String.ofList (serializeIpv4 address) =
      String.ofList (serializeIpv4 other) ↔ address = other := fun other =>
    ⟨fun hsame => serializeIpv4_injective (String.ofList_injective hsame), fun hsame => by
      rw [hsame]⟩
  rw [hhosts]
  simp only [List.mem_cons, List.not_mem_nil, or_false, hname, false_or, hexact]

/-- No pattern matches a link-local address. -/
theorem not_matchesCidr_of_linkLocal {address : Ipv4} (hlocal : LinkLocal address) :
    ¬MatchesCidr (serializeIpv4 address) := by
  rw [linkLocal_iff] at hlocal
  rw [matchesCidr_serializeIpv4]
  omega

/-- The check knows an internal host exactly when the lists have it. -/
theorem blocked_iff_listed {host : Host} (hinternal : host.Internal) :
    Blocked (host.serialize.map Char.toLower) ↔ host.Listed := by
  cases host with
  | domain name =>
      have hlower : name.toList.map Char.toLower = toLowerCase name := rfl
      rw [Host.serialize, Host.Listed, hlower]
      rcases hinternal with hname | hname
      · rw [hname]
        exact iff_of_true (.inl (by decide +kernel)) rfl
      · rw [hname]
        refine iff_of_false ?_ (by decide +kernel)
        rintro (hlisted | hmatches)
        · exact absurd hlisted (by decide +kernel)
        · exact absurd hmatches (by unfold MatchesCidr; decide +kernel)
  | ipv6 address =>
      refine iff_of_false ?_ id
      rw [Host.serialize, serializeIpv6, List.cons_append, List.map_cons]
      exact not_blocked_of_bracket _
  | ipv4 address =>
      rw [Host.serialize, map_toLower_serializeIpv4, Host.Listed, Blocked]
      rw [mem_blockedHosts_iff]
      constructor
      · rintro ((rfl | rfl | hlisted) | hmatches) hlocal
        · exact absurd ((linkLocal_iff _).1 hlocal) (by decide)
        · exact absurd ((linkLocal_iff _).1 hlocal) (by decide)
        · exact hlisted
        · exact absurd hmatches (not_matchesCidr_of_linkLocal hlocal)
      · intro hlisted
        rcases (internalIpv4_iff address).1 hinternal with hmatches | hlocal | hzero
        · exact .inr hmatches
        · exact .inl (.inr (.inr (hlisted hlocal)))
        · exact .inl (.inr (.inl hzero))

theorem validateWebhookUrl_eq_error_iff {environment : Environment} {urlString : String} {url : Url}
    (hparse : environment.parse urlString = some url) :
    (∃ error, validateWebhookUrl environment urlString = .error error) ↔
      url.protocol ∉ ["http:", "https:"] ∨ Blocked (toLowerCase url.hostname) ∨
        (url.protocol = "http:" ∧ environment.nodeEnv = some "production") := by
  simp only [validateWebhookUrl, hparse, Blocked, MatchesCidr]
  split_ifs with hprotocol hlisted hmatches hproduction <;> simp_all

/-- For an internal host the check throws exactly when the scheme is refused or the lists have the
host. -/
theorem validateWebhookUrl_throws_iff {environment : Environment} {urlString : String} {url : Url}
    {host : Host} (hparse : environment.parse urlString = some url) (hhost : url.host = some host)
    (hinternal : host.Internal) :
    (∃ error, validateWebhookUrl environment urlString = .error error) ↔
      url.protocol ∉ ["http:", "https:"] ∨
        (url.protocol = "http:" ∧ environment.nodeEnv = some "production") ∨ host.Listed := by
  have hhostname : toLowerCase url.hostname = host.serialize.map Char.toLower := by
    rw [toLowerCase, Url.hostname, hhost, Option.map_some, Option.getD_some,
      String.toList_ofList]
  rw [validateWebhookUrl_eq_error_iff hparse, hhostname, blocked_iff_listed hinternal,
    or_comm (b := url.protocol = "http:" ∧ _)]

/-- A parser at one text. -/
def parses (urlString : String) (url : Url) : Environment :=
  { parse := fun text => if text = urlString then some url else none
    nodeEnv := some "production" }

theorem parses_self (urlString : String) (url : Url) :
    (parses urlString url).parse urlString = some url := if_pos rfl

def privateUrl : Url := { protocol := "https:", host := some (.ipv4 (ipv4 10 0 0 1)) }

theorem privateUrl_throws :
    ∃ error, validateWebhookUrl (parses "https://10.1/hook" privateUrl) "https://10.1/hook" =
      .error error :=
  (validateWebhookUrl_throws_iff (parses_self _ privateUrl) rfl (.inr (.inl rfl))).2
    (.inr (.inr fun hlocal => absurd ((linkLocal_iff _).1 hlocal) (by decide)))

def loopbackUrl : Url := { protocol := "https:", host := some (.ipv6 1#128) }

/-- The brackets keep every IPv6 address from the patterns. -/
theorem loopback_passes :
    ¬∀ (environment : Environment) (urlString : String) (url : Url) (host : Host),
      environment.parse urlString = some url → url.host = some host → host.Internal →
        ∃ error, validateWebhookUrl environment urlString = .error error := by
  intro hall
  obtain ⟨error, herror⟩ := hall (parses "https://[::1]/hook" loopbackUrl) "https://[::1]/hook"
    loopbackUrl (.ipv6 1#128) (parses_self _ _) rfl (.inl rfl)
  have hok : validateWebhookUrl (parses "https://[::1]/hook" loopbackUrl) "https://[::1]/hook" =
      .ok () := by
    decide +kernel
  rw [hok] at herror
  cases herror

end StellarSettle.UrlValidation
