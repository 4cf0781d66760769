import WolfNet.Net.Canonical

/-!
# The texts of addresses

`format!("{}.{}.{}.{}")` of four octets is the one text that parses to the address. An IPv6
address shows its longest run of zero groups as `::`, and a socket address brackets it.
-/

namespace WolfNet

open WolfNet.Std

/-- The decimal numeral of an octet. -/
def octetText (octet : UInt8) : List Char := Nat.toDigits 10 octet.toNat

namespace Ipv4Addr

def chars (ip : Ipv4Addr) : List Char :=
  octetText ip.a ++ '.' :: (octetText ip.b ++ '.' :: (octetText ip.c ++ '.' :: octetText ip.d))

/-- The dotted text of an address. -/
def toText (ip : Ipv4Addr) : String := String.ofList ip.chars

end Ipv4Addr

/-- What the parser of an octet asks of a numeral. -/
structure IsOctetText (octet : UInt8) (digits : List Char) : Prop where
  nonempty : digits.isEmpty = false
  isDigit : digits.all (fun c => (toDigit 10 c).isSome) = true
  short : digits.length ≤ 3
  noZero : (digits.head? == some '0' && decide (1 < digits.length)) = false
  value : digitsValue 10 digits = octet.toNat

/-- A written octet is an octet's text. -/
theorem octetText_isOctetText (octet : UInt8) : IsOctetText octet (octetText octet) := by
  have checked : ∀ value < 256,
      (Nat.toDigits 10 value).isEmpty = false ∧
      (Nat.toDigits 10 value).all (fun c => (toDigit 10 c).isSome) = true ∧
      (Nat.toDigits 10 value).length ≤ 3 ∧
      ((Nat.toDigits 10 value).head? == some '0' && decide (1 < (Nat.toDigits 10 value).length)) =
        false ∧
      digitsValue 10 (Nat.toDigits 10 value) = value := by decide +kernel
  obtain ⟨nonempty, isDigit, short, noZero, value⟩ := checked octet.toNat octet.toNat_lt
  exact ⟨nonempty, isDigit, short, noZero, value⟩

namespace AddrParser

/-- The numeral of an octet is read up to a dot or the end. -/
theorem readNumber_octetText (octet : UInt8) {rest : List Char}
    (stops : ∀ c ∈ rest.head?, toDigit 10 c = none) :
    readNumber 10 (some 3) false 255 (octetText octet ++ rest) = some (octet.toNat, rest) := by
  obtain ⟨nonempty, isDigit, short, noZero, value⟩ := octetText_isOctetText octet
  have digits : ∀ c ∈ octetText octet, (toDigit 10 c).isSome := List.all_eq_true.mp isDigit
  have taken : (octetText octet ++ rest).takeWhile (fun c =>
    (toDigit 10 c).isSome) = octetText octet := by
    rw [List.takeWhile_append_of_pos digits]
    cases rest with
    | nil => simp
    | cons c rest => simp [stops c rfl]
  have dropped : (octetText octet ++ rest).dropWhile (fun c => (toDigit 10 c).isSome) = rest := by
    rw [List.dropWhile_append_of_pos digits]
    cases rest with
    | nil => rfl
    | cons c rest => simp [stops c rfl]
  have bounded : ¬ 255 < octet.toNat := by
    have := octet.toNat_lt
    omega
  simp [readNumber, taken, dropped, nonempty, noZero, value, bounded, Nat.not_lt.mpr short]

/-- A written octet is read back behind a dot. -/
theorem readOctet_chars (octet : UInt8) {rest : List Char}
    (stops : ∀ c ∈ rest.head?, toDigit 10 c = none) :
    readOctet false ('.' :: (octetText octet ++ rest)) = some (octet.toNat, rest) := by
  simp [readOctet, readSeparator, readGivenChar, readNumber_octetText octet stops]

/-- A written address is read back. -/
theorem readIpv4Addr_chars (ip : Ipv4Addr) : readIpv4Addr ip.chars = some (ip, []) := by
  have dot : ∀ {rest : List Char}, ∀ c ∈ ('.' :: rest).head?, toDigit 10 c = none := by
    intro rest c head
    cases head
    decide
  have readA : readOctet true ip.chars = some (ip.a.toNat, _) := readNumber_octetText ip.a dot
  have readD : readOctet false ('.' :: octetText ip.d) = some (ip.d.toNat, []) := by
    have read := @readOctet_chars ip.d [] (by simp)
    rwa [List.append_nil] at read
  simp [readIpv4Addr, readA, readOctet_chars ip.b dot, readOctet_chars ip.c dot, readD]

end AddrParser

/-- A written address has at most fifteen characters. -/
theorem Ipv4Addr.chars_length (ip : Ipv4Addr) : ip.chars.length ≤ 15 := by
  have a := (octetText_isOctetText ip.a).short
  have b := (octetText_isOctetText ip.b).short
  have c := (octetText_isOctetText ip.c).short
  have d := (octetText_isOctetText ip.d).short
  simp only [chars, List.length_append, List.length_cons]
  omega

/-- It is parsed as the address. -/
theorem Ipv4Addr.parse_chars (ip : Ipv4Addr) : Ipv4Addr.parse ip.chars = some ip := by
  rw [parse, if_neg (Nat.not_lt.mpr ip.chars_length), AddrParser.parseWith,
    AddrParser.readIpv4Addr_chars]

/-- So is its text. -/
theorem Ipv4Addr.parse_toText (ip : Ipv4Addr) : Ipv4Addr.parse ip.toText.toList = some ip := by
  rw [toText, String.toList_ofList, parse_chars]

/-- Different addresses are written differently. -/
theorem Ipv4Addr.toText_inj {ip other : Ipv4Addr} : ip.toText = other.toText ↔ ip = other := by
  constructor
  · intro same
    have parsed := parse_toText ip
    rw [same, parse_toText] at parsed
    exact (Option.some.inj parsed).symm
  · rintro rfl
    rfl

/-- A text that parses is the text of its address. -/
theorem Ipv4Addr.eq_toText {text : String} {ip : Ipv4Addr}
    (parsed : Ipv4Addr.parse text.toList = some ip) :
    text = ip.toText := by
  have same := Ipv4Addr.parse_inj parsed (parse_toText ip)
  rw [← String.ofList_toList (s := text), same, String.ofList_toList]

namespace Ipv6Addr

/-- The eight 16-bit groups, most significant first. -/
def segments (ip : Ipv6Addr) : List Nat :=
  (List.range 8).map fun i => (ip.bits >>> (16 * (7 - i))).toNat % 65536

/-- The IPv4 address that `::ffff:0:0/96` embeds. -/
def toIpv4Mapped (ip : Ipv6Addr) : Option Ipv4Addr :=
  match ip.segments with
  | [0, 0, 0, 0, 0, 0xffff, high, low] =>
    some ⟨UInt8.ofNat (high / 256), UInt8.ofNat (high % 256), UInt8.ofNat (low / 256),
      UInt8.ofNat (low % 256)⟩
  | _ => none

/-- A run of groups. -/
structure Span where
  start : Nat
  len : Nat

/-- The first of the longest runs of zero groups, looking from a position with the run that ends
there and the longest one before. -/
def longestZeros (position : Nat) (current longest : Span) : List Nat → Span
  | [] => longest
  | segment :: segments =>
    if segment = 0 then
      let current := ⟨if current.len = 0 then position else current.start, current.len + 1⟩
      longestZeros (position + 1) current
        (if longest.len < current.len then current else longest) segments
    else longestZeros (position + 1) ⟨0, 0⟩ longest segments

/-- Groups as hexadecimal numerals with colons between them. -/
def groupChars (segments : List Nat) : List Char :=
  [':'].intercalate (segments.map (Nat.toDigits 16))

def chars (ip : Ipv6Addr) : List Char :=
  match ip.toIpv4Mapped with
  | some ipv4 => "::ffff:".toList ++ ipv4.chars
  | none =>
    let zeroes := longestZeros 0 ⟨0, 0⟩ ⟨0, 0⟩ ip.segments
    if 1 < zeroes.len then
      groupChars (ip.segments.take zeroes.start) ++ "::".toList ++
        groupChars (ip.segments.drop (zeroes.start + zeroes.len))
    else groupChars ip.segments

end Ipv6Addr

/-- `SocketAddr::to_string`. -/
def SocketAddr.toText : SocketAddr → String
  | .v4 ip port => String.ofList (ip.chars ++ ':' :: Nat.toDigits 10 port.toNat)
  | .v6 ip port _ scopeId =>
    let scope := if scopeId = 0 then [] else '%' :: Nat.toDigits 10 scopeId.toNat
    String.ofList ('[' :: ip.chars ++ scope ++ "]:".toList ++ Nat.toDigits 10 port.toNat)

example : (SocketAddr.v6 (.ofSegments [0xfd00, 0, 0, 1, 0, 0, 0, 0xa]) 9600 0 7).toText =
    "[fd00:0:0:1::a%7]:9600" := by decide

end WolfNet
