import Mathlib.Data.List.Basic
import WolfNet.Std.Text

/-!
# Internet addresses as `std::net` defines them

The address types, the classifications the daemon asks for, and the parsers
behind `str::parse`, which read their whole input or fail.
-/

namespace WolfNet

open WolfNet.Std

/-- `std::net::Ipv4Addr`, by its four octets. -/
structure Ipv4Addr where
  a : UInt8
  b : UInt8
  c : UInt8
  d : UInt8
deriving DecidableEq, Repr, Inhabited

/-- `std::net::Ipv6Addr`, by its bits in network order. -/
structure Ipv6Addr where
  bits : BitVec 128
deriving DecidableEq, Repr

/-- `std::net::IpAddr`. -/
inductive IpAddr where
  | v4 (ip : Ipv4Addr)
  | v6 (ip : Ipv6Addr)
deriving DecidableEq, Repr

/-- `std::net::SocketAddr`. -/
inductive SocketAddr where
  | v4 (ip : Ipv4Addr) (port : UInt16)
  | v6 (ip : Ipv6Addr) (port : UInt16) (flowinfo scopeId : UInt32)
deriving DecidableEq, Repr

namespace Ipv4Addr

/-- `Ipv4Addr::BROADCAST`. -/
def broadcast : Ipv4Addr := ⟨255, 255, 255, 255⟩

def isLoopback (ip : Ipv4Addr) : Bool := ip.a == 127

def isUnspecified (ip : Ipv4Addr) : Bool := ip == ⟨0, 0, 0, 0⟩

def isLinkLocal (ip : Ipv4Addr) : Bool := ip.a == 169 && ip.b == 254

def isMulticast (ip : Ipv4Addr) : Bool := 224 ≤ ip.a && ip.a ≤ 239

end Ipv4Addr

namespace Ipv6Addr

def isLoopback (ip : Ipv6Addr) : Bool := ip.bits == 1

def isUnspecified (ip : Ipv6Addr) : Bool := ip.bits == 0

/-- The address whose octets are given, most significant first. -/
def ofOctets (octets : List UInt8) : Ipv6Addr :=
  ⟨BitVec.ofNat 128 (octets.foldl (fun value octet => value * 256 + octet.toNat) 0)⟩

/-- The address whose 16-bit groups are given, most significant first. -/
def ofSegments (segments : List Nat) : Ipv6Addr :=
  ⟨BitVec.ofNat 128 (segments.foldl (fun value segment => value * 65536 + segment) 0)⟩

end Ipv6Addr

namespace SocketAddr

/-- `SocketAddr::ip`. -/
def ip : SocketAddr → IpAddr
  | .v4 ip _ => .v4 ip
  | .v6 ip _ _ _ => .v6 ip

/-- `SocketAddr::new`. -/
def new (ip : IpAddr) (port : UInt16) : SocketAddr :=
  match ip with
  | .v4 ip => .v4 ip port
  | .v6 ip => .v6 ip port 0 0

end SocketAddr

namespace AddrParser

/-- A parser takes the front of its input, or fails and takes nothing. -/
abbrev Parser (α : Type) := List Char → Option (α × List Char)

def readGivenChar (given : Char) : Parser Unit
  | c :: rest => if c = given then some ((), rest) else none
  | [] => none

/-- Read as many digits as there are. The number fails on no digit, on more than
`maxDigits`, on a leading zero unless allowed, and above `limit`. -/
def readNumber (radix : Nat) (maxDigits : Option Nat) (allowZeroPrefix : Bool) (limit : Nat) :
    Parser Nat := fun input =>
  let digits := input.takeWhile fun c => (toDigit radix c).isSome
  let rest := input.dropWhile fun c => (toDigit radix c).isSome
  let tooMany := maxDigits.any fun most => most < digits.length
  let zeroPrefix := !allowZeroPrefix && digits.head? == some '0' && 1 < digits.length
  if digits.isEmpty || tooMany || zeroPrefix || limit < digitsValue radix digits then none
  else some (digitsValue radix digits, rest)

/-- An item, after a separator unless it is the first of its list. -/
def readSeparator {α : Type} (separator : Char) (first : Bool) (inner : Parser α) : Parser α :=
  fun input =>
    if first then inner input
    else (readGivenChar separator input).bind fun (_, rest) => inner rest

def readOctet (first : Bool) : Parser Nat :=
  readSeparator '.' first (readNumber 10 (some 3) false 255)

def readIpv4Addr : Parser Ipv4Addr := fun input => do
  let (a, rest) ← readOctet true input
  let (b, rest) ← readOctet false rest
  let (c, rest) ← readOctet false rest
  let (d, rest) ← readOctet false rest
  return (⟨UInt8.ofNat a, UInt8.ofNat b, UInt8.ofNat c, UInt8.ofNat d⟩, rest)

/-- Up to `room` groups of an IPv6 address, and whether they end with an embedded
IPv4 address, which takes the room of two. -/
def readGroups : (room : Nat) → (first : Bool) → List Char → List Nat × Bool × List Char
  | 0, _, input => ([], false, input)
  | room + 1, first, input =>
    let embedded := if 0 < room then readSeparator ':' first readIpv4Addr input else none
    match embedded with
    | some (ip, rest) =>
      ([ip.a.toNat * 256 + ip.b.toNat, ip.c.toNat * 256 + ip.d.toNat], true, rest)
    | none =>
      match readSeparator ':' first (readNumber 16 (some 4) true 65535) input with
      | some (group, rest) =>
        let (groups, ipv4, rest) := readGroups room false rest
        (group :: groups, ipv4, rest)
      | none => ([], false, input)

def readIpv6Addr : Parser Ipv6Addr := fun input =>
  let (head, headIpv4, rest) := readGroups 8 true input
  if head.length = 8 then some (.ofSegments head, rest)
  else if headIpv4 then none
  else do
    let (_, rest) ← readGivenChar ':' rest
    let (_, rest) ← readGivenChar ':' rest
    let (tail, _, rest) := readGroups (8 - (head.length + 1)) true rest
    let zeros := List.replicate (8 - head.length - tail.length) 0
    return (.ofSegments (head ++ zeros ++ tail), rest)

def readPort : Parser UInt16 := fun input => do
  let (_, rest) ← readGivenChar ':' input
  let (port, rest) ← readNumber 10 none true 65535 rest
  return (UInt16.ofNat port, rest)

def readScopeId : Parser UInt32 := fun input => do
  let (_, rest) ← readGivenChar '%' input
  let (scopeId, rest) ← readNumber 10 none true 4294967295 rest
  return (UInt32.ofNat scopeId, rest)

def readSocketAddrV4 : Parser SocketAddr := fun input => do
  let (ip, rest) ← readIpv4Addr input
  let (port, rest) ← readPort rest
  return (.v4 ip port, rest)

def readSocketAddrV6 : Parser SocketAddr := fun input => do
  let (_, rest) ← readGivenChar '[' input
  let (ip, rest) ← readIpv6Addr rest
  let (scopeId, rest) := (readScopeId rest).getD (0, rest)
  let (_, rest) ← readGivenChar ']' rest
  let (port, rest) ← readPort rest
  return (.v6 ip port 0 scopeId, rest)

def readSocketAddr : Parser SocketAddr := fun input =>
  (readSocketAddrV4 input).orElse fun _ => readSocketAddrV6 input

/-- Run a parser that must consume its whole input. -/
def parseWith {α : Type} (inner : Parser α) (text : List Char) : Option α :=
  match inner text with
  | some (value, []) => some value
  | _ => none

end AddrParser

/-- `str::parse::<Ipv4Addr>`: at most 15 characters. -/
def Ipv4Addr.parse (text : List Char) : Option Ipv4Addr :=
  if 15 < text.length then none else AddrParser.parseWith AddrParser.readIpv4Addr text

/-- `str::parse::<Ipv6Addr>`. -/
def Ipv6Addr.parse (text : List Char) : Option Ipv6Addr :=
  AddrParser.parseWith AddrParser.readIpv6Addr text

/-- `str::parse::<SocketAddr>`. -/
def SocketAddr.parse (text : List Char) : Option SocketAddr :=
  AddrParser.parseWith AddrParser.readSocketAddr text

example : Ipv4Addr.parse "10.0.10.255".toList = some ⟨10, 0, 10, 255⟩ := by decide

example : Ipv4Addr.parse "10.0.010.255".toList = none := by decide

example : Ipv6Addr.parse "fd00::1:10.0.0.1".toList =
    some (.ofSegments [0xfd00, 0, 0, 0, 0, 1, 0x0a00, 1]) := by decide

example : SocketAddr.parse "[::1%7]:9600".toList =
    some (.v6 (.ofSegments [0, 0, 0, 0, 0, 0, 0, 1]) 9600 0 7) := by decide

end WolfNet
