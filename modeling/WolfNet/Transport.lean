import WolfNet.PeerManager
import WolfNet.Std.Utf8

/-!
# Packet framing

The layouts of the datagrams on the wire and the destination fields of the IP
packets inside them. Parsers read at fixed offsets behind a length check.
-/

namespace WolfNet

open WolfNet.Std

def pktHandshake : UInt8 := 0x01

def pktData : UInt8 := 0x03

def pktKeepalive : UInt8 := 0x04

def pktPeerExchange : UInt8 := 0x06

/-- The bytes of a string. -/
def utf8Bytes (text : String) : List UInt8 := text.toUTF8.data.toList

/-- The bytes of a text are those of its characters. -/
theorem utf8Bytes_ofList (text : List Char) :
    utf8Bytes (String.ofList text) = text.flatMap String.utf8EncodeChar := utf8_ofList text

/-- Their number is the text's length in bytes. -/
theorem length_utf8Bytes (text : List Char) :
    (utf8Bytes (String.ofList text)).length = byteLength text := by
  rw [utf8Bytes_ofList]
  induction text with
  | nil => rfl
  | cons c text ih =>
      rw [List.flatMap_cons, List.length_append, String.length_utf8EncodeChar, ih, byteLength_cons]

variable [Crates]

/-- The content of a handshake packet. -/
structure Handshake where
  publicKey : PublicKey
  wolfnetIp : Ipv4Addr
  listenPort : UInt16
  isGateway : Bool
  hostname : String
deriving DecidableEq

/-- `[1: type] [32: public_key] [4: wolfnet_ip] [2: listen_port] [1: is_gateway] [N: hostname]`. -/
def buildHandshake (keypair : KeyPair) (wolfnetIp : Ipv4Addr) (listenPort : UInt16)
    (hostname : String) (isGateway : Bool) : List UInt8 :=
  [pktHandshake] ++ keypair.publicKey.1 ++
    [wolfnetIp.a, wolfnetIp.b, wolfnetIp.c, wolfnetIp.d] ++ (u16ToLeBytes listenPort).1 ++
    [if isGateway then 1 else 0] ++ utf8Bytes hostname

/-- Parse a handshake packet. -/
def parseHandshake (data : List UInt8) : Rust (Option Handshake) := do
  if data.length < 40 then return none
  if (← index data 0) ≠ pktHandshake then return none
  let publicKey ← array data 1 32
  let ip : Ipv4Addr :=
    ⟨← index data 33, ← index data 34, ← index data 35, ← index data 36⟩
  let port ← array data 37 2
  let isGateway := (← index data 39) != 0
  let hostname ← slice data 40 data.length
  return some {
    publicKey := publicKey
    wolfnetIp := ip
    listenPort := u16FromLeBytes port
    isGateway := isGateway
    hostname := fromUtf8Lossy hostname }

/-- `[1: type] [4: peer_id] [8: nonce_counter] [N: encrypted_payload]`. -/
def buildDataPacket (peerId : PeerId) (counter : UInt64) (ciphertext : List UInt8) : List UInt8 :=
  [pktData] ++ peerId.1 ++ (u64ToLeBytes counter).1 ++ ciphertext

/-- Parse a data packet header: the sender's ID, the counter and the ciphertext. -/
def parseDataPacket (data : List UInt8) : Rust (Option (PeerId × UInt64 × List UInt8)) := do
  if data.length < 14 then return none
  if (← index data 0) ≠ pktData then return none
  let peerId ← array data 1 4
  let counter := u64FromLeBytes (← array data 5 8)
  let ciphertext ← slice data 13 data.length
  return some (peerId, counter, ciphertext)

/-- `[1: type] [4: peer_id]`. -/
def buildKeepalive (peerId : PeerId) : List UInt8 := [pktKeepalive] ++ peerId.1

/-- The content of a discovery broadcast. -/
structure Discovery where
  nodeId : String
  publicKey : PublicKey
  wolfnetIp : Ipv4Addr
  listenPort : UInt16
  hostname : String
  isGateway : Bool
deriving DecidableEq

/-- Format a discovery broadcast message. -/
def formatDiscovery (nodeId : String) (publicKey : PublicKey) (wolfnetIp : Ipv4Addr)
    (listenPort : UInt16) (hostname : String) (isGateway : Bool) : String :=
  let key := Crates.base64Encode publicKey.1
  let ip := wolfnetIp.toText
  let port := String.ofList (Nat.toDigits 10 listenPort.toNat)
  let gateway := if isGateway then "G" else "N"
  s!"WOLFNET|1|{nodeId}|{key}|{ip}|{port}|{hostname}|{gateway}"

/-- `str::split`: the parts between separators, empty ones included. -/
def splitAll (separator : Char) : List Char → List (List Char)
  | [] => [[]]
  | c :: rest =>
    if c = separator then [] :: splitAll separator rest
    else
      match splitAll separator rest with
      | part :: parts => (c :: part) :: parts
      | [] => [[c]]

/-- Parse a discovery broadcast message. -/
def parseDiscovery (message : String) : Option Discovery :=
  match splitAll '|' message.toList with
  | tag :: _version :: nodeId :: publicKey :: wolfnetIp :: listenPort :: hostname :: gateway :: _ =>
    if tag ≠ "WOLFNET".toList then none
    else do
      let publicKey ← (parsePublicKey (String.ofList publicKey)).toOption
      let wolfnetIp ← Ipv4Addr.parse wolfnetIp
      let listenPort ← parseU16 listenPort
      return {
        nodeId := String.ofList nodeId
        publicKey := publicKey
        wolfnetIp := wolfnetIp
        listenPort := listenPort
        hostname := String.ofList hostname
        isGateway := gateway == ['G'] }
  | _ => none

/-- `[1: type] [N: JSON array of PexEntry]`. -/
def buildPeerExchange (myIp : Ipv4Addr) (pm : PeerManager) : List UInt8 :=
  pktPeerExchange :: Crates.entriesToJson (pm.getPexEntries myIp)

/-- Parse a peer exchange packet. -/
def parsePeerExchange (data : List UInt8) : Option (List PexEntry) :=
  match data with
  | [] => none
  | type :: json => if type ≠ pktPeerExchange then none else Crates.entriesFromJson json

end WolfNet
