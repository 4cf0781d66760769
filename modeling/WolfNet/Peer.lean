import WolfNet.Crypto
import WolfNet.Net.Addr

/-!
# Peers

What the daemon knows about one peer, and the session and traffic operations on
it. Time is a reading of the monotonic clock in nanoseconds; one event reads it
once.
-/

namespace WolfNet

open WolfNet.Std

/-- A reading of the monotonic clock, in nanoseconds. -/
abbrev Instant := Nat

/-- `t.elapsed().as_secs()` at the reading `now`. -/
def elapsedSecs (now t : Instant) : Nat := (now - t) / 1000000000

variable [Crates]

/-- Information about a known peer. Its identifier is the hash of its key. -/
structure Peer where
  publicKey : PublicKey
  peerId : PeerId
  /-- Peer's IP on the WolfNet virtual network. -/
  wolfnetIp : Ipv4Addr
  /-- Peer's real endpoint (public IP:port). -/
  endpoint : Option SocketAddr
  hostname : String
  cipher : Option SessionCipher
  isGateway : Bool
  /-- Last time we heard from this peer. -/
  lastSeen : Option Instant
  rxBytes : UInt64
  txBytes : UInt64
  lastHandshake : Option Instant
  /-- The peer that told us about this one, if we learned of it by peer exchange. -/
  relayVia : Option Ipv4Addr
  /-- The endpoint line of the config, which may name a host. -/
  configuredEndpoint : Option String
  /-- Last time we decrypted a data packet from this peer. -/
  lastDataRx : Option Instant
  peerIdOfKey : peerId = KeyPair.peerId publicKey

namespace Peer

/-- Create a new peer from config. -/
def new (publicKey : PublicKey) (wolfnetIp : Ipv4Addr) : Peer where
  publicKey := publicKey
  peerId := KeyPair.peerId publicKey
  wolfnetIp := wolfnetIp
  endpoint := none
  hostname := ""
  cipher := none
  isGateway := false
  lastSeen := none
  rxBytes := 0
  txBytes := 0
  lastHandshake := none
  relayVia := none
  configuredEndpoint := none
  lastDataRx := none
  peerIdOfKey := rfl

/-- Establish a session with this peer using our secret key. -/
def establishSession (peer : Peer) (mySecret : StaticSecret) (myPublic : PublicKey)
    (now : Instant) : Peer :=
  let shared := Crates.diffieHellman mySecret peer.publicKey
  { peer with
    cipher := some (SessionCipher.new shared myPublic peer.publicKey)
    lastHandshake := some now }

/-- A session exists and some traffic was observed in the last 120 seconds. -/
def isConnected (peer : Peer) (now : Instant) : Bool :=
  peer.cipher.isSome && peer.lastSeen.any fun t => elapsedSecs now t < 120

/-- A session exists and a data packet was decrypted in the last 120 seconds. -/
def isPassingData (peer : Peer) (now : Instant) : Bool :=
  peer.cipher.isSome && peer.lastDataRx.any fun t => elapsedSecs now t < 120

/-- Encrypt a packet for this peer. -/
def encrypt (peer : Peer) (data : List UInt8) : Peer × Except String (UInt64 × List UInt8) :=
  match peer.cipher with
  | none => (peer, .error "No session established")
  | some session =>
    match session.encrypt data with
    | (session, .error error) => ({ peer with cipher := some session }, .error error)
    | (session, .ok result) =>
      ({ peer with
          cipher := some session
          txBytes := peer.txBytes + UInt64.ofNat data.length }, .ok result)

/-- The peer after a datagram opened to `plaintextLen` bytes under the new session. -/
def received (peer : Peer) (session : SessionCipher) (plaintextLen : Nat) (now : Instant) : Peer :=
  { peer with
    cipher := some session
    rxBytes := peer.rxBytes + UInt64.ofNat plaintextLen
    lastSeen := some now
    lastDataRx := some now }

/-- Decrypt a packet from this peer. -/
def decrypt (peer : Peer) (counter : UInt64) (data : List UInt8) (now : Instant) :
    Peer × Except String (List UInt8) :=
  match peer.cipher with
  | none => (peer, .error "No session established")
  | some session =>
    match session.decrypt counter data with
    | (session, .error error) => ({ peer with cipher := some session }, .error error)
    | (session, .ok plaintext) => (peer.received session plaintext.length now, .ok plaintext)

/-- Encrypt `buf[..len]` in place and append the 16-byte tag. -/
def encryptInto (peer : Peer) (buf : List UInt8) (len : Nat) :
    Rust (Peer × List UInt8 × Except String (UInt64 × Nat)) := do
  match peer.cipher with
  | none => return (peer, buf, .error "No session established")
  | some session =>
    match ← session.encryptInto buf len with
    | (session, buf, .error error) =>
      return ({ peer with cipher := some session }, buf, .error error)
    | (session, buf, .ok result) =>
      return ({ peer with
        cipher := some session
        txBytes := peer.txBytes + UInt64.ofNat len }, buf, .ok result)

/-- Decrypt `buf[..len]` in place, its last 16 bytes being the tag. -/
def decryptInto (peer : Peer) (counter : UInt64) (buf : List UInt8) (len : Nat) (now : Instant) :
    Rust (Peer × List UInt8 × Except String Nat) := do
  match peer.cipher with
  | none => return (peer, buf, .error "No session established")
  | some session =>
    match ← session.decryptInto counter buf len with
    | (session, buf, .error error) =>
      return ({ peer with cipher := some session }, buf, .error error)
    | (session, buf, .ok plaintextLen) =>
      return (peer.received session plaintextLen now, buf, .ok plaintextLen)

/-- Who is connected at a time was so, by the same record, at every earlier reading. -/
theorem isConnected_earlier {peer : Peer} {now later : Instant}
    (connected : peer.isConnected later = true) (sooner : now ≤ later) :
    peer.isConnected now = true := by
  simp only [isConnected, Bool.and_eq_true, Option.any_eq_true, decide_eq_true_eq] at connected ⊢
  obtain ⟨established, time, seen, recent⟩ := connected
  refine ⟨established, time, seen, lt_of_le_of_lt ?_ recent⟩
  exact Nat.div_le_div_right (Nat.sub_le_sub_right sooner time)

/-- A connected peer has a session. -/
theorem exists_session {peer : Peer} {now : Instant} (connected : peer.isConnected now = true) :
    ∃ session, peer.cipher = some session :=
  Option.isSome_iff_exists.mp (Bool.and_eq_true_iff.mp connected).1

end Peer
end WolfNet
