import WolfNet.Config
import WolfNet.Crates.Sample
import WolfNet.PeerManager
import WolfNet.Transport
import WolfNet.Tun

/-!
# The daemon's state and its send path

A node is what the event loop works on. Handling an event gives the next node and
the effects on the outside: datagrams sent and packets written to the TUN device.
-/

namespace WolfNet

open WolfNet.Std

/-- What the daemon does to the outside. -/
inductive Effect where
  | sendTo (endpoint : SocketAddr) (datagram : List UInt8)
  | writeTun (packet : List UInt8)
deriving DecidableEq

/-- The datagrams that the effects send. -/
def datagramsOf (effects : List Effect) : List (List UInt8) :=
  effects.filterMap fun
    | .sendTo _ datagram => some datagram
    | .writeTun _ => none

section Daemon

variable [Crates]

/-- The state of a running daemon. -/
structure Node where
  wolfnetIp : Ipv4Addr
  keypair : KeyPair
  config : Config
  hostname : String
  peerManager : PeerManager

/-- The daemon's send buffer: room for a TUN read, a 13-byte header and a 16-byte tag.
Each call overwrites what it sends, so the contents before it are taken as zero. -/
def sendBuf : List UInt8 := List.replicate (65536 + 29) 0

/-- Encrypt plaintext in the send buffer and send it to a peer. The flag tells whether
the packet was encrypted. -/
def encryptAndSend (sendBuf plaintext : List UInt8) (peer : Peer) (myPeerId : PeerId)
    (now : Instant) : Rust (Peer × List Effect × Bool) := do
  match peer.endpoint with
  | none => return (peer, [], false)
  | some endpoint =>
    if !peer.isConnected now then return (peer, [], false)
    let len := plaintext.length
    let buf ← copyFromSlice sendBuf 13 plaintext
    let payload ← slice buf 13 buf.length
    match ← peer.encryptInto payload len with
    | (peer, payload, .ok (counter, ctLen)) =>
      let buf := [pktData] ++ myPeerId.1 ++ (u64ToLeBytes counter).1 ++ payload
      let datagram ← slice buf 0 (13 + ctLen)
      return (peer, [.sendTo endpoint datagram], true)
    | (peer, _, .error _) => return (peer, [], false)

namespace Node

/-- Replace the peer table's state. -/
def withManager (node : Node) (pm : PeerManager) : Node := { node with peerManager := pm }

/-- The manager is the one that the node is given. -/
@[simp] theorem withManager_peerManager (node : Node) (pm : PeerManager) :
    (node.withManager pm).peerManager = pm := rfl

/-- Encrypt and send to the peer at an IP, if there is one. -/
def sendToPeer (node : Node) (ip : Ipv4Addr) (plaintext : List UInt8) (now : Instant) :
    Rust (Node × List Effect × Bool) := do
  match node.peerManager.peersByIp.get ip with
  | none => return (node, [], false)
  | some peer =>
    let (peer, effects, sent) ←
      encryptAndSend sendBuf plaintext peer node.keypair.myPeerId now
    let pm := node.peerManager
    return (node.withManager { pm with peersByIp := pm.peersByIp.insert ip peer }, effects, sent)

/-- Encrypt and send along a route that a lookup may or may not have found. -/
def sendAlong (node : Node) (route : Option Ipv4Addr) (plaintext : List UInt8) (now : Instant) :
    Rust (Node × List Effect × Bool) :=
  match route with
  | some ip => node.sendToPeer ip plaintext now
  | none => return (node, [], false)

/-- The address the daemon treats as the broadcast address of its subnet. -/
def subnetBroadcast (node : Node) : Ipv4Addr :=
  ⟨node.wolfnetIp.a, node.wolfnetIp.b, node.wolfnetIp.c, 255⟩

end Node
end Daemon

namespace Sample

attribute [local instance] crates

/-- The sample node with the given key byte, which is also the last octet of its IP. -/
def node (byte : UInt8) (gateway : Bool) (pm : PeerManager) : Node where
  wolfnetIp := ⟨10, 10, 10, byte⟩
  keypair := keypair byte
  config := {
    network := {
      interface := "wolfnet0"
      address := "10.10.10.1"
      subnet := 24
      listenPort := 9600
      bindAddress := "0.0.0.0"
      gateway := gateway
      discovery := true
      mtu := 1400 }
    privateKeyFile := "private.key"
    peers := [] }
  hostname := "sample"
  peerManager := pm

/-- The session that one sample node establishes for another. -/
def session (mine theirs : UInt8) : SessionCipher :=
  .new (Crates.diffieHellman (keypair mine).secret (keypair theirs).publicKey)
    (keypair mine).publicKey (keypair theirs).publicKey

/-- The record that one sample node keeps of another after it established the session. -/
def record (mine theirs : UInt8) : Peer :=
  (Peer.new (keypair theirs).publicKey ⟨10, 10, 10, theirs⟩).establishSession
    (keypair mine).secret (keypair mine).publicKey 0

/-- The endpoint at which the sample nodes know their peers. -/
def endpoint : SocketAddr := .v4 ⟨203, 0, 113, 7⟩ 9600

/-- The table of a sample node that is connected to one peer, which it heard of at time 0. -/
def connectedTable (mine theirs : UInt8) : PeerManager :=
  PeerManager.new.addPeer { record mine theirs with
    endpoint := some endpoint
    lastSeen := some 0 }

end Sample
end WolfNet
