import WolfNet.Daemon.Reload

/-!
# Periodic work

Between packets the event loop sends handshakes, keepalives and peer exchanges, resolves the
configured host names again, and reads the route files again.
-/

namespace WolfNet

open WolfNet.Std

variable [Crates]

/-- Where a handshake for a peer that is not connected goes: to its endpoint, and to the
configured address where that is another. -/
def Peer.handshakeTargets (peer : Peer) (now : Instant) : List SocketAddr :=
  if peer.isConnected now then []
  else
    let configured := (peer.configuredEndpoint.bind fun line => SocketAddr.parse line.toList).filter
      fun addr => peer.endpoint ≠ some addr
    peer.endpoint.toList ++ configured.toList

/-- Look a host name of the config up again, and move the peer to its address. -/
def resolveAgain (dns : String → Option (List SocketAddr)) (pm : PeerManager) (ip : Ipv4Addr) :
    PeerManager :=
  match (pm.peersByIp.get ip).bind Peer.configuredEndpoint with
  | none => pm
  | some line =>
    if (SocketAddr.parse line.toList).isSome then pm
    else
      match resolveEndpoint dns line with
      | none => pm
      | some addr =>
        if (pm.peersByIp.get ip).bind Peer.endpoint ≠ some addr then
          pm.updateEndpoint ip addr
        else pm

/-- Look all configured host names up again. -/
def resolveAll (dns : String → Option (List SocketAddr)) (pm : PeerManager) : PeerManager :=
  pm.allIps.foldl (resolveAgain dns) pm

namespace Node

/-- Send handshakes to all peers that are not connected. -/
def sendHandshakes (node : Node) (now : Instant) : List Effect :=
  let handshake := buildHandshake node.keypair node.wolfnetIp node.config.network.listenPort
    node.hostname node.config.network.gateway
  node.peerManager.peersByIp.values.flatMap fun peer =>
    (peer.handshakeTargets now).map fun endpoint => .sendTo endpoint handshake

/-- Send keepalives to all connected peers. -/
def sendKeepalives (node : Node) (now : Instant) : List Effect :=
  node.peerManager.peersByIp.values.filterMap fun peer =>
    if peer.isConnected now then
      peer.endpoint.map fun endpoint => .sendTo endpoint (buildKeepalive node.keypair.myPeerId)
    else none

/-- Send a peer exchange packet to the peer at an IP, if it is connected. -/
def exchangeWith (node : Node) (packet : List UInt8) (now : Instant) (ip : Ipv4Addr) :
    Node × List Effect :=
  match node.peerManager.peersByIp.get ip with
  | none => (node, [])
  | some peer =>
    match peer.isConnected now, peer.endpoint with
    | true, some endpoint =>
      let (peer, result) := peer.encrypt packet
      let pm := node.peerManager
      let node := node.withManager { pm with peersByIp := pm.peersByIp.insert ip peer }
      match result with
      | .ok (counter, ciphertext) =>
        (node, [.sendTo endpoint (buildDataPacket node.keypair.myPeerId counter ciphertext)])
      | .error _ => (node, [])
    | _, _ => (node, [])

/-- Send a peer exchange packet to the peers at the given IPs. -/
def exchangeWithAll (node : Node) (packet : List UInt8) (now : Instant) :
    List Ipv4Addr → Node × List Effect
  | [] => (node, [])
  | ip :: ips =>
    let (node, effects) := node.exchangeWith packet now ip
    let (node, others) := node.exchangeWithAll packet now ips
    (node, effects ++ others)

/-- Send a peer exchange to all connected peers, unless there is nothing to share. -/
def sendPeerExchange (node : Node) (now : Instant) : Node × List Effect :=
  let packet := buildPeerExchange node.wolfnetIp node.peerManager
  if packet.length ≤ 1 then (node, [])
  else node.exchangeWithAll packet now node.peerManager.allIps

end Node
end WolfNet
