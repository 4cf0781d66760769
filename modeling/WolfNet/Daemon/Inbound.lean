import WolfNet.Daemon.Node

/-!
# Inbound: UDP to TUN

Datagrams are dispatched on their first byte. A handshake updates the table and
resets the session; a data packet is decrypted and then delivered, relayed or
dropped; a keepalive refreshes its sender. Discovery broadcasts arrive on a
socket of their own.
-/

namespace WolfNet.Node

open WolfNet.Std

variable [Crates]

/-- The handshake arm. A reply is sent only to a peer that was not connected. -/
def handleHandshake (node : Node) (now : Instant) (src : SocketAddr) (data : List UInt8) :
    Rust (Node × List Effect) := do
  match ← parseHandshake data with
  | none => return (node, [])
  | some hs =>
    let pm := node.peerManager.updateFromDiscovery hs.publicKey src hs.wolfnetIp hs.hostname
      hs.isGateway
    let wasConnected := (pm.peersByIp.get hs.wolfnetIp).any fun peer => peer.isConnected now
    let pm := pm.withPeerByIp hs.wolfnetIp fun peer =>
      { peer.establishSession node.keypair.secret node.keypair.publicKey now with
        lastSeen := some now }
    let reply := buildHandshake node.keypair node.wolfnetIp node.config.network.listenPort
      node.hostname node.config.network.gateway
    return (node.withManager pm, if wasConnected then [] else [.sendTo src reply])

/-- Look a data packet's sender up, decrypt in place and follow a roamed endpoint. The
result is the sender's IP and the plaintext, if the packet opened. -/
def receiveData (node : Node) (now : Instant) (src : SocketAddr) (data : List UInt8) :
    Rust (Node × Option (Ipv4Addr × List UInt8)) := do
  let peerId ← array data 1 4
  let counter := u64FromLeBytes (← array data 5 8)
  let ctLen := data.length - 13
  match node.peerManager.findIpByEndpointOrId src peerId with
  | none => return (node, none)
  | some peerIp =>
    match node.peerManager.peersByIp.get peerIp with
    | none => return (node, none)
    | some peer =>
      let buf ← slice data 13 (13 + ctLen)
      let needsEpUpdate := decide (peer.endpoint ≠ some src)
      let (peer, buf, result) ← peer.decryptInto counter buf ctLen now
      let pm := node.peerManager
      let pm := { pm with peersByIp := pm.peersByIp.insert peerIp peer }
      match result with
      | .error _ => return (node.withManager pm, none)
      | .ok ptLen =>
        let plaintext ← slice buf 0 ptLen
        let pm := if needsEpUpdate then (pm.updateEndpointIfRoaming peerIp src).1 else pm
        return (node.withManager pm, some (peerIp, plaintext))

/-- Route a decrypted IPv4 packet: for us, broadcast, or relay along destination peer,
container route and CIDR route. A packet with no route is dropped. -/
def routeInbound (node : Node) (now : Instant) (destIp : Ipv4Addr) (plaintext : List UInt8) :
    Rust (Node × List Effect) := do
  if destIp = node.wolfnetIp ∨ destIp = node.subnetBroadcast ∨ destIp = Ipv4Addr.broadcast then
    return (node, [.writeTun plaintext])
  let (node, effects, forwarded) ← node.sendToPeer destIp plaintext now
  if forwarded then return (node, effects)
  match node.peerManager.findRoute destIp with
  | some hostIp =>
    if hostIp = node.wolfnetIp then return (node, [.writeTun plaintext])
    let (node, effects, _) ← node.sendToPeer hostIp plaintext now
    return (node, effects)
  | none =>
    match node.peerManager.findSubnetMatch destIp with
    | some gwIp =>
      if gwIp = node.wolfnetIp then return (node, [.writeTun plaintext])
      let (node, effects, _) ← node.sendToPeer gwIp plaintext now
      return (node, effects)
    | none => return (node, [])

/-- Route a decrypted IPv6 packet along the CIDR routes. -/
def routeInboundV6 (node : Node) (now : Instant) (dest6 : Ipv6Addr) (plaintext : List UInt8) :
    Rust (Node × List Effect) := do
  match node.peerManager.findSubnetMatchV6 dest6 with
  | some gwIp =>
    if gwIp = node.wolfnetIp then return (node, [.writeTun plaintext])
    let (node, effects, _) ← node.sendToPeer gwIp plaintext now
    return (node, effects)
  | none => return (node, [])

/-- Handle a decrypted payload: a peer exchange, a relayed handshake, or an IP packet. -/
def deliver (node : Node) (now : Instant) (peerIp : Ipv4Addr) (plaintext : List UInt8) :
    Rust (Node × List Effect) := do
  if 1 < plaintext.length ∧ plaintext.head? = some pktPeerExchange then
    match parsePeerExchange plaintext with
    | some entries =>
      let pm := node.peerManager.addFromPex entries peerIp node.wolfnetIp node.keypair now
      return (node.withManager pm, [])
    | none => return (node, [])
  if 1 < plaintext.length ∧ plaintext.head? = some pktHandshake then return (node, [])
  match ← getDestIp plaintext with
  | some destIp => node.routeInbound now destIp plaintext
  | none =>
    match ← getDestIp6 plaintext with
    | some dest6 => node.routeInboundV6 now dest6 plaintext
    | none => return (node, [])

/-- The data arm. -/
def handleData (node : Node) (now : Instant) (src : SocketAddr) (data : List UInt8) :
    Rust (Node × List Effect) := do
  match ← node.receiveData now src data with
  | (node, none) => return (node, [])
  | (node, some (peerIp, plaintext)) => node.deliver now peerIp plaintext

/-- The keepalive arm. -/
def handleKeepalive (node : Node) (now : Instant) (src : SocketAddr) (data : List UInt8) :
    Rust (Node × List Effect) := do
  let peerId ← array data 1 4
  let pm := node.peerManager
  match pm.findIpByEndpointOrId src peerId with
  | none => return (node, [])
  | some ip =>
    let pm := if (pm.findIpByEndpoint src).isNone then (pm.updateEndpointIfRoaming ip src).1
      else pm
    let pm := pm.withPeerByIp ip fun peer => { peer with lastSeen := some now }
    return (node.withManager pm, [])

/-- Handle a datagram from the tunnel socket. -/
def inbound (node : Node) (now : Instant) (src : SocketAddr) (data : List UInt8) :
    Rust (Node × List Effect) :=
  match data.head? with
  | none => return (node, [])
  | some type =>
    if type = pktHandshake then node.handleHandshake now src data
    else if type = pktData ∧ 13 < data.length then node.handleData now src data
    else if type = pktKeepalive ∧ 5 ≤ data.length then node.handleKeepalive now src data
    else return (node, [])

/-- Handle a datagram from the discovery socket, whose buffer holds 512 bytes. A message
that names this node's host is its own. -/
def receiveDiscovery (node : Node) (src : SocketAddr) (datagram : List UInt8) : Node :=
  match (fromUtf8 (datagram.take 512)).bind parseDiscovery with
  | none => node
  | some message =>
    if message.nodeId = node.hostname then node
    else node.withManager (node.peerManager.updateFromDiscovery message.publicKey
      (.new src.ip message.listenPort) message.wolfnetIp message.hostname message.isGateway)

end WolfNet.Node
