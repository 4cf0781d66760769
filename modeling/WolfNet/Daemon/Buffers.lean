import WolfNet.Daemon.Events

/-!
# The packet path in its buffers

The event loop works in three buffers that it allocates once. TUN reads and datagrams arrive at
the front of their buffer, which keeps what lay behind; a packet is sealed in the send buffer, and
opened in the receive buffer. Here every index, slice, copy and subtraction of lengths is a step
that may panic; `Node.handle` is what the loop computes without its buffers.
-/

namespace WolfNet

open WolfNet.Std

variable [Crates]

/-- The buffers of the event loop, for TUN reads, sends and UDP reads. -/
structure Buffers where
  tunBuf : SizedBytes 65536
  sendBuf : SizedBytes (65536 + 29)
  recvBuf : SizedBytes 65536

/-- A part of the event loop. -/
abbrev Loop (α : Type) := StateT Buffers Rust α

namespace Node

/-- The event with what a read of 65536 bytes returns of its packet. -/
def Event.read : Event → Event
  | .tun now packet => .tun now (packet.take 65536)
  | .tunnel now src bytes => .tunnel now src (bytes.take 65536)
  | event => event

/-- Handle events in order, without buffers. -/
def handleAll (node : Node) : List Event → Rust (Node × List Effect)
  | [] => return (node, [])
  | event :: events => do
    let (node, effects) ← node.handle event
    let (node, others) ← node.handleAll events
    return (node, effects ++ others)

end Node

namespace EventLoop

/-- `read` on the TUN device: how many bytes it left in the buffer. -/
def readTun (packet : List UInt8) : Loop Nat := do
  modify fun buffers => { buffers with tunBuf := buffers.tunBuf.fill packet }
  return min packet.length 65536

/-- `recv_from` on the tunnel socket, which cuts what does not fit. -/
def recvFrom (bytes : List UInt8) : Loop Nat := do
  modify fun buffers => { buffers with recvBuf := buffers.recvBuf.fill bytes }
  return min bytes.length 65536

/-- Encrypt plaintext in the send buffer behind the header, and send it to a peer. -/
def encryptAndSend {size : Nat} (sendBuf : SizedBytes size) (plaintext : List UInt8) (peer : Peer)
    (myPeerId : PeerId) (now : Instant) :
    Rust (SizedBytes size × Peer × List Effect × Bool) := do
  match peer.endpoint with
  | none => return (sendBuf, peer, [], false)
  | some endpoint =>
    if !peer.isConnected now then return (sendBuf, peer, [], false)
    let len := plaintext.length
    let sendBuf ← sendBuf.store 13 plaintext
    let payload ← slice sendBuf.1 13 size
    let (peer, payload, result) ← peer.encryptInto payload len
    let sendBuf ← sendBuf.store 13 payload
    match result with
    | .ok (counter, ctLen) =>
      let sendBuf ← sendBuf.store 0 [pktData]
      let sendBuf ← sendBuf.store 1 myPeerId.1
      let sendBuf ← sendBuf.store 5 (u64ToLeBytes counter).1
      let datagram ← slice sendBuf.1 0 (13 + ctLen)
      return (sendBuf, peer, [.sendTo endpoint datagram], true)
    | .error _ => return (sendBuf, peer, [], false)

/-- The replay check, which subtracts the counter from the highest one accepted. -/
def isReplay (session : SessionCipher) (counter : UInt64) : Rust Bool := do
  if counter ≤ session.recvCounter && session.recvCounter > 0 &&
      !session.isLikelyRestart counter then
    let age ← checkedSub session.recvCounter.toNat counter.toNat
    return age > 32
  return false

/-- Decrypt `buf[..len]` in place, its last 16 bytes being the tag. -/
def decryptInto (session : SessionCipher) (counter : UInt64) (buf : List UInt8) (len : Nat) :
    Rust (SessionCipher × List UInt8 × Except String Nat) := do
  if ← isReplay session counter then
    return (session, buf, .error "Replay detected: stale nonce")
  if len < 16 then return (session, buf, .error "Ciphertext too short")
  let bodyLen ← checkedSub len 16
  let tag ← arrayFrom 16 (← slice buf bodyLen len)
  let body ← slice buf 0 bodyLen
  match Crates.decryptDetached session.cipher (session.recvNonce counter) body tag with
  | some plaintext =>
    return (session.accepted counter, plaintext ++ buf.drop bodyLen, .ok bodyLen)
  | none =>
    return (session, buf, .error "Decryption failed (invalid key or corrupted data)")

/-- The same under the session of a peer. -/
def peerDecryptInto (peer : Peer) (counter : UInt64) (buf : List UInt8) (len : Nat)
    (now : Instant) : Rust (Peer × List UInt8 × Except String Nat) := do
  match peer.cipher with
  | none => return (peer, buf, .error "No session established")
  | some session =>
    match ← decryptInto session counter buf len with
    | (session, buf, .error error) =>
      return ({ peer with cipher := some session }, buf, .error error)
    | (session, buf, .ok plaintextLen) =>
      return (peer.received session plaintextLen now, buf, .ok plaintextLen)

/-- Parse a peer exchange packet. -/
def parsePeerExchange (data : List UInt8) : Rust (Option (List PexEntry)) := do
  if data.isEmpty then return none
  if (← index data 0) ≠ pktPeerExchange then return none
  return Crates.entriesFromJson (← slice data 1 data.length)

/-- The network mask of a prefix length at a width of `bits`. -/
def prefixMask (bits : Nat) (prefixLen : UInt8) : Rust (BitVec bits) := do
  if prefixLen = 0 then return 0
  if bits ≤ prefixLen.toNat then return BitVec.allOnes bits
  return BitVec.allOnes bits <<< (← checkedSub bits prefixLen.toNat)

/-- The gateway of the first route whose network holds the destination. -/
def firstMatch {bits : Nat} (dest : BitVec bits) :
    List (BitVec bits × UInt8 × Ipv4Addr) → Rust (Option Ipv4Addr)
  | [] => return none
  | (net, prefixLen, gateway) :: routes => do
    let mask ← prefixMask bits prefixLen
    if dest &&& mask = net &&& mask then return some gateway
    firstMatch dest routes

/-- Longest-prefix match against the loaded CIDR routes. -/
def findSubnetMatch (pm : PeerManager) (destIp : Ipv4Addr) : Rust (Option Ipv4Addr) :=
  firstMatch (PeerManager.ipv4Bits destIp)
    (pm.subnetRoutesCidrs.map fun route => (PeerManager.ipv4Bits route.1, route.2))

/-- Longest-prefix match against the loaded IPv6 CIDR routes. -/
def findSubnetMatchV6 (pm : PeerManager) (destIp : Ipv6Addr) : Rust (Option Ipv4Addr) :=
  firstMatch destIp.bits (pm.subnetRoutesCidrsV6.map fun route => (route.1.bits, route.2))

/-- Encrypt and send to the peer at an IP, if there is one. -/
def sendToPeer (node : Node) (ip : Ipv4Addr) (plaintext : List UInt8) (now : Instant) :
    Loop (Node × List Effect × Bool) := do
  match node.peerManager.peersByIp.get ip with
  | none => return (node, [], false)
  | some peer =>
    let buffers ← get
    let (sendBuf, peer, effects, sent) ←
      encryptAndSend buffers.sendBuf plaintext peer node.keypair.myPeerId now
    set { buffers with sendBuf := sendBuf }
    let pm := node.peerManager
    return (node.withManager { pm with peersByIp := pm.peersByIp.insert ip peer }, effects, sent)

/-- Encrypt and send along a route that a lookup may or may not have found. -/
def sendAlong (node : Node) (route : Option Ipv4Addr) (plaintext : List UInt8) (now : Instant) :
    Loop (Node × List Effect × Bool) :=
  match route with
  | some ip => sendToPeer node ip plaintext now
  | none => return (node, [], false)

/-- Send a broadcast to the remaining targets; `relayed` holds the relays already used. -/
def sendBroadcast (node : Node) (pkt : List UInt8) (now : Instant) (relayed : List Ipv4Addr) :
    List (Ipv4Addr × Option Ipv4Addr) → Loop (Node × List Effect)
  | [] => return (node, [])
  | (ip, none) :: targets => do
    let (node, effects, _) ← sendToPeer node ip pkt now
    let (node, others) ← sendBroadcast node pkt now relayed targets
    return (node, effects ++ others)
  | (_, some relay) :: targets => do
    if relay ∈ relayed then sendBroadcast node pkt now relayed targets
    else
      let (node, effects, _) ← sendToPeer node relay pkt now
      let (node, others) ← sendBroadcast node pkt now (relay :: relayed) targets
      return (node, effects ++ others)

/-- The last resort for a unicast packet: the relay of its destination, else a gateway. -/
def outboundFallback (node : Node) (destIp : Ipv4Addr) (pkt : List UInt8) (now : Instant) :
    Loop (Node × List Effect) := do
  match node.peerManager.findRelayFor destIp now with
  | some relayIp =>
    let (node, effects, _) ← sendToPeer node relayIp pkt now
    return (node, effects)
  | none =>
    let (node, effects, _) ← sendAlong node (node.peerManager.findGateway now) pkt now
    return (node, effects)

/-- Unicast: try direct, container route, CIDR route, then the last resort. -/
def outboundUnicast (node : Node) (destIp : Ipv4Addr) (pkt : List UInt8) (now : Instant) :
    Loop (Node × List Effect) := do
  let (node, effects, sent) ← sendToPeer node destIp pkt now
  if sent then return (node, effects)
  let (node, effects, routed) ← sendAlong node (node.peerManager.findRoute destIp) pkt now
  if routed then return (node, effects)
  let gateway ← findSubnetMatch node.peerManager destIp
  let (node, effects, routed) ← sendAlong node gateway pkt now
  if routed then return (node, effects)
  outboundFallback node destIp pkt now

/-- Handle a packet read from the TUN device. -/
def outbound (node : Node) (packet : List UInt8) (now : Instant) : Loop (Node × List Effect) := do
  let n ← readTun packet
  if n = 0 then return (node, [])
  let pkt ← slice (← get).tunBuf.1 0 n
  match ← getDestIp pkt with
  | some destIp =>
    if destIp = node.subnetBroadcast ∨ destIp = Ipv4Addr.broadcast then
      sendBroadcast node pkt now [] (node.broadcastTargets now)
    else outboundUnicast node destIp pkt now
  | none =>
    match ← getDestIp6 pkt with
    | some dest6 =>
      let gateway ← findSubnetMatchV6 node.peerManager dest6
      let (node, effects, _) ← sendAlong node gateway pkt now
      return (node, effects)
    | none => return (node, [])

/-- Look the sender of a data packet of `n` bytes up, decrypt in place and follow a roamed
endpoint. -/
def receiveData (node : Node) (now : Instant) (src : SocketAddr) (n : Nat) :
    Loop (Node × Option (Ipv4Addr × List UInt8)) := do
  let peerId ← array (← get).recvBuf.1 1 4
  let counter := u64FromLeBytes (← array (← get).recvBuf.1 5 8)
  let ctLen ← checkedSub n 13
  match node.peerManager.findIpByEndpointOrId src peerId with
  | none => return (node, none)
  | some peerIp =>
    match node.peerManager.peersByIp.get peerIp with
    | none => return (node, none)
    | some peer =>
      let buffers ← get
      let buf ← slice buffers.recvBuf.1 13 (13 + ctLen)
      let needsEpUpdate := decide (peer.endpoint ≠ some src)
      let (peer, buf, result) ← peerDecryptInto peer counter buf ctLen now
      let recvBuf ← buffers.recvBuf.store 13 buf
      set { buffers with recvBuf := recvBuf }
      let pm := node.peerManager
      let pm := { pm with peersByIp := pm.peersByIp.insert peerIp peer }
      match result with
      | .error _ => return (node.withManager pm, none)
      | .ok ptLen =>
        let pm := if needsEpUpdate then (pm.updateEndpointIfRoaming peerIp src).1 else pm
        let plaintext ← slice recvBuf.1 13 (13 + ptLen)
        return (node.withManager pm, some (peerIp, plaintext))

/-- Route a decrypted IPv4 packet: for us, broadcast, or relay. -/
def routeInbound (node : Node) (now : Instant) (destIp : Ipv4Addr) (plaintext : List UInt8) :
    Loop (Node × List Effect) := do
  if destIp = node.wolfnetIp ∨ destIp = node.subnetBroadcast ∨ destIp = Ipv4Addr.broadcast then
    return (node, [.writeTun plaintext])
  let (node, effects, forwarded) ← sendToPeer node destIp plaintext now
  if forwarded then return (node, effects)
  match node.peerManager.findRoute destIp with
  | some hostIp =>
    if hostIp = node.wolfnetIp then return (node, [.writeTun plaintext])
    let (node, effects, _) ← sendToPeer node hostIp plaintext now
    return (node, effects)
  | none =>
    match ← findSubnetMatch node.peerManager destIp with
    | some gwIp =>
      if gwIp = node.wolfnetIp then return (node, [.writeTun plaintext])
      let (node, effects, _) ← sendToPeer node gwIp plaintext now
      return (node, effects)
    | none => return (node, [])

/-- Route a decrypted IPv6 packet along the CIDR routes. -/
def routeInboundV6 (node : Node) (now : Instant) (dest6 : Ipv6Addr) (plaintext : List UInt8) :
    Loop (Node × List Effect) := do
  match ← findSubnetMatchV6 node.peerManager dest6 with
  | some gwIp =>
    if gwIp = node.wolfnetIp then return (node, [.writeTun plaintext])
    let (node, effects, _) ← sendToPeer node gwIp plaintext now
    return (node, effects)
  | none => return (node, [])

/-- The first byte of a payload of two bytes or more is the packet type. -/
def isType (plaintext : List UInt8) (type : UInt8) : Rust Bool := do
  if plaintext.length ≤ 1 then return false
  return (← index plaintext 0) == type

/-- Handle a decrypted payload: a peer exchange, a relayed handshake, or an IP packet. -/
def deliver (node : Node) (now : Instant) (peerIp : Ipv4Addr) (plaintext : List UInt8) :
    Loop (Node × List Effect) := do
  if ← isType plaintext pktPeerExchange then
    match ← parsePeerExchange plaintext with
    | some entries =>
      let pm := node.peerManager.addFromPex entries peerIp node.wolfnetIp node.keypair now
      return (node.withManager pm, [])
    | none => return (node, [])
  if ← isType plaintext pktHandshake then return (node, [])
  match ← getDestIp plaintext with
  | some destIp => routeInbound node now destIp plaintext
  | none =>
    match ← getDestIp6 plaintext with
    | some dest6 => routeInboundV6 node now dest6 plaintext
    | none => return (node, [])

/-- The data arm. -/
def handleData (node : Node) (now : Instant) (src : SocketAddr) (n : Nat) :
    Loop (Node × List Effect) := do
  match ← receiveData node now src n with
  | (node, none) => return (node, [])
  | (node, some (peerIp, plaintext)) => deliver node now peerIp plaintext

/-- Handle a datagram from the tunnel socket. -/
def inbound (node : Node) (now : Instant) (src : SocketAddr) (bytes : List UInt8) :
    Loop (Node × List Effect) := do
  let n ← recvFrom bytes
  if n = 0 then return (node, [])
  let recvBuf := (← get).recvBuf.1
  let type ← index recvBuf 0
  if type = pktHandshake then node.handleHandshake now src (← slice recvBuf 0 n)
  else if type = pktData ∧ 13 < n then handleData node now src n
  else if type = pktKeepalive ∧ 5 ≤ n then node.handleKeepalive now src recvBuf
  else return (node, [])

/-- Handle an event. Only packets pass through the buffers; a peer exchange is sealed and framed
in memory of its own. -/
def handle (node : Node) : Node.Event → Loop (Node × List Effect)
  | .tun now packet => outbound node packet now
  | .tunnel now src bytes => inbound node now src bytes
  | event => node.handle event

/-- Handle events in order. -/
def handleAll (node : Node) : List Node.Event → Loop (Node × List Effect)
  | [] => return (node, [])
  | event :: events => do
    let (node, effects) ← handle node event
    let (node, others) ← handleAll node events
    return (node, effects ++ others)

end EventLoop
end WolfNet
