import WolfNet.Daemon.Outbound
import WolfNet.Daemon.Receive

/-!
# The gateway path

As a last resort a node hands a packet for the outside to a connected gateway. The
inbound path writes to the TUN device only what is addressed or routed to the node
itself, whether or not the node is a gateway: `gateway_never_delivers`.
-/

namespace WolfNet.Node

open WolfNet.Std

section Packets

variable [Crates]

/-- What two nodes share when one differs from the other in its peers' records alone. -/
structure SameRoutes (node node' : Node) : Prop where
  wolfnetIp : node'.wolfnetIp = node.wolfnetIp
  routes : node'.peerManager.subnetRoutes = node.peerManager.subnetRoutes
  cidrs : node'.peerManager.subnetRoutesCidrs = node.peerManager.subnetRoutesCidrs
  cidrsV6 : node'.peerManager.subnetRoutesCidrsV6 = node.peerManager.subnetRoutesCidrsV6

/-- The packet is for this node: by its address, or by a route that ends here. -/
def IsLocal (node : Node) (destIp : Ipv4Addr) : Prop :=
  destIp = node.wolfnetIp ∨ destIp = node.subnetBroadcast ∨ destIp = Ipv4Addr.broadcast ∨
    node.peerManager.findRoute destIp = some node.wolfnetIp ∨
    node.peerManager.findSubnetMatch destIp = some node.wolfnetIp

/-- The dispatch of a decrypted packet keeps it here: by the packet's address, or by the container
or CIDR route that it takes. -/
def StaysHere (node : Node) (packet : List UInt8) : Prop :=
  (∃ destIp, getDestIp packet = .ok (some destIp) ∧
    (destIp = node.wolfnetIp ∨ destIp = node.subnetBroadcast ∨ destIp = Ipv4Addr.broadcast ∨
      (node.peerManager.findRoute destIp).or (node.peerManager.findSubnetMatch destIp) =
        some node.wolfnetIp)) ∨
  ∃ dest6, getDestIp packet = .ok none ∧ getDestIp6 packet = .ok (some dest6) ∧
    node.peerManager.findSubnetMatchV6 dest6 = some node.wolfnetIp

variable {node node' : Node} {now : Instant} {src : SocketAddr} {effects : List Effect}
  {packet plaintext : List UInt8}

/-- Nodes with the same routes keep the same packets. -/
theorem SameRoutes.staysHere_iff (same : SameRoutes node node') (packet : List UInt8) :
    node'.StaysHere packet ↔ node.StaysHere packet := by
  simp [StaysHere, subnetBroadcast, PeerManager.findRoute, PeerManager.findSubnetMatch,
    PeerManager.findSubnetMatchV6, same.wolfnetIp, same.routes, same.cidrs, same.cidrsV6]

/-- An IPv4 packet that stays here is local. -/
theorem StaysHere.isLocal {destIp : Ipv4Addr} (stays : node.StaysHere packet)
    (dest : getDestIp packet = .ok (some destIp)) : node.IsLocal destIp := by
  rcases stays with ⟨other, named, stays⟩ | ⟨_, unnamed, _⟩
  · cases named.symm.trans dest
    rcases stays with here | subnet | everyone | route
    · exact Or.inl here
    · exact Or.inr (Or.inl subnet)
    · exact Or.inr (Or.inr (Or.inl everyone))
    · refine Or.inr (Or.inr (Or.inr ?_))
      rcases Option.or_eq_some_iff.mp route with container | ⟨_, cidr⟩
      · exact Or.inl container
      · exact Or.inr cidr
  · cases unnamed.symm.trans dest

/-- Sending writes nothing to the TUN device. -/
theorem encryptAndSend_writes {sendBuf : List UInt8} {peer next : Peer} {myPeerId : PeerId}
    {sent : Bool}
    (run : encryptAndSend sendBuf plaintext peer myPeerId now = .ok (next, effects, sent)) :
    .writeTun packet ∉ effects := by
  unfold encryptAndSend at run
  split at run
  · cases run
    simp
  · split at run
    · cases run
      simp
    · simp only [Rust.bind_eq_ok] at run
      obtain ⟨_, _, _, _, ⟨peer', payload, result⟩, _, rest⟩ := run
      cases result with
      | ok packet' =>
          simp only [Rust.bind_eq_ok, Rust.pure_eq, Except.ok.injEq, Prod.mk.injEq] at rest
          obtain ⟨_, _, _, rfl, _⟩ := rest
          simp
      | error message =>
          simp only [Rust.pure_eq, Except.ok.injEq, Prod.mk.injEq] at rest
          obtain ⟨_, rfl, _⟩ := rest
          simp

/-- Sending writes nothing to the TUN device and leaves the routes. -/
theorem sendToPeer_writes {ip : Ipv4Addr} {sent : Bool}
    (run : node.sendToPeer ip plaintext now = .ok (node', effects, sent)) :
    SameRoutes node node' ∧ ∀ packet, .writeTun packet ∉ effects := by
  unfold sendToPeer at run
  split at run
  · cases run
    exact ⟨⟨rfl, rfl, rfl, rfl⟩, by simp⟩
  · simp only [Rust.bind_eq_ok, Rust.pure_eq, Except.ok.injEq, Prod.mk.injEq] at run
    obtain ⟨⟨peer, emitted, flag⟩, encrypted, rfl, rfl, rfl⟩ := run
    exact ⟨⟨rfl, rfl, rfl, rfl⟩, fun _ => encryptAndSend_writes encrypted⟩

/-- Sending along a route that may lead here writes a packet to the TUN device only if it
does. -/
theorem sendOrWrite_writes {ip : Ipv4Addr}
    (run : (if ip = node.wolfnetIp then return (node, [.writeTun plaintext])
      else do
        let (node, effects, _) ← node.sendToPeer ip plaintext now
        return (node, effects) : Rust (Node × List Effect)) = .ok (node', effects))
    (written : .writeTun packet ∈ effects) : packet = plaintext ∧ ip = node.wolfnetIp := by
  split at run
  · next here =>
      cases run
      exact ⟨by simpa using written, here⟩
  · simp only [Rust.bind_eq_ok, Rust.pure_eq, Except.ok.injEq, Prod.mk.injEq] at run
    obtain ⟨⟨next, emitted, flag⟩, sent, rfl, rfl⟩ := run
    exact absurd written ((sendToPeer_writes sent).2 packet)

/-- Routing writes a packet to the TUN device only if it stays here. -/
theorem routeInbound_writes {destIp : Ipv4Addr} (dest : getDestIp plaintext = .ok (some destIp))
    (run : node.routeInbound now destIp plaintext = .ok (node', effects))
    (written : .writeTun packet ∈ effects) : packet = plaintext ∧ node.StaysHere plaintext := by
  unfold routeInbound at run
  split at run
  · next addressed =>
      cases run
      refine ⟨by simpa using written, Or.inl ⟨destIp, dest, ?_⟩⟩
      rcases addressed with here | subnet | everyone
      · exact Or.inl here
      · exact Or.inr (Or.inl subnet)
      · exact Or.inr (Or.inr (Or.inl everyone))
  · simp only [Rust.bind_eq_ok] at run
    obtain ⟨⟨forwarding, emitted, forwarded⟩, sent, rest⟩ := run
    obtain ⟨same, silent⟩ := sendToPeer_writes sent
    have routed (route : (forwarding.peerManager.findRoute destIp).or
        (forwarding.peerManager.findSubnetMatch destIp) = some forwarding.wolfnetIp) :
        node.StaysHere plaintext :=
      (same.staysHere_iff plaintext).mp
        (Or.inl ⟨destIp, dest, Or.inr (Or.inr (Or.inr route))⟩)
    cases forwarded with
    | true =>
        simp only [if_true, Rust.pure_eq, Except.ok.injEq, Prod.mk.injEq] at rest
        obtain ⟨_, rfl⟩ := rest
        exact absurd written (silent packet)
    | false =>
        simp only [Bool.false_eq_true, if_false] at rest
        cases route : forwarding.peerManager.findRoute destIp with
        | some hostIp =>
            simp only [route] at rest
            obtain ⟨whole, here⟩ := sendOrWrite_writes rest written
            exact ⟨whole, routed (by rw [route, here, Option.some_or])⟩
        | none =>
            cases cidr : forwarding.peerManager.findSubnetMatch destIp with
            | some gwIp =>
                simp only [route, cidr] at rest
                obtain ⟨whole, here⟩ := sendOrWrite_writes rest written
                exact ⟨whole, routed (by rw [route, cidr, here, Option.none_or])⟩
            | none =>
                simp only [route, cidr, Rust.pure_eq, Except.ok.injEq, Prod.mk.injEq] at rest
                simp [← rest.2] at written

/-- A decrypted IPv6 packet is written here only where its route leads here. -/
theorem routeInboundV6_writes {dest6 : Ipv6Addr}
    (run : node.routeInboundV6 now dest6 plaintext = .ok (node', effects))
    (written : .writeTun packet ∈ effects) :
    packet = plaintext ∧ node.peerManager.findSubnetMatchV6 dest6 = some node.wolfnetIp := by
  unfold routeInboundV6 at run
  split at run
  · next gwIp route =>
      obtain ⟨whole, here⟩ := sendOrWrite_writes run written
      exact ⟨whole, here ▸ route⟩
  · cases run
    simp at written

/-- Of the decrypted payloads, only packets that stay here are written to the TUN device. -/
theorem deliver_writes {peerIp : Ipv4Addr}
    (run : node.deliver now peerIp plaintext = .ok (node', effects))
    (written : .writeTun packet ∈ effects) : packet = plaintext ∧ node.StaysHere plaintext := by
  unfold deliver at run
  split at run
  · split at run <;> cases run <;> simp at written
  · split at run
    · cases run
      simp at written
    · simp only [Rust.bind_eq_ok] at run
      obtain ⟨found, destination, rest⟩ := run
      cases found with
      | some destIp => exact routeInbound_writes destination rest written
      | none =>
          simp only [Rust.bind_eq_ok] at rest
          obtain ⟨found6, destination6, rest⟩ := rest
          cases found6 with
          | some dest6 =>
              obtain ⟨whole, route⟩ := routeInboundV6_writes rest written
              exact ⟨whole, Or.inr ⟨dest6, destination, destination6, route⟩⟩
          | none =>
              cases rest
              simp at written

/-- The data arm leaves the routes. -/
theorem Receives.sameRoutes {peerId : PeerId} {counter : UInt64} {ciphertext : List UInt8}
    {result : Node × Option (Ipv4Addr × List UInt8)}
    (receives : Receives node now src peerId counter ciphertext result) :
    SameRoutes node result.1 := by
  cases receives with
  | unknown missing => exact ⟨rfl, rfl, rfl, rfl⟩
  | refused ip peer found held closed => exact ⟨rfl, rfl, rfl, rfl⟩
  | opened ip peer session plaintext found held established outcome =>
      have rest := acceptFrom_sameRest node.peerManager src ip peer
        (peer.received (session.accepted counter) plaintext.length now)
      exact ⟨rfl, rest.containers, rest.cidrs, rest.cidrsV6⟩

/-- Of all datagrams, only data packets write to the TUN device: what they open to, if it stays
here. -/
theorem inbound_writes {data : List UInt8}
    (run : node.inbound now src data = .ok (node', effects))
    (written : .writeTun packet ∈ effects) :
    node.StaysHere packet ∧ data.head? = some pktData ∧ 13 < data.length ∧
      ∃ mid sender, node.receiveData now src data = .ok (mid, some (sender, packet)) := by
  unfold inbound at run
  split at run
  · cases run
    simp at written
  next type head =>
  split_ifs at run with handshake isData keepalive
  · simp only [handleHandshake, Rust.bind_eq_ok] at run
    obtain ⟨parsed, _, rest⟩ := run
    cases parsed with
    | none =>
        cases rest
        simp at written
    | some hs =>
        simp only [Rust.pure_eq, Except.ok.injEq, Prod.mk.injEq] at rest
        obtain ⟨_, rfl⟩ := rest
        split at written <;> simp at written
  · obtain ⟨rfl, long⟩ := isData
    obtain ⟨peerId, counter, ciphertext, rfl⟩ := exists_buildDataPacket head long
    obtain ⟨⟨received, opened⟩, receiving, receives⟩ :=
      node.receiveData_receives now src peerId counter ciphertext
    simp only [handleData, receiving, Rust.ok_bind] at run
    have same := receives.sameRoutes
    cases opened with
    | none =>
        cases run
        simp at written
    | some opening =>
        obtain ⟨whole, stays⟩ := deliver_writes run written
        subst whole
        exact ⟨(same.staysHere_iff _).mp stays, head, long, received, opening.1, receiving⟩
  · simp only [handleKeepalive, Rust.bind_eq_ok] at run
    obtain ⟨peerId, _, rest⟩ := run
    split at rest <;> cases rest <;> simp at written
  · cases run
    simp at written

/-- The WolfNet subnet of a node, by its own IP and prefix length. -/
def InSubnet (node : Node) (ip : Ipv4Addr) : Prop :=
  PeerManager.ipv4Bits ip &&& PeerManager.prefixMask 32 node.config.network.subnet =
    PeerManager.ipv4Bits node.wolfnetIp &&& PeerManager.prefixMask 32 node.config.network.subnet

/-- The node's tables have no peer and no route for a destination. -/
structure Unmatched (node : Node) (destIp : Ipv4Addr) : Prop where
  peer : node.peerManager.peersByIp.get destIp = none
  route : node.peerManager.findRoute destIp = none
  subnet : node.peerManager.findSubnetMatch destIp = none

/-- A client hands an IPv4 unicast packet for the outside, which neither node has a peer or
route for, to a connected gateway node. -/
structure Handoff (client gateway : Node) (packet : List UInt8) (now : Instant)
    (endpoint : SocketAddr) (datagram : List UInt8) : Prop where
  gatewayMode : gateway.config.network.gateway = true
  outside : ∃ destIp, getDestIp packet = .ok (some destIp) ∧
    ∀ node ∈ [client, gateway], ¬node.InSubnet destIp ∧ destIp ≠ node.subnetBroadcast ∧
      destIp ≠ Ipv4Addr.broadcast ∧ node.Unmatched destIp
  chosen : client.peerManager.findGateway now = some gateway.wolfnetIp
  sent : ∃ client', client.outbound packet now = .ok (client', [.sendTo endpoint datagram])

/-- The fallback for an unmatched unicast destination ends at the gateway. -/
theorem outbound_unmatched {destIp : Ipv4Addr} (dest : getDestIp packet = .ok (some destIp))
    (notSubnet : destIp ≠ node.subnetBroadcast) (notEveryone : destIp ≠ Ipv4Addr.broadcast)
    (unmatched : node.Unmatched destIp) :
    node.outbound packet now = do
      let (node, effects, _) ← node.sendAlong (node.peerManager.findGateway now) packet now
      return (node, effects) := by
  have direct : node.sendToPeer destIp packet now = .ok (node, [], false) := by
    simp [sendToPeer, unmatched.peer]
  have noRelay : node.peerManager.findRelayFor destIp now = none := by
    simp [PeerManager.findRelayFor, unmatched.peer]
  simp [outbound, dest, notSubnet, notEveryone, outboundUnicast, direct, unmatched.route,
    unmatched.subnet, sendAlong, outboundFallback, noRelay]

/-- A connected peer with an endpoint is sent one data packet. -/
theorem sendToPeer_connected {ip : Ipv4Addr} {peer : Peer} {session : SessionCipher}
    {endpoint : SocketAddr} (held : node.peerManager.peersByIp.get ip = some peer)
    (placed : peer.endpoint = some endpoint) (connected : peer.isConnected now = true)
    (established : peer.cipher = some session) (read : plaintext.length ≤ 65536)
    (fits : plaintext.length ≤ Crates.plaintextLimit) :
    ∃ node', node.sendToPeer ip plaintext now = .ok (node', [.sendTo endpoint
      (buildDataPacket node.keypair.myPeerId session.sendCounter (session.sealed plaintext))],
        true) := by
  simp [sendToPeer, held, encryptAndSend_eq _ placed connected established read fits]

/-- A gateway never writes a packet that a client hands it for the outside to its TUN
device. -/
theorem gateway_never_delivers {client gateway gateway' : Node} {endpoint : SocketAddr}
    {datagram : List UInt8} (handoff : Handoff client gateway packet now endpoint datagram)
    {arrival : Instant} (run : gateway.inbound arrival src datagram = .ok (gateway', effects)) :
    .writeTun packet ∉ effects := by
  intro written
  obtain ⟨destIp, dest, everywhere⟩ := handoff.outside
  obtain ⟨outside, notSubnet, notEveryone, unmatched⟩ := everywhere gateway (by simp)
  rcases (inbound_writes run written).1.isLocal dest with rfl | subnet | everyone | route | cidr
  · exact outside rfl
  · exact notSubnet subnet
  · exact notEveryone everyone
  · simp [unmatched.route] at route
  · simp [unmatched.subnet] at cidr

end Packets

section Sample

attribute [local instance] Sample.crates

def sampleEndpoint : SocketAddr := .v4 ⟨203, 0, 113, 7⟩ 9600

/-- A client that is connected to a gateway. -/
def sampleClient : Node :=
  Sample.node 2 false (PeerManager.new.addPeer { Sample.record 2 1 with
    endpoint := some sampleEndpoint
    isGateway := true
    lastSeen := some 0 })

/-- The gateway, which knows the client. -/
def sampleGateway : Node := Sample.node 1 true (PeerManager.new.addPeer (Sample.record 1 2))

/-- An empty packet from the client to 8.8.8.8. -/
def outsidePacket : List UInt8 :=
  [0x45, 0, 0, 20, 0, 0, 0, 0, 64, 17, 0, 0, 10, 10, 10, 2, 8, 8, 8, 8]

/-- What the client sends for it. -/
def outsideDatagram : List UInt8 :=
  buildDataPacket (Sample.keypair 2).myPeerId 0 ((Sample.session 2 1).sealed outsidePacket)

/-- The client hands the packet to the gateway. -/
theorem sample_handoff :
    Handoff sampleClient sampleGateway outsidePacket 0 sampleEndpoint outsideDatagram where
  gatewayMode := rfl
  outside := by
    refine ⟨⟨8, 8, 8, 8⟩, rfl, ?_⟩
    simp only [List.forall_mem_cons, List.not_mem_nil, false_implies, implies_true, and_true]
    refine ⟨⟨?_, by decide, by decide, rfl, rfl, rfl⟩, ?_, by decide, by decide, rfl, rfl, rfl⟩
    · unfold InSubnet
      decide
    · unfold InSubnet
      decide
  chosen := rfl
  sent := by
    have fallback : sampleClient.outbound outsidePacket 0 = do
        let (node, effects, _) ←
          sampleClient.sendAlong (sampleClient.peerManager.findGateway 0) outsidePacket 0
        return (node, effects) :=
      @outbound_unmatched _ sampleClient 0 outsidePacket ⟨8, 8, 8, 8⟩ rfl (by decide) (by decide)
        ⟨rfl, rfl, rfl⟩
    have gateway : sampleClient.peerManager.findGateway 0 = some ⟨10, 10, 10, 1⟩ := rfl
    obtain ⟨client', sending⟩ := @sendToPeer_connected _ sampleClient 0 outsidePacket
      ⟨10, 10, 10, 1⟩ _ (Sample.session 2 1) sampleEndpoint rfl rfl rfl rfl (by decide) (by decide)
    refine ⟨client', ?_⟩
    rw [fallback, gateway]
    simp only [sendAlong, sending, Rust.ok_bind, Rust.pure_eq]
    rfl

/-- The gateway after it counted the packet to the client. -/
def sampleAfter : Node :=
  sampleGateway.withManager (acceptFrom sampleGateway.peerManager sampleEndpoint ⟨10, 10, 10, 2⟩
    (Sample.record 1 2) ((Sample.record 1 2).received ((Sample.session 1 2).accepted 0) 20 1))

/-- The gateway takes it without an effect. -/
theorem sample_inbound :
    sampleGateway.inbound 1 sampleEndpoint outsideDatagram = .ok (sampleAfter, []) := rfl

/-- The gateway writes nothing. -/
theorem gateway_never_delivers_sample :
    sampleGateway.inbound 1 sampleEndpoint outsideDatagram = .ok (sampleAfter, []) ∧
      .writeTun outsidePacket ∉ ([] : List Effect) :=
  ⟨sample_inbound, gateway_never_delivers sample_handoff sample_inbound⟩

/-- The gateway decrypts the client's packet, counts it and drops it. -/
theorem gateway_drops :
    Handoff sampleClient sampleGateway outsidePacket 0 sampleEndpoint outsideDatagram ∧
      sampleGateway.inbound 1 sampleEndpoint outsideDatagram = .ok (sampleAfter, []) ∧
      (sampleAfter.peerManager.peersByIp.get ⟨10, 10, 10, 2⟩).map Peer.rxBytes = some 20 :=
  ⟨sample_handoff, sample_inbound, rfl⟩

end Sample
end WolfNet.Node
