import WolfNet.Daemon.Fallback
import WolfNet.Routes.Load

/-!
# The encapsulating and the decapsulating node

A packet for an address outside the overlay is sent to the peer that its container route or
its CIDR route names. A node that loaded the same route files finds itself there, and
writes the packet to its TUN device: `encapsulation_agrees`.
-/

namespace WolfNet.Node

open WolfNet.Std

section Routes

variable [Crates]

/-- The peer that the route tables name for a packet: by its container route, or by its CIDR
route when it has no container route. -/
def routeFor (node : Node) (packet : List UInt8) : Option Ipv4Addr :=
  match getDestIp packet, getDestIp6 packet with
  | .ok (some destIp), _ =>
      (node.peerManager.findRoute destIp).or (node.peerManager.findSubnetMatch destIp)
  | .ok none, .ok (some dest6) => node.peerManager.findSubnetMatchV6 dest6
  | _, _ => none

/-- The packet's IPv4 destination, if it has one, is neither this node, nor a broadcast
address, nor a peer. -/
def Foreign (node : Node) (packet : List UInt8) : Prop :=
  ∀ destIp, getDestIp packet = .ok (some destIp) → destIp ≠ node.wolfnetIp ∧
    destIp ≠ node.subnetBroadcast ∧ destIp ≠ Ipv4Addr.broadcast ∧
    node.peerManager.peersByIp.get destIp = none

variable {node node' : Node} {now : Instant} {packet : List UInt8} {ip : Ipv4Addr}

/-- A packet with a route has an IPv4 destination, or else an IPv6 one. -/
theorem routeFor_eq_some (routed : node.routeFor packet = some ip) :
    (∃ destIp, getDestIp packet = .ok (some destIp) ∧
      (node.peerManager.findRoute destIp).or (node.peerManager.findSubnetMatch destIp) = some ip) ∨
    ∃ dest6, getDestIp packet = .ok none ∧ getDestIp6 packet = .ok (some dest6) ∧
      node.peerManager.findSubnetMatchV6 dest6 = some ip := by
  unfold routeFor at routed
  split at routed
  · next destIp v4 => exact Or.inl ⟨destIp, v4, routed⟩
  · next dest6 v4 v6 => exact Or.inr ⟨dest6, v4, v6, routed⟩
  · cases routed

/-- Nothing is sent to an IP without a peer. -/
theorem sendToPeer_missing (missing : node.peerManager.peersByIp.get ip = none) :
    node.sendToPeer ip packet now = .ok (node, [], false) := by
  simp [sendToPeer, missing]

/-- A foreign packet from the TUN device is sent to the peer that its route names. -/
theorem outbound_routed (foreign : node.Foreign packet) (routed : node.routeFor packet = some ip)
    (reached : node.reaches now ip = true) (read : packet.length ≤ 65536)
    (fits : packet.length ≤ Crates.plaintextLimit) :
    ∃ node' effects, node.outbound packet now = .ok (node', effects) ∧
      Sends now packet node [ip] node' effects := by
  rcases routeFor_eq_some routed with ⟨destIp, dest, route⟩ | ⟨dest6, dest, v6, route⟩
  · obtain ⟨_, notSubnet, notEveryone, missing⟩ := foreign destIp dest
    have first : node.firstReachable now (node.routedChain destIp) = some ip := by
      have absent : node.reaches now destIp = false := by simp [reaches, missing]
      cases container : node.peerManager.findRoute destIp with
      | some hostIp =>
          rw [container, Option.some_or, Option.some.injEq] at route
          simp [firstReachable, routedChain, absent, container, route, reached]
      | none =>
          rw [container, Option.none_or] at route
          simp [firstReachable, routedChain, absent, container, route, reached]
    rcases node.outboundUnicast_cases now destIp read fits with
      ⟨other, node', effects, found, run, sends⟩ | ⟨missed, _⟩
    · cases first.symm.trans found
      exact ⟨node', effects, (outbound_unicast dest notSubnet notEveryone).trans run, sends⟩
    · cases first.symm.trans missed
  · obtain ⟨node', effects, run, sends⟩ := sendToPeer_reachable reached read fits
    exact ⟨node', effects, by simp [outbound, dest, v6, route, sendAlong, run], sends⟩

/-- A decrypted foreign packet that the routes lead here is written to the TUN device. -/
theorem deliver_ends (foreign : node.Foreign packet)
    (routed : node.routeFor packet = some node.wolfnetIp) (sender : Ipv4Addr) :
    node.deliver now sender packet = .ok (node, [.writeTun packet]) := by
  rcases routeFor_eq_some routed with ⟨destIp, dest, route⟩ | ⟨dest6, dest, v6, route⟩
  · obtain ⟨notOwn, notSubnet, notEveryone, missing⟩ := foreign destIp dest
    rw [deliver_unicast sender dest, routeInbound,
      if_neg (by simp [notOwn, notSubnet, notEveryone]), sendToPeer_missing missing]
    cases container : node.peerManager.findRoute destIp with
    | some hostIp =>
        rw [container, Option.some_or, Option.some.injEq] at route
        simp [container, route]
    | none =>
        rw [container, Option.none_or] at route
        simp [container, route]
  · have notControl : ∀ type : UInt8, type >>> 4 ≠ 6 → packet.head? ≠ some type := by
      intro type other head
      rw [getDestIp6_eq_none head other] at v6
      cases v6
    rw [deliver, if_neg (fun pex => notControl pktPeerExchange (by decide) pex.2),
      if_neg (fun handshake => notControl pktHandshake (by decide) handshake.2), dest]
    simp [v6, routeInboundV6, route]

/-- Opening a packet leaves the routes as they are, and adds no peer. -/
theorem Receives.foreign {src : SocketAddr} {peerId : PeerId} {counter : UInt64}
    {ciphertext : List UInt8} {sender : Ipv4Addr}
    (receives : Receives node now src peerId counter ciphertext (node', some (sender, packet)))
    (foreign : node.Foreign packet) :
    node'.Foreign packet ∧ node'.routeFor packet = node.routeFor packet ∧
      node'.wolfnetIp = node.wolfnetIp := by
  cases receives with
  | opened peerIp peer session _ found held established outcome =>
      let accepted := peer.received (session.accepted counter) packet.length now
      obtain ⟨endpoint, peers⟩ := acceptFrom_peers node.peerManager src sender peer accepted
      have rest := acceptFrom_sameRest node.peerManager src sender peer accepted
      refine ⟨fun destIp dest => ?_, ?_, rfl⟩
      · obtain ⟨notOwn, notSubnet, notEveryone, missing⟩ := foreign destIp dest
        refine ⟨notOwn, notSubnet, notEveryone, ?_⟩
        have elsewhere : destIp ≠ sender := by
          rintro rfl
          rw [missing] at held
          cases held
        exact (peers destIp).trans ((if_neg elsewhere).trans missing)
      · simp only [routeFor, withManager_peerManager, PeerManager.findRoute,
          PeerManager.findSubnetMatch, PeerManager.findSubnetMatchV6]
        rw [rest.containers, rest.cidrs, rest.cidrsV6]

/-- Where two nodes loaded the same route files, a foreign packet whose route on the first
one names the second is sent there, and the second one writes it to its TUN device. -/
theorem encapsulation_agrees {a g : Node} (alike : a.peerManager.LoadedAlike g.peerManager)
    (foreign : a.Foreign packet) (foreignThere : g.Foreign packet)
    (routed : a.routeFor packet = some g.wolfnetIp) (reached : a.reaches now g.wolfnetIp = true)
    (read : packet.length ≤ 65536) (fits : packet.length ≤ Crates.plaintextLimit) :
    ∃ a' endpoint datagram, a.outbound packet now = .ok (a', [.sendTo endpoint datagram]) ∧
      Sends now packet a [g.wolfnetIp] a' [.sendTo endpoint datagram] ∧
      ∀ later src g' sender, g.receiveData later src datagram = .ok (g', some (sender, packet)) →
        g.inbound later src datagram = .ok (g', [.writeTun packet]) := by
  have same := alike.sameLookups
  have routedThere : g.routeFor packet = some g.wolfnetIp := by
    rw [← routed, routeFor, routeFor, same.containers, same.cidrs, same.cidrsV6]
  obtain ⟨a', effects, run, sends⟩ := outbound_routed foreign routed reached read fits
  cases sends with
  | @packet _ _ _ _ _ peer session endpoint held connected established placed rest =>
      cases rest.effects_eq_nil
      refine ⟨a', endpoint, a.datagram session packet, run,
        .packet held connected established placed rest, ?_⟩
      intro later src g' sender opened
      obtain ⟨result, received, receives⟩ := g.receiveData_receives later src a.keypair.myPeerId
        session.sendCounter (session.sealed packet)
      cases received.symm.trans opened
      obtain ⟨foreignAfter, sameRoute, sameIp⟩ := receives.foreign foreignThere
      rw [datagram, inbound_opened (by simp) opened, deliver_ends foreignAfter _ sender]
      rw [sameRoute, sameIp, routedThere]

end Routes

section Sample

attribute [local instance] Sample.crates

/-- A CIDR file with one network behind the second sample node. -/
def sampleCidrs : RouteFile := .parsed [("172.17.0.0/16", "10.10.10.2")]

/-- A sample node that is connected to one peer and loaded the CIDR file. -/
def cidrNode (mine theirs : UInt8) : Node :=
  Sample.node mine false ((Sample.connectedTable mine theirs).loadSubnetRoutes sampleCidrs)

/-- A packet to 172.17.0.2. -/
def foreignPacket : List UInt8 :=
  [0x45, 0, 0, 20, 0, 0, 0, 0, 64, 17, 0, 0, 10, 10, 10, 1, 172, 17, 0, 2]

/-- The two nodes have loaded their routes alike. -/
theorem loadedAlike_cidrNode :
    (cidrNode 1 2).peerManager.LoadedAlike (cidrNode 2 1).peerManager := by
  have distinct : PeerManager.CidrsDistinct sampleCidrs := by
    intro first member second member' _
    have one : PeerManager.cidrEntries [("172.17.0.0/16", "10.10.10.2")] =
        [.v4 ⟨172, 17, 0, 0⟩ 16 ⟨10, 10, 10, 2⟩] := rfl
    rw [one, List.mem_singleton] at member member'
    rw [member, member']
  have connected : (Sample.connectedTable 1 2).LoadedAlike (Sample.connectedTable 2 1) :=
    .other .empty ⟨rfl, rfl, rfl⟩ ⟨rfl, rfl, rfl⟩
  exact .subnetRoutes connected (.parsed (by simp) (.refl _)) distinct

/-- The first node sends a packet for the network to the second one, which opens it and
writes it to its TUN device. -/
theorem encapsulation_agrees_sample :
    ∃ a' endpoint datagram g', (cidrNode 1 2).outbound foreignPacket 0 =
        .ok (a', [.sendTo endpoint datagram]) ∧
      (cidrNode 2 1).inbound 0 Sample.endpoint datagram = .ok (g', [.writeTun foreignPacket]) := by
  obtain ⟨a', endpoint, datagram, run, sends, ends⟩ :=
    @encapsulation_agrees _ 0 foreignPacket (cidrNode 1 2) (cidrNode 2 1) loadedAlike_cidrNode
      (by rintro _ ⟨⟩; decide) (by rintro _ ⟨⟩; decide) rfl rfl (by decide) (by decide)
  cases sends with
  | packet held connected established placed rest =>
      cases held
      cases established
      exact ⟨a', _, _, _, run, ends 0 Sample.endpoint _ ⟨10, 10, 10, 1⟩ rfl⟩

end Sample
end WolfNet.Node
