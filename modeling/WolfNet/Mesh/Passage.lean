import Mathlib.Data.List.Find
import WolfNet.Daemon.Linking
import WolfNet.Daemon.Overlay
import WolfNet.Mesh

/-!
# A packet's passage through the mesh

A packet that a member reads from its TUN device is handed on along the links that the members'
tables lead to. Where these make a way of distinct members with an end, and none of them would send
the packet back, the last one writes it to its own TUN device, and each member on the way sends one
datagram: `passage_carries`.
-/

namespace WolfNet

open WolfNet.Std WolfNet.Semantics

section Hops

variable [Crates]

namespace Node

variable {node mid node' : Node} {now : Instant} {packet : List UInt8} {ip destIp sender : Ipv4Addr}
  {effects : List Effect}

/-- The first of the candidates for a decrypted packet that takes it: this node, or a peer that can
be sent to. -/
def firstTaker (node : Node) (now : Instant) (packet : List UInt8) : Option Ipv4Addr :=
  (node.inboundChain packet).find? fun ip => node.takes now ip

/-- The first of the candidates for a packet from the TUN device that can be sent to. -/
def firstExit (node : Node) (now : Instant) (packet : List UInt8) : Option Ipv4Addr :=
  match getDestIp packet, getDestIp6 packet with
  | .ok (some destIp), _ =>
      if destIp = node.subnetBroadcast ∨ destIp = Ipv4Addr.broadcast then none
      else node.firstReachable now (node.outboundChain now destIp)
  | .ok none, .ok (some dest6) =>
      node.firstReachable now (node.peerManager.findSubnetMatchV6 dest6).toList
  | _, _ => none

/-- An IPv4 packet from the TUN device goes to the first of its candidates that can be sent to. -/
theorem outboundUnicast_first (dest : getDestIp packet = .ok (some destIp))
    (notSubnet : destIp ≠ node.subnetBroadcast) (notEveryone : destIp ≠ Ipv4Addr.broadcast)
    (read : packet.length ≤ 65536) (fits : packet.length ≤ Crates.plaintextLimit)
    (found : node.firstReachable now (node.outboundChain now destIp) = some ip) :
    ∃ node' effects, node.outbound packet now = .ok (node', effects) ∧
      Sends now packet node [ip] node' effects := by
  have falls : node.OutboundFallsThrough now destIp := by
    intro missed _
    rw [outboundChain, firstReachable_append, missed, Option.none_or] at found
    cases relayed : node.peerManager.findRelayFor destIp now with
    | none =>
        rw [relayed] at found
        cases found
    | some relay =>
        rw [relayed, Option.toList_some] at found
        by_contra unreached
        simp [firstReachable, unreached] at found
  obtain ⟨other, node', effects, candidate, run, sends⟩ :=
    falls.complete dest notSubnet notEveryone read fits ⟨ip, (outboundCandidate_first found).mpr rfl⟩
  obtain rfl := (outboundCandidate_first found).mp candidate
  exact ⟨node', effects, run, sends⟩

/-- A packet from the TUN device goes to the first of its candidates that can be sent to. -/
theorem outbound_first (read : packet.length ≤ 65536) (fits : packet.length ≤ Crates.plaintextLimit)
    (found : node.firstExit now packet = some ip) :
    ∃ node' effects, node.outbound packet now = .ok (node', effects) ∧
      Sends now packet node [ip] node' effects := by
  obtain ⟨dest, v4⟩ := getDestIp_ok packet
  obtain ⟨dest6, v6⟩ := getDestIp6_ok packet
  rw [firstExit, v4, v6] at found
  cases dest with
  | some destIp =>
      dsimp only at found
      split_ifs at found with broadcast
      obtain ⟨notSubnet, notEveryone⟩ := not_or.mp broadcast
      exact outboundUnicast_first v4 notSubnet notEveryone read fits found
  | none =>
      cases dest6 with
      | none => cases found
      | some dest6 =>
          have route := Option.mem_toList.mp (List.mem_of_find?_eq_some found)
          obtain ⟨node', effects, run, sends⟩ :=
            sendToPeer_reachable (List.find?_some found) read fits
          refine ⟨node', effects, ?_, sends⟩
          simp [outbound, v4, v6, Option.mem_def.mp route, sendAlong, run]

/-- A decrypted packet goes to the first candidate that takes it. -/
theorem deliver_goesTo (sender : Ipv4Addr) (read : packet.length ≤ 65536)
    (fits : packet.length ≤ Crates.plaintextLimit) (taken : node.firstTaker now packet = some ip) :
    ∃ node' effects, node.deliver now sender packet = .ok (node', effects) ∧
      node.GoesTo now packet ip node' effects := by
  obtain ⟨dest, v4⟩ := getDestIp_ok packet
  obtain ⟨dest6, v6⟩ := getDestIp6_ok packet
  rw [firstTaker, inboundChain, v4, v6] at taken
  cases dest with
  | some destIp =>
      rw [deliver_unicast sender v4]
      dsimp only at taken
      split_ifs at taken with broadcast
      · cases taken
      obtain ⟨notSubnet, notEveryone⟩ := not_or.mp broadcast
      cases takes : node.takes now destIp with
      | true =>
          rw [List.find?_cons_of_pos takes] at taken
          obtain rfl := Option.some.inj taken
          exact routeInbound_taken notSubnet notEveryone read fits takes
      | false =>
          rw [List.find?_cons_of_neg (by simp [takes])] at taken
          obtain ⟨member, accepts⟩ := And.intro (List.mem_of_find?_eq_some taken)
            (List.find?_some taken)
          obtain ⟨node', effects, run, goes⟩ := routeInbound_routed notSubnet notEveryone read fits
            takes (Option.mem_toList.mp member)
          rw [if_pos accepts] at goes
          exact ⟨node', effects, run, goes⟩
  | none =>
      cases dest6 with
      | none => cases taken
      | some dest6 =>
          have notControl : ∀ type : UInt8, type >>> 4 ≠ 6 → packet.head? ≠ some type := by
            intro type other head
            rw [getDestIp6_eq_none head other] at v6
            cases v6
          have route := Option.mem_toList.mp (List.mem_of_find?_eq_some taken)
          obtain ⟨node', effects, run, goes⟩ := sendOrWrite_goesTo (.refl node) now ip read fits
          rw [if_pos (List.find?_some taken)] at goes
          refine ⟨node', effects, ?_, goes⟩
          rw [deliver, if_neg fun pex => notControl pktPeerExchange (by decide) pex.2,
            if_neg fun handshake => notControl pktHandshake (by decide) handshake.2, v4]
          simpa only [Rust.ok_bind, v6, routeInboundV6, Option.mem_def.mp route] using run

/-- What a node accepts from a peer leaves the way of a packet that cannot lead back to that peer. -/
theorem Accepted.firstTaker {src : SocketAddr} (accepted : Accepted src sender node mid)
    (aside : sender ∉ node.inboundChain packet) :
    mid.firstTaker now packet = node.firstTaker now packet := by
  have rest := accepted.sameRest
  have chain : mid.inboundChain packet = node.inboundChain packet := by
    simp only [inboundChain, subnetBroadcast, PeerManager.findRoute, PeerManager.findSubnetMatch,
      PeerManager.findSubnetMatchV6, rest.containers, rest.cidrs, rest.cidrsV6, accepted.self.2]
  rw [Node.firstTaker, Node.firstTaker, chain]
  apply List.find?_congr
  intro ip member
  have elsewhere : ip ≠ sender := by
    rintro rfl
    exact aside member
  simp only [takes, reaches, accepted.get elsewhere, accepted.self.2]

/-- A link does not depend on what the first node holds of other peers. -/
theorem Linked.of_record {src : SocketAddr} {b : Node} {back : Ipv4Addr}
    (linked : Linked now src node b ip back) (keypair : mid.keypair = node.keypair)
    (record : mid.peerManager.peersByIp.get ip = node.peerManager.peersByIp.get ip) :
    Linked now src mid b ip back := by
  unfold Linked SendsFor at linked ⊢
  rw [keypair, record]
  exact linked

end Node
end Hops

section Passages

variable [Crates]

/-- Where a packet is taken: by whom and when, from which address, and as whose. -/
structure Stop (Member : Type) where
  member : Member
  time : Instant
  src : SocketAddr
  sender : Ipv4Addr

namespace Mesh

variable {Member : Type} [DecidableEq Member]

/-- The members' tables lead the packet from the stop along the others to the last one, which is
where it ends. None of them leads back to the peer that the packet came from. -/
inductive Passage (nodes : Member → Node) (packet : List UInt8) :
    Stop Member → List (Stop Member) → Prop where
  | ends {stop : Stop Member} (aside : stop.sender ∉ (nodes stop.member).inboundChain packet)
      (own : (nodes stop.member).firstTaker stop.time packet = some (nodes stop.member).wolfnetIp) :
      Passage nodes packet stop []
  | onward {stop next : Stop Member} {rest : List (Stop Member)} {ip : Ipv4Addr}
      (aside : stop.sender ∉ (nodes stop.member).inboundChain packet)
      (taken : (nodes stop.member).firstTaker stop.time packet = some ip)
      (other : ip ≠ (nodes stop.member).wolfnetIp)
      (linked : Node.Linked stop.time next.src (nodes stop.member) (nodes next.member) ip next.sender)
      (passage : Passage nodes packet next rest) : Passage nodes packet stop (next :: rest)

/-- The member takes the event and lets out the effects, which the history records. -/
def Takes (mesh : Mesh Member) (member : Member) (event : Node.Event) (effects : List Effect)
    (next : Mesh Member) : Prop :=
  ∃ node', (mesh.nodes member).Does event node' effects ∧
    next = ⟨Function.update mesh.nodes member node',
      mesh.history ++ [⟨member, mesh.nodes member, event, node', effects⟩]⟩

/-- The datagram arrives at the first stop, which sends one datagram on to the next, and so on. The
last one writes the packet to its TUN device. -/
inductive Carries (packet : List UInt8) :
    Mesh Member → List UInt8 → List (Stop Member) → Mesh Member → Prop where
  | written {mesh last : Mesh Member} {stop : Stop Member} {datagram : List UInt8}
      (takes : mesh.Takes stop.member (.tunnel stop.time stop.src datagram) [.writeTun packet] last) :
      Carries packet mesh datagram [stop] last
  | sent {mesh next last : Mesh Member} {stop : Stop Member} {stops : List (Stop Member)}
      {datagram datagram' : List UInt8} {endpoint : SocketAddr}
      (takes : mesh.Takes stop.member (.tunnel stop.time stop.src datagram)
        [.sendTo endpoint datagram'] next)
      (onward : Carries packet next datagram' stops last) :
      Carries packet mesh datagram (stop :: stops) last

variable {mesh next : Mesh Member} {member entry : Member} {event : Node.Event}
  {effects : List Effect} {packet datagram : List UInt8} {stop : Stop Member}
  {rest : List (Stop Member)}

/-- A member that takes an event leaves the others as they are. -/
theorem Takes.others (takes : mesh.Takes member event effects next) {other : Member}
    (different : other ≠ member) : next.nodes other = mesh.nodes other := by
  obtain ⟨_, _, rfl⟩ := takes
  exact Function.update_of_ne different _ _

/-- A member takes an event that it handles. -/
theorem takes_handled {node' : Node} (run : (mesh.nodes member).handle event = .ok (node', effects)) :
    ∃ next, mesh.Takes member event effects next :=
  ⟨_, node', .handled run, rfl⟩

/-- What a member is to deliver as a packet of a peer goes the passage, whatever others did. -/
theorem Passage.carries (agrees : DiffieHellmanAgrees) (ideal : AeadIdeal) {nodes : Member → Node}
    (distinct : ∀ first second, first ≠ second →
      (nodes first).keypair.publicKey ≠ (nodes second).keypair.publicKey)
    (passage : Passage nodes packet stop rest) (read : packet.length ≤ 65536)
    (fits : packet.length ≤ Crates.plaintextLimit)
    (once : (stop :: rest).Pairwise (·.member ≠ ·.member))
    (same : ∀ met ∈ stop :: rest, mesh.nodes met.member = nodes met.member) {mid : Node}
    (accepted : Node.Accepted stop.src stop.sender (nodes stop.member) mid)
    (opened : (nodes stop.member).inbound stop.time stop.src datagram =
      mid.deliver stop.time stop.sender packet) :
    ∃ last, Carries packet mesh datagram (stop :: rest) last := by
  induction passage generalizing mesh datagram mid with
  | @ends stop aside own =>
      obtain ⟨node', effects, run, goes⟩ := Node.deliver_goesTo stop.sender read fits
        ((accepted.firstTaker aside).trans own)
      rw [Node.GoesTo, if_pos accepted.self.2.symm] at goes
      obtain ⟨_, rfl⟩ := goes
      rw [← opened, ← same stop (List.mem_cons_self ..)] at run
      obtain ⟨last, takes⟩ : ∃ last, mesh.Takes stop.member
        (.tunnel stop.time stop.src datagram) [.writeTun packet] last := takes_handled run
      exact ⟨last, .written takes⟩
  | @onward stop next rest ip aside taken other linked passage ih =>
      obtain ⟨node', effects, run, goes⟩ := Node.deliver_goesTo stop.sender read fits
        ((accepted.firstTaker aside).trans taken)
      rw [Node.GoesTo, if_neg (by rwa [accepted.self.2])] at goes
      have elsewhere : ip ≠ stop.sender := by
        rintro rfl
        exact aside (List.mem_of_find?_eq_some taken)
      obtain ⟨first, others⟩ := List.pairwise_cons.mp once
      have different : stop.member ≠ next.member := first next (List.mem_cons_self ..)
      obtain ⟨endpoint, datagram', mid', rfl, accepted', opened'⟩ :=
        (linked.of_record accepted.self.1 (accepted.get elsewhere)).opens agrees ideal
          (by rw [accepted.self.1]; exact distinct _ _ different) goes next.time
      rw [← opened, ← same stop (List.mem_cons_self ..)] at run
      obtain ⟨between, takes⟩ : ∃ between, mesh.Takes stop.member
        (.tunnel stop.time stop.src datagram) [.sendTo endpoint datagram'] between :=
        takes_handled run
      have kept : ∀ met ∈ next :: rest, between.nodes met.member = nodes met.member :=
        fun met member => (takes.others (first met member).symm).trans
          (same met (List.mem_cons_of_mem _ member))
      obtain ⟨last, carries⟩ := ih others kept accepted' opened'
      exact ⟨last, .sent takes carries⟩

/-- A packet that a member reads from its TUN device goes to the first of its candidates, and is
opened there. -/
theorem enters (agrees : DiffieHellmanAgrees) (ideal : AeadIdeal)
    (distinct : Function.Injective mesh.key) {now : Instant} {ip : Ipv4Addr}
    (read : packet.length ≤ 65536) (fits : packet.length ≤ Crates.plaintextLimit)
    (found : (mesh.nodes entry).firstExit now packet = some ip)
    (linked : Node.Linked now stop.src (mesh.nodes entry) (mesh.nodes stop.member) ip stop.sender)
    (different : stop.member ≠ entry) :
    ∃ endpoint datagram next mid, mesh.Takes entry (.tun now packet) [.sendTo endpoint datagram] next ∧
      Node.Accepted stop.src stop.sender (mesh.nodes stop.member) mid ∧
      (mesh.nodes stop.member).inbound stop.time stop.src datagram =
        mid.deliver stop.time stop.sender packet := by
  obtain ⟨node', effects, run, sends⟩ :=
    Node.outbound_first read fits found
  obtain ⟨endpoint, datagram, mid, rfl, accepted, opened⟩ := linked.opens agrees ideal
    (fun same => different (distinct same).symm) sends stop.time
  obtain ⟨next, takes⟩ : ∃ next, mesh.Takes entry (.tun now packet) [.sendTo endpoint datagram] next :=
    takes_handled run
  exact ⟨endpoint, datagram, next, mid, takes, accepted, opened⟩

/-- A packet that a member reads from its TUN device and sends to the first stop of a passage is
carried to the last one. -/
theorem passage_carries (agrees : DiffieHellmanAgrees) (ideal : AeadIdeal)
    (distinct : Function.Injective mesh.key) {now : Instant} {ip : Ipv4Addr}
    (read : packet.length ≤ 65536) (fits : packet.length ≤ Crates.plaintextLimit)
    (found : (mesh.nodes entry).firstExit now packet = some ip)
    (linked : Node.Linked now stop.src (mesh.nodes entry) (mesh.nodes stop.member) ip stop.sender)
    (passage : Passage mesh.nodes packet stop rest)
    (once : (entry :: (stop :: rest).map Stop.member).Nodup) :
    ∃ endpoint datagram next last, mesh.Takes entry (.tun now packet) [.sendTo endpoint datagram] next ∧
      Carries packet next datagram (stop :: rest) last := by
  obtain ⟨absent, others⟩ := List.nodup_cons.mp once
  have different (met : Stop Member) (member : met ∈ stop :: rest) : met.member ≠ entry := by
    rintro rfl
    exact absent (List.mem_map_of_mem member)
  obtain ⟨endpoint, datagram, next, mid, takes, accepted, opened⟩ := enters agrees ideal distinct
    read fits found linked (different stop (List.mem_cons_self ..))
  obtain ⟨last, carries⟩ := passage.carries agrees ideal
    (fun _ _ apart same => apart (distinct same)) read fits (List.pairwise_map.mp others)
    (fun met member => takes.others (different met member)) accepted opened
  exact ⟨endpoint, datagram, next, last, takes, carries⟩

end Mesh
end Passages

section Sample

attribute [local instance] Sample.crates

namespace Mesh

/-- The endpoint of the third node of the row, as the second one knows it. -/
def farEndpoint : SocketAddr := .v4 ⟨203, 0, 113, 9⟩ 9600

/-- The members of a row of three. -/
inductive Seat where
  | first
  | middle
  | last
  deriving DecidableEq

/-- Three nodes in a row. The first one knows the third one only through the second. -/
def row : Mesh Seat where
  nodes
    | .first => Sample.node 1 false ((Sample.connectedTable 1 2).addPeer { Sample.record 1 3 with
        relayVia := some ⟨10, 10, 10, 2⟩ })
    | .middle => Sample.node 2 false ((Sample.connectedTable 2 1).addPeer { Sample.record 2 3 with
        endpoint := some farEndpoint
        lastSeen := some 0 })
    | .last => Sample.node 3 false (Sample.connectedTable 3 2)
  history := []

/-- A packet to the third node. -/
def rowPacket : List UInt8 :=
  [0x45, 0, 0, 20, 0, 0, 0, 0, 64, 17, 0, 0, 10, 10, 10, 1, 10, 10, 10, 3]

/-- The second node takes what comes from the first. -/
def relayStop : Stop Seat := ⟨.middle, 6, Sample.endpoint, ⟨10, 10, 10, 1⟩⟩

/-- The third node takes what comes from the second. -/
def endStop : Stop Seat := ⟨.last, 7, Sample.endpoint, ⟨10, 10, 10, 2⟩⟩

/-- The members of the row have different keys. -/
theorem row_keys : Function.Injective row.key := by
  intro member other same
  cases member <;> cases other <;> first | rfl | exact absurd same (by decide)

/-- A packet to the third node reaches it by way of the second. -/
theorem passage_carries_sample : ∃ endpoint datagram next last,
    row.Takes .first (.tun 5 rowPacket) [.sendTo endpoint datagram] next ∧
      Carries rowPacket next datagram [relayStop, endStop] last := by
  have first : Node.Linked 5 relayStop.src (row.nodes .first) (row.nodes .middle) ⟨10, 10, 10, 2⟩
      relayStop.sender :=
    ⟨_, _, ⟨_, _, rfl, rfl, rfl, rfl, SessionCipher.isFor_new _ _⟩,
      ⟨rfl, _, rfl, rfl, SessionCipher.isFor_new _ _⟩, Or.inl (Nat.zero_le _)⟩
  have second : Node.Linked 6 endStop.src (row.nodes .middle) (row.nodes .last) ⟨10, 10, 10, 3⟩
      endStop.sender :=
    ⟨_, _, ⟨_, _, rfl, rfl, rfl, rfl, SessionCipher.isFor_new _ _⟩,
      ⟨rfl, _, rfl, rfl, SessionCipher.isFor_new _ _⟩, Or.inl (Nat.zero_le _)⟩
  have passage : Passage row.nodes rowPacket relayStop [endStop] :=
    .onward (by decide) (show _ = some (⟨10, 10, 10, 3⟩ : Ipv4Addr) by decide) (by decide) second
      (.ends (by decide) (by decide))
  exact passage_carries Sample.diffieHellman_agrees Sample.aead_ideal row_keys (by decide)
    (by decide) (by decide) first passage (by decide)

end Mesh
end Sample
end WolfNet
