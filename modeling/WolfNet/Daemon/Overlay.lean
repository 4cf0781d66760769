import Mathlib.Data.Fintype.Card
import WolfNet.Daemon.Fallback
import WolfNet.Semantics.Acyclic
import WolfNet.Semantics.Run

/-!
# A packet on its way through the overlay

The relay path looks neither at the peer that a packet came from nor at the packet's time
to live, so two nodes whose routes name each other send a packet to and fro. Where the
next hops that the nodes' tables give for the packet form no cycle, it never visits a
node twice: `relays_without_loop`.
-/

namespace WolfNet.Node

open WolfNet.Std WolfNet.Semantics

section Hops

variable [Crates]

/-- The IPs that the relay path tries for a packet: the destination, then its container
route, or its CIDR route when it has no container route. -/
def inboundChain (node : Node) (packet : List UInt8) : List Ipv4Addr :=
  match getDestIp packet, getDestIp6 packet with
  | .ok (some destIp), _ =>
      if destIp = node.subnetBroadcast ∨ destIp = Ipv4Addr.broadcast then []
      else destIp ::
        ((node.peerManager.findRoute destIp).or (node.peerManager.findSubnetMatch destIp)).toList
  | .ok none, .ok (some dest6) => (node.peerManager.findSubnetMatchV6 dest6).toList
  | _, _ => []

/-- The peer that a packet is relayed to, unless it ends here. -/
def nextHop (node : Node) (now : Instant) (packet : List UInt8) : Option Ipv4Addr :=
  ((node.inboundChain packet).find? fun ip => node.takes now ip).filter (· ≠ node.wolfnetIp)

/-- A packet is sent to its next hop alone. With no next hop, it is dropped here or written to
the TUN device. -/
def Forwards (node : Node) (now : Instant) (packet : List UInt8) (node' : Node)
    (effects : List Effect) : Prop :=
  match node.nextHop now packet with
  | some ip => Sends now packet node [ip] node' effects
  | none => effects = [] ∨ effects = [.writeTun packet]

variable {node mid node' : Node} {now : Instant} {packet : List UInt8} {ip destIp : Ipv4Addr}
  {effects : List Effect}

/-- A packet that goes to the first candidate that takes it is forwarded. -/
theorem GoesTo.forwards (goesTo : node.GoesTo now packet ip node' effects)
    (found : (node.inboundChain packet).find? (fun ip => node.takes now ip) = some ip) :
    node.Forwards now packet node' effects := by
  rw [Forwards, nextHop, found]
  by_cases own : ip = node.wolfnetIp
  · rw [GoesTo, if_pos own] at goesTo
    rw [Option.filter_some, if_neg (by simpa using own)]
    exact Or.inr goesTo.2
  · rw [GoesTo, if_neg own] at goesTo
    rw [Option.filter_some, if_pos (by simpa using own)]
    exact goesTo

/-- A packet that no route takes has no next hop. -/
theorem nextHop_eq_none
    (missed : (node.inboundChain packet).find? (fun ip => node.takes now ip) = none) :
    node.nextHop now packet = none := by
  rw [nextHop, missed, Option.filter_none]

/-- The end of the relay path: a route's end is sent the packet, or this node writes it. -/
theorem onward_forwards (same : SameTable node mid) (now : Instant) (route : Option Ipv4Addr)
    (chain : (node.inboundChain packet).find? (fun ip => node.takes now ip) =
      route.toList.find? fun ip => node.takes now ip)
    (read : packet.length ≤ 65536) (fits : packet.length ≤ Crates.plaintextLimit) :
    ∃ node' effects, (match route with
        | some ip => if ip = mid.wolfnetIp then return (mid, [.writeTun packet])
          else do
            let (node, effects, _) ← mid.sendToPeer ip packet now
            return (node, effects)
        | none => return (mid, []) : Rust (Node × List Effect)) = .ok (node', effects) ∧
      node.Forwards now packet node' effects := by
  cases route with
  | none =>
      refine ⟨mid, [], rfl, ?_⟩
      rw [Forwards, nextHop_eq_none chain]
      exact Or.inl rfl
  | some ip =>
      obtain ⟨node', effects, run, goes⟩ := sendOrWrite_goesTo same now ip read fits
      refine ⟨node', effects, run, ?_⟩
      split at goes
      · next taken => exact goes.forwards (chain.trans (by simp [taken]))
      · next missed =>
          rw [Forwards, nextHop_eq_none (chain.trans (by simp [missed]))]
          exact Or.inl goes

/-- The routing of a decrypted packet forwards it. -/
theorem routeInbound_forwards (dest : getDestIp packet = .ok (some destIp))
    (read : packet.length ≤ 65536) (fits : packet.length ≤ Crates.plaintextLimit) :
    ∃ node' effects, node.routeInbound now destIp packet = .ok (node', effects) ∧
      node.Forwards now packet node' effects := by
  by_cases broadcast : destIp = node.subnetBroadcast ∨ destIp = Ipv4Addr.broadcast
  · have ends : node.inboundChain packet = [] := by
      rw [inboundChain, dest]
      exact if_pos broadcast
    refine ⟨node, _, by rw [routeInbound, if_pos (Or.inr broadcast)]; rfl, ?_⟩
    rw [Forwards, nextHop_eq_none (by rw [ends, List.find?_nil])]
    exact Or.inr rfl
  have chain : node.inboundChain packet = destIp ::
      ((node.peerManager.findRoute destIp).or
        (node.peerManager.findSubnetMatch destIp)).toList := by
    rw [inboundChain, dest]
    exact if_neg broadcast
  by_cases own : destIp = node.wolfnetIp
  · refine ⟨node, _, by rw [routeInbound, if_pos (Or.inl own)]; rfl, ?_⟩
    have goes : node.GoesTo now packet destIp node [.writeTun packet] := by
      rw [GoesTo, if_pos own]
      exact ⟨.refl node, rfl⟩
    exact goes.forwards (by rw [chain, List.find?_cons_of_pos (by simp [takes, own])])
  have foreign : ¬(destIp = node.wolfnetIp ∨ destIp = node.subnetBroadcast ∨
      destIp = Ipv4Addr.broadcast) := not_or.mpr ⟨own, broadcast⟩
  cases reached : node.reaches now destIp with
  | true =>
      obtain ⟨node', effects, run, sends⟩ := sendToPeer_reachable reached read fits
      refine ⟨node', effects, by simp [routeInbound, foreign, run], ?_⟩
      have goes : node.GoesTo now packet destIp node' effects := by rwa [GoesTo, if_neg own]
      exact goes.forwards (by rw [chain, List.find?_cons_of_pos (by simp [takes, reached])])
  | false =>
      obtain ⟨mid, idle, looksUp⟩ := sendToPeer_unreachable reached packet
      have same := looksUp.sameTable
      obtain ⟨node', effects, run, forwards⟩ := onward_forwards same now
        ((node.peerManager.findRoute destIp).or (node.peerManager.findSubnetMatch destIp))
        (by rw [chain, List.find?_cons_of_neg (by simp [takes, reached, own])]) read fits
      refine ⟨node', effects, ?_, forwards⟩
      rw [routeInbound, if_neg foreign, idle, Rust.ok_bind, ← run]
      simp only [same.routes.1, same.routes.2.1]
      cases node.peerManager.findRoute destIp <;>
        cases node.peerManager.findSubnetMatch destIp <;> rfl

/-- A decrypted payload is sent to no peer but the next hop, and to that one once. -/
theorem deliver_forwards (node : Node) (now : Instant) (sender : Ipv4Addr)
    (read : packet.length ≤ 65536) (fits : packet.length ≤ Crates.plaintextLimit) :
    ∃ node' effects, node.deliver now sender packet = .ok (node', effects) ∧
      node.Forwards now packet node' effects := by
  have control : ∀ {type : UInt8} {node'},
      packet.head? = some type → type >>> 4 ≠ 4 → type >>> 4 ≠ 6 →
      node.Forwards now packet node' [] := by
    intro type node' head notV4 notV6
    rw [Forwards, nextHop, inboundChain, getDestIp_eq_none head notV4,
      getDestIp6_eq_none head notV6]
    exact Or.inl rfl
  unfold deliver
  split
  · next pex => split <;> exact ⟨_, _, rfl, control pex.2 (by decide) (by decide)⟩
  split
  · next handshake => exact ⟨_, _, rfl, control handshake.2 (by decide) (by decide)⟩
  obtain ⟨dest, v4⟩ := getDestIp_ok packet
  obtain ⟨dest6, v6⟩ := getDestIp6_ok packet
  rw [v4, v6]
  cases dest with
  | some destIp => exact routeInbound_forwards v4 read fits
  | none =>
      cases dest6 with
      | none =>
          refine ⟨_, _, rfl, ?_⟩
          rw [Forwards, nextHop, inboundChain, v4, v6]
          exact Or.inl rfl
      | some dest6 =>
          refine onward_forwards (.refl node) now (node.peerManager.findSubnetMatchV6 dest6) ?_
            read fits
          rw [inboundChain, v4, v6]

/-- What is sent to a peer advances the record at its IP and no other. -/
theorem Sends.get_iff (sends : Sends now packet node [ip] node' effects) (other : Ipv4Addr) :
    node'.peerManager.peersByIp.get other = node.peerManager.peersByIp.get other ↔ other ≠ ip := by
  cases sends with
  | @packet _ _ _ _ _ peer session _ held _ established _ rest =>
      cases rest with
      | nothing same =>
          rw [same.get, withTable_peersByIp, HashMap.get_insert]
          split
          · next here =>
              subst here
              simp only [held, Option.some.injEq, ne_eq, not_true_eq_false, iff_false]
              intro unchanged
              have advanced : session.sent = session := by
                simpa [Peer.sent, established] using congrArg Peer.cipher unchanged
              simpa [SessionCipher.sent] using congrArg SessionCipher.sendCounter advanced
          · next elsewhere => simp [elsewhere]

/-- A packet that was sent to one peer was sent to no other. -/
theorem Sends.ip_unique {other : Ipv4Addr} (sends : Sends now packet node [ip] node' effects)
    (otherSends : Sends now packet node [other] node' effects) : ip = other := by
  by_contra different
  exact (sends.get_iff ip).mp ((otherSends.get_iff ip).mpr different) rfl

end Hops

section Overlay

variable [Crates] {Member : Type}

/-- The nodes of an overlay and the members that a packet visited, the latest first. -/
structure Overlay (Member : Type) where
  node : Member → Node
  visited : List Member

/-- What happens in an overlay: its nodes change, or the packet is relayed by the member
that it reached last. -/
inductive OverlayEvent (Member : Type) where
  | change (node : Member → Node)
  | relay (now : Instant) (sender : Ipv4Addr) (next : Member)

variable [DecidableEq Member]

/-- Nodes change in any way. A relayed packet is taken by a member with the key that it was
encrypted for. -/
inductive OverlayStep (packet : List UInt8) : Transition (Overlay Member)
    (OverlayEvent Member) where
  | change {overlay : Overlay Member} (node : Member → Node) :
      OverlayStep packet overlay (.change node) { overlay with node := node }
  | relay {overlay : Overlay Member} {now : Instant} {sender ip : Ipv4Addr} {next holder : Member}
      {earlier : List Member} {node' : Node} {effects : List Effect} {peer : Peer}
      (reached : overlay.visited = holder :: earlier)
      (delivered : (overlay.node holder).deliver now sender packet = .ok (node', effects))
      (sends : Sends now packet (overlay.node holder) [ip] node' effects)
      (record : (overlay.node holder).peerManager.peersByIp.get ip = some peer)
      (taken : (overlay.node next).keypair.publicKey = peer.publicKey) :
      OverlayStep packet overlay (.relay now sender next)
        ⟨Function.update overlay.node holder node', next :: overlay.visited⟩

/-- The tables of a member name another one as the next hop of a packet. -/
def Overlay.Leads (overlay : Overlay Member) (now : Instant) (packet : List UInt8)
    (holder next : Member) : Prop :=
  ∃ ip peer, (overlay.node holder).nextHop now packet = some ip ∧
    (overlay.node holder).peerManager.peersByIp.get ip = some peer ∧
    (overlay.node next).keypair.publicKey = peer.publicKey

/-- When the packet is relayed, the next hop that the holder's tables name is one of `hop`. -/
def Overlay.Follows (hop : Member → Member → Prop) (packet : List UInt8)
    (overlay : Overlay Member) :
    OverlayEvent Member → Prop
  | .change _ => True
  | .relay now _ _ => ∀ holder ∈ overlay.visited.head?, ∀ next,
      overlay.Leads now packet holder next → hop holder next

/-- Each member that the packet visited is one of the next hops of the member before it. -/
def Overlay.Walked (hop : Member → Member → Prop) (overlay : Overlay Member) : Prop :=
  Walks hop overlay.visited

/-- A packet is relayed to the next hop that the holder's tables name. -/
theorem Overlay.Walked.step {hop : Member → Member → Prop} {packet : List UInt8}
    {overlay next : Overlay Member} {event : OverlayEvent Member}
    (read : packet.length ≤ 65536) (fits : packet.length ≤ Crates.plaintextLimit)
    (walked : overlay.Walked hop) (follows : overlay.Follows hop packet event)
    (transition : OverlayStep packet overlay event next) : next.Walked hop := by
  cases transition with
  | change node => exact walked
  | @relay _ now sender ip next holder earlier node' effects peer reached delivered sends record taken =>
      obtain ⟨_, _, run, forwards⟩ := (overlay.node holder).deliver_forwards now sender read fits
      cases delivered.symm.trans run
      have named : (overlay.node holder).nextHop now packet = some ip := by
        rw [Forwards] at forwards
        split at forwards
        · next other named => rwa [sends.ip_unique forwards]
        · rcases forwards with rfl | rfl
          · exact absurd rfl sends.effects_ne_nil
          · cases sends
      have along : hop holder next :=
        follows holder (by rw [reached]; rfl) next ⟨ip, peer, named, record, taken⟩
      rw [Walked, reached] at walked
      rw [Walked, reached]
      exact walked.step along

/-- Where the next hops of a packet form no cycle, it visits no node twice, so it is relayed
fewer times than there are nodes, and each node that it reaches drops it, writes it to its
TUN device or sends it on once. -/
theorem relays_without_loop [Fintype Member] {hop : Member → Member → Prop} {packet : List UInt8}
    {start last : Overlay Member} {trace : List (Overlay Member × OverlayEvent Member)}
    {entry first : Member} (run : Run (OverlayStep packet) start trace last)
    (entered : start.visited = [first, entry]) (entryHop : hop entry first) (acyclic : Acyclic hop)
    (admitted : Throughout (Overlay.Follows hop packet) trace)
    (read : packet.length ≤ 65536) (fits : packet.length ≤ Crates.plaintextLimit) :
    last.visited.Nodup ∧ last.visited.length ≤ Fintype.card Member ∧
      ∀ holder ∈ last.visited.head?, ∀ now sender, ∃ node' effects,
        (last.node holder).deliver now sender packet = .ok (node', effects) ∧
        (last.node holder).Forwards now packet node' effects := by
  have initially : start.Walked hop := by
    rw [Overlay.Walked, entered]
    exact .cons_cons entryHop (.singleton entry)
  have walked : last.Walked hop := run.invariant (Overlay.Walked.step read fits) initially admitted
  have nodup := walked.nodup acyclic
  refine ⟨nodup, length_le_card nodup fun _ _ => Finset.mem_univ _, fun holder _ now sender => ?_⟩
  exact (last.node holder).deliver_forwards now sender read fits

/-- A packet is relayed wherever the holder's tables lead. -/
theorem Overlay.Leads.relays {overlay : Overlay Member} {now : Instant} {packet : List UInt8}
    {holder next : Member} {earlier : List Member} (leads : overlay.Leads now packet holder next)
    (reached : overlay.visited = holder :: earlier) (sender : Ipv4Addr)
    (read : packet.length ≤ 65536) (fits : packet.length ≤ Crates.plaintextLimit) :
    ∃ node', OverlayStep packet overlay (.relay now sender next)
      ⟨Function.update overlay.node holder node', next :: overlay.visited⟩ := by
  obtain ⟨ip, peer, named, record, taken⟩ := leads
  obtain ⟨node', effects, run, sends⟩ := (overlay.node holder).deliver_forwards now sender read fits
  rw [Forwards, named] at sends
  exact ⟨node', .relay reached run sends record taken⟩

end Overlay

section Sample

attribute [local instance] Sample.crates

/-- A packet to the container 172.17.0.2. -/
def containerPacket : List UInt8 :=
  [0x45, 0, 0, 20, 0, 0, 0, 0, 64, 17, 0, 0, 10, 10, 10, 9, 172, 17, 0, 2]

/-- A node with one peer, which its container route names. -/
def routingNode (mine theirs : UInt8) : Node :=
  Sample.node mine false { Sample.connectedTable mine theirs with
    subnetRoutes := HashMap.empty.insert ⟨172, 17, 0, 2⟩ ⟨10, 10, 10, theirs⟩ }

/-- Three nodes in a row. -/
def rowOverlay : Overlay (Fin 3) where
  node member := match member with
    | 0 => routingNode 1 2
    | 1 => routingNode 2 3
    | 2 => Sample.node 3 false .new
  visited := [1, 0]

/-- Two nodes that name each other as the host of the container. -/
def facingOverlay : Overlay (Fin 2) where
  node member := match member with
    | 0 => routingNode 1 2
    | 1 => routingNode 2 1
  visited := [1, 0]

/-- The first node of the row leads to the last one only. -/
theorem rowOverlay_leads (next : Fin 3) : rowOverlay.Leads 0 containerPacket 1 next ↔ next = 2 := by
  constructor
  · rintro ⟨ip, peer, named, record, taken⟩
    have hop : (rowOverlay.node 1).nextHop 0 containerPacket = some ⟨10, 10, 10, 3⟩ := rfl
    cases hop.symm.trans named
    have key : peer.publicKey = (Sample.keypair 3).publicKey :=
      (Option.some.inj (congrArg (Option.map Peer.publicKey) record)).symm
    rw [key] at taken
    revert next
    decide
  · rintro rfl
    exact ⟨⟨10, 10, 10, 3⟩, _, rfl, rfl, rfl⟩

/-- The middle one of three nodes relays a packet to the last one. -/
theorem relays_without_loop_sample :
    ∃ (trace : List (Overlay (Fin 3) × OverlayEvent (Fin 3))) (last : Overlay (Fin 3)),
      Run (OverlayStep containerPacket) rowOverlay trace last ∧ last.visited = [2, 1, 0] ∧
      last.visited.Nodup ∧ last.visited.length ≤ Fintype.card (Fin 3) := by
  obtain ⟨node', step⟩ := ((rowOverlay_leads 2).mpr rfl).relays rfl ⟨10, 10, 10, 1⟩ (by decide)
    (by decide)
  have run := Run.step .refl step
  have acyclic : Acyclic fun first second : Fin 3 => first < second := by
    intro place around
    rw [Relation.transGen_eq_self] at around
    exact lt_irrefl place around
  have admitted : Throughout (Overlay.Follows (fun first second => first < second) containerPacket)
      ([] ++ [(rowOverlay, .relay 0 ⟨10, 10, 10, 1⟩ 2)]) := by
    rw [throughout_snoc]
    refine ⟨.nil, ?_⟩
    rintro holder ⟨⟩ next leads
    rw [(rowOverlay_leads next).mp leads]
    decide
  have kept := relays_without_loop run rfl (by decide) acyclic admitted (by decide) (by decide)
  exact ⟨_, _, run, rfl, kept.1, kept.2.1⟩

/-- Two nodes whose container routes name each other: the packet that one of them sent comes
back from the other. -/
theorem packet_returns :
    (∃ node' effects, (facingOverlay.node 0).outbound containerPacket 0 = .ok (node', effects) ∧
      Sends 0 containerPacket (facingOverlay.node 0) [⟨10, 10, 10, 2⟩] node' effects) ∧
    ∃ (trace : List (Overlay (Fin 2) × OverlayEvent (Fin 2))) (last : Overlay (Fin 2)),
      Run (OverlayStep containerPacket) facingOverlay trace last ∧ last.visited = [0, 1, 0] ∧
      ¬last.visited.Nodup := by
  constructor
  · have hop : (facingOverlay.node 0).firstReachable 0
        ((facingOverlay.node 0).routedChain ⟨172, 17, 0, 2⟩) = some ⟨10, 10, 10, 2⟩ := rfl
    have unicast : (facingOverlay.node 0).outbound containerPacket 0 =
        (facingOverlay.node 0).outboundUnicast ⟨172, 17, 0, 2⟩ containerPacket 0 :=
      outbound_unicast rfl (by decide) (by decide)
    have read : containerPacket.length ≤ 65536 := by decide
    rcases (facingOverlay.node 0).outboundUnicast_cases 0 ⟨172, 17, 0, 2⟩ read (by decide) with
      ⟨ip, node', effects, found, run, sends⟩ | ⟨missed, _⟩
    · cases hop.symm.trans found
      exact ⟨node', effects, unicast.trans run, sends⟩
    · cases hop.symm.trans missed
  · have leads : facingOverlay.Leads 0 containerPacket 1 0 := ⟨⟨10, 10, 10, 1⟩, _, rfl, rfl, rfl⟩
    obtain ⟨node', step⟩ := leads.relays rfl ⟨10, 10, 10, 1⟩ (by decide) (by decide)
    exact ⟨_, _, Run.step .refl step, rfl, by simp [facingOverlay]⟩

end Sample
end WolfNet.Node
