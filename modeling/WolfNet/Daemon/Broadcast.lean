import WolfNet.Daemon.Outbound
import WolfNet.Daemon.Sends

/-!
# Broadcasts

A broadcast goes to every connected peer, and to the relay of every peer that is not
connected. Only relays are remembered, so a relay that is itself connected gets the
packet twice: `broadcast_once_iff`.
-/

namespace WolfNet.Node

open WolfNet.Std

section Copies

variable [Crates]

/-- A peer that is not connected names the IP as its relay. -/
def RelaysFor (node : Node) (now : Instant) (relay : Ipv4Addr) : Prop :=
  ∃ ip peer, node.peerManager.peersByIp.get ip = some peer ∧ ip ≠ node.wolfnetIp ∧
    peer.isConnected now = false ∧ peer.relayVia = some relay

/-- The peers that `sendBroadcast` sends to, one entry for each copy. -/
def copies (node : Node) (now : Instant) (relayed : List Ipv4Addr) :
    List (Ipv4Addr × Option Ipv4Addr) → List Ipv4Addr
  | [] => []
  | (ip, none) :: targets =>
    (if node.reaches now ip then [ip] else []) ++ node.copies now relayed targets
  | (_, some relay) :: targets =>
    if relay ∈ relayed then node.copies now relayed targets
    else (if node.reaches now relay then [relay] else []) ++
      node.copies now (relay :: relayed) targets

/-- Each peer gets at most one copy, and each connected peer with an endpoint exactly one,
be it for itself or as the relay of a peer that is not connected. -/
structure OneCopyEach (node : Node) (now : Instant) (copies : List Ipv4Addr) : Prop where
  atMostOne : ∀ ip, copies.count ip ≤ 1
  connected : ∀ ip peer endpoint, node.peerManager.peersByIp.get ip = some peer →
    peer.isConnected now = true → peer.endpoint = some endpoint → copies.count ip = 1
  relays : ∀ ip peer relay relayPeer endpoint, node.peerManager.peersByIp.get ip = some peer →
    peer.isConnected now = false → peer.relayVia = some relay →
    node.peerManager.peersByIp.get relay = some relayPeer → relayPeer.isConnected now = true →
    relayPeer.endpoint = some endpoint → copies.count relay = 1

variable {node node' : Node} {now : Instant} {packet : List UInt8} {ip : Ipv4Addr}
  {targets : List (Ipv4Addr × Option Ipv4Addr)}

/-- Nodes that reach the same peers make the same copies. -/
theorem copies_congr (same : ∀ ip, node'.reaches now ip = node.reaches now ip)
    (relayed : List Ipv4Addr) :
    node'.copies now relayed targets = node.copies now relayed targets := by
  induction targets generalizing relayed with
  | nil => rfl
  | cons target targets ih =>
      obtain ⟨ip, _ | relay⟩ := target <;> simp only [copies, same, ih]

/-- The broadcast is sent to the relays and peers that get copies. -/
theorem sendBroadcast_sends (node : Node) (now : Instant) (read : packet.length ≤ 65536)
    (fits : packet.length ≤ Crates.plaintextLimit) (relayed : List Ipv4Addr)
    (targets : List (Ipv4Addr × Option Ipv4Addr)) :
    ∃ node' effects, node.sendBroadcast packet now relayed targets = .ok (node', effects) ∧
      Sends now packet node (node.copies now relayed targets) node' effects := by
  induction targets generalizing node relayed with
  | nil => exact ⟨node, [], rfl, .nothing (.refl node)⟩
  | cons target targets ih =>
      obtain ⟨ip, _ | relay⟩ := target
      · obtain ⟨mid, effects, sent, first⟩ := sendToPeer_sends node now ip read fits
        obtain ⟨node', others, rest, second⟩ := ih mid relayed
        rw [copies_congr first.reaches] at second
        exact ⟨node', effects ++ others, by simp [sendBroadcast, sent, rest], first.append second⟩
      · by_cases used : relay ∈ relayed
        · obtain ⟨node', effects, rest, sends⟩ := ih node relayed
          exact ⟨node', effects, by simp [sendBroadcast, used, rest], by simpa [copies, used]⟩
        · obtain ⟨mid, effects, sent, first⟩ := sendToPeer_sends node now relay read fits
          obtain ⟨node', others, rest, second⟩ := ih mid (relay :: relayed)
          rw [copies_congr first.reaches] at second
          refine ⟨node', effects ++ others, by simp [sendBroadcast, used, sent, rest], ?_⟩
          rw [copies, if_neg used]
          exact first.append second

/-- How often a peer is sent to: for each direct target at its IP, and once more as a relay
that was not used before. -/
theorem count_copies (relayed : List Ipv4Addr) :
    (node.copies now relayed targets).count ip =
      if node.reaches now ip then targets.count (ip, none) +
        (if ip ∉ relayed ∧ some ip ∈ targets.map Prod.snd then 1 else 0) else 0 := by
  induction targets generalizing relayed with
  | nil => simp [copies]
  | cons target targets ih =>
      obtain ⟨other, _ | relay⟩ := target
      · by_cases here : other = ip
        · subst here
          cases reached : node.reaches now other
          · simp [copies, ih, reached, -List.mem_map]
          · simp [copies, ih, reached, -List.mem_map]
            omega
        · cases reached : node.reaches now other <;> simp [copies, ih, reached, here, -List.mem_map]
      · by_cases used : relay ∈ relayed
        · by_cases here : relay = ip
          · subst here
            simp [copies, ih, used, -List.mem_map]
          · simp [copies, ih, used, Ne.symm here, -List.mem_map]
        · by_cases here : relay = ip
          · subst here
            cases reached : node.reaches now relay
            · simp [copies, ih, used, reached, -List.mem_map]
            · simp [copies, ih, used, reached, -List.mem_map]
          · cases reached : node.reaches now relay
            · simp [copies, ih, used, reached, Ne.symm here, -List.mem_map]
            · simp [copies, ih, used, reached, here, Ne.symm here, -List.mem_map]

/-- The targets of a broadcast are the connected peers, and the relays of those that are not. -/
theorem mem_broadcastTargets {relay : Option Ipv4Addr} :
    (ip, relay) ∈ node.broadcastTargets now ↔
      ∃ peer, node.peerManager.peersByIp.get ip = some peer ∧ ip ≠ node.wolfnetIp ∧
        (peer.isConnected now = true ∧ relay = none ∨
          peer.isConnected now = false ∧ relay.isSome ∧ peer.relayVia = relay) := by
  simp only [broadcastTargets, List.mem_filterMap, Prod.exists, HashMap.mem_iter_iff]
  constructor
  · rintro ⟨other, peer, held, target⟩
    split_ifs at target with own connected
    · cases target
      exact ⟨peer, held, own, Or.inl ⟨connected, rfl⟩⟩
    · obtain ⟨via, names, same⟩ := Option.map_eq_some_iff.mp target
      cases same
      exact ⟨peer, held, own, Or.inr ⟨by simpa using connected, rfl, names⟩⟩
  · rintro ⟨peer, held, own, ⟨connected, rfl⟩ | ⟨idle, isRelay, names⟩⟩
    · exact ⟨ip, peer, held, by simp [own, connected]⟩
    · obtain ⟨via, rfl⟩ := Option.isSome_iff_exists.mp isRelay
      exact ⟨ip, peer, held, by simp [own, idle, names]⟩

/-- Each peer is a target once. -/
theorem nodup_broadcastTargets (node : Node) (now : Instant) :
    (node.broadcastTargets now).Nodup := by
  rw [broadcastTargets, List.nodup_iff_pairwise_ne, List.pairwise_filterMap]
  refine node.peerManager.peersByIp.pairwise_iter.imp ?_
  rintro ⟨ip, peer⟩ ⟨other, twin⟩ different target found target' found' same
  have here : target.1 = ip := by
    dsimp only at found
    split_ifs at found
    · cases found
      rfl
    · obtain ⟨_, _, rfl⟩ := Option.map_eq_some_iff.mp found
      rfl
  have there : target'.1 = other := by
    dsimp only at found'
    split_ifs at found'
    · cases found'
      rfl
    · obtain ⟨_, _, rfl⟩ := Option.map_eq_some_iff.mp found'
      rfl
  exact different (here.symm.trans ((congrArg Prod.fst same).trans there))

/-- A relay is a target when some peer is behind it. -/
theorem relays_iff :
    some ip ∈ (node.broadcastTargets now).map Prod.snd ↔ node.RelaysFor now ip := by
  simp only [List.mem_map, Prod.exists, exists_eq_right, mem_broadcastTargets]
  constructor
  · rintro ⟨other, peer, held, own, ⟨_, isRelay⟩ | ⟨idle, _, names⟩⟩
    · cases isRelay
    · exact ⟨other, peer, held, own, idle, names⟩
  · rintro ⟨other, peer, held, own, idle, names⟩
    exact ⟨other, peer, held, own, Or.inr ⟨idle, rfl, names⟩⟩

/-- A reachable peer gets a copy unless it is under this node's own IP, and another copy if
it is a relay. -/
theorem count_broadcast (reached : node.reaches now ip = true) :
    (node.copies now [] (node.broadcastTargets now)).count ip =
      (if ip = node.wolfnetIp then 0 else 1) +
        if some ip ∈ (node.broadcastTargets now).map Prod.snd then 1 else 0 := by
  obtain ⟨peer, endpoint, held, connected, _⟩ := reaches_iff.mp reached
  have direct : (ip, none) ∈ node.broadcastTargets now ↔ ip ≠ node.wolfnetIp := by
    simp [mem_broadcastTargets, held, connected]
  rw [count_copies, if_pos reached, (nodup_broadcastTargets node now).count]
  simp only [direct, ite_not, List.not_mem_nil, not_false_eq_true, true_and]

/-- Each peer gets one copy exactly when no reachable peer is the relay of a peer that is not
connected. The record under this node's own IP, if there is one, is the exception: it is
sent to as a relay only. -/
theorem broadcast_once_iff {destIp : Ipv4Addr} (dest : getDestIp packet = .ok (some destIp))
    (broadcast : destIp = node.subnetBroadcast ∨ destIp = Ipv4Addr.broadcast)
    (read : packet.length ≤ 65536) (fits : packet.length ≤ Crates.plaintextLimit) :
    ∃ node' effects copies, node.outbound packet now = .ok (node', effects) ∧
      Sends now packet node copies node' effects ∧
      (node.OneCopyEach now copies ↔
        ∀ ip, node.reaches now ip = true → (ip = node.wolfnetIp ↔ node.RelaysFor now ip)) := by
  obtain ⟨node', effects, run, sends⟩ :=
    node.sendBroadcast_sends now read fits [] (node.broadcastTargets now)
  refine ⟨node', effects, _, by simp [outbound, dest, broadcast, run], sends, ?_⟩
  constructor
  · intro once ip reached
    obtain ⟨peer, endpoint, held, connected, placed⟩ := reaches_iff.mp reached
    have single := once.connected ip peer endpoint held connected placed
    rw [count_broadcast reached] at single
    rw [← relays_iff]
    by_cases own : ip = node.wolfnetIp <;>
      by_cases relays : some ip ∈ (node.broadcastTargets now).map Prod.snd
    · exact ⟨fun _ => relays, fun _ => own⟩
    · rw [if_pos own, if_neg relays] at single
      omega
    · rw [if_neg own, if_pos relays] at single
      omega
    · exact ⟨fun here => absurd here own, fun relay => absurd relay relays⟩
  · intro apart
    have single : ∀ ip, node.reaches now ip = true →
        (node.copies now [] (node.broadcastTargets now)).count ip = 1 := by
      intro ip reached
      rw [count_broadcast reached]
      have exactlyOne := apart ip reached
      rw [← relays_iff] at exactlyOne
      by_cases own : ip = node.wolfnetIp
      · rw [if_pos own, if_pos (exactlyOne.mp own)]
      · rw [if_neg own, if_neg (fun relays => own (exactlyOne.mpr relays))]
    refine ⟨fun ip => ?_, ?_, ?_⟩
    · by_cases reached : node.reaches now ip = true
      · exact (single ip reached).le
      · rw [count_copies, if_neg reached]
        exact Nat.zero_le 1
    · intro ip peer endpoint held connected placed
      exact single ip (reaches_iff.mpr ⟨peer, endpoint, held, connected, placed⟩)
    · intro _ _ relay relayPeer endpoint _ _ _ held connected placed
      exact single relay (reaches_iff.mpr ⟨relayPeer, endpoint, held, connected, placed⟩)

end Copies

section Sample

attribute [local instance] Sample.crates

/-- A node with a connected peer at 10.10.10.2 and one at 10.10.10.3 that is behind a relay. -/
def relayedNode (relay : Ipv4Addr) : Node :=
  Sample.node 1 false ((PeerManager.new.addPeer { Sample.record 1 3 with relayVia := some relay }).addPeer
    { Sample.record 1 2 with
      endpoint := some (.v4 ⟨203, 0, 113, 7⟩ 9600)
      lastSeen := some 0 })

/-- An empty packet to 10.10.10.255. -/
def broadcastPacket : List UInt8 :=
  [0x45, 0, 0, 20, 0, 0, 0, 0, 64, 17, 0, 0, 10, 10, 10, 1, 10, 10, 10, 255]

/-- The peers of the relayed node. -/
theorem held_relayedNode {relay ip : Ipv4Addr} {peer : Peer} :
    (relayedNode relay).peerManager.peersByIp.get ip = some peer ↔
      ip = ⟨10, 10, 10, 2⟩ ∧ peer = { Sample.record 1 2 with
        endpoint := some (.v4 ⟨203, 0, 113, 7⟩ 9600)
        lastSeen := some 0 } ∨
      ip = ⟨10, 10, 10, 3⟩ ∧ peer = { Sample.record 1 3 with relayVia := some relay } := by
  rw [relayedNode, Sample.node, (PeerManager.addPeer_replaces _ _).peers,
    (PeerManager.addPeer_replaces _ _).peers]
  change (if ip = ⟨10, 10, 10, 2⟩ then _ else if ip = ⟨10, 10, 10, 3⟩ then _ else _) = _ ↔ _
  by_cases second : ip = ⟨10, 10, 10, 2⟩
  · subst second
    simp [eq_comm]
  · by_cases third : ip = ⟨10, 10, 10, 3⟩
    · subst third
      simp [eq_comm]
    · simp [second, third, PeerManager.new]

/-- Where the relay is not in the table, the connected peer gets its one copy. -/
theorem broadcast_once_iff_sample :
    ∃ node' effects copies, (relayedNode ⟨10, 10, 10, 4⟩).outbound broadcastPacket 0 =
        .ok (node', effects) ∧
      Sends 0 broadcastPacket (relayedNode ⟨10, 10, 10, 4⟩) copies node' effects ∧
      (relayedNode ⟨10, 10, 10, 4⟩).OneCopyEach 0 copies := by
  obtain ⟨node', effects, copies, run, sends, once⟩ :=
    @broadcast_once_iff _ (relayedNode ⟨10, 10, 10, 4⟩) 0 broadcastPacket ⟨10, 10, 10, 255⟩ rfl
      (by decide) (by decide) (by decide)
  refine ⟨node', effects, copies, run, sends, once.mpr fun ip reached => ?_⟩
  obtain ⟨peer, endpoint, held, connected, _⟩ := reaches_iff.mp reached
  rcases held_relayedNode.mp held with ⟨rfl, _⟩ | ⟨rfl, rfl⟩
  · refine ⟨fun own => absurd own (by decide), ?_⟩
    rintro ⟨other, peer, held, _, idle, names⟩
    rcases held_relayedNode.mp held with ⟨_, rfl⟩ | ⟨_, rfl⟩
    · exact absurd idle (by decide)
    · exact absurd names (by decide)
  · exact absurd connected (by decide)

/-- Where the relay is the connected peer, it gets two copies. -/
theorem broadcast_sent_twice :
    ∃ node' effects, (relayedNode ⟨10, 10, 10, 2⟩).outbound broadcastPacket 0 =
        .ok (node', effects) ∧
      Sends 0 broadcastPacket (relayedNode ⟨10, 10, 10, 2⟩)
        [⟨10, 10, 10, 2⟩, ⟨10, 10, 10, 2⟩] node' effects ∧
      ¬(relayedNode ⟨10, 10, 10, 2⟩).OneCopyEach 0 [⟨10, 10, 10, 2⟩, ⟨10, 10, 10, 2⟩] := by
  obtain ⟨node', effects, run, sends⟩ :=
    @sendBroadcast_sends _ broadcastPacket (relayedNode ⟨10, 10, 10, 2⟩) 0 (by decide)
      (by decide) []
      ((relayedNode ⟨10, 10, 10, 2⟩).broadcastTargets 0)
  refine ⟨node', effects, ?_, sends, ?_⟩
  · have dest : getDestIp broadcastPacket = .ok (some ⟨10, 10, 10, 255⟩) := rfl
    have subnet : (⟨10, 10, 10, 255⟩ : Ipv4Addr) =
        (relayedNode ⟨10, 10, 10, 2⟩).subnetBroadcast := rfl
    simp [outbound, dest, ← subnet, run]
  · intro once
    exact absurd (once.atMostOne ⟨10, 10, 10, 2⟩) (by decide)

end Sample
end WolfNet.Node
