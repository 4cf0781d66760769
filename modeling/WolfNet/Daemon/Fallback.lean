import WolfNet.Daemon.Inbound
import WolfNet.Daemon.Outbound
import WolfNet.Daemon.Sends

/-!
# The fallback chains

A unicast packet is tried along a chain of candidates. Two steps of the outbound chain
and one of the inbound chain do not fall through to the next candidate when theirs cannot
be sent to: the relay, the first gateway, and the container route. Where none of these
swallows the packet, it goes to the first candidate that it can be sent to:
`fallback_complete_iff`.
-/

namespace WolfNet.Node

open WolfNet.Std

section Chains

variable [Crates]

/-- The first of the candidates that a packet can be sent to. -/
def firstReachable (node : Node) (now : Instant) (candidates : List Ipv4Addr) : Option Ipv4Addr :=
  candidates.find? fun ip => node.reaches now ip

/-- The destination, the host of its container route, and the gateway of its CIDR route. -/
def routedChain (node : Node) (destIp : Ipv4Addr) : List Ipv4Addr :=
  [destIp] ++ (node.peerManager.findRoute destIp).toList ++
    (node.peerManager.findSubnetMatch destIp).toList

/-- The candidates for a packet from the TUN device, before the gateways. -/
def outboundChain (node : Node) (now : Instant) (destIp : Ipv4Addr) : List Ipv4Addr :=
  node.routedChain destIp ++ (node.peerManager.findRelayFor destIp now).toList

/-- The peer at the IP is flagged as a gateway. -/
def IsGateway (node : Node) (ip : Ipv4Addr) : Prop :=
  ∃ peer, node.peerManager.peersByIp.get ip = some peer ∧ peer.isGateway = true

/-- The first candidate of the outbound chain that the packet can be sent to: any gateway
will do when there is no other. -/
def OutboundCandidate (node : Node) (now : Instant) (destIp ip : Ipv4Addr) : Prop :=
  match node.firstReachable now (node.outboundChain now destIp) with
  | some first => ip = first
  | none => node.IsGateway ip ∧ node.reaches now ip = true

/-- If there is a candidate, the packet is sent once, to a first one. -/
def OutboundComplete (node : Node) (now : Instant) (destIp : Ipv4Addr) (packet : List UInt8) :
    Prop :=
  (∃ ip, node.OutboundCandidate now destIp ip) →
    ∃ ip node' effects, node.OutboundCandidate now destIp ip ∧
      node.outbound packet now = .ok (node', effects) ∧ Sends now packet node [ip] node' effects

/-- A candidate of the inbound chain: this node itself, or a peer that can be sent to. -/
def takes (node : Node) (now : Instant) (ip : Ipv4Addr) : Bool :=
  ip = node.wolfnetIp || node.reaches now ip

/-- A packet goes to one candidate: this node writes it, and a peer is sent it. -/
def GoesTo (node : Node) (now : Instant) (packet : List UInt8) (ip : Ipv4Addr) (node' : Node)
    (effects : List Effect) : Prop :=
  if ip = node.wolfnetIp then SameTable node node' ∧ effects = [.writeTun packet]
  else Sends now packet node [ip] node' effects

/-- If there is a candidate, a decrypted packet goes to the first one. -/
def InboundComplete (node : Node) (now : Instant) (sender destIp : Ipv4Addr) (packet : List UInt8) :
    Prop :=
  ∀ ip, (node.routedChain destIp).find? (fun other => node.takes now other) = some ip →
    ∃ node' effects, node.deliver now sender packet = .ok (node', effects) ∧
      node.GoesTo now packet ip node' effects

/-- No step of the outbound chain swallows a packet for which there is a gateway. -/
def OutboundFallsThrough (node : Node) (now : Instant) (destIp : Ipv4Addr) : Prop :=
  node.firstReachable now (node.routedChain destIp) = none →
  (∃ ip, node.IsGateway ip ∧ node.reaches now ip = true) →
    match node.peerManager.findRelayFor destIp now with
    | some relay => node.reaches now relay = true
    | none => ∀ ip peer, node.peerManager.peersByIp.get ip = some peer → peer.isGateway = true →
      peer.isConnected now = true → node.reaches now ip = true

/-- The container route does not swallow a packet that the CIDR route could take. -/
def InboundFallsThrough (node : Node) (now : Instant) (destIp : Ipv4Addr) : Prop :=
  node.takes now destIp = false →
  ∀ hostIp, node.peerManager.findRoute destIp = some hostIp → node.takes now hostIp = false →
  ∀ gwIp, node.peerManager.findSubnetMatch destIp = some gwIp → node.takes now gwIp = false

/-- The gateway that iteration meets first cannot be sent to. -/
def BlockedGateway (node : Node) (now : Instant) : Prop :=
  ∃ ip, node.peerManager.findGateway now = some ip ∧ node.reaches now ip = false

variable {node mid node' : Node} {now : Instant} {packet : List UInt8} {ip destIp : Ipv4Addr}
  {effects : List Effect}

/-- A look at a peer that is not reachable brings no better gateway to the front. -/
theorem LooksUp.blockedGateway (looksUp : LooksUp node ip node')
    (unreachable : node.reaches now ip = false) (blocked : node.BlockedGateway now) :
    node'.BlockedGateway now := by
  obtain ⟨first, found, firstBlocked⟩ := blocked
  have same : ∀ other, node'.reaches now other = node.reaches now other :=
    fun _ => looksUp.sameTable.reaches
  rcases looksUp with rfl | ⟨peer, held, rfl⟩
  · exact ⟨first, found, firstBlocked⟩
  · simp only [BlockedGateway, same, PeerManager.findGateway, withTable_peersByIp,
      HashMap.find_iter_reinserted held]
    by_cases gateway : (peer.isGateway && peer.isConnected now) = true
    · exact ⟨ip, by rw [if_pos gateway, Option.map_some], unreachable⟩
    · exact ⟨first, by rw [if_neg gateway]; exact found, firstBlocked⟩

/-- Sending along a route that leads to a reachable peer sends there; any other route changes
at most the order of the table. -/
theorem sendAlong_cases (node : Node) (now : Instant) (route : Option Ipv4Addr)
    (read : packet.length ≤ 65536) (fits : packet.length ≤ Crates.plaintextLimit) :
    (∃ ip node' effects, node.firstReachable now route.toList = some ip ∧
      node.sendAlong route packet now = .ok (node', effects, true) ∧
      Sends now packet node [ip] node' effects) ∨
    (node.firstReachable now route.toList = none ∧
      ∃ node', node.sendAlong route packet now = .ok (node', [], false) ∧ SameTable node node' ∧
        (node.BlockedGateway now → node'.BlockedGateway now)) := by
  cases route with
  | none => exact Or.inr ⟨rfl, node, rfl, .refl node, id⟩
  | some ip =>
      cases reached : node.reaches now ip with
      | true =>
          obtain ⟨node', effects, run, sends⟩ := sendToPeer_reachable reached read fits
          exact Or.inl ⟨ip, node', effects, by simp [firstReachable, reached], run, sends⟩
      | false =>
          obtain ⟨node', run, looksUp⟩ := sendToPeer_unreachable reached packet
          exact Or.inr ⟨by simp [firstReachable, reached], node', run, looksUp.sameTable,
            looksUp.blockedGateway reached⟩

/-- The candidates are tried one after the other. -/
theorem firstReachable_append (candidates others : List Ipv4Addr) :
    node.firstReachable now (candidates ++ others) =
      (node.firstReachable now candidates).or (node.firstReachable now others) :=
  List.find?_append

/-- Tables with the same records reach the same peers. -/
theorem SameTable.firstReachable (same : SameTable node node') (candidates : List Ipv4Addr) :
    node'.firstReachable now candidates = node.firstReachable now candidates := by
  simp only [Node.firstReachable, same.reaches]

/-- They have the same routes. -/
theorem SameTable.routes (same : SameTable node node') :
    node'.peerManager.findRoute = node.peerManager.findRoute ∧
      node'.peerManager.findSubnetMatch = node.peerManager.findSubnetMatch ∧
      node'.wolfnetIp = node.wolfnetIp := by
  obtain ⟨table, rfl, _⟩ := same
  exact ⟨rfl, rfl, rfl⟩

/-- They have the same relays. -/
theorem SameTable.findRelayFor (same : SameTable node node') :
    node'.peerManager.findRelayFor destIp now = node.peerManager.findRelayFor destIp now := by
  rw [PeerManager.findRelayFor, PeerManager.findRelayFor, same.get]

/-- They have the same gateways. -/
theorem SameTable.isGateway_iff (same : SameTable node node') :
    node'.IsGateway ip ↔ node.IsGateway ip := by
  rw [IsGateway, IsGateway, same.get]

/-- A packet from the TUN device that is no broadcast goes to one peer. -/
theorem outbound_unicast (dest : getDestIp packet = .ok (some destIp))
    (notSubnet : destIp ≠ node.subnetBroadcast) (notEveryone : destIp ≠ Ipv4Addr.broadcast) :
    node.outbound packet now = node.outboundUnicast destIp packet now := by
  simp [outbound, dest, notSubnet, notEveryone]

/-- The outbound path tries the destination, the container route and the CIDR route, and
turns to the last resort when none of them can be sent to. -/
theorem outboundUnicast_cases (node : Node) (now : Instant) (destIp : Ipv4Addr)
    (read : packet.length ≤ 65536) (fits : packet.length ≤ Crates.plaintextLimit) :
    (∃ ip node' effects, node.firstReachable now (node.routedChain destIp) = some ip ∧
      node.outboundUnicast destIp packet now = .ok (node', effects) ∧
      Sends now packet node [ip] node' effects) ∨
    (node.firstReachable now (node.routedChain destIp) = none ∧
      ∃ node', node.outboundUnicast destIp packet now = node'.outboundFallback destIp packet now ∧
        SameTable node node' ∧ (node.BlockedGateway now → node'.BlockedGateway now)) := by
  simp only [routedChain, firstReachable_append]
  rcases node.sendAlong_cases now (some destIp) read fits with
    ⟨ip, node', effects, found, run, sends⟩ | ⟨noPeer, direct, run, sameDirect, keepsDirect⟩
  · refine Or.inl ⟨ip, node', effects, ?_, ?_, sends⟩
    · rw [Option.toList_some] at found
      rw [found, Option.some_or, Option.some_or]
    · have sent : node.sendToPeer destIp packet now = .ok (node', effects, true) := run
      simp [outboundUnicast, sent]
  have missed : node.sendToPeer destIp packet now = .ok (direct, [], false) := run
  rw [Option.toList_some] at noPeer
  rw [noPeer, Option.none_or]
  rcases direct.sendAlong_cases now (direct.peerManager.findRoute destIp) read fits with
    ⟨ip, node', effects, found, run, sends⟩ | ⟨noRoute, routed, run, sameRouted, keepsRouted⟩
  · refine Or.inl ⟨ip, node', effects, ?_, ?_, sends.of_sameTable sameDirect⟩
    · rw [sameDirect.firstReachable, sameDirect.routes.1] at found
      rw [found, Option.some_or]
    · simp [outboundUnicast, missed, run]
  have same := sameDirect.trans sameRouted
  rw [sameDirect.firstReachable, sameDirect.routes.1] at noRoute
  rw [noRoute, Option.none_or]
  rcases routed.sendAlong_cases now (routed.peerManager.findSubnetMatch destIp) read fits with
    ⟨ip, node', effects, found, last, sends⟩ | ⟨noCidr, node', last, sameCidr, keepsCidr⟩
  · refine Or.inl ⟨ip, node', effects, ?_, ?_, sends.of_sameTable same⟩
    · rw [← found, same.firstReachable, same.routes.2.1]
    · simp [outboundUnicast, missed, run, last]
  · refine Or.inr ⟨?_, node', ?_, same.trans sameCidr, keepsCidr ∘ keepsRouted ∘ keepsDirect⟩
    · rw [← noCidr, same.firstReachable, same.routes.2.1]
    · simp [outboundUnicast, missed, run, last]

/-- The last resort is the relay of the destination, and a gateway when it has none. -/
theorem outboundFallback_sends (node : Node) (now : Instant) (destIp : Ipv4Addr)
    (read : packet.length ≤ 65536) (fits : packet.length ≤ Crates.plaintextLimit) :
    ∃ node' effects, node.outboundFallback destIp packet now = .ok (node', effects) ∧
      Sends now packet node (node.firstReachable now ((node.peerManager.findRelayFor destIp now).or
        (node.peerManager.findGateway now)).toList).toList node' effects := by
  have same : node.outboundFallback destIp packet now =
      node.sendAlong ((node.peerManager.findRelayFor destIp now).or
        (node.peerManager.findGateway now)) packet now >>= fun sent => .ok (sent.1, sent.2.1) := by
    rw [outboundFallback]
    split
    · next relayIp relayed =>
        rw [relayed]
        rfl
    · next direct =>
        rw [direct]
        rfl
  rw [same]
  rcases node.sendAlong_cases now ((node.peerManager.findRelayFor destIp now).or
    (node.peerManager.findGateway now)) read fits with
    ⟨ip, node', effects, found, run, sends⟩ | ⟨missed, node', run, sameTable, _⟩
  · exact ⟨node', effects, by rw [run]; rfl, by rwa [found]⟩
  · exact ⟨node', [], by rw [run]; rfl, by rw [missed]; exact .nothing sameTable⟩

/-- A packet that was sent to a peer left an effect. -/
theorem Sends.effects_ne_nil {ips : List Ipv4Addr}
    (sends : Sends now packet node (ip :: ips) node' effects) : effects ≠ [] := by
  cases sends with
  | packet _ _ _ _ _ => exact List.cons_ne_nil _ _

/-- A packet for nobody has no effects. -/
theorem Sends.effects_eq_nil (sends : Sends now packet node [] node' effects) : effects = [] := by
  cases sends with
  | nothing _ => rfl

/-- The gateway that is found is connected and flagged as one. -/
theorem findGateway_some (found : node.peerManager.findGateway now = some ip) :
    ∃ peer, node.peerManager.peersByIp.get ip = some peer ∧ peer.isGateway = true ∧
      peer.isConnected now = true := by
  obtain ⟨⟨other, peer⟩, met, rfl⟩ := Option.map_eq_some_iff.mp found
  obtain ⟨held, passes⟩ := HashMap.find_iter_some met
  rw [Bool.and_eq_true] at passes
  exact ⟨peer, held, passes⟩

/-- Where a gateway is reached, one is found. -/
theorem findGateway_ne_none (gateway : node.IsGateway ip) (reached : node.reaches now ip = true) :
    node.peerManager.findGateway now ≠ none := by
  obtain ⟨peer, held, flagged⟩ := gateway
  obtain ⟨twin, _, heldTwin, connected, _⟩ := reaches_iff.mp reached
  rw [held] at heldTwin
  cases heldTwin
  rw [PeerManager.findGateway, ne_eq, Option.map_eq_none_iff, HashMap.find_iter_none]
  intro none
  simpa [flagged, connected] using none ip peer held

/-- With no candidate before them, the candidates are the gateways. -/
theorem outboundCandidate_gateway
    (missed : node.firstReachable now (node.outboundChain now destIp) = none) :
    node.OutboundCandidate now destIp ip ↔ node.IsGateway ip ∧ node.reaches now ip = true := by
  rw [OutboundCandidate, missed]

/-- Where a candidate of the chain is reached, it alone is the candidate. -/
theorem outboundCandidate_first {first : Ipv4Addr}
    (found : node.firstReachable now (node.outboundChain now destIp) = some first) :
    node.OutboundCandidate now destIp ip ↔ ip = first := by
  rw [OutboundCandidate, found]

/-- A chain that falls through is complete. -/
theorem OutboundFallsThrough.complete (fallsThrough : node.OutboundFallsThrough now destIp)
    (dest : getDestIp packet = .ok (some destIp)) (notSubnet : destIp ≠ node.subnetBroadcast)
    (notEveryone : destIp ≠ Ipv4Addr.broadcast) (read : packet.length ≤ 65536)
    (fits : packet.length ≤ Crates.plaintextLimit) : node.OutboundComplete now destIp packet := by
  have unicast : node.outbound packet now = node.outboundUnicast destIp packet now :=
    outbound_unicast dest notSubnet notEveryone
  rintro ⟨candidate, isCandidate⟩
  rw [unicast]
  rcases node.outboundUnicast_cases now destIp read fits with
    ⟨ip, node', effects, found, run, sends⟩ | ⟨missed, mid, run, same, _⟩
  · refine ⟨ip, node', effects, (outboundCandidate_first ?_).mpr rfl, run, sends⟩
    rw [outboundChain, firstReachable_append, found, Option.some_or]
  obtain ⟨node', effects, last, sends⟩ := mid.outboundFallback_sends now destIp read fits
  rw [same.findRelayFor, same.firstReachable] at sends
  rw [run]
  cases relayed : node.peerManager.findRelayFor destIp now with
  | some relay =>
      have chain : node.firstReachable now (node.outboundChain now destIp) =
          node.firstReachable now [relay] := by
        rw [outboundChain, firstReachable_append, missed, Option.none_or, relayed,
          Option.toList_some]
      have reached : node.reaches now relay = true := by
        by_contra unreached
        have none : node.firstReachable now [relay] = none := by simp [firstReachable, unreached]
        have gateway := (outboundCandidate_gateway (chain.trans none)).mp isCandidate
        have falls := fallsThrough missed ⟨candidate, gateway⟩
        rw [relayed] at falls
        exact unreached falls
      have first : node.firstReachable now [relay] = some relay := by simp [firstReachable, reached]
      refine ⟨relay, node', effects, ?_, last, ?_⟩
      · exact (outboundCandidate_first (chain.trans first)).mpr rfl
      · rw [relayed, Option.some_or, Option.toList_some, first, Option.toList_some] at sends
        exact sends.of_sameTable same
  | none =>
      have chain : node.firstReachable now (node.outboundChain now destIp) = none := by
        rw [outboundChain, firstReachable_append, missed, Option.none_or, relayed]
        rfl
      have gateway := (outboundCandidate_gateway chain).mp isCandidate
      have falls := fallsThrough missed ⟨candidate, gateway⟩
      rw [relayed] at falls
      obtain ⟨first, found⟩ := Option.ne_none_iff_exists'.mp
        (findGateway_ne_none (same.isGateway_iff.mpr gateway.1) (same.reaches.trans gateway.2))
      obtain ⟨peer, held, flagged, connected⟩ := findGateway_some found
      rw [same.get] at held
      have reached := falls first peer held flagged connected
      refine ⟨first, node', effects, ?_, last, ?_⟩
      · exact (outboundCandidate_gateway chain).mpr ⟨⟨peer, held, flagged⟩, reached⟩
      · have sendable : node.firstReachable now [first] = some first := by
          simp [firstReachable, reached]
        rw [relayed, found, Option.none_or, Option.toList_some, sendable,
          Option.toList_some] at sends
        exact sends.of_sameTable same

/-- A last resort that cannot be sent to swallows the packet. -/
theorem not_complete_of_blocked (dest : getDestIp packet = .ok (some destIp))
    (notSubnet : destIp ≠ node.subnetBroadcast) (notEveryone : destIp ≠ Ipv4Addr.broadcast)
    (read : packet.length ≤ 65536) (fits : packet.length ≤ Crates.plaintextLimit)
    (missed : node.firstReachable now (node.routedChain destIp) = none)
    (candidate : ∃ ip, node.OutboundCandidate now destIp ip)
    (blocked : (∃ relay, node.peerManager.findRelayFor destIp now = some relay ∧
        node.reaches now relay = false) ∨
      (node.peerManager.findRelayFor destIp now = none ∧ node.BlockedGateway now)) :
    ¬node.OutboundComplete now destIp packet := by
  have unicast : node.outbound packet now = node.outboundUnicast destIp packet now :=
    outbound_unicast dest notSubnet notEveryone
  intro complete
  obtain ⟨ip, node', effects, _, run, sends⟩ := complete candidate
  rcases node.outboundUnicast_cases now destIp read fits with
    ⟨_, _, _, found, _, _⟩ | ⟨_, mid, unsent, same, keepsBlocked⟩
  · rw [missed] at found
    cases found
  obtain ⟨last, others, resort, nothing⟩ := mid.outboundFallback_sends now destIp read fits
  have idle : mid.firstReachable now ((mid.peerManager.findRelayFor destIp now).or
      (mid.peerManager.findGateway now)).toList = none := by
    rw [same.findRelayFor]
    rcases blocked with ⟨relay, relayed, unreached⟩ | ⟨direct, gateway⟩
    · rw [relayed, Option.some_or, same.firstReachable]
      simp [firstReachable, unreached]
    · obtain ⟨first, found, unreached⟩ := keepsBlocked gateway
      rw [direct, Option.none_or, found]
      simp [firstReachable, unreached]
  rw [idle, Option.toList_none] at nothing
  rw [unicast, unsent, resort] at run
  cases run
  exact sends.effects_ne_nil nothing.effects_eq_nil

/-- The outbound chain is complete under every order of the table exactly when it falls
through. -/
theorem outbound_complete_iff (dest : getDestIp packet = .ok (some destIp))
    (notSubnet : destIp ≠ node.subnetBroadcast) (notEveryone : destIp ≠ Ipv4Addr.broadcast)
    (read : packet.length ≤ 65536) (fits : packet.length ≤ Crates.plaintextLimit) :
    (∀ node', SameTable node node' → node'.OutboundComplete now destIp packet) ↔
      node.OutboundFallsThrough now destIp := by
  constructor
  · rintro complete missed ⟨gateway, isGateway⟩
    cases relayed : node.peerManager.findRelayFor destIp now with
    | some relay =>
        by_contra unreached
        rw [Bool.not_eq_true] at unreached
        have chain : node.firstReachable now (node.outboundChain now destIp) = none := by
          rw [outboundChain, firstReachable_append, missed, relayed]
          simp [firstReachable, unreached]
        exact not_complete_of_blocked dest notSubnet notEveryone read fits missed
          ⟨gateway, (outboundCandidate_gateway chain).mpr isGateway⟩
          (Or.inl ⟨relay, relayed, unreached⟩) (complete node (.refl node))
    | none =>
        intro ip peer held flagged connected
        by_contra unreached
        rw [Bool.not_eq_true] at unreached
        -- In the order that meets this gateway first, the packet is lost.
        let front := node.withTable (node.peerManager.peersByIp.insert ip peer)
        have same : SameTable node front := LooksUp.sameTable (Or.inr ⟨peer, held, rfl⟩)
        have blocked : front.BlockedGateway now := by
          refine ⟨ip, ?_, same.reaches.trans unreached⟩
          rw [PeerManager.findGateway, withTable_peersByIp, HashMap.find_iter_reinserted held,
            if_pos (by simp [flagged, connected]), Option.map_some]
        have notSubnetThere : destIp ≠ front.subnetBroadcast := notSubnet
        have missedThere : front.firstReachable now (front.routedChain destIp) = none :=
          (same.firstReachable _).trans missed
        have relayedThere := same.findRelayFor.trans relayed
        have chain : front.firstReachable now (front.outboundChain now destIp) = none := by
          rw [outboundChain, firstReachable_append, missedThere, Option.none_or, relayedThere]
          rfl
        have candidate := (outboundCandidate_gateway chain).mpr
          ⟨same.isGateway_iff.mpr isGateway.1, same.reaches.trans isGateway.2⟩
        exact not_complete_of_blocked dest notSubnetThere notEveryone read fits missedThere
          ⟨gateway, candidate⟩ (Or.inr ⟨relayedThere, blocked⟩) (complete front same)
  · intro fallsThrough node' same
    refine OutboundFallsThrough.complete ?_ dest ?_ ?_ read fits
    · rintro missed ⟨gateway, isGateway, reached⟩
      rw [same.firstReachable, routedChain, same.routes.1, same.routes.2.1] at missed
      have falls := fallsThrough missed
        ⟨gateway, same.isGateway_iff.mp isGateway, same.reaches.symm.trans reached⟩
      rw [same.findRelayFor]
      simpa only [same.reaches, same.get] using falls
    · obtain ⟨table, rfl, _⟩ := same
      exact notSubnet
    · exact notEveryone

/-- A decrypted IPv4 packet is routed. -/
theorem deliver_unicast (sender : Ipv4Addr) (dest : getDestIp packet = .ok (some destIp)) :
    node.deliver now sender packet = node.routeInbound now destIp packet := by
  have notControl : ∀ type : UInt8, type >>> 4 ≠ 4 → packet.head? ≠ some type := by
    intro type other head
    rw [getDestIp_eq_none head other] at dest
    cases dest
  rw [deliver, if_neg (fun pex => notControl pktPeerExchange (by decide) pex.2),
    if_neg (fun handshake => notControl pktHandshake (by decide) handshake.2), dest]
  rfl

/-- A packet goes to a route's end that takes it, and is dropped at any other. -/
theorem sendOrWrite_goesTo (same : SameTable node mid) (now : Instant) (ip : Ipv4Addr)
    (read : packet.length ≤ 65536) (fits : packet.length ≤ Crates.plaintextLimit) :
    ∃ node' effects, (if ip = mid.wolfnetIp then return (mid, [.writeTun packet])
        else do
          let (node, effects, _) ← mid.sendToPeer ip packet now
          return (node, effects) : Rust (Node × List Effect)) = .ok (node', effects) ∧
      if node.takes now ip then node.GoesTo now packet ip node' effects else effects = [] := by
  rw [same.routes.2.2]
  by_cases own : ip = node.wolfnetIp
  · refine ⟨mid, [.writeTun packet], by rw [if_pos own]; rfl, ?_⟩
    rw [if_pos (by simp [takes, own]), GoesTo, if_pos own]
    exact ⟨same, rfl⟩
  · rw [if_neg own]
    cases reached : node.reaches now ip with
    | true =>
        obtain ⟨node', effects, run, sends⟩ :=
          sendToPeer_reachable (same.reaches.trans reached) read fits
        refine ⟨node', effects, by rw [run]; rfl, ?_⟩
        rw [if_pos (by simp [takes, reached]), GoesTo, if_neg own]
        exact sends.of_sameTable same
    | false =>
        obtain ⟨node', run, _⟩ := sendToPeer_unreachable (same.reaches.trans reached) packet
        refine ⟨node', [], by rw [run]; rfl, ?_⟩
        rw [if_neg (by simp [takes, reached, own])]

/-- A packet that goes somewhere has effects. -/
theorem GoesTo.effects_ne_nil (goesTo : node.GoesTo now packet ip node' effects) :
    effects ≠ [] := by
  rw [GoesTo] at goesTo
  split at goesTo
  · simp [goesTo.2]
  · exact goesTo.effects_ne_nil

/-- A packet goes to a destination that takes it itself. -/
theorem routeInbound_taken (notSubnet : destIp ≠ node.subnetBroadcast)
    (notEveryone : destIp ≠ Ipv4Addr.broadcast) (read : packet.length ≤ 65536)
    (fits : packet.length ≤ Crates.plaintextLimit) (taken : node.takes now destIp = true) :
    ∃ node' effects, node.routeInbound now destIp packet = .ok (node', effects) ∧
      node.GoesTo now packet destIp node' effects := by
  by_cases own : destIp = node.wolfnetIp
  · refine ⟨node, [.writeTun packet], by simp [routeInbound, own], ?_⟩
    rw [GoesTo, if_pos own]
    exact ⟨.refl node, rfl⟩
  · have reached : node.reaches now destIp = true := by simpa [takes, own] using taken
    obtain ⟨node', effects, run, sends⟩ := sendToPeer_reachable reached read fits
    refine ⟨node', effects, ?_, by rwa [GoesTo, if_neg own]⟩
    simp [routeInbound, own, notSubnet, notEveryone, run]

/-- Where the destination does not take a packet, the end of its container route gets it,
and else that of its CIDR route. -/
theorem routeInbound_routed (notSubnet : destIp ≠ node.subnetBroadcast)
    (notEveryone : destIp ≠ Ipv4Addr.broadcast) (read : packet.length ≤ 65536)
    (fits : packet.length ≤ Crates.plaintextLimit) (missed : node.takes now destIp = false)
    (routed : (node.peerManager.findRoute destIp).or (node.peerManager.findSubnetMatch destIp) = some ip) :
    ∃ node' effects, node.routeInbound now destIp packet = .ok (node', effects) ∧
      if node.takes now ip then node.GoesTo now packet ip node' effects else effects = [] := by
  have absent : destIp ≠ node.wolfnetIp ∧ node.reaches now destIp = false := by
    simpa [takes] using missed
  obtain ⟨mid, idle, looksUp⟩ := sendToPeer_unreachable absent.2 packet
  have same := looksUp.sameTable
  have onward : ¬(destIp = node.wolfnetIp ∨ destIp = node.subnetBroadcast ∨
      destIp = Ipv4Addr.broadcast) := by
    simp [absent.1, notSubnet, notEveryone]
  obtain ⟨node', effects, run, goes⟩ := sendOrWrite_goesTo same now ip read fits
  refine ⟨node', effects, ?_, goes⟩
  rw [routeInbound, if_neg onward, idle, Rust.ok_bind, ← run]
  cases route : node.peerManager.findRoute destIp with
  | some hostIp =>
      rw [route, Option.some_or, Option.some.injEq] at routed
      simp [same.routes.1, route, routed]
  | none =>
      rw [route, Option.none_or] at routed
      simp [same.routes.1, same.routes.2.1, route, routed]

/-- The inbound chain is complete exactly when it falls through. -/
theorem inbound_complete_iff (sender : Ipv4Addr) (dest : getDestIp packet = .ok (some destIp))
    (notSubnet : destIp ≠ node.subnetBroadcast) (notEveryone : destIp ≠ Ipv4Addr.broadcast)
    (read : packet.length ≤ 65536) (fits : packet.length ≤ Crates.plaintextLimit) :
    node.InboundComplete now sender destIp packet ↔ node.InboundFallsThrough now destIp := by
  rw [InboundComplete, deliver_unicast sender dest]
  cases taken : node.takes now destIp with
  | true =>
      have falls : node.InboundFallsThrough now destIp := by simp [InboundFallsThrough, taken]
      refine ⟨fun _ => falls, fun _ ip found => ?_⟩
      have first : destIp = ip := by simpa [routedChain, List.find?_cons, taken] using found
      subst first
      exact routeInbound_taken notSubnet notEveryone read fits taken
  | false =>
      have chain : (node.routedChain destIp).find? (fun other => node.takes now other) =
          ((node.peerManager.findRoute destIp).toList.find? fun other => node.takes now other).or
            ((node.peerManager.findSubnetMatch destIp).toList.find? fun other =>
              node.takes now other) := by
        simp [routedChain, taken]
      rw [chain, InboundFallsThrough]
      simp only [taken, forall_const]
      cases route : node.peerManager.findRoute destIp with
      | some hostIp =>
          obtain ⟨node', effects, routed, goes⟩ :=
            @routeInbound_routed _ node now packet hostIp destIp notSubnet notEveryone read fits taken
              (by rw [route, Option.some_or])
          cases takesIt : node.takes now hostIp with
          | true =>
              rw [takesIt, if_pos rfl] at goes
              simp [takesIt, routed, goes]
          | false =>
              rw [takesIt, if_neg Bool.false_ne_true] at goes
              subst goes
              constructor
              · rintro complete _ ⟨⟩ _ gwIp cidr
                by_contra gateway
                rw [Bool.not_eq_false] at gateway
                obtain ⟨_, _, other, goesTo⟩ := complete gwIp (by simp [takesIt, cidr, gateway])
                rw [routed] at other
                cases other
                exact goesTo.effects_ne_nil rfl
              · intro falls ip found
                have gateway : (node.peerManager.findSubnetMatch destIp).toList.find?
                    (fun other => node.takes now other) = some ip := by
                  simpa [takesIt] using found
                have member := List.mem_of_find?_eq_some gateway
                have passes := List.find?_some gateway
                rw [falls hostIp rfl takesIt ip (by simpa using member)] at passes
                cases passes
      | none =>
          refine ⟨fun _ _ absent => absurd absent (by simp), fun _ ip found => ?_⟩
          rw [Option.toList_none, List.find?_nil, Option.none_or] at found
          have passes := List.find?_some found
          have member := List.mem_of_find?_eq_some found
          obtain ⟨node', effects, routed, goes⟩ :=
            @routeInbound_routed _ node now packet ip destIp notSubnet notEveryone read fits taken
              (by rw [route, Option.none_or]; simpa using member)
          rw [if_pos passes] at goes
          exact ⟨node', effects, routed, goes⟩

/-- A unicast packet from the TUN device, and a decrypted one, go to the first candidate
of their chains under every order of the table exactly when no step swallows them. -/
theorem fallback_complete_iff (sender : Ipv4Addr) (dest : getDestIp packet = .ok (some destIp))
    (notSubnet : destIp ≠ node.subnetBroadcast) (notEveryone : destIp ≠ Ipv4Addr.broadcast)
    (read : packet.length ≤ 65536) (fits : packet.length ≤ Crates.plaintextLimit) :
    ((∀ node', SameTable node node' → node'.OutboundComplete now destIp packet) ↔
      node.OutboundFallsThrough now destIp) ∧
    (node.InboundComplete now sender destIp packet ↔ node.InboundFallsThrough now destIp) :=
  ⟨outbound_complete_iff dest notSubnet notEveryone read fits,
    inbound_complete_iff sender dest notSubnet notEveryone read fits⟩

end Chains

section Sample

attribute [local instance] Sample.crates

/-- The record that the sample node keeps of a peer with the given endpoint and relay, heard of
at time 0 if it is connected. -/
def chainPeer (byte : UInt8) (endpoint : Option SocketAddr) (connected isGateway : Bool)
    (relay : Option Ipv4Addr) : Peer :=
  { Sample.record 1 byte with
    endpoint := endpoint
    isGateway := isGateway
    relayVia := relay
    lastSeen := if connected then some 0 else none }

def chainEndpoint : SocketAddr := .v4 ⟨203, 0, 113, 7⟩ 9600

/-- A packet to 10.10.10.3. -/
def chainPacket : List UInt8 :=
  [0x45, 0, 0, 20, 0, 0, 0, 0, 64, 17, 0, 0, 10, 10, 10, 1, 10, 10, 10, 3]

/-- A node whose destination is behind a relay and whose gateway can be sent to. -/
def relayChain (relayConnected : Bool) : Node :=
  Sample.node 1 false (((PeerManager.new.addPeer
    (chainPeer 2 (some chainEndpoint) relayConnected false none)).addPeer
    (chainPeer 3 none false false (some ⟨10, 10, 10, 2⟩))).addPeer
    (chainPeer 4 (some chainEndpoint) true true none))

/-- A node whose destination has a container route to an offline host and a CIDR route to a
gateway that can be sent to. -/
def routedNode : Node :=
  let node := relayChain false
  node.withManager { node.peerManager with
    subnetRoutes := HashMap.empty.insert ⟨10, 10, 10, 3⟩ ⟨10, 10, 10, 2⟩
    subnetRoutesCidrs := [(⟨10, 10, 10, 0⟩, 24, ⟨10, 10, 10, 4⟩)] }

/-- With a connected relay, and no route for a decrypted packet, no step swallows a packet. -/
theorem fallback_complete_iff_sample :
    (∀ node', SameTable (relayChain true) node' →
      node'.OutboundComplete 0 ⟨10, 10, 10, 3⟩ chainPacket) ∧
    (relayChain true).InboundComplete 0 ⟨10, 10, 10, 2⟩ ⟨10, 10, 10, 3⟩ chainPacket := by
  have complete := @fallback_complete_iff _ (relayChain true) 0 chainPacket ⟨10, 10, 10, 3⟩
    ⟨10, 10, 10, 2⟩ rfl (by decide) (by decide) (by decide) (by decide)
  refine ⟨complete.1.mpr fun _ _ => rfl, complete.2.mpr fun _ hostIp route => ?_⟩
  cases route

/-- A relay that is offline swallows a packet that the gateway could take, and an offline host
of a container route swallows one that the CIDR gateway could take. -/
theorem packet_swallowed :
    ¬(relayChain false).OutboundComplete 0 ⟨10, 10, 10, 3⟩ chainPacket ∧
      ¬routedNode.InboundComplete 0 ⟨10, 10, 10, 2⟩ ⟨10, 10, 10, 3⟩ chainPacket := by
  constructor
  · refine not_complete_of_blocked rfl (by decide) (by decide) (by decide) (by decide) rfl
      ⟨⟨10, 10, 10, 4⟩, ?_⟩ (Or.inl ⟨⟨10, 10, 10, 2⟩, rfl, rfl⟩)
    exact (outboundCandidate_gateway rfl).mpr ⟨⟨_, rfl, rfl⟩, rfl⟩
  · intro complete
    obtain ⟨node', effects, run, goes⟩ := complete ⟨10, 10, 10, 4⟩ rfl
    have dropped : ∃ node', routedNode.deliver 0 ⟨10, 10, 10, 2⟩ chainPacket = .ok (node', []) :=
      ⟨_, rfl⟩
    obtain ⟨last, dropped⟩ := dropped
    rw [dropped] at run
    cases run
    exact goes.effects_ne_nil rfl

end Sample
end WolfNet.Node
