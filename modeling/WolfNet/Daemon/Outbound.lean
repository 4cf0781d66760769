import WolfNet.Daemon.Node

/-!
# Outbound: TUN to UDP

A packet read from the TUN device goes to every connected peer if it is a
broadcast, and else to the first of: the destination peer, its container route,
its CIDR route, its relay, a gateway.
-/

namespace WolfNet.Node

open WolfNet.Std

variable [Crates]

/-- The peers a broadcast is for, each with the relay to use if it is not connected. -/
def broadcastTargets (node : Node) (now : Instant) : List (Ipv4Addr × Option Ipv4Addr) :=
  node.peerManager.peersByIp.iter.filterMap fun (ip, peer) =>
    if ip = node.wolfnetIp then none
    else if peer.isConnected now then some (ip, none)
    else peer.relayVia.map fun relay => (ip, some relay)

/-- Send a broadcast to the remaining targets; `relayed` holds the relays already used. -/
def sendBroadcast (node : Node) (pkt : List UInt8) (now : Instant) (relayed : List Ipv4Addr) :
    List (Ipv4Addr × Option Ipv4Addr) → Rust (Node × List Effect)
  | [] => return (node, [])
  | (ip, none) :: targets => do
    let (node, effects, _) ← node.sendToPeer ip pkt now
    let (node, others) ← node.sendBroadcast pkt now relayed targets
    return (node, effects ++ others)
  | (_, some relay) :: targets => do
    if relay ∈ relayed then node.sendBroadcast pkt now relayed targets
    else
      let (node, effects, _) ← node.sendToPeer relay pkt now
      let (node, others) ← node.sendBroadcast pkt now (relay :: relayed) targets
      return (node, effects ++ others)

/-- The last resort for a unicast packet: the relay of its destination, else a gateway. -/
def outboundFallback (node : Node) (destIp : Ipv4Addr) (pkt : List UInt8) (now : Instant) :
    Rust (Node × List Effect) := do
  match node.peerManager.findRelayFor destIp now with
  | some relayIp =>
    let (node, effects, _) ← node.sendToPeer relayIp pkt now
    return (node, effects)
  | none =>
    let (node, effects, _) ← node.sendAlong (node.peerManager.findGateway now) pkt now
    return (node, effects)

/-- Unicast: try direct, container route, CIDR route, then the last resort. -/
def outboundUnicast (node : Node) (destIp : Ipv4Addr) (pkt : List UInt8) (now : Instant) :
    Rust (Node × List Effect) := do
  let (node, effects, sent) ← node.sendToPeer destIp pkt now
  if sent then return (node, effects)
  let (node, effects, routed) ← node.sendAlong (node.peerManager.findRoute destIp) pkt now
  if routed then return (node, effects)
  let (node, effects, routed) ← node.sendAlong (node.peerManager.findSubnetMatch destIp) pkt now
  if routed then return (node, effects)
  node.outboundFallback destIp pkt now

/-- Handle a packet read from the TUN device. -/
def outbound (node : Node) (pkt : List UInt8) (now : Instant) : Rust (Node × List Effect) := do
  match ← getDestIp pkt with
  | some destIp =>
    if destIp = node.subnetBroadcast ∨ destIp = Ipv4Addr.broadcast then
      node.sendBroadcast pkt now [] (node.broadcastTargets now)
    else node.outboundUnicast destIp pkt now
  | none =>
    match ← getDestIp6 pkt with
    | some dest6 =>
      let (node, effects, _) ←
        node.sendAlong (node.peerManager.findSubnetMatchV6 dest6) pkt now
      return (node, effects)
    | none => return (node, [])

end WolfNet.Node
