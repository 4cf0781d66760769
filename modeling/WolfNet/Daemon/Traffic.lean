import WolfNet.Daemon.Inbound
import WolfNet.Daemon.Outbound
import WolfNet.Daemon.Periodic
import WolfNet.Session.Link
import WolfNet.Table.Rest

/-!
# What sending does to a node

Sending advances the session of the peer that a packet is for and counts its bytes. It leaves all
else of the node: whose the records are, the indexes, the routes, and the node's own identity.
-/

namespace WolfNet

open WolfNet.Std

variable [Crates]

/-- The record after packets were sent under its session. -/
structure Peer.SentOn (old new : Peer) : Prop where
  fields : new = { old with cipher := new.cipher, txBytes := new.txBytes }
  established : new.cipher.isSome = old.cipher.isSome

/-- A record is one that sending leaves. -/
theorem Peer.SentOn.refl (peer : Peer) : peer.SentOn peer := ⟨rfl, rfl⟩

/-- Sending after sending. -/
theorem Peer.SentOn.trans {first second third : Peer} (before : first.SentOn second)
    (after : second.SentOn third) : first.SentOn third := by
  refine ⟨?_, after.established.trans before.established⟩
  rw [after.fields, before.fields]

/-- The peer's session was used by an encryption that may have failed. -/
theorem Peer.encrypt_sentOn (peer : Peer) (data : List UInt8) :
    peer.SentOn (peer.encrypt data).1 := by
  unfold Peer.encrypt
  split
  · exact .refl peer
  · next session established =>
      split <;> exact ⟨rfl, by simp [established]⟩

/-- Encryption in place touches the session and the counters only. -/
theorem Peer.encryptInto_sentOn {peer next : Peer} {buf buf' : List UInt8} {len : Nat}
    {result : Except String (UInt64 × Nat)}
    (run : peer.encryptInto buf len = .ok (next, buf', result)) :
    peer.SentOn next := by
  unfold Peer.encryptInto at run
  split at run
  · cases run
    exact .refl peer
  · next session established =>
      simp only [Rust.bind_eq_ok] at run
      obtain ⟨⟨session', _, result'⟩, _, rest⟩ := run
      cases result' <;> cases rest <;> exact ⟨rfl, by simp [established]⟩

/-- Sending to a peer touches its session and its counters only. -/
theorem encryptAndSend_sentOn {sendBuf plaintext : List UInt8} {peer next : Peer}
    {myPeerId : PeerId} {now : Instant} {effects : List Effect} {sent : Bool}
    (run : encryptAndSend sendBuf plaintext peer myPeerId now = .ok (next, effects, sent)) :
    peer.SentOn next := by
  unfold encryptAndSend at run
  split at run
  · cases run
    exact .refl peer
  · split at run
    · cases run
      exact .refl peer
    · simp only [Rust.bind_eq_ok] at run
      obtain ⟨_, _, _, _, ⟨peer', payload, result⟩, encrypted, rest⟩ := run
      have advanced := Peer.encryptInto_sentOn encrypted
      cases result with
      | ok packet =>
          simp only [Rust.bind_eq_ok, Rust.pure_eq, Except.ok.injEq, Prod.mk.injEq] at rest
          obtain ⟨_, _, rfl, _⟩ := rest
          exact advanced
      | error message =>
          cases rest
          exact advanced

namespace Node

/-- The node's own identity, its routes and the purged IPs are as they were. -/
structure KeepsRest (node node' : Node) : Prop where
  wolfnetIp : node'.wolfnetIp = node.wolfnetIp
  keypair : node'.keypair = node.keypair
  config : node'.config = node.config
  hostname : node'.hostname = node.hostname
  rest : node.peerManager.SameRest node'.peerManager

/-- The node sent packets to peers of its table. -/
structure Transmits (node node' : Node) : Prop extends KeepsRest node node' where
  ids : node'.peerManager.idToIp = node.peerManager.idToIp
  endpoints : node'.peerManager.endpointToIp = node.peerManager.endpointToIp
  kept : ∀ ip peer, node.peerManager.peersByIp.get ip = some peer →
    ∃ peer', node'.peerManager.peersByIp.get ip = some peer' ∧ peer.SentOn peer'
  only : ∀ ip, node.peerManager.peersByIp.get ip = none → node'.peerManager.peersByIp.get ip = none

variable {node mid node' : Node} {now : Instant} {ip : Ipv4Addr} {packet : List UInt8}
  {effects : List Effect} {sent : Bool}

/-- A node keeps its own rest. -/
theorem KeepsRest.refl (node : Node) : KeepsRest node node := ⟨rfl, rfl, rfl, rfl, .refl _⟩

/-- Nodes with the same rest, one after the other. -/
theorem KeepsRest.trans (first : KeepsRest node mid) (second : KeepsRest mid node') :
    KeepsRest node node' :=
  ⟨second.wolfnetIp.trans first.wolfnetIp, second.keypair.trans first.keypair,
    second.config.trans first.config, second.hostname.trans first.hostname,
      first.rest.trans second.rest⟩

/-- A manager with the same rest makes a node with the same rest. -/
theorem KeepsRest.manager {pm : PeerManager} (rest : node.peerManager.SameRest pm) :
    KeepsRest node (node.withManager pm) :=
  ⟨rfl, rfl, rfl, rfl, rest⟩

/-- A node that sends nothing transmits. -/
theorem Transmits.refl (node : Node) : Transmits node node :=
  ⟨.refl node, rfl, rfl, fun _ peer held => ⟨peer, held, .refl peer⟩, fun _ free => free⟩

/-- Transmitting after transmitting. -/
theorem Transmits.trans (first : Transmits node mid) (second : Transmits mid node') :
    Transmits node node' := by
  refine ⟨first.toKeepsRest.trans second.toKeepsRest, second.ids.trans first.ids,
    second.endpoints.trans first.endpoints, fun ip peer held => ?_, fun ip free => ?_⟩
  · obtain ⟨peer', heldMid, before⟩ := first.kept ip peer held
    obtain ⟨peer'', heldAfter, after⟩ := second.kept ip peer' heldMid
    exact ⟨peer'', heldAfter, before.trans after⟩
  · exact second.only ip (first.only ip free)

/-- A record changed by sending is put back. -/
theorem Transmits.put {peer peer' : Peer} (held : node.peerManager.peersByIp.get ip = some peer)
    (sentOn : peer.SentOn peer') :
    Transmits node (node.withManager { node.peerManager with
      peersByIp := node.peerManager.peersByIp.insert ip peer' }) := by
  refine ⟨.manager ((PeerManager.SameRest.refl _).edit _ _ _), rfl, rfl, fun other twin there => ?_,
    fun other free => ?_⟩
  · rw [withManager_peerManager, HashMap.get_insert]
    split
    · next here =>
        subst here
        cases held.symm.trans there
        exact ⟨peer', rfl, sentOn⟩
    · exact ⟨twin, there, .refl twin⟩
  · rw [withManager_peerManager, HashMap.get_insert, if_neg ?_]
    · exact free
    · rintro rfl
      cases held.symm.trans free

/-- Sending to one peer transmits. -/
theorem sendToPeer_transmits (run : node.sendToPeer ip packet now = .ok (node', effects, sent)) :
    Transmits node node' := by
  unfold sendToPeer at run
  split at run
  · cases run
    exact .refl _
  · next peer held =>
      simp only [Rust.bind_eq_ok, Rust.pure_eq, Except.ok.injEq, Prod.mk.injEq] at run
      obtain ⟨⟨peer', emitted, flag⟩, encrypted, rfl, rfl, rfl⟩ := run
      exact .put held (encryptAndSend_sentOn encrypted)

/-- Sending along a route transmits. -/
theorem sendAlong_transmits {route : Option Ipv4Addr}
    (run : node.sendAlong route packet now = .ok (node', effects, sent)) :
    Transmits node node' := by
  cases route with
  | none =>
      cases run
      exact .refl _
  | some ip => exact sendToPeer_transmits run

/-- Sending to the targets of a broadcast transmits. -/
theorem sendBroadcast_transmits {relayed : List Ipv4Addr}
    {targets : List (Ipv4Addr × Option Ipv4Addr)}
    (run : node.sendBroadcast packet now relayed targets = .ok (node', effects)) :
    Transmits node node' := by
  induction targets generalizing node relayed effects with
  | nil =>
      cases run
      exact .refl _
  | cons target targets ih =>
      obtain ⟨ip, relay⟩ := target
      cases relay with
      | none =>
          simp only [sendBroadcast, Rust.bind_eq_ok, Rust.pure_eq, Except.ok.injEq,
            Prod.mk.injEq] at run
          obtain ⟨⟨mid, _, _⟩, first, ⟨last, _⟩, others, rfl, _⟩ := run
          exact (sendToPeer_transmits first).trans (ih others)
      | some relay =>
          unfold sendBroadcast at run
          split at run
          · exact ih run
          · simp only [Rust.bind_eq_ok, Rust.pure_eq, Except.ok.injEq, Prod.mk.injEq] at run
            obtain ⟨⟨mid, _, _⟩, first, ⟨last, _⟩, others, rfl, _⟩ := run
            exact (sendToPeer_transmits first).trans (ih others)

/-- Falling back to a relay or a gateway transmits. -/
theorem outboundFallback_transmits {destIp : Ipv4Addr}
    (run : node.outboundFallback destIp packet now = .ok (node', effects)) :
    Transmits node node' := by
  unfold outboundFallback at run
  split at run <;> simp only [Rust.bind_eq_ok, Rust.pure_eq, Except.ok.injEq,
    Prod.mk.injEq] at run <;>
    obtain ⟨⟨mid, _, _⟩, first, rfl, _⟩ := run
  · exact sendToPeer_transmits first
  · exact sendAlong_transmits first

/-- The dispatch of a unicast packet from the TUN device transmits. -/
theorem outboundUnicast_transmits {destIp : Ipv4Addr}
    (run : node.outboundUnicast destIp packet now = .ok (node', effects)) :
    Transmits node node' := by
  simp only [outboundUnicast, Rust.bind_eq_ok] at run
  obtain ⟨⟨direct, _, sent⟩, first, run⟩ := run
  refine (sendToPeer_transmits first).trans ?_
  cases sent with
  | true =>
      cases run
      exact .refl _
  | false =>
      simp only [Bool.false_eq_true, if_false, Rust.bind_eq_ok] at run
      obtain ⟨⟨routing, _, routed⟩, second, run⟩ := run
      refine (sendAlong_transmits second).trans ?_
      cases routed with
      | true =>
          cases run
          exact .refl _
      | false =>
          simp only [Bool.false_eq_true, if_false, Rust.bind_eq_ok] at run
          obtain ⟨⟨last, _, routed⟩, third, run⟩ := run
          refine (sendAlong_transmits third).trans ?_
          cases routed with
          | true =>
              cases run
              exact .refl _
          | false =>
              simp only [Bool.false_eq_true, if_false] at run
              exact outboundFallback_transmits run

/-- A packet from the TUN device is sent or dropped. -/
theorem outbound_transmits (run : node.outbound packet now = .ok (node', effects)) :
    Transmits node node' := by
  simp only [outbound, Rust.bind_eq_ok] at run
  obtain ⟨dest, _, run⟩ := run
  cases dest with
  | some destIp =>
      dsimp only at run
      split at run
      · exact sendBroadcast_transmits run
      · exact outboundUnicast_transmits run
  | none =>
      simp only [Rust.bind_eq_ok] at run
      obtain ⟨dest6, _, run⟩ := run
      cases dest6 with
      | some dest6 =>
          simp only [Rust.bind_eq_ok, Rust.pure_eq, Except.ok.injEq, Prod.mk.injEq] at run
          obtain ⟨⟨last, _, _⟩, along, rfl, _⟩ := run
          exact sendAlong_transmits along
      | none =>
          cases run
          exact .refl _

/-- A route that may lead here writes the packet or sends it on. -/
theorem sendOrWrite_transmits
    (run : (if ip = node.wolfnetIp then return (node, [.writeTun packet])
      else do
        let (node, effects, _) ← node.sendToPeer ip packet now
        return (node, effects) : Rust (Node × List Effect)) = .ok (node', effects)) :
    Transmits node node' := by
  split at run
  · cases run
    exact .refl _
  · simp only [Rust.bind_eq_ok, Rust.pure_eq, Except.ok.injEq, Prod.mk.injEq] at run
    obtain ⟨⟨next, _, _⟩, sent, rfl, _⟩ := run
    exact sendToPeer_transmits sent

/-- The routing of a decrypted IPv4 packet transmits. -/
theorem routeInbound_transmits {destIp : Ipv4Addr}
    (run : node.routeInbound now destIp packet = .ok (node', effects)) : Transmits node node' := by
  unfold routeInbound at run
  split at run
  · cases run
    exact .refl _
  · simp only [Rust.bind_eq_ok] at run
    obtain ⟨⟨direct, _, forwarded⟩, first, run⟩ := run
    refine (sendToPeer_transmits first).trans ?_
    cases forwarded with
    | true =>
        cases run
        exact .refl _
    | false =>
        simp only [Bool.false_eq_true, if_false] at run
        split at run
        · exact sendOrWrite_transmits run
        · split at run
          · exact sendOrWrite_transmits run
          · cases run
            exact .refl _

/-- The routing of a decrypted IPv6 packet transmits. -/
theorem routeInboundV6_transmits {dest6 : Ipv6Addr}
    (run : node.routeInboundV6 now dest6 packet = .ok (node', effects)) : Transmits node node' := by
  unfold routeInboundV6 at run
  split at run
  · exact sendOrWrite_transmits run
  · cases run
    exact .refl _

/-- Telling one peer of the others transmits. -/
theorem exchangeWith_transmits (node : Node) (packet : List UInt8) (now : Instant) (ip : Ipv4Addr) :
    Transmits node (node.exchangeWith packet now ip).1 := by
  unfold exchangeWith
  split
  · exact .refl node
  · next peer held =>
      split
      · have put := Transmits.put held (peer.encrypt_sentOn packet)
        dsimp only
        split <;> exact put
      · exact .refl node

/-- Telling several peers transmits. -/
theorem exchangeWithAll_transmits (node : Node) (packet : List UInt8) (now : Instant)
    (ips : List Ipv4Addr) : Transmits node (node.exchangeWithAll packet now ips).1 := by
  induction ips generalizing node with
  | nil => exact .refl node
  | cons ip ips ih => exact (node.exchangeWith_transmits packet now ip).trans (ih _)

/-- A peer exchange is sent under the sessions of the connected peers. -/
theorem sendPeerExchange_transmits (node : Node) (now : Instant) :
    Transmits node (node.sendPeerExchange now).1 := by
  unfold sendPeerExchange
  dsimp only
  split
  · exact .refl node
  · exact node.exchangeWithAll_transmits _ now _

end Node
end WolfNet
