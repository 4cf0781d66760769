import WolfNet.Daemon.Outbound
import WolfNet.Daemon.Periodic
import WolfNet.Daemon.Sessions
import WolfNet.Daemon.Traffic

/-!
# A packet's way out of the daemon

Whatever route a packet takes, it leaves through `sendToPeer` or the TUN device. `RelayRule` and
`SendRule` are the induction over these routes: a relation that holds of each way out holds of them
all. `Carries` is what comes out: the packet itself, or the packet sealed for a connected peer.
-/

namespace WolfNet

open WolfNet.Std

variable [Crates]

section EncryptAndSend

variable {plaintext : List UInt8} {peer next : Peer} {peerId : PeerId} {now : Instant}
  {effects : List Effect} {sent : Bool}

omit [Crates] in
/-- What was copied into a buffer had room there. -/
theorem room_of_copyFromSlice {buf buf' source : List UInt8} {start : Nat}
    (run : copyFromSlice buf start source = .ok buf') : start + source.length ≤ buf.length := by
  unfold copyFromSlice at run
  split at run
  · assumption
  · cases run

/-- In-place encryption that does not panic had room for the tag. -/
theorem SessionCipher.room_of_encryptInto {session : SessionCipher} {room : List UInt8}
    {result : SessionCipher × List UInt8 × Except String (UInt64 × Nat)}
    (fits : plaintext.length ≤ Crates.plaintextLimit)
    (run : session.encryptInto (plaintext ++ room) plaintext.length = .ok result) :
    16 ≤ room.length := by
  simp only [SessionCipher.encryptInto, slice_front, Rust.ok_bind, Aead.encryptInPlaceDetached,
    if_pos fits, Rust.bind_eq_ok] at run
  obtain ⟨buf, written, _⟩ := run
  have enough := room_of_copyFromSlice written
  have tagLength := (Crates.encryptDetached session.cipher session.sendNonce plaintext).2.2
  rw [List.length_append, Crates.encryptLength, List.drop_left, tagLength] at enough
  omega

/-- The flag tells whether a datagram was sent: one that seals the plaintext in the session of the
connected peer, to its endpoint. -/
theorem encryptAndSend_cases
    (run : encryptAndSend sendBuf plaintext peer peerId now = .ok (next, effects, sent)) :
    (sent = false ∧ effects = []) ∨ ∃ session endpoint, sent = true ∧
      peer.cipher = some session ∧ peer.isConnected now = true ∧ peer.endpoint = some endpoint ∧
      next = peer.sent session plaintext.length ∧ effects = [.sendTo endpoint
        (buildDataPacket peerId session.sendCounter (session.sealed plaintext))] := by
  have whole := run
  unfold encryptAndSend at run
  split at run
  · cases run
    exact Or.inl ⟨rfl, rfl⟩
  next endpoint placed =>
  split at run
  · cases run
    exact Or.inl ⟨rfl, rfl⟩
  next offline =>
  have connected : peer.isConnected now = true := by simpa using offline
  obtain ⟨session, established⟩ := Peer.exists_session connected
  simp only [Rust.bind_eq_ok] at run
  obtain ⟨buf, copied, payload, sliced, encrypted, encrypting, _⟩ := run
  have room := room_of_copyFromSlice copied
  by_cases fits : plaintext.length ≤ Crates.plaintextLimit
  · have behind : payload = plaintext ++ sendBuf.drop (13 + plaintext.length) := by
      have expected := payload_copied room
      simp only [copied, Rust.ok_bind, sliced, Except.ok.injEq] at expected
      exact expected
    have enough : 16 ≤ (sendBuf.drop (13 + plaintext.length)).length := by
      simp only [behind, Peer.encryptInto, established, Rust.bind_eq_ok] at encrypting
      obtain ⟨result, inner, _⟩ := encrypting
      exact SessionCipher.room_of_encryptInto fits inner
    rw [List.length_drop] at enough
    cases (encryptAndSend_room peerId placed connected established (by omega) fits).symm.trans whole
    exact Or.inr ⟨session, endpoint, rfl, established, connected, placed, rfl, rfl⟩
  · cases (encryptAndSend_over peerId placed connected established room fits).symm.trans whole
    exact Or.inl ⟨rfl, rfl⟩

/-- Sending leaves a peer as connected as it was. -/
theorem Peer.SentOn.isConnected {old new : Peer} (sentOn : old.SentOn new) :
    new.isConnected now = old.isConnected now := by
  rw [Peer.isConnected, sentOn.established, sentOn.fields]
  rfl

end EncryptAndSend

namespace Node

variable {node mid node' : Node} {now : Instant} {ip : Ipv4Addr} {packet : List UInt8}
  {effects effects' : List Effect} {sent : Bool}

/-- A packet that was not sent has no effect. -/
theorem sendToPeer_unsent (run : node.sendToPeer ip packet now = .ok (node', effects, false)) :
    effects = [] := by
  rcases sendToPeer_cases run with ⟨_, none⟩ | ⟨peer, next, _, _, encrypted, _⟩
  · exact none
  · rcases encryptAndSend_cases encrypted with ⟨_, none⟩ | ⟨_, _, contradiction, _⟩
    · exact none
    · cases contradiction

/-- A relation that sending a packet to a peer is in, and that what follows an idle attempt keeps. -/
structure RelayRule (Related : Node → List Effect → Node → Prop) (packet : List UInt8)
    (now : Instant) : Prop where
  nothing : ∀ node, Related node [] node
  after : ∀ {node mid node' effects}, Related node [] mid → Related mid effects node' →
    Related node effects node'
  send : ∀ {node node' ip effects sent},
    node.sendToPeer ip packet now = .ok (node', effects, sent) → Related node effects node'

namespace RelayRule

variable {Related : Node → List Effect → Node → Prop} (rule : RelayRule Related packet now)

include rule

/-- Sending along a route is related as sending to one peer is, if there is a route. -/
theorem sendAlong {route : Option Ipv4Addr}
    (run : node.sendAlong route packet now = .ok (node', effects, sent)) :
    Related node effects node' ∧ (sent = false → effects = []) := by
  cases route with
  | none =>
      cases run
      exact ⟨rule.nothing _, fun _ => rfl⟩
  | some ip =>
      refine ⟨rule.send run, ?_⟩
      rintro rfl
      exact sendToPeer_unsent run

/-- The fallback to relays and gateways is related. -/
theorem outboundFallback {destIp : Ipv4Addr}
    (run : node.outboundFallback destIp packet now = .ok (node', effects)) :
    Related node effects node' := by
  unfold Node.outboundFallback at run
  split at run <;> simp only [Rust.bind_eq_ok, Rust.pure_eq, Except.ok.injEq,
    Prod.mk.injEq] at run <;>
    obtain ⟨⟨mid, _, _⟩, first, rfl, rfl⟩ := run
  · exact rule.send first
  · exact (rule.sendAlong first).1

/-- An attempt along a route, and what follows it when it did not send. -/
theorem orElse {rest : Rust (Node × List Effect)}
    (attempt : Related node effects' mid ∧ (sent = false → effects' = []))
    (run : (if sent = true then pure (mid, effects') else rest) = .ok (node', effects))
    (further : rest = .ok (node', effects) → Related mid effects node') :
    Related node effects node' := by
  obtain ⟨attempted, unsent⟩ := attempt
  cases sent with
  | true =>
      cases run
      exact attempted
  | false =>
      obtain rfl := unsent rfl
      exact rule.after attempted (further run)

/-- The dispatch of a unicast packet from the TUN device is related. -/
theorem outboundUnicast {destIp : Ipv4Addr}
    (run : node.outboundUnicast destIp packet now = .ok (node', effects)) :
    Related node effects node' := by
  simp only [Node.outboundUnicast, Rust.bind_eq_ok] at run
  obtain ⟨⟨direct, _, sent⟩, first, run⟩ := run
  dsimp only at run
  refine rule.orElse ⟨rule.send first, ?_⟩ run fun run => ?_
  · rintro rfl
    exact sendToPeer_unsent first
  simp only [Rust.bind_eq_ok] at run
  obtain ⟨⟨hosted, _, routed⟩, second, run⟩ := run
  dsimp only at run
  refine rule.orElse (rule.sendAlong second) run fun run => ?_
  simp only [Rust.bind_eq_ok] at run
  obtain ⟨⟨covered, _, routed⟩, third, run⟩ := run
  dsimp only at run
  exact rule.orElse (rule.sendAlong third) run rule.outboundFallback

variable (write : ∀ node, Related node [.writeTun packet] node)

include write

/-- Sending to a peer or writing here is related. -/
theorem sendOrWrite
    (run : (if ip = node.wolfnetIp then return (node, [.writeTun packet])
      else do
        let (node, effects, _) ← node.sendToPeer ip packet now
        return (node, effects) : Rust (Node × List Effect)) = .ok (node', effects)) :
    Related node effects node' := by
  split at run
  · cases run
    exact write node
  · simp only [Rust.bind_eq_ok, Rust.pure_eq, Except.ok.injEq, Prod.mk.injEq] at run
    obtain ⟨⟨next, _, _⟩, sent, rfl, rfl⟩ := run
    exact rule.send sent

/-- The routing of a decrypted IPv4 packet is related. -/
theorem routeInbound {destIp : Ipv4Addr}
    (run : node.routeInbound now destIp packet = .ok (node', effects)) :
    Related node effects node' := by
  unfold Node.routeInbound at run
  split at run
  · cases run
    exact write node
  simp only [Rust.bind_eq_ok] at run
  obtain ⟨⟨direct, _, forwarded⟩, first, run⟩ := run
  dsimp only at run
  refine rule.orElse ⟨rule.send first, ?_⟩ run fun run => ?_
  · rintro rfl
    exact sendToPeer_unsent first
  split at run
  · exact rule.sendOrWrite write run
  · split at run
    · exact rule.sendOrWrite write run
    · cases run
      exact rule.nothing _

/-- A decrypted packet is written or sent along one of its routes, unless it is a peer exchange. -/
theorem deliver {sender : Ipv4Addr}
    (noExchange : ¬(1 < packet.length ∧ packet.head? = some pktPeerExchange))
    (run : node.deliver now sender packet = .ok (node', effects)) :
    Related node effects node' := by
  unfold Node.deliver at run
  rw [if_neg noExchange] at run
  split at run
  · cases run
    exact rule.nothing node
  simp only [Rust.bind_eq_ok] at run
  obtain ⟨dest, _, run⟩ := run
  cases dest with
  | some destIp => exact rule.routeInbound write run
  | none =>
      simp only [Rust.bind_eq_ok] at run
      obtain ⟨dest6, _, run⟩ := run
      cases dest6 with
      | some dest6 =>
          simp only [routeInboundV6] at run
          split at run
          · exact rule.sendOrWrite write run
          · cases run
            exact rule.nothing node
      | none =>
          cases run
          exact rule.nothing node

end RelayRule

/-- A relation that sending a packet to a peer is in, and that goes on from one node to the next. -/
structure SendRule (Related : Node → List Effect → Node → Prop) (packet : List UInt8)
    (now : Instant) : Prop where
  nothing : ∀ node, Related node [] node
  append : ∀ {node mid node' effects effects'}, Related node effects mid →
    Related mid effects' node' → Related node (effects ++ effects') node'
  send : ∀ {node node' ip effects sent},
    node.sendToPeer ip packet now = .ok (node', effects, sent) → Related node effects node'

namespace SendRule

variable {Related : Node → List Effect → Node → Prop} (rule : SendRule Related packet now)

include rule

/-- The rule for each target of a broadcast. -/
theorem relay : RelayRule Related packet now where
  nothing := rule.nothing
  after := rule.append
  send := rule.send

/-- Sending to the targets of a broadcast is related. -/
theorem sendBroadcast {relayed : List Ipv4Addr} {targets : List (Ipv4Addr × Option Ipv4Addr)}
    (run : node.sendBroadcast packet now relayed targets = .ok (node', effects)) :
    Related node effects node' := by
  induction targets generalizing node relayed effects with
  | nil =>
      cases run
      exact rule.nothing _
  | cons target targets ih =>
      obtain ⟨ip, relay⟩ := target
      cases relay with
      | none =>
          simp only [Node.sendBroadcast, Rust.bind_eq_ok, Rust.pure_eq, Except.ok.injEq,
            Prod.mk.injEq] at run
          obtain ⟨⟨mid, _, _⟩, first, ⟨last, _⟩, others, rfl, rfl⟩ := run
          exact rule.append (rule.send first) (ih others)
      | some relay =>
          unfold Node.sendBroadcast at run
          split at run
          · exact ih run
          · simp only [Rust.bind_eq_ok, Rust.pure_eq, Except.ok.injEq, Prod.mk.injEq] at run
            obtain ⟨⟨mid, _, _⟩, first, ⟨last, _⟩, others, rfl, rfl⟩ := run
            exact rule.append (rule.send first) (ih others)

/-- A packet from the TUN device is sent along one of its routes. -/
theorem outbound (run : node.outbound packet now = .ok (node', effects)) :
    Related node effects node' := by
  simp only [Node.outbound, Rust.bind_eq_ok] at run
  obtain ⟨dest, _, run⟩ := run
  cases dest with
  | some destIp =>
      dsimp only at run
      split at run
      · exact rule.sendBroadcast run
      · exact rule.relay.outboundUnicast run
  | none =>
      simp only [Rust.bind_eq_ok] at run
      obtain ⟨dest6, _, run⟩ := run
      cases dest6 with
      | some dest6 =>
          simp only [Rust.bind_eq_ok, Rust.pure_eq, Except.ok.injEq, Prod.mk.injEq] at run
          obtain ⟨⟨last, _, _⟩, along, rfl, rfl⟩ := run
          exact (rule.relay.sendAlong along).1
      | none =>
          cases run
          exact rule.nothing node

end SendRule

/-- What comes out of the node for a packet: the packet written to the TUN device, or sealed in the
session with a connected peer and sent to its endpoint. -/
inductive Carries (node : Node) (now : Instant) (packet : List UInt8) : Effect → Prop where
  | written : Carries node now packet (.writeTun packet)
  | sealed {ip : Ipv4Addr} {peer : Peer} {session : SessionCipher} {endpoint : SocketAddr}
      (counter : UInt64) (held : node.peerManager.peersByIp.get ip = some peer)
      (connected : peer.isConnected now = true) (placed : peer.endpoint = some endpoint)
      (established : peer.cipher = some session) :
      Carries node now packet (.sendTo endpoint (buildDataPacket node.keypair.myPeerId counter
        ({ session with sendCounter := counter }.sealed packet)))

/-- The node sent a packet to peers of its table, or wrote it. -/
structure Sending (now : Instant) (packet : List UInt8) (node : Node) (effects : List Effect)
    (node' : Node) : Prop extends Transmits node node' where
  sessions : KeepsSessions node.peerManager node'.peerManager
  carried : ∀ effect ∈ effects, Carries node' now packet effect

/-- Sessions of one key and direction seal alike under one counter. -/
theorem sealed_congr {session session' : SessionCipher} (cipher : session'.cipher = session.cipher)
    (isLowSide : session'.isLowSide = session.isLowSide) (counter : UInt64) :
    { session' with sendCounter := counter }.sealed packet =
      { session with sendCounter := counter }.sealed packet := by
  simp only [SessionCipher.sealed, SessionCipher.sendNonce, cipher, isLowSide]

/-- Further sending leaves the peers where they are. -/
theorem Carries.later {effect : Effect} (carries : Carries node now packet effect)
    (transmits : Transmits node node')
    (sessions : KeepsSessions node.peerManager node'.peerManager) :
    Carries node' now packet effect := by
  cases carries with
  | written => exact .written
  | @sealed ip peer session endpoint counter held connected placed established =>
      obtain ⟨peer', held', sentOn⟩ := transmits.kept ip peer held
      obtain ⟨_, session', there, established', cipher, isLowSide⟩ :=
        sessions ip peer session held established
      cases held'.symm.trans there
      have placed' : peer'.endpoint = some endpoint := by
        rw [sentOn.fields]
        exact placed
      rw [← sealed_congr cipher isLowSide, ← transmits.keypair]
      exact .sealed counter held' (sentOn.isConnected.trans connected) placed' established'

/-- The datagram that the record at an IP was sent. -/
theorem carries_sent {peer : Peer} {session : SessionCipher} {endpoint : SocketAddr}
    (held : node.peerManager.peersByIp.get ip = some (peer.sent session packet.length))
    (connected : peer.isConnected now = true) (placed : peer.endpoint = some endpoint)
    (established : peer.cipher = some session) :
    Carries node now packet (.sendTo endpoint (buildDataPacket node.keypair.myPeerId
      session.sendCounter (session.sealed packet))) := by
  have online : (peer.sent session packet.length).isConnected now = true := by
    rw [Peer.isConnected, established] at connected
    exact connected
  have advanced : (peer.sent session packet.length).cipher = some session.sent := rfl
  have carries : Carries node now packet _ :=
    .sealed session.sendCounter held online placed advanced
  exact carries

namespace Sending

/-- Nothing is sent. -/
theorem refl (now : Instant) (packet : List UInt8) (node : Node) :
    Sending now packet node [] node :=
  ⟨.refl node, .refl _, by simp⟩

/-- Sending after sending. -/
theorem append (first : Sending now packet node effects mid)
    (second : Sending now packet mid effects' node') :
    Sending now packet node (effects ++ effects') node' := by
  refine ⟨first.toTransmits.trans second.toTransmits, first.sessions.trans second.sessions, ?_⟩
  intro effect member
  rcases List.mem_append.mp member with before | after
  · exact (first.carried effect before).later second.toTransmits second.sessions
  · exact second.carried effect after

/-- A packet is written here. -/
theorem write (now : Instant) (packet : List UInt8) (node : Node) :
    Sending now packet node [.writeTun packet] node :=
  ⟨.refl node, .refl _, by simp [Carries.written]⟩

/-- Sending to one peer lets out one sealed datagram, or nothing. -/
theorem send (run : node.sendToPeer ip packet now = .ok (node', effects, sent)) :
    Sending now packet node effects node' := by
  refine ⟨sendToPeer_transmits run, (sendToPeer_keeps run).sessions, ?_⟩
  rcases sendToPeer_cases run with ⟨_, rfl⟩ | ⟨peer, next, held, _, encrypted, rfl⟩
  · simp
  rcases encryptAndSend_cases encrypted with
    ⟨_, rfl⟩ | ⟨session, endpoint, _, established, connected, placed, rfl, rfl⟩
  · simp
  · simp only [List.forall_mem_singleton]
    exact carries_sent (HashMap.get_insert_self ..) connected placed established

/-- `Sending` holds of every way out. -/
theorem rule (now : Instant) (packet : List UInt8) : SendRule (Sending now packet) packet now :=
  ⟨refl now packet, append, send⟩

end Sending

/-- What the dispatch of a packet from the TUN device sends. -/
theorem outbound_sending (run : node.outbound packet now = .ok (node', effects)) :
    Sending now packet node effects node' :=
  (Sending.rule now packet).outbound run

/-- A peer exchange packet is sealed for the peer like any other. -/
theorem exchangeWith_sending (node : Node) (packet : List UInt8) (now : Instant) (ip : Ipv4Addr) :
    Sending now packet node (node.exchangeWith packet now ip).2
      (node.exchangeWith packet now ip).1 := by
  have transmits := node.exchangeWith_transmits packet now ip
  unfold exchangeWith at transmits ⊢
  split
  · exact .refl now packet node
  next peer held =>
  split
  · next endpoint connected placed =>
      obtain ⟨session, established⟩ := Peer.exists_session connected
      simp only [held, connected, placed] at transmits
      by_cases fits : packet.length ≤ Crates.plaintextLimit
      · have sealing : peer.encrypt packet = (peer.sent session packet.length,
            .ok (session.sendCounter, session.sealed packet)) := by
          simp [Peer.encrypt, established, session.encrypt_eq, fits, Peer.sent]
        simp only [sealing] at transmits ⊢
        refine ⟨transmits, .of_record held (fun other => HashMap.get_insert ..) ?_, ?_⟩
        · intro other same
          cases established.symm.trans same
          exact ⟨session.sent, rfl, rfl, rfl⟩
        · simp only [List.forall_mem_singleton]
          exact carries_sent (HashMap.get_insert_self ..) connected placed established
      · have refused : peer.encrypt packet = ({ peer with cipher := some session.sent },
            .error "Encryption failed") := by
          simp [Peer.encrypt, established, session.encrypt_eq, fits]
        simp only [refused] at transmits ⊢
        refine ⟨transmits, .of_record held (fun other => HashMap.get_insert ..) ?_, by simp⟩
        intro other same
        cases established.symm.trans same
        exact ⟨session.sent, rfl, rfl, rfl⟩
  · exact .refl now packet node

/-- What telling several peers sends. -/
theorem exchangeWithAll_sending (node : Node) (packet : List UInt8) (now : Instant)
    (ips : List Ipv4Addr) :
    Sending now packet node (node.exchangeWithAll packet now ips).2
      (node.exchangeWithAll packet now ips).1 := by
  induction ips generalizing node with
  | nil => exact .refl now packet node
  | cons ip ips ih => exact (node.exchangeWith_sending packet now ip).append (ih _)

/-- What the node tells of its table is sealed for each connected peer. -/
theorem sendPeerExchange_sending (node : Node) (now : Instant) :
    Sending now (buildPeerExchange node.wolfnetIp node.peerManager) node
      (node.sendPeerExchange now).2 (node.sendPeerExchange now).1 := by
  unfold sendPeerExchange
  dsimp only
  split
  · exact .refl now _ node
  · exact node.exchangeWithAll_sending _ now _

end Node
end WolfNet
