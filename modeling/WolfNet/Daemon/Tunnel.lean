import WolfNet.Daemon.Fallback
import WolfNet.Daemon.Sessions
import WolfNet.Semantics.Run

/-!
# The tunnel between two nodes

Two nodes hold fresh sessions for each other. The packets that one of them sends to the
other may be lost and reordered, but a delivered counter stays within the replay window.
Then each delivered datagram makes the receiver write the packet that the sender read,
whatever the two send the other way: `tunnel_delivers`.
-/

namespace WolfNet

open WolfNet.Std WolfNet.Semantics

section Tunnels

variable [Crates]

/-- Two nodes and the packets on their way from `a` to `b`, each with its datagram. -/
structure Tunnel where
  a : Node
  b : Node
  flight : List (List UInt8 × List UInt8)
  /-- The highest counter that `b` has accepted. -/
  highest : Nat

/-- What happens in a tunnel: `a` sends a packet, a datagram is delivered or lost, `b` sends
anything to any peer, and `a` receives any datagram but a handshake. -/
inductive TunnelEvent where
  | send (now : Instant) (packet : List UInt8)
  | deliver (now : Instant) (src : SocketAddr) (entry : List UInt8 × List UInt8)
  | lose (entry : List UInt8 × List UInt8)
  | sendBack (now : Instant) (ip : Ipv4Addr) (payload : List UInt8)
  | receiveBack (now : Instant) (src : SocketAddr) (data : List UInt8)

/-- The counter in the header of a data packet. -/
def counterOf (datagram : List UInt8) : Nat :=
  match array datagram 5 8 with
  | .ok counter => (u64FromLeBytes counter).toNat
  | .error _ => 0

/-- The data arm accepts the datagram. -/
def Node.accepts (node : Node) (now : Instant) (src : SocketAddr) (data : List UInt8) : Bool :=
  match node.receiveData now src data with
  | .ok (_, some _) => true
  | _ => false

/-- `a` sends IPv4 packets for `b` that fit a UDP datagram. -/
inductive TunnelStep : Transition Tunnel TunnelEvent where
  | send {tunnel : Tunnel} {now : Instant} {packet : List UInt8} {a' : Node} {effects : List Effect}
      {sent : Bool} (dest : getDestIp packet = .ok (some tunnel.b.wolfnetIp))
      (size : packet.length ≤ 65478)
      (run : tunnel.a.sendToPeer tunnel.b.wolfnetIp packet now = .ok (a', effects, sent)) :
      TunnelStep tunnel (.send now packet) { tunnel with
        a := a'
        flight := tunnel.flight ++ (datagramsOf effects).map fun datagram => (packet, datagram) }
  | deliver {tunnel : Tunnel} {now : Instant} {src : SocketAddr} {entry : List UInt8 × List UInt8}
      {front back : List (List UInt8 × List UInt8)} {b' : Node} {effects : List Effect}
      (inFlight : tunnel.flight = front ++ entry :: back)
      (run : tunnel.b.inbound now src entry.2 = .ok (b', effects)) :
      TunnelStep tunnel (.deliver now src entry) { tunnel with
        b := b'
        flight := front ++ back
        highest := if tunnel.b.accepts now src entry.2 then max tunnel.highest (counterOf entry.2)
          else tunnel.highest }
  | lose {tunnel : Tunnel} {entry : List UInt8 × List UInt8}
      {front back : List (List UInt8 × List UInt8)}
      (inFlight : tunnel.flight = front ++ entry :: back) :
      TunnelStep tunnel (.lose entry) { tunnel with flight := front ++ back }
  | sendBack {tunnel : Tunnel} {now : Instant} {ip : Ipv4Addr} {payload : List UInt8} {b' : Node}
      {effects : List Effect} {sent : Bool}
      (run : tunnel.b.sendToPeer ip payload now = .ok (b', effects, sent)) :
      TunnelStep tunnel (.sendBack now ip payload) { tunnel with b := b' }
  | receiveBack {tunnel : Tunnel} {now : Instant} {src : SocketAddr} {data : List UInt8} {a' : Node}
      {effects : List Effect} (noHandshake : data.head? ≠ some pktHandshake)
      (run : tunnel.a.inbound now src data = .ok (a', effects)) :
      TunnelStep tunnel (.receiveBack now src data) { tunnel with a := a' }

namespace Tunnel

/-- Both nodes established their sessions once, and no packet was sent yet. `b` keeps its
record of `a` at `aIp`. -/
structure Fresh (aIp : Ipv4Addr) (tunnel : Tunnel) : Prop where
  sender : ∃ peer, tunnel.a.peerManager.peersByIp.get tunnel.b.wolfnetIp = some peer ∧
    peer.cipher = some (.new (Crates.diffieHellman tunnel.a.keypair.secret tunnel.b.keypair.publicKey)
      tunnel.a.keypair.publicKey tunnel.b.keypair.publicKey)
  receiver : ∃ peer, tunnel.b.peerManager.peersByIp.get aIp = some peer ∧
    peer.cipher = some (.new (Crates.diffieHellman tunnel.b.keypair.secret tunnel.a.keypair.publicKey)
      tunnel.b.keypair.publicKey tunnel.a.keypair.publicKey)
  flight : tunnel.flight = []
  highest : tunnel.highest = 0

/-- A delivered datagram is looked up as a packet of `a`, and its counter is at most 32 below
the highest one that `b` has accepted. -/
def InOrder (aIp : Ipv4Addr) (tunnel : Tunnel) : TunnelEvent → Prop
  | .deliver _ src entry =>
    tunnel.b.peerManager.findIpByEndpointOrId src tunnel.a.keypair.myPeerId = some aIp ∧
      tunnel.highest ≤ counterOf entry.2 + 32
  | _ => True

/-- A packet for `b`, sealed in a session of `a` for `b`. -/
structure Sealed (aKeys : KeyPair) (bKey : PublicKey) (bIp : Ipv4Addr)
    (entry : List UInt8 × List UInt8) : Prop where
  dest : getDestIp entry.1 = .ok (some bIp)
  datagram : ∃ session : SessionCipher, session.IsFor aKeys bKey ∧
    entry.2 = buildDataPacket aKeys.myPeerId session.sendCounter (session.sealed entry.1)

/-- The sessions of both nodes are those of their keys, and `b` remembers no counter above
the highest one that it accepted. -/
structure Established (aKeys bKeys : KeyPair) (aIp bIp : Ipv4Addr) (tunnel : Tunnel) : Prop where
  keysOfA : tunnel.a.keypair = aKeys
  keysOfB : tunnel.b.keypair = bKeys
  ipOfB : tunnel.b.wolfnetIp = bIp
  sender : ∃ peer session, tunnel.a.peerManager.peersByIp.get bIp = some peer ∧
    peer.cipher = some session ∧ session.IsFor aKeys bKeys.publicKey
  receiver : ∃ peer session, tunnel.b.peerManager.peersByIp.get aIp = some peer ∧
    peer.cipher = some session ∧ session.IsFor bKeys aKeys.publicKey ∧
    session.highest ≤ tunnel.highest
  flight : ∀ entry ∈ tunnel.flight, Sealed aKeys bKeys.publicKey bIp entry

variable {aKeys bKeys : KeyPair} {aIp bIp : Ipv4Addr} {tunnel next : Tunnel} {event : TunnelEvent}

/-- A fresh tunnel is established. -/
theorem Fresh.established (fresh : tunnel.Fresh aIp) :
    tunnel.Established tunnel.a.keypair tunnel.b.keypair aIp tunnel.b.wolfnetIp where
  keysOfA := rfl
  keysOfB := rfl
  ipOfB := rfl
  sender := by
    obtain ⟨peer, held, established⟩ := fresh.sender
    exact ⟨peer, _, held, established, SessionCipher.isFor_new _ _⟩
  receiver := by
    obtain ⟨peer, held, established⟩ := fresh.receiver
    exact ⟨peer, _, held, established, SessionCipher.isFor_new _ _, Nat.zero_le _⟩
  flight := by simp [fresh.flight]

/-- `a` puts sealed packets on their way. -/
theorem Established.send {now : Instant} {packet : List UInt8} {a' : Node} {effects : List Effect}
    {sent : Bool} (joined : tunnel.Established aKeys bKeys aIp bIp)
    (dest : getDestIp packet = .ok (some bIp)) (size : packet.length ≤ 65478)
    (run : tunnel.a.sendToPeer bIp packet now = .ok (a', effects, sent)) :
    ∀ datagram ∈ datagramsOf effects, Sealed aKeys bKeys.publicKey bIp (packet, datagram) := by
  obtain ⟨peer, session, held, established, isFor⟩ := joined.sender
  rcases Node.sendToPeer_cases run with ⟨_, rfl⟩ | ⟨record, next, there, _, encrypted, _⟩
  · simp [datagramsOf]
  cases held.symm.trans there
  rcases Node.encryptAndSend_effects (by omega) encrypted with rfl | ⟨opening, endpoint, opens, rfl⟩
  · simp [datagramsOf]
  cases established.symm.trans opens
  rw [joined.keysOfA]
  simp only [datagramsOf, List.filterMap_cons, List.filterMap_nil, List.mem_singleton, forall_eq]
  exact ⟨dest, session, isFor, rfl⟩

/-- A sealed packet that is looked up as one of `a`, with a counter in order, is accepted and
written. -/
theorem Established.deliver (agrees : DiffieHellmanAgrees) (ideal : AeadIdeal)
    (distinct : aKeys.publicKey ≠ bKeys.publicKey) {now : Instant} {src : SocketAddr}
    {entry : List UInt8 × List UInt8} (joined : tunnel.Established aKeys bKeys aIp bIp)
    (isSealed : Sealed aKeys bKeys.publicKey bIp entry)
    (lookup : tunnel.b.peerManager.findIpByEndpointOrId src aKeys.myPeerId = some aIp)
    (inOrder : tunnel.highest ≤ counterOf entry.2 + 32) :
    ∃ b', tunnel.b.inbound now src entry.2 = .ok (b', [.writeTun entry.1]) ∧
      tunnel.b.accepts now src entry.2 = true ∧
      b'.keypair = bKeys ∧ b'.wolfnetIp = bIp ∧
      ∃ peer session, b'.peerManager.peersByIp.get aIp = some peer ∧ peer.cipher = some session ∧
        session.IsFor bKeys aKeys.publicKey ∧
        session.highest ≤ max tunnel.highest (counterOf entry.2) := by
  obtain ⟨peer, session, held, established, isFor, bounded⟩ := joined.receiver
  obtain ⟨sender, senderFor, datagram⟩ := isSealed.datagram
  have paired := senderFor.paired agrees distinct isFor
  have counter : counterOf entry.2 = sender.sendCounter.toNat := by
    rw [datagram, counterOf, counter_buildDataPacket]
    simp
  have admitted : replayWindow.Admits session.highest sender.sendCounter.toNat := by
    refine Or.inl ?_
    rw [← counter]
    exact bounded.trans inOrder
  have outcome : session.outcome sender.sendCounter (sender.sealed entry.1) =
      (session.accepted sender.sendCounter, some entry.1) := by
    simp [SessionCipher.outcome, admitted, paired.opens_sealed ideal]
  have opened := @Node.receiveData_opens _ _ now src _ _ _ _ _ _ _ lookup held established outcome
  let b' := tunnel.b.withManager (Node.acceptFrom tunnel.b.peerManager src aIp peer
    (peer.received (session.accepted sender.sendCounter) entry.1.length now))
  have written : b'.deliver now aIp entry.1 = .ok (b', [.writeTun entry.1]) := by
    have own : bIp = b'.wolfnetIp := joined.ipOfB.symm
    rw [Node.deliver_unicast aIp isSealed.dest, Node.routeInbound, if_pos (Or.inl own)]
    rfl
  rw [counter, datagram, Node.inbound_opened (by simp) opened]
  refine ⟨b', written, by simp only [Node.accepts, opened], joined.keysOfB, joined.ipOfB, ?_⟩
  obtain ⟨endpoint, peers⟩ := Node.acceptFrom_peers tunnel.b.peerManager src aIp peer
    (peer.received (session.accepted sender.sendCounter) entry.1.length now)
  refine ⟨_, session.accepted sender.sendCounter, (peers aIp).trans (if_pos rfl), rfl, ?_, ?_⟩
  · exact ⟨by simp [isFor.cipher], by simp [isFor.isLowSide]⟩
  · rw [SessionCipher.highest_accepted, ReplayWindow.advance]
    split <;> omega

/-- What keeps the sessions of the sender leaves it its session for the receiver. -/
theorem Established.keepsSender {a' : Node} (joined : tunnel.Established aKeys bKeys aIp bIp)
    (keeps : tunnel.a.Keeps a') : ∃ peer session, a'.peerManager.peersByIp.get bIp = some peer ∧
      peer.cipher = some session ∧ session.IsFor aKeys bKeys.publicKey := by
  obtain ⟨peer, session, held, established, isFor⟩ := joined.sender
  obtain ⟨peer', session', held', established', key, side⟩ :=
    keeps.sessions bIp peer session held established
  exact ⟨peer', session', held', established', key.trans isFor.cipher, side.trans isFor.isLowSide⟩

/-- What `b` sends leaves its memory of the counters as it is. -/
theorem Established.sendBack {now : Instant} {ip : Ipv4Addr} {payload : List UInt8} {b' : Node}
    {effects : List Effect} {sent : Bool} (joined : tunnel.Established aKeys bKeys aIp bIp)
    (run : tunnel.b.sendToPeer ip payload now = .ok (b', effects, sent)) :
    ({ tunnel with b := b' } : Tunnel).Established aKeys bKeys aIp bIp := by
  have keeps := Node.sendToPeer_keeps run
  refine { joined with
    keysOfB := keeps.keypair.trans joined.keysOfB
    ipOfB := keeps.wolfnetIp.trans joined.ipOfB
    receiver := ?_ }
  obtain ⟨peer, session, held, established, isFor, bounded⟩ := joined.receiver
  rcases Node.sendToPeer_cases run with ⟨rfl, _⟩ | ⟨record, next, there, cipher, _, rfl⟩
  · exact ⟨peer, session, held, established, isFor, bounded⟩
  · simp only [Node.withManager_peerManager, HashMap.get_insert]
    split
    · next here =>
        subst here
        cases held.symm.trans there
        rcases cipher with same | advanced
        · exact ⟨next, session, rfl, same.trans established, isFor, bounded⟩
        · exact ⟨next, session.sent, rfl, by rw [advanced, established]; rfl,
            ⟨isFor.cipher, isFor.isLowSide⟩, bounded⟩
    · exact ⟨peer, session, held, established, isFor, bounded⟩

/-- Every step keeps both sessions. -/
theorem Established.step (agrees : DiffieHellmanAgrees) (ideal : AeadIdeal)
    (distinct : aKeys.publicKey ≠ bKeys.publicKey) (joined : tunnel.Established aKeys bKeys aIp bIp)
    (inOrder : tunnel.InOrder aIp event) (transition : TunnelStep tunnel event next) :
    next.Established aKeys bKeys aIp bIp := by
  cases transition with
  | @send _ now packet a' effects sent dest size run =>
      rw [joined.ipOfB] at dest run
      have keeps := Node.sendToPeer_keeps run
      refine ⟨keeps.keypair.trans joined.keysOfA, joined.keysOfB, joined.ipOfB,
        joined.keepsSender keeps, joined.receiver, fun entry member => ?_⟩
      rcases List.mem_append.mp member with before | added
      · exact joined.flight entry before
      · obtain ⟨datagram, emitted, rfl⟩ := List.mem_map.mp added
        exact joined.send dest size run datagram emitted
  | @deliver _ now src entry front back b' effects inFlight run =>
      have member : entry ∈ tunnel.flight := by simp [inFlight]
      obtain ⟨lookup, counter⟩ := inOrder
      rw [joined.keysOfA] at lookup
      obtain ⟨b'', written, accepted, keys, ip, receiver⟩ := joined.deliver agrees ideal distinct
        (joined.flight entry member) lookup counter
      cases written.symm.trans run
      refine ⟨joined.keysOfA, keys, ip, joined.sender, ?_, fun other rest => ?_⟩
      · rw [if_pos accepted]
        exact receiver
      · refine joined.flight other ?_
        rw [inFlight]
        simp only [List.mem_append, List.mem_cons] at rest ⊢
        tauto
  | @lose _ entry front back inFlight =>
      refine { joined with flight := fun other rest => joined.flight other ?_ }
      rw [inFlight]
      simp only [List.mem_append, List.mem_cons] at rest ⊢
      tauto
  | sendBack run => exact joined.sendBack run
  | receiveBack noHandshake run =>
      have keeps := Node.inbound_keeps noHandshake run
      exact { joined with
        keysOfA := keeps.keypair.trans joined.keysOfA
        sender := joined.keepsSender keeps }

/-- In every run from fresh sessions whose deliveries are in order, each datagram on its way
to `b` that is delivered in order makes `b` write the packet that `a` read. -/
theorem tunnel_delivers (agrees : DiffieHellmanAgrees) (ideal : AeadIdeal) {start last : Tunnel}
    {trace : List (Tunnel × TunnelEvent)}
    (distinct : start.a.keypair.publicKey ≠ start.b.keypair.publicKey) (fresh : start.Fresh aIp)
    (run : Run TunnelStep start trace last) (inOrder : Throughout (InOrder aIp) trace)
    {now : Instant} {src : SocketAddr} {entry : List UInt8 × List UInt8}
    (inFlight : entry ∈ last.flight) (here : last.InOrder aIp (.deliver now src entry)) :
    ∃ b', last.b.inbound now src entry.2 = .ok (b', [.writeTun entry.1]) := by
  have joined := run.invariant (Established.step agrees ideal distinct) fresh.established inOrder
  obtain ⟨lookup, counter⟩ := here
  rw [joined.keysOfA] at lookup
  obtain ⟨b', written, _⟩ := joined.deliver agrees ideal distinct
    (joined.flight entry inFlight) lookup counter
  exact ⟨b', written⟩

/-- The node after it sent a packet to a peer that it reaches, and the datagram. -/
def sendReaching (node : Node) (ip : Ipv4Addr) (packet : List UInt8) (now : Instant) :
    Option (Node × SocketAddr × List UInt8) := do
  let peer ← node.peerManager.peersByIp.get ip
  let session ← peer.cipher
  let endpoint ← peer.endpoint
  if peer.isConnected now ∧ packet.length ≤ 65536 ∧ packet.length ≤ Crates.plaintextLimit then
    some (node.withTable (node.peerManager.peersByIp.insert ip (peer.sent session packet.length)),
      endpoint, node.datagram session packet)
  else none

/-- A packet that is worked out so is sent so. -/
theorem sendToPeer_of_reaching {node node' : Node} {ip : Ipv4Addr} {packet datagram : List UInt8}
    {now : Instant} {endpoint : SocketAddr}
    (sends : sendReaching node ip packet now = some (node', endpoint, datagram)) :
    node.sendToPeer ip packet now = .ok (node', [.sendTo endpoint datagram], true) := by
  simp only [sendReaching, Option.bind_eq_bind, Option.bind_eq_some_iff,
    Option.ite_none_right_eq_some] at sends
  obtain ⟨peer, held, session, established, placed, there, ⟨connected, read, fits⟩, reached⟩ := sends
  cases reached
  simp [Node.sendToPeer, held, encryptAndSend_eq _ there connected established read fits,
    Node.withTable, Node.datagram]

/-- The tunnel after an event, if it can happen and what is sent reaches its peer. -/
def take (tunnel : Tunnel) : TunnelEvent → Option Tunnel
  | .send now packet =>
    match sendReaching tunnel.a tunnel.b.wolfnetIp packet now with
    | some (a', _, datagram) =>
      if getDestIp packet = .ok (some tunnel.b.wolfnetIp) ∧ packet.length ≤ 65478 then
        some { tunnel with a := a', flight := tunnel.flight ++ [(packet, datagram)] }
      else none
    | none => none
  | .deliver now src entry =>
    match tunnel.b.inbound now src entry.2 with
    | .ok (b', _) =>
      if entry ∈ tunnel.flight then
        some { tunnel with
          b := b'
          flight := tunnel.flight.erase entry
          highest := if tunnel.b.accepts now src entry.2 then max tunnel.highest (counterOf entry.2)
            else tunnel.highest }
      else none
    | .error _ => none
  | .lose entry =>
    if entry ∈ tunnel.flight then some { tunnel with flight := tunnel.flight.erase entry } else none
  | .sendBack now ip payload =>
    (sendReaching tunnel.b ip payload now).map fun (b', _) => { tunnel with b := b' }
  | .receiveBack now src data =>
    match tunnel.a.inbound now src data with
    | .ok (a', _) => if data.head? ≠ some pktHandshake then some { tunnel with a := a' } else none
    | .error _ => none

/-- What the function computes is a step of the tunnel. -/
theorem step_of_take (taken : tunnel.take event = some next) : TunnelStep tunnel event next := by
  cases event with
  | send now packet =>
      simp only [take] at taken
      split at taken
      · next a' endpoint datagram sends =>
          obtain ⟨⟨dest, size⟩, reached⟩ := Option.ite_none_right_eq_some.mp taken
          cases reached
          exact .send dest size (sendToPeer_of_reaching sends)
      · cases taken
  | deliver now src entry =>
      simp only [take] at taken
      split at taken
      · next b' effects run =>
          obtain ⟨member, reached⟩ := Option.ite_none_right_eq_some.mp taken
          obtain ⟨front, back, _, inFlight, erased⟩ := List.exists_erase_eq member
          cases reached
          rw [erased]
          exact .deliver inFlight run
      · cases taken
  | lose entry =>
      obtain ⟨member, reached⟩ := Option.ite_none_right_eq_some.mp taken
      obtain ⟨front, back, _, inFlight, erased⟩ := List.exists_erase_eq member
      cases reached
      rw [erased]
      exact .lose inFlight
  | sendBack now ip payload =>
      obtain ⟨⟨b', endpoint, datagram⟩, sends, reached⟩ := Option.map_eq_some_iff.mp taken
      cases reached
      exact .sendBack (sendToPeer_of_reaching sends)
  | receiveBack now src data =>
      simp only [take] at taken
      split at taken
      · next a' effects run =>
          obtain ⟨noHandshake, reached⟩ := Option.ite_none_right_eq_some.mp taken
          cases reached
          exact .receiveBack noHandshake run
      · cases taken

/-- The tunnel after an event, or the same tunnel where it cannot happen. -/
def advance (tunnel : Tunnel) (event : TunnelEvent) : Tunnel := (tunnel.take event).getD tunnel

/-- Events that can happen one after the other are a run. -/
theorem run_of_taken {start : Tunnel} {events : List TunnelEvent}
    (taken : (traceOf advance start events).all (fun entry => (entry.1.take entry.2).isSome) = true) :
    Run TunnelStep start (traceOf advance start events) (events.foldl advance start) := by
  refine .of_traceOf fun entry member => step_of_take ?_
  obtain ⟨next, takes⟩ := Option.isSome_iff_exists.mp (List.all_eq_true.mp taken entry member)
  rw [advance, takes, Option.getD_some]

instance {aIp : Ipv4Addr} : DecidablePred (InOrder aIp tunnel)
  | .deliver _ _ _ => inferInstanceAs (Decidable (_ ∧ _))
  | .send _ _ | .lose _ | .sendBack _ _ _ | .receiveBack _ _ _ => .isTrue trivial

end Tunnel
end Tunnels

namespace Tunnel

section Sample

attribute [local instance] Sample.crates

/-- Two sample nodes with fresh sessions for each other. -/
def freshTunnel : Tunnel where
  a := Sample.node 1 false (Sample.connectedTable 1 2)
  b := Sample.node 2 false (Sample.connectedTable 2 1)
  flight := []
  highest := 0

/-- A packet to the second sample node, with a byte of payload. -/
def tunnelPacket (payload : UInt8) : List UInt8 :=
  [0x45, 0, 0, 21, 0, 0, 0, 0, 64, 17, 0, 0, 10, 10, 10, 1, 10, 10, 10, 2, payload]

/-- The datagram in which one sample node sends a packet to the other one under a counter. -/
def tunnelDatagram (mine theirs : UInt8) (counter : UInt64) (packet : List UInt8) : List UInt8 :=
  let session := { Sample.session mine theirs with sendCounter := counter }
  buildDataPacket (Sample.keypair mine).myPeerId counter (session.sealed packet)

/-- A packet to the second sample node, with its datagram. -/
def tunnelEntry (counter : UInt64) : List UInt8 × List UInt8 :=
  (tunnelPacket counter.toUInt8, tunnelDatagram 1 2 counter (tunnelPacket counter.toUInt8))

/-- Of three packets the first is lost and the third overtakes the second, while an answer
comes back. -/
def tunnelEvents : List TunnelEvent :=
  [.send 0 (tunnelPacket 0), .send 1 (tunnelPacket 1), .lose (tunnelEntry 0),
    .send 2 (tunnelPacket 2), .deliver 3 Sample.endpoint (tunnelEntry 2),
    .sendBack 4 ⟨10, 10, 10, 1⟩ [0x45, 7],
    .receiveBack 5 Sample.endpoint (tunnelDatagram 2 1 0 [0x45, 7])]

/-- The run of these events. -/
def tunnelRun : List (Tunnel × TunnelEvent) := traceOf advance freshTunnel tunnelEvents

/-- The tunnel after them. -/
def overtaken : Tunnel := tunnelEvents.foldl advance freshTunnel

/-- The packet that was overtaken is delivered. -/
theorem tunnel_delivers_sample : Run TunnelStep freshTunnel tunnelRun overtaken ∧
    overtaken.highest = 2 ∧ overtaken.flight = [tunnelEntry 1] ∧
    ∃ b', overtaken.b.inbound 6 Sample.endpoint (tunnelEntry 1).2 =
      .ok (b', [.writeTun (tunnelEntry 1).1]) := by
  have fresh : freshTunnel.Fresh ⟨10, 10, 10, 1⟩ := ⟨⟨_, rfl, rfl⟩, ⟨_, rfl, rfl⟩, rfl, rfl⟩
  have run : Run TunnelStep freshTunnel tunnelRun overtaken := run_of_taken (by decide +kernel)
  have inOrder : Throughout (InOrder ⟨10, 10, 10, 1⟩) tunnelRun := by decide +kernel
  have left : overtaken.flight = [tunnelEntry 1] := by decide +kernel
  have inFlight : tunnelEntry 1 ∈ overtaken.flight := by
    rw [left]
    apply List.mem_singleton_self
  have here : overtaken.InOrder ⟨10, 10, 10, 1⟩ (.deliver 6 Sample.endpoint (tunnelEntry 1)) := by
    decide +kernel
  exact ⟨run, by decide +kernel, left, tunnel_delivers Sample.diffieHellman_agrees Sample.aead_ideal
    (by decide) fresh run inOrder inFlight here⟩

end Sample
end Tunnel
end WolfNet
