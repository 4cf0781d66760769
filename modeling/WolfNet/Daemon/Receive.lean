import WolfNet.Daemon.Inbound
import WolfNet.Session.Link
import WolfNet.Table.Effects
import WolfNet.Table.Rest

/-!
# Data packets at the two ends

What the send path emits for a connected peer, and what the data arm makes of a
datagram: it does not know the sender, it refuses the packet and leaves the record as it
was, or it opens the packet and counts it to the peer it looked up.
-/

namespace WolfNet

open WolfNet.Std WolfNet.Semantics

section Framing

variable (peerId : PeerId) (counter : UInt64) (ciphertext : List UInt8)

/-- The header of a data packet holds the sender's ID. -/
theorem peerId_buildDataPacket :
    array (buildDataPacket peerId counter ciphertext) 1 4 = .ok peerId := by
  rw [buildDataPacket, List.append_assoc, List.append_assoc]
  exact array_append peerId rfl

/-- The header of a data packet holds the counter. -/
theorem counter_buildDataPacket :
    array (buildDataPacket peerId counter ciphertext) 5 8 = .ok (u64ToLeBytes counter) := by
  rw [buildDataPacket, List.append_assoc]
  exact array_append (u64ToLeBytes counter) (by simp [peerId.2])

/-- A data packet is its header longer than its ciphertext. -/
theorem length_buildDataPacket :
    (buildDataPacket peerId counter ciphertext).length = 13 + ciphertext.length := by
  simp [buildDataPacket, peerId.2, (u64ToLeBytes counter).2]
  omega

/-- The ciphertext is what follows the header. -/
theorem drop_buildDataPacket :
    (buildDataPacket peerId counter ciphertext).drop 13 = ciphertext := by
  have front : ([pktData] ++ peerId.1 ++ (u64ToLeBytes counter).1).length = 13 := by
    simp [peerId.2, (u64ToLeBytes counter).2]
  rw [buildDataPacket, ← front, List.drop_left]

/-- Every datagram that the data arm takes is a data packet. -/
theorem exists_buildDataPacket {data : List UInt8} (type : data.head? = some pktData)
    (long : 13 < data.length) :
    ∃ peerId counter ciphertext, data = buildDataPacket peerId counter ciphertext := by
  cases data with
  | nil => simp at type
  | cons first rest =>
      simp only [List.head?_cons, Option.some.injEq] at type
      simp only [List.length_cons] at long
      refine ⟨⟨rest.take 4, by simp; omega⟩,
        u64FromLeBytes ⟨(rest.drop 4).take 8, by simp; omega⟩, rest.drop 12, ?_⟩
      have split : rest = rest.take 4 ++ ((rest.drop 4).take 8 ++ rest.drop 12) := by
        rw [← List.drop_drop (i := 8) (j := 4), List.take_append_drop, List.take_append_drop]
      simp [buildDataPacket, type, ← split]

/-- A plaintext copied behind the header leaves the rest of the buffer as room for the tag. -/
theorem payload_copied {buf plaintext : List UInt8} (room : 13 + plaintext.length ≤ buf.length) :
    (do
      let copied ← copyFromSlice buf 13 plaintext
      slice copied 13 copied.length) = .ok (plaintext ++ buf.drop (13 + plaintext.length)) := by
  have header : (buf.take 13).length = 13 := by
    rw [List.length_take]
    omega
  rw [copyFromSlice_ok room, Rust.ok_bind,
    slice_ok (by simp only [List.length_append, header]; omega) le_rfl, List.take_length,
    List.append_assoc]
  nth_rewrite 1 [← header]
  rw [List.drop_left]

/-- The header in front of a sealed payload is a data packet. -/
theorem slice_buildDataPacket (rest : List UInt8) :
    slice ([pktData] ++ peerId.1 ++ (u64ToLeBytes counter).1 ++ (ciphertext ++ rest)) 0
      (13 + ciphertext.length) = .ok (buildDataPacket peerId counter ciphertext) := by
  rw [← List.append_assoc, ← length_buildDataPacket peerId counter ciphertext]
  exact slice_front _ _

end Framing

variable [Crates]

namespace Node

/-- The manager after a packet was accepted: the record counts it, and follows the
source if it may. -/
def acceptFrom (pm : PeerManager) (src : SocketAddr) (ip : Ipv4Addr) (peer accepted : Peer) :
    PeerManager :=
  let pm := { pm with peersByIp := pm.peersByIp.insert ip accepted }
  if peer.endpoint ≠ some src then (pm.updateEndpointIfRoaming ip src).1 else pm

/-- What the data arm makes of a data packet. -/
inductive Receives (node : Node) (now : Instant) (src : SocketAddr) (peerId : PeerId)
    (counter : UInt64) (ciphertext : List UInt8) :
    Node × Option (Ipv4Addr × List UInt8) → Prop where
  | unknown (missing : ∀ ip, node.peerManager.findIpByEndpointOrId src peerId = some ip →
      node.peerManager.peersByIp.get ip = none) :
      Receives node now src peerId counter ciphertext (node, none)
  | refused (ip : Ipv4Addr) (peer : Peer)
      (found : node.peerManager.findIpByEndpointOrId src peerId = some ip)
      (held : node.peerManager.peersByIp.get ip = some peer)
      (closed : ∀ session, peer.cipher = some session →
        (session.outcome counter ciphertext).2 = none) :
      Receives node now src peerId counter ciphertext
        (node.withManager { node.peerManager with
          peersByIp := node.peerManager.peersByIp.insert ip peer }, none)
  | opened (ip : Ipv4Addr) (peer : Peer) (session : SessionCipher) (plaintext : List UInt8)
      (found : node.peerManager.findIpByEndpointOrId src peerId = some ip)
      (held : node.peerManager.peersByIp.get ip = some peer)
      (established : peer.cipher = some session)
      (outcome : session.outcome counter ciphertext = (session.accepted counter, some plaintext)) :
      Receives node now src peerId counter ciphertext
        (node.withManager (acceptFrom node.peerManager src ip peer
          (peer.received (session.accepted counter) plaintext.length now)), some (ip, plaintext))

/-- The data arm receives every data packet without a panic. -/
theorem receiveData_receives (node : Node) (now : Instant) (src : SocketAddr) (peerId : PeerId)
    (counter : UInt64) (ciphertext : List UInt8) :
    ∃ result, node.receiveData now src (buildDataPacket peerId counter ciphertext) = .ok result ∧
      Receives node now src peerId counter ciphertext result := by
  have size : (buildDataPacket peerId counter ciphertext).length - 13 = ciphertext.length := by
    rw [length_buildDataPacket]
    omega
  have payload : slice (buildDataPacket peerId counter ciphertext) 13 (13 + ciphertext.length) =
      .ok ciphertext := by
    rw [slice_ok (by omega) (by rw [length_buildDataPacket]),
      ← length_buildDataPacket peerId counter, List.take_length, drop_buildDataPacket]
  simp only [receiveData, peerId_buildDataPacket, counter_buildDataPacket, Rust.ok_bind,
    u64FromLeBytes_toLeBytes, size, payload]
  cases found : node.peerManager.findIpByEndpointOrId src peerId with
  | none => exact ⟨_, rfl, .unknown (by simp [found])⟩
  | some ip =>
      cases held : node.peerManager.peersByIp.get ip with
      | none => exact ⟨_, by simp [held], .unknown (by simp [found, held])⟩
      | some peer =>
          simp only [held]
          cases established : peer.cipher with
          | none =>
              refine ⟨_, ?_, .refused ip peer found held (by simp [established])⟩
              simp [Peer.decryptInto, established]
          | some session =>
              obtain ⟨buf, result, run, shape⟩ :=
                Peer.decryptInto_whole established counter ciphertext now
              rcases session.outcome_cases counter ciphertext with
                ⟨_, plaintext, _, outcome⟩ | ⟨_, outcome⟩
              · simp only [outcome, Peer.afterOutcome] at run shape
                obtain ⟨rfl, front⟩ := shape
                refine ⟨_, ?_, .opened ip peer session plaintext found held established outcome⟩
                have whole : slice buf 0 plaintext.length = .ok plaintext := by
                  have enough := congrArg List.length front
                  rw [List.length_take] at enough
                  rw [slice_ok (Nat.zero_le _) (by omega), List.drop_zero, front]
                by_cases differs : peer.endpoint = some src <;>
                  simp [run, whole, acceptFrom, differs]
              · simp only [outcome, Peer.afterOutcome] at run shape
                obtain ⟨error, rfl⟩ := shape
                refine ⟨_, ?_, .refused ip peer found held ?_⟩
                · have same : ({ peer with cipher := some session } : Peer) = peer := by
                    rw [← established]
                  simp [run, same]
                · rintro _ opening
                  cases established.symm.trans opening
                  rw [outcome]

/-- A packet that the session of the record looked up opens is accepted. -/
theorem receiveData_opens {node : Node} {now : Instant} {src : SocketAddr} {peerId : PeerId}
    {counter : UInt64} {ciphertext plaintext : List UInt8} {ip : Ipv4Addr} {peer : Peer}
    {session : SessionCipher} (found : node.peerManager.findIpByEndpointOrId src peerId = some ip)
    (held : node.peerManager.peersByIp.get ip = some peer)
    (established : peer.cipher = some session)
    (outcome : session.outcome counter ciphertext = (session.accepted counter, some plaintext)) :
    node.receiveData now src (buildDataPacket peerId counter ciphertext) =
      .ok (node.withManager (acceptFrom node.peerManager src ip peer
        (peer.received (session.accepted counter) plaintext.length now)),
          some (ip, plaintext)) := by
  obtain ⟨result, run, receives⟩ := node.receiveData_receives now src peerId counter ciphertext
  rw [run]
  cases receives with
  | unknown missing => simp [missing ip found] at held
  | refused other record lookup there closed =>
      cases lookup.symm.trans found
      cases there.symm.trans held
      have refused := closed session established
      simp [outcome] at refused
  | opened other record opening text lookup there opens accepted =>
      cases lookup.symm.trans found
      cases there.symm.trans held
      cases opens.symm.trans established
      cases accepted.symm.trans outcome
      rfl

/-- A data packet that opens is delivered. -/
theorem inbound_opened {node node' : Node} {now : Instant} {src : SocketAddr} {peerId : PeerId}
    {counter : UInt64} {ciphertext plaintext : List UInt8} {sender : Ipv4Addr}
    (nonempty : 0 < ciphertext.length)
    (opened : node.receiveData now src (buildDataPacket peerId counter ciphertext) =
      .ok (node', some (sender, plaintext))) :
    node.inbound now src (buildDataPacket peerId counter ciphertext) =
      node'.deliver now sender plaintext := by
  have long : 13 < (buildDataPacket peerId counter ciphertext).length := by
    rw [length_buildDataPacket]
    omega
  have head : (buildDataPacket peerId counter ciphertext).head? = some pktData := rfl
  rw [inbound, head]
  simp only [handleData, opened, Rust.ok_bind]
  rw [if_neg (by decide), if_pos ⟨trivial, long⟩]

/-- Accepting a packet changes the record it was looked up for, and no other. -/
theorem acceptFrom_peers (pm : PeerManager) (src : SocketAddr) (ip : Ipv4Addr)
    (peer accepted : Peer) :
    ∃ endpoint, ∀ other, (acceptFrom pm src ip peer accepted).peersByIp.get other =
      if other = ip then some { accepted with endpoint := endpoint }
      else pm.peersByIp.get other := by
  unfold acceptFrom
  split
  · rcases PeerManager.updateEndpointIfRoaming_cases src with
      ⟨_, same⟩ | ⟨record, _, moves⟩
    · exact ⟨accepted.endpoint, fun other => by rw [same, HashMap.get_insert]⟩
    · have current := moves.held
      simp only [HashMap.get_insert_self, Option.some.injEq] at current
      refine ⟨some src, fun other => ?_⟩
      rw [moves.peers, HashMap.get_insert, ← current]
      split <;> rfl
  · exact ⟨accepted.endpoint, fun other => by rw [HashMap.get_insert]⟩

/-- Accepting a packet leaves the routes and the purged IPs. -/
theorem acceptFrom_sameRest (pm : PeerManager) (src : SocketAddr) (ip : Ipv4Addr)
    (peer accepted : Peer) :
    pm.SameRest (acceptFrom pm src ip peer accepted) := by
  unfold acceptFrom
  dsimp only
  split
  · exact ((PeerManager.SameRest.refl pm).edit _ _ _).trans
      (PeerManager.updateEndpointIfRoaming_sameRest _ _)
  · exact (PeerManager.SameRest.refl pm).edit _ _ _

end Node

/-- A peer without an endpoint or a connection is sent nothing, and its record stays. -/
theorem encryptAndSend_gated {buf plaintext : List UInt8} {peer : Peer} (myPeerId : PeerId)
    {now : Instant} (gated : peer.endpoint = none ∨ peer.isConnected now = false) :
    encryptAndSend buf plaintext peer myPeerId now = .ok (peer, [], false) := by
  cases placed : peer.endpoint with
  | none => simp [encryptAndSend, placed]
  | some endpoint =>
      have offline : peer.isConnected now = false := gated.resolve_left (by simp [placed])
      simp [encryptAndSend, placed, offline]

/-- A connected peer with an endpoint is sent what its session seals, from any buffer with room. -/
theorem encryptAndSend_room {buf plaintext : List UInt8} {peer : Peer} {session : SessionCipher}
    {endpoint : SocketAddr} (myPeerId : PeerId) {now : Instant}
    (placed : peer.endpoint = some endpoint) (connected : peer.isConnected now = true)
    (established : peer.cipher = some session)
    (room : 13 + plaintext.length + 16 ≤ buf.length)
    (fits : plaintext.length ≤ Crates.plaintextLimit) :
    encryptAndSend buf plaintext peer myPeerId now =
      .ok (peer.sent session plaintext.length, [.sendTo endpoint
        (buildDataPacket myPeerId session.sendCounter (session.sealed plaintext))], true) := by
  have enough : 16 ≤ (buf.drop (13 + plaintext.length)).length := by
    rw [List.length_drop]
    omega
  have copied := @payload_copied buf plaintext (by omega)
  rw [Rust.bind_eq_ok] at copied
  obtain ⟨written, writes, payload⟩ := copied
  have datagram : ∀ rest, slice ([pktData] ++ myPeerId.1 ++ (u64ToLeBytes session.sendCounter).1 ++
      (session.sealed plaintext ++ rest)) 0 (13 + (plaintext.length + 16)) =
        .ok (buildDataPacket myPeerId session.sendCounter (session.sealed plaintext)) := by
    intro rest
    rw [← session.length_sealed plaintext]
    exact slice_buildDataPacket ..
  simp only [encryptAndSend, placed, connected, Bool.not_true, Bool.false_eq_true, if_false,
    writes, payload, Rust.ok_bind, Peer.encryptInto_room established fits enough, datagram,
    Rust.pure_eq]

/-- A plaintext beyond the AEAD's limit is not sent, and uses a nonce of the session up. -/
theorem encryptAndSend_over {buf plaintext : List UInt8} {peer : Peer} {session : SessionCipher}
    {endpoint : SocketAddr} (myPeerId : PeerId) {now : Instant}
    (placed : peer.endpoint = some endpoint) (connected : peer.isConnected now = true)
    (established : peer.cipher = some session) (room : 13 + plaintext.length ≤ buf.length)
    (tooLong : ¬plaintext.length ≤ Crates.plaintextLimit) :
    encryptAndSend buf plaintext peer myPeerId now =
      .ok ({ peer with cipher := some session.sent }, [], false) := by
  have copied := payload_copied room
  rw [Rust.bind_eq_ok] at copied
  obtain ⟨written, writes, payload⟩ := copied
  simp only [encryptAndSend, placed, connected, Bool.not_true, Bool.false_eq_true, if_false,
    writes, payload, Rust.ok_bind, Peer.encryptInto_over established tooLong, Rust.pure_eq]

/-- A connected peer with an endpoint is sent the sealed plaintext under this node's ID. -/
theorem encryptAndSend_eq {peer : Peer} {session : SessionCipher} {endpoint : SocketAddr}
    {plaintext : List UInt8} (myPeerId : PeerId) {now : Instant}
    (placed : peer.endpoint = some endpoint) (connected : peer.isConnected now = true)
    (established : peer.cipher = some session) (read : plaintext.length ≤ 65536)
    (fits : plaintext.length ≤ Crates.plaintextLimit) :
    encryptAndSend sendBuf plaintext peer myPeerId now =
      .ok (peer.sent session plaintext.length, [.sendTo endpoint
        (buildDataPacket myPeerId session.sendCounter (session.sealed plaintext))], true) := by
  have bufLength : sendBuf.length = 65536 + 29 := List.length_replicate ..
  exact encryptAndSend_room myPeerId placed connected established (by omega) fits

end WolfNet
