import WolfNet.Daemon.Periodic
import WolfNet.Daemon.Receive

/-!
# The two packet paths

Data packets are sealed and opened in the daemon's buffers, peer exchanges in vectors of their own.
Both paths build and read the same datagrams and leave the same record, behind the same gates:
`paths_agree`.
-/

namespace WolfNet

open WolfNet.Std WolfNet.Semantics

section Paths

variable [Crates]

namespace Peer

/-- `build_data_packet` at what `Peer::encrypt` gives, sent to an endpoint. -/
def sendAllocating (peer : Peer) (endpoint : SocketAddr) (plaintext : List UInt8)
    (myPeerId : PeerId) : Peer × List Effect × Bool :=
  match peer.encrypt plaintext with
  | (peer, .ok (counter, ciphertext)) =>
    (peer, [.sendTo endpoint (buildDataPacket myPeerId counter ciphertext)], true)
  | (peer, .error _) => (peer, [], false)

/-- `parse_data_packet` and `Peer::decrypt`: the sender's ID and the plaintext, if it is accepted. -/
def openAllocating (peer : Peer) (data : List UInt8) (now : Instant) :
    Rust (Peer × Option (PeerId × List UInt8)) := do
  match ← parseDataPacket data with
  | none => return (peer, none)
  | some (peerId, counter, ciphertext) =>
    match peer.decrypt counter ciphertext now with
    | (peer, .ok plaintext) => return (peer, some (peerId, plaintext))
    | (peer, .error _) => return (peer, none)

/-- The dispatch and slicing of the data arm, and `Peer::decrypt_into`. -/
def openInPlace (peer : Peer) (data : List UInt8) (now : Instant) :
    Rust (Peer × Option (PeerId × List UInt8)) := do
  if ¬(data.head? = some pktData ∧ 13 < data.length) then return (peer, none)
  let peerId ← array data 1 4
  let counter := u64FromLeBytes (← array data 5 8)
  let ctLen := data.length - 13
  let buf ← slice data 13 (13 + ctLen)
  match ← peer.decryptInto counter buf ctLen now with
  | (peer, buf, .ok ptLen) =>
    let plaintext ← slice buf 0 ptLen
    return (peer, some (peerId, plaintext))
  | (peer, _, .error _) => return (peer, none)

variable {peer : Peer} {session : SessionCipher} {now : Instant}

/-- A peer with a session is sent what fits the AEAD, and uses a nonce up either way. -/
theorem sendAllocating_eq (established : peer.cipher = some session) (endpoint : SocketAddr)
    (plaintext : List UInt8) (myPeerId : PeerId) :
    peer.sendAllocating endpoint plaintext myPeerId =
      if plaintext.length ≤ Crates.plaintextLimit then
        (peer.sent session plaintext.length, [.sendTo endpoint
          (buildDataPacket myPeerId session.sendCounter (session.sealed plaintext))], true)
      else ({ peer with cipher := some session.sent }, [], false) := by
  by_cases fits : plaintext.length ≤ Crates.plaintextLimit
  · simp [sendAllocating, encrypt, established, session.encrypt_eq, fits, sent]
  · simp [sendAllocating, encrypt, established, session.encrypt_eq, fits]

/-- Opening in a vector of its own has the outcome of the session. -/
theorem openAllocating_build (peer : Peer) (peerId : PeerId) (counter : UInt64)
    {ciphertext : List UInt8} (nonempty : 0 < ciphertext.length) (now : Instant) :
    peer.openAllocating (buildDataPacket peerId counter ciphertext) now =
      .ok ((peer.decrypt counter ciphertext now).1,
        (peer.decrypt counter ciphertext now).2.toOption.map fun plaintext =>
          (peerId, plaintext)) := by
  have size := length_buildDataPacket peerId counter ciphertext
  have type : index (buildDataPacket peerId counter ciphertext) 0 = .ok pktData := rfl
  have payload : slice (buildDataPacket peerId counter ciphertext) 13
      (buildDataPacket peerId counter ciphertext).length = .ok ciphertext := by
    rw [slice_ok (by omega) le_rfl, List.take_length, drop_buildDataPacket]
  have parsed : parseDataPacket (buildDataPacket peerId counter ciphertext) =
      .ok (some (peerId, counter, ciphertext)) := by
    rw [parseDataPacket, if_neg (by omega), type, peerId_buildDataPacket, counter_buildDataPacket,
      payload]
    simp
  simp only [openAllocating, parsed, Rust.ok_bind]
  rcases opened : peer.decrypt counter ciphertext now with ⟨next, _ | plaintext⟩ <;> rfl

/-- Opening in the receive buffer does what `Peer::decrypt` does. -/
theorem openInPlace_build (peer : Peer) (peerId : PeerId) (counter : UInt64)
    {ciphertext : List UInt8} (nonempty : 0 < ciphertext.length) (now : Instant) :
    peer.openInPlace (buildDataPacket peerId counter ciphertext) now =
      .ok ((peer.decrypt counter ciphertext now).1,
        (peer.decrypt counter ciphertext now).2.toOption.map fun plaintext =>
          (peerId, plaintext)) := by
  have size := length_buildDataPacket peerId counter ciphertext
  have behind : (buildDataPacket peerId counter ciphertext).length - 13 = ciphertext.length := by
    omega
  have payload : slice (buildDataPacket peerId counter ciphertext) 13 (13 + ciphertext.length) =
      .ok ciphertext := by
    rw [← size, slice_ok (by omega) le_rfl, List.take_length, drop_buildDataPacket]
  have taken : ¬¬((buildDataPacket peerId counter ciphertext).head? = some pktData ∧
      13 < (buildDataPacket peerId counter ciphertext).length) := not_not.mpr ⟨rfl, by omega⟩
  simp only [openInPlace, if_neg taken, peerId_buildDataPacket, counter_buildDataPacket,
    Rust.ok_bind, u64FromLeBytes_toLeBytes, behind, payload]
  cases established : peer.cipher with
  | none => simp [decryptInto, decrypt, established, Except.toOption]
  | some session =>
      obtain ⟨buf, result, inPlace, shape⟩ := decryptInto_whole established counter ciphertext now
      obtain ⟨result', allocating, shape'⟩ := session.decrypt_eq counter ciphertext
      rcases outcome : session.outcome counter ciphertext with ⟨next, _ | plaintext⟩
      · simp only [outcome, afterOutcome] at inPlace shape allocating shape'
        obtain ⟨error, rfl⟩ := shape
        obtain ⟨error', rfl⟩ := shape'
        simp [inPlace, decrypt, established, allocating, Except.toOption]
      · simp only [outcome, afterOutcome] at inPlace shape allocating shape'
        obtain ⟨rfl, front⟩ := shape
        subst shape'
        have enough := congrArg List.length front
        rw [List.length_take] at enough
        have whole : slice buf 0 plaintext.length = .ok plaintext := by
          rw [slice_ok (Nat.zero_le _) (by omega), List.drop_zero, front]
        simp [inPlace, whole, decrypt, established, allocating, Except.toOption]

/-- What is no data packet is refused by both paths. -/
theorem open_refused {data : List UInt8}
    (other : ¬(data.head? = some pktData ∧ 13 < data.length)) :
    peer.openInPlace data now = .ok (peer, none) ∧
      peer.openAllocating data now = .ok (peer, none) := by
  refine ⟨by simp only [openInPlace, if_pos other, Rust.pure_eq], ?_⟩
  have refused : parseDataPacket data = .ok none := by
    unfold parseDataPacket
    by_cases short : data.length < 14
    · rw [if_pos short]
      rfl
    · rw [if_neg short]
      cases data with
      | nil => simp at short
      | cons type rest =>
          have typed : type ≠ pktData := by
            rintro rfl
            exact other ⟨rfl, by omega⟩
          have read : index (type :: rest) 0 = .ok type := rfl
          simp [read, typed]
  simp only [openAllocating, refused, Rust.ok_bind, Rust.pure_eq]

end Peer

namespace Node

variable {node : Node} {now : Instant} {ip : Ipv4Addr} {peer : Peer}

/-- A peer exchange goes through the allocating path. -/
theorem exchangeWith_eq {endpoint : SocketAddr} (packet : List UInt8)
    (held : node.peerManager.peersByIp.get ip = some peer)
    (connected : peer.isConnected now = true) (placed : peer.endpoint = some endpoint) :
    node.exchangeWith packet now ip =
      (node.withManager { node.peerManager with
        peersByIp := node.peerManager.peersByIp.insert ip
          (peer.sendAllocating endpoint packet node.keypair.myPeerId).1 },
        (peer.sendAllocating endpoint packet node.keypair.myPeerId).2.1) := by
  rcases sealing : peer.encrypt packet with ⟨next, _ | packet⟩
  · simp [exchangeWith, held, connected, placed, Peer.sendAllocating, sealing]
  · simp only [exchangeWith, held, connected, placed, Peer.sendAllocating, sealing]
    rfl

/-- The data arm goes through the in-place path, at the record it looked up. -/
theorem receiveData_eq {src : SocketAddr} {peerId : PeerId} (counter : UInt64)
    {ciphertext : List UInt8} (nonempty : 0 < ciphertext.length)
    (found : node.peerManager.findIpByEndpointOrId src peerId = some ip)
    (held : node.peerManager.peersByIp.get ip = some peer) {next : Peer}
    {opened : Option (PeerId × List UInt8)}
    (run : peer.openInPlace (buildDataPacket peerId counter ciphertext) now = .ok (next, opened)) :
    node.receiveData now src (buildDataPacket peerId counter ciphertext) =
      .ok (node.withManager (if opened.isSome then acceptFrom node.peerManager src ip peer next
        else { node.peerManager with peersByIp := node.peerManager.peersByIp.insert ip next }),
          opened.map fun packet => (ip, packet.2)) := by
  have size := length_buildDataPacket peerId counter ciphertext
  have taken : ¬¬((buildDataPacket peerId counter ciphertext).head? = some pktData ∧
      13 < (buildDataPacket peerId counter ciphertext).length) := not_not.mpr ⟨rfl, by omega⟩
  simp only [Peer.openInPlace, if_neg taken, peerId_buildDataPacket, counter_buildDataPacket,
    Rust.ok_bind, u64FromLeBytes_toLeBytes, Rust.bind_eq_ok] at run
  obtain ⟨buf, sliced, ⟨after, buf', result⟩, decrypted, rest⟩ := run
  simp only [receiveData, peerId_buildDataPacket, counter_buildDataPacket, Rust.ok_bind,
    u64FromLeBytes_toLeBytes, found, held, sliced, decrypted]
  cases result with
  | error _ =>
      cases rest
      rfl
  | ok ptLen =>
      rw [Rust.bind_eq_ok] at rest
      obtain ⟨plaintext, whole, same⟩ := rest
      cases same
      by_cases differs : peer.endpoint = some src <;> simp [whole, acceptFrom, differs]

end Node

/-- A peer that is connected and has an endpoint is sent by `encrypt_and_send` what
`build_data_packet` makes of `Peer::encrypt`, and no other peer is sent anything; what is accepted
from a peer in place is what `parse_data_packet` and `Peer::decrypt` accept. The record left is the
same. -/
theorem paths_agree (peer : Peer) (myPeerId : PeerId) (now : Instant) :
    (∀ buf plaintext, 13 + plaintext.length + 16 ≤ buf.length →
      (∀ endpoint, peer.endpoint = some endpoint → peer.isConnected now = true →
        encryptAndSend buf plaintext peer myPeerId now =
          .ok (peer.sendAllocating endpoint plaintext myPeerId)) ∧
      (peer.endpoint = none ∨ peer.isConnected now = false →
        encryptAndSend buf plaintext peer myPeerId now = .ok (peer, [], false))) ∧
    ∀ data, peer.openInPlace data now = peer.openAllocating data now := by
  refine ⟨fun buf plaintext room => ⟨fun endpoint placed connected => ?_,
    encryptAndSend_gated myPeerId⟩, fun data => ?_⟩
  · obtain ⟨session, established⟩ := Peer.exists_session connected
    rw [Peer.sendAllocating_eq established]
    by_cases fits : plaintext.length ≤ Crates.plaintextLimit
    · rw [if_pos fits, encryptAndSend_room myPeerId placed connected established room fits]
    · rw [if_neg fits,
        encryptAndSend_over myPeerId placed connected established (by omega) fits]
  · by_cases taken : data.head? = some pktData ∧ 13 < data.length
    · obtain ⟨peerId, counter, ciphertext, rfl⟩ := exists_buildDataPacket taken.1 taken.2
      have nonempty : 0 < ciphertext.length := by
        have long := taken.2
        rw [length_buildDataPacket] at long
        omega
      rw [peer.openInPlace_build peerId counter nonempty,
        peer.openAllocating_build peerId counter nonempty]
    · obtain ⟨inPlace, allocating⟩ : peer.openInPlace data now = .ok (peer, none) ∧
          peer.openAllocating data now = .ok (peer, none) := Peer.open_refused taken
      rw [inPlace, allocating]

end Paths

section Sample

attribute [local instance] Sample.crates

/-- A peer with a session that was never heard of is sent nothing, and keeps its send counter, while
`Peer::encrypt` seals the packet and uses a nonce up. -/
theorem gated_not_encrypted :
    ∃ (peer : Peer) (plaintext : List UInt8) (myPeerId : PeerId) (now : Instant),
      13 + plaintext.length + 16 ≤ sendBuf.length ∧
      encryptAndSend sendBuf plaintext peer myPeerId now = .ok (peer, [], false) ∧
      ∃ next counter ciphertext, peer.encrypt plaintext = (next, .ok (counter, ciphertext)) ∧
        next.cipher ≠ peer.cipher := by
  have bufLength : sendBuf.length = 65536 + 29 := List.length_replicate ..
  refine ⟨Sample.record 1 2, [1, 2, 3], (Sample.keypair 1).myPeerId, 0, ?_,
    encryptAndSend_gated _ (Or.inl rfl), _, _, _, rfl, by decide⟩
  rw [bufLength]
  decide

end Sample
end WolfNet
