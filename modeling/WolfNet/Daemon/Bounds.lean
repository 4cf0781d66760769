import WolfNet.Daemon.Buffers
import WolfNet.Semantics.Scratch
import WolfNet.Transport.Handshake

/-!
# The packet path stays in its buffers

No access of the packet path is out of range, whatever is read and whatever the tables hold: the
loop in its buffers simulates the node without them. The checks that an access relies on are the
length of a datagram, the tag that a ciphertext holds, and the 29 bytes by which the send buffer
exceeds the longest read.
-/

namespace WolfNet.EventLoop

open WolfNet.Std WolfNet.Semantics

/-- The counters are subtracted only where that does not underflow. -/
theorem isReplay_ok (session : SessionCipher) (counter : UInt64) :
    isReplay session counter = .ok (session.isReplay counter) := by
  unfold isReplay SessionCipher.isReplay
  split
  · next checked =>
      have ordered : counter ≤ session.recvCounter := by
        simp only [Bool.and_eq_true, decide_eq_true_eq] at checked
        exact checked.1.1
      have age : (session.recvCounter - counter).toNat =
          session.recvCounter.toNat - counter.toNat := UInt64.toNat_sub_of_le _ _ ordered
      have subtracted : checkedSub session.recvCounter.toNat counter.toNat =
          .ok (session.recvCounter - counter).toNat := by
        rw [age]
        exact checkedSub_ok ordered
      rw [checked, subtracted, Bool.true_and]
      rfl
  · next unchecked => rw [Bool.eq_false_iff.mpr unchecked]; rfl

/-- The mask is computed in bounds for every prefix length. -/
theorem prefixMask_ok (bits : Nat) (prefixLen : UInt8) :
    prefixMask bits prefixLen = .ok (PeerManager.prefixMask bits prefixLen) := by
  unfold prefixMask PeerManager.prefixMask
  split
  · rfl
  · split
    · rfl
    · next shorter => rw [checkedSub_ok (by omega)]; rfl

/-- The loop finds what the lookup without masks that may fail does. -/
theorem firstMatch_ok {bits : Nat} (dest : BitVec bits)
    (routes : List (BitVec bits × UInt8 × Ipv4Addr)) :
    firstMatch dest routes = .ok ((routes.find? fun route =>
      dest &&& PeerManager.prefixMask bits route.2.1 ==
        route.1 &&& PeerManager.prefixMask bits route.2.1).map fun route => route.2.2) := by
  induction routes with
  | nil => rfl
  | cons route routes ih =>
      rw [firstMatch, prefixMask_ok, Rust.ok_bind, List.find?_cons]
      split
      · next hit => simp [hit]
      · next miss => rw [ih, beq_eq_false_iff_ne.mpr miss]

/-- The three parts of a header replace what the front of the buffer held. -/
theorem header_stored {size : Nat} {buf : SizedBytes size} {front payload : List UInt8}
    (contents : buf.1 = front ++ payload) (frontLength : front.length = 13) (type : UInt8)
    (peerId : PeerId) (counter : SizedBytes 8) :
    ∃ first second third, buf.store 0 [type] = .ok first ∧
      first.store 1 peerId.1 = .ok second ∧ second.store 5 counter.1 = .ok third ∧
      third.1 = [type] ++ peerId.1 ++ counter.1 ++ payload := by
  obtain ⟨oldType, oldId, oldCounter, rfl, sizes⟩ : ∃ oldType oldId oldCounter : List UInt8,
      front = oldType ++ (oldId ++ oldCounter) ∧
        oldType.length = 1 ∧ oldId.length = 4 ∧ oldCounter.length = 8 := by
    refine ⟨front.take 1, (front.drop 1).take 4, front.drop 5, ?_, ?_⟩
    · rw [← List.drop_drop (i := 4) (j := 1), List.take_append_drop, List.take_append_drop]
    · simp [frontLength]
  obtain ⟨first, stores, firstIs⟩ := @SizedBytes.store_append _ 0 buf [] oldType
    (oldId ++ (oldCounter ++ payload)) [type] (by simp [contents]) rfl sizes.1.symm
  obtain ⟨second, stores', secondIs⟩ := @SizedBytes.store_append _ 1 first [type] oldId
    (oldCounter ++ payload) peerId.1 firstIs rfl (peerId.2.trans sizes.2.1.symm)
  obtain ⟨third, stores'', thirdIs⟩ := @SizedBytes.store_append _ 5 second ([type] ++ peerId.1)
    oldCounter payload counter.1 (by simp [secondIs]) (by simp [peerId.2])
    (counter.2.trans sizes.2.2.symm)
  exact ⟨first, second, third, stores, stores', stores'', by simp [thirdIs]⟩

/-- A plaintext stored behind the header is followed by the room that is left. -/
theorem plaintext_stored {size : Nat} (buf : SizedBytes size) {plaintext : List UInt8}
    (room : 13 + plaintext.length ≤ size) :
    ∃ stored front rest, buf.store 13 plaintext = .ok stored ∧ front.length = 13 ∧
      stored.1 = front ++ (plaintext ++ rest) ∧ rest.length + (13 + plaintext.length) = size ∧
      slice stored.1 13 size = .ok (plaintext ++ rest) := by
  obtain ⟨stored, run, value⟩ := @SizedBytes.store_ok _ 13 buf plaintext room
  have header : (buf.1.take 13).length = 13 := by
    rw [List.length_take, buf.2]
    omega
  refine ⟨stored, buf.1.take 13, buf.1.drop (13 + plaintext.length), run, header, ?_, ?_, ?_⟩
  · rw [value, List.append_assoc]
  · rw [List.length_drop, buf.2]
    omega
  · rw [slice_ok (by omega) stored.2.ge, List.take_of_length_le stored.2.le, value,
      List.append_assoc, List.drop_left' header]

/-- What is stored in place of the ciphertext is read back. -/
theorem opened_stored {size : Nat} {buf : SizedBytes size} {header ciphertext behind : List UInt8}
    (contents : buf.1 = header ++ (ciphertext ++ behind)) (headerLength : header.length = 13)
    {opened : List UInt8} (sameLength : opened.length = ciphertext.length) :
    ∃ stored, buf.store 13 opened = .ok stored ∧ ∀ len ≤ opened.length,
      slice stored.1 13 (13 + len) = .ok (opened.take len) := by
  obtain ⟨stored, run, value⟩ := SizedBytes.store_append contents headerLength sameLength
  refine ⟨stored, run, fun len within => ?_⟩
  rw [value, slice_ok (Nat.le_add_right _ _) (by simp [headerLength]; omega), ← headerLength,
    List.take_length_add_append, List.drop_left, List.take_append_of_le_length within]

variable [Crates] {node : Node} {now : Instant} {plaintext : List UInt8} {peer : Peer}

/-- Decryption in place never slices out of bounds. -/
theorem decryptInto_eq (session : SessionCipher) (counter : UInt64) (buf : List UInt8)
    (len : Nat) : decryptInto session counter buf len = session.decryptInto counter buf len := by
  unfold decryptInto SessionCipher.decryptInto
  rw [isReplay_ok, Rust.ok_bind]
  split
  · rfl
  · split
    · rfl
    · next long =>
        have tag := slice_arrayFrom buf (len - 16) 16
        rw [Nat.sub_add_cancel (Nat.le_of_not_lt long)] at tag
        rw [checkedSub_ok (Nat.le_of_not_lt long), Rust.ok_bind]
        dsimp only
        rw [← tag]
        exact (bind_assoc _ _ _).symm

/-- Nor does it with the bookkeeping of the peer around it. -/
theorem peerDecryptInto_eq (peer : Peer) (counter : UInt64) (buf : List UInt8) (len : Nat)
    (now : Instant) :
    peerDecryptInto peer counter buf len now = peer.decryptInto counter buf len now := by
  unfold peerDecryptInto Peer.decryptInto
  cases peer.cipher with
  | none => rfl
  | some session => exact congrArg (· >>= _) (decryptInto_eq session counter buf len)

/-- A peer exchange is parsed in bounds. -/
theorem parsePeerExchange_ok (data : List UInt8) :
    parsePeerExchange data = .ok (WolfNet.parsePeerExchange data) := by
  cases data with
  | nil => rfl
  | cons type json =>
      have tail : slice (type :: json) 1 (type :: json).length = .ok json := by
        rw [slice_ok (by simp) le_rfl, List.take_length, List.drop_one, List.tail_cons]
      have first : index (type :: json) 0 = .ok type := rfl
      unfold parsePeerExchange WolfNet.parsePeerExchange
      rw [if_neg (by simp), first, tail]
      by_cases other : type = pktPeerExchange <;> simp [other]

/-- The search of the IPv4 prefixes is in bounds. -/
theorem findSubnetMatch_ok (pm : PeerManager) (destIp : Ipv4Addr) :
    findSubnetMatch pm destIp = .ok (pm.findSubnetMatch destIp) := by
  rw [findSubnetMatch, firstMatch_ok, PeerManager.findSubnetMatch, List.find?_map, Option.map_map]
  rfl

/-- The search of the IPv6 prefixes is in bounds. -/
theorem findSubnetMatchV6_ok (pm : PeerManager) (destIp : Ipv6Addr) :
    findSubnetMatchV6 pm destIp = .ok (pm.findSubnetMatchV6 destIp) := by
  rw [findSubnetMatchV6, firstMatch_ok, PeerManager.findSubnetMatchV6, List.find?_map,
    Option.map_map]
  rfl

section Sending

variable {session : SessionCipher} {endpoint : SocketAddr} (sendBuf : SizedBytes (65536 + 29))
  (myPeerId : PeerId)

/-- A read and 29 bytes more fit in the send buffer. -/
theorem encryptAndSend_fits (placed : peer.endpoint = some endpoint)
    (connected : peer.isConnected now = true) (established : peer.cipher = some session)
    (read : plaintext.length ≤ 65536) (fits : plaintext.length ≤ Crates.plaintextLimit) :
    ∃ sendBuf', encryptAndSend sendBuf plaintext peer myPeerId now =
      .ok (sendBuf', peer.sent session plaintext.length, [.sendTo endpoint
        (buildDataPacket myPeerId session.sendCounter (session.sealed plaintext))], true) := by
  obtain ⟨copied, front, room, stores, header, contents, left, payload⟩ :=
    @plaintext_stored _ sendBuf plaintext (by omega)
  have sealed := @Peer.encryptInto_room _ peer session established plaintext room fits (by omega)
  obtain ⟨written, stores', writtenIs⟩ := @SizedBytes.store_append _ 13 copied front
    (plaintext ++ room) [] (session.sealed plaintext ++ room.drop 16) (by simp [contents]) header
    (by simp; omega)
  rw [List.append_nil] at writtenIs
  obtain ⟨first, second, third, stores₁, stores₂, stores₃, thirdIs⟩ := header_stored
    writtenIs header pktData myPeerId (u64ToLeBytes session.sendCounter)
  have datagram : slice third.1 0 (13 + (plaintext.length + 16)) =
      .ok (buildDataPacket myPeerId session.sendCounter (session.sealed plaintext)) := by
    rw [thirdIs, ← session.length_sealed plaintext]
    exact slice_buildDataPacket ..
  refine ⟨third, ?_⟩
  simp only [encryptAndSend, placed, connected, Bool.not_true, Bool.false_eq_true, if_false, stores,
    payload, Rust.ok_bind, sealed, stores', stores₁, stores₂, stores₃, datagram, Rust.pure_eq]

/-- What the AEAD refuses is left in the buffer. -/
theorem encryptAndSend_refused (placed : peer.endpoint = some endpoint)
    (connected : peer.isConnected now = true) (established : peer.cipher = some session)
    (read : plaintext.length ≤ 65536) (tooLong : ¬plaintext.length ≤ Crates.plaintextLimit) :
    ∃ sendBuf', encryptAndSend sendBuf plaintext peer myPeerId now =
      .ok (sendBuf', { peer with cipher := some session.sent }, [], false) := by
  obtain ⟨copied, front, room, stores, header, contents, left, payload⟩ :=
    @plaintext_stored _ sendBuf plaintext (by omega)
  obtain ⟨written, stores', _⟩ := @SizedBytes.store_ok _ 13 copied (plaintext ++ room)
    (by rw [List.length_append]; omega)
  refine ⟨written, ?_⟩
  simp only [encryptAndSend, placed, connected, Bool.not_true, Bool.false_eq_true, if_false, stores,
    payload, Rust.ok_bind, Peer.encryptInto_over established tooLong, stores', Rust.pure_eq]

/-- Sending never leaves the buffer, and does not depend on what the buffer held. -/
theorem encryptAndSend_ok (peer : Peer) (now : Instant) (read : plaintext.length ≤ 65536) :
    ∃ sendBuf' result, encryptAndSend sendBuf plaintext peer myPeerId now = .ok (sendBuf', result) ∧
      WolfNet.encryptAndSend WolfNet.sendBuf plaintext peer myPeerId now = .ok result := by
  cases placed : peer.endpoint with
  | none =>
      exact ⟨sendBuf, _, by rw [encryptAndSend, placed]; rfl, encryptAndSend_gated _ (.inl placed)⟩
  | some endpoint =>
      cases connected : peer.isConnected now with
      | false =>
          exact ⟨sendBuf, _, by rw [encryptAndSend, placed, connected]; rfl,
            encryptAndSend_gated _ (.inr connected)⟩
      | true =>
          obtain ⟨session, established⟩ := Peer.exists_session connected
          by_cases fits : plaintext.length ≤ Crates.plaintextLimit
          · obtain ⟨sendBuf', run⟩ :=
              encryptAndSend_fits sendBuf myPeerId placed connected established read fits
            exact ⟨sendBuf', _, run,
              encryptAndSend_eq myPeerId placed connected established read fits⟩
          · obtain ⟨sendBuf', run⟩ :=
              encryptAndSend_refused sendBuf myPeerId placed connected established read fits
            have bufLength : WolfNet.sendBuf.length = 65536 + 29 := List.length_replicate ..
            exact ⟨sendBuf', _, run,
              encryptAndSend_over myPeerId placed connected established (by omega) fits⟩

/-- Sending to a peer panics nowhere and does what the model says. -/
theorem sendToPeer_simulates (ip : Ipv4Addr) (read : plaintext.length ≤ 65536) :
    Simulates (sendToPeer node ip plaintext now) (node.sendToPeer ip plaintext now) := by
  intro buffers
  unfold sendToPeer Node.sendToPeer
  cases node.peerManager.peersByIp.get ip with
  | none => exact ⟨_, buffers, rfl, rfl⟩
  | some peer =>
      obtain ⟨sendBuf, result, run, same⟩ := encryptAndSend_ok buffers.sendBuf
        node.keypair.myPeerId peer now read
      refine .after rfl (.after (liftM_run run) ?_)
      dsimp only
      rw [same]
      exact ⟨_, { buffers with sendBuf := sendBuf }, rfl, rfl⟩

/-- So does sending along a route, if there is one. -/
theorem sendAlong_simulates (route : Option Ipv4Addr) (read : plaintext.length ≤ 65536) :
    Simulates (sendAlong node route plaintext now) (node.sendAlong route plaintext now) := by
  cases route with
  | none => exact .pure _
  | some ip => exact sendToPeer_simulates ip read

/-- So does sending to the targets of a broadcast, one after the other. -/
theorem sendBroadcast_simulates (read : plaintext.length ≤ 65536) (relayed : List Ipv4Addr)
    (targets : List (Ipv4Addr × Option Ipv4Addr)) :
    Simulates (sendBroadcast node plaintext now relayed targets)
      (node.sendBroadcast plaintext now relayed targets) := by
  induction targets generalizing node relayed with
  | nil => exact .pure _
  | cons target targets ih =>
      obtain ⟨ip, _ | relay⟩ := target
      · refine (sendToPeer_simulates ip read).bind fun sent _ => ?_
        exact (ih relayed).bind fun others _ => .pure _
      · refine .ite (fun _ => ih relayed) fun _ => ?_
        refine (sendToPeer_simulates relay read).bind fun sent _ => ?_
        exact (ih (relay :: relayed)).bind fun others _ => .pure _

/-- So does the fallback to relays and gateways. -/
theorem outboundFallback_simulates (destIp : Ipv4Addr) (read : plaintext.length ≤ 65536) :
    Simulates (outboundFallback node destIp plaintext now)
      (node.outboundFallback destIp plaintext now) := by
  unfold outboundFallback Node.outboundFallback
  cases node.peerManager.findRelayFor destIp now with
  | some relay => exact (sendToPeer_simulates relay read).bind fun sent _ => .pure _
  | none => exact (sendAlong_simulates _ read).bind fun sent _ => .pure _

/-- So does the dispatch of a unicast packet from the TUN device. -/
theorem outboundUnicast_simulates (destIp : Ipv4Addr) (read : plaintext.length ≤ 65536) :
    Simulates (outboundUnicast node destIp plaintext now)
      (node.outboundUnicast destIp plaintext now) := by
  refine (sendToPeer_simulates destIp read).bind fun direct _ => ?_
  refine .ite (fun _ => .pure _) fun _ => ?_
  refine (sendAlong_simulates _ read).bind fun routed _ => ?_
  refine .ite (fun _ => .pure _) fun _ => ?_
  refine .after_lift (findSubnetMatch_ok _ _) ?_
  refine (sendAlong_simulates _ read).bind fun routed _ => ?_
  exact .ite (fun _ => .pure _) fun _ => outboundFallback_simulates destIp read

/-- So does the routing of a decrypted IPv4 packet. -/
theorem routeInbound_simulates (destIp : Ipv4Addr) (read : plaintext.length ≤ 65536) :
    Simulates (routeInbound node now destIp plaintext)
      (node.routeInbound now destIp plaintext) := by
  refine .ite (fun _ => .pure _) fun _ => ?_
  refine (sendToPeer_simulates destIp read).bind fun direct _ => ?_
  refine .ite (fun _ => .pure _) fun _ => ?_
  cases direct.1.peerManager.findRoute destIp with
  | some hostIp =>
      refine .ite (fun _ => .pure _) fun _ => ?_
      exact (sendToPeer_simulates hostIp read).bind fun routed _ => .pure _
  | none =>
      refine .after_lift (findSubnetMatch_ok _ _) ?_
      cases direct.1.peerManager.findSubnetMatch destIp with
      | some gwIp =>
          refine .ite (fun _ => .pure _) fun _ => ?_
          exact (sendToPeer_simulates gwIp read).bind fun routed _ => .pure _
      | none => exact .pure _

/-- So does the routing of a decrypted IPv6 packet. -/
theorem routeInboundV6_simulates (dest6 : Ipv6Addr) (read : plaintext.length ≤ 65536) :
    Simulates (routeInboundV6 node now dest6 plaintext)
      (node.routeInboundV6 now dest6 plaintext) := by
  refine .after_lift (findSubnetMatchV6_ok _ _) ?_
  unfold Node.routeInboundV6
  cases node.peerManager.findSubnetMatchV6 dest6 with
  | some gwIp =>
      refine .ite (fun _ => .pure _) fun _ => ?_
      exact (sendToPeer_simulates gwIp read).bind fun routed _ => .pure _
  | none => exact .pure _

end Sending

section Receiving

/-- A datagram lies at the front of the receive buffer. -/
theorem receiveData_runs {buffers : Buffers} {src : SocketAddr} {peerId : PeerId}
    {counter : UInt64} {ciphertext behind : List UInt8}
    (contents : buffers.recvBuf.1 = buildDataPacket peerId counter ciphertext ++ behind) :
    RunsTo (receiveData node now src (13 + ciphertext.length)) buffers
      (node.receiveData now src (buildDataPacket peerId counter ciphertext)) := by
  have size := length_buildDataPacket peerId counter ciphertext
  have idBytes : array buffers.recvBuf.1 1 4 = .ok peerId := by
    rw [contents, array_append_left (by omega), peerId_buildDataPacket]
  have counterBytes : array buffers.recvBuf.1 5 8 = .ok (u64ToLeBytes counter) := by
    rw [contents, array_append_left (by omega), counter_buildDataPacket]
  have payload : slice (buildDataPacket peerId counter ciphertext) 13 (13 + ciphertext.length) =
      .ok ciphertext := by
    rw [← size, slice_ok (by omega) le_rfl, List.take_length, drop_buildDataPacket]
  have cut : checkedSub (13 + ciphertext.length) 13 = .ok ciphertext.length := by
    rw [checkedSub_ok (Nat.le_add_right _ _), Nat.add_sub_cancel_left]
  refine .after rfl (.after (liftM_run idBytes) (.after rfl (.after (liftM_run counterBytes) ?_)))
  refine .after (liftM_run cut) ?_
  simp only [Node.receiveData, peerId_buildDataPacket, counter_buildDataPacket, Rust.ok_bind,
    u64FromLeBytes_toLeBytes, size, Nat.add_sub_cancel_left, payload]
  cases node.peerManager.findIpByEndpointOrId src peerId with
  | none => exact ⟨_, buffers, rfl, rfl⟩
  | some ip =>
      dsimp only
      cases node.peerManager.peersByIp.get ip with
      | none => exact ⟨_, buffers, rfl, rfl⟩
      | some peer =>
          obtain ⟨next, opened, result, run, sameLength, within⟩ :=
            peer.decryptInto_within counter ciphertext now
          have received : slice buffers.recvBuf.1 13 (13 + ciphertext.length) = .ok ciphertext := by
            rw [contents, slice_append_left (by omega) size.ge, payload]
          obtain ⟨header, headerLength, parts⟩ : ∃ header : List UInt8, header.length = 13 ∧
              buffers.recvBuf.1 = header ++ (ciphertext ++ behind) :=
            ⟨[pktData] ++ peerId.1 ++ (u64ToLeBytes counter).1,
              by simp [peerId.2, (u64ToLeBytes counter).2],
              by rw [contents, buildDataPacket, List.append_assoc]⟩
          obtain ⟨recvBuf, stores, readBack⟩ := opened_stored parts headerLength sameLength
          refine .after rfl (.after (liftM_run received) (.after (liftM_run
            ((peerDecryptInto_eq ..).trans run)) (.after (liftM_run stores) (.after rfl ?_))))
          simp only [run, Rust.ok_bind]
          cases result with
          | error text => exact ⟨_, { buffers with recvBuf := recvBuf }, rfl, rfl⟩
          | ok ptLen =>
              have enough : ptLen ≤ opened.length := sameLength ▸ within ptLen rfl
              refine .after (liftM_run (readBack ptLen enough)) ?_
              dsimp only
              rw [slice_ok (Nat.zero_le _) enough]
              exact ⟨_, { buffers with recvBuf := recvBuf }, rfl, rfl⟩

omit [Crates] in
/-- Looking at the first byte of a longer packet is in bounds. -/
theorem isType_ok (plaintext : List UInt8) (type : UInt8) :
    isType plaintext type =
      .ok (decide (1 < plaintext.length ∧ plaintext.head? = some type)) := by
  cases plaintext with
  | nil => rfl
  | cons first rest =>
      have here : index (first :: rest) 0 = .ok first := rfl
      unfold isType
      split
      · next short =>
          rw [decide_eq_false fun typed => absurd typed.1 (Nat.not_lt.mpr short)]
          rfl
      · next long =>
          have more : 1 < (first :: rest).length := Nat.lt_of_not_le long
          simp only [here, Rust.ok_bind, Rust.pure_eq, List.head?_cons, Option.some.injEq, more,
            true_and]
          rfl

/-- The dispatch of a decrypted packet panics nowhere and does what the model says. -/
theorem deliver_simulates (peerIp : Ipv4Addr) (read : plaintext.length ≤ 65536) :
    Simulates (deliver node now peerIp plaintext) (node.deliver now peerIp plaintext) := by
  refine .after_lift (isType_ok _ _) ?_
  unfold Node.deliver
  by_cases exchange : 1 < plaintext.length ∧ plaintext.head? = some pktPeerExchange
  · rw [if_pos exchange, if_pos (decide_eq_true exchange)]
    refine .after_lift (parsePeerExchange_ok _) ?_
    cases WolfNet.parsePeerExchange plaintext with
    | none => exact .pure _
    | some entries => exact .pure _
  · rw [if_neg exchange, if_neg (by simp [exchange])]
    refine .after_lift (isType_ok _ _) ?_
    by_cases handshake : 1 < plaintext.length ∧ plaintext.head? = some pktHandshake
    · rw [if_pos handshake, if_pos (decide_eq_true handshake)]
      exact .pure _
    · rw [if_neg handshake, if_neg (by simp [handshake])]
      refine (Simulates.lift (getDestIp_ok plaintext)).bind fun dest _ => ?_
      cases dest with
      | some destIp => exact routeInbound_simulates destIp read
      | none =>
          refine (Simulates.lift (getDestIp6_ok plaintext)).bind fun dest6 _ => ?_
          cases dest6 with
          | some destIp => exact routeInboundV6_simulates destIp read
          | none => exact .pure _

/-- The data arm runs on the receive buffer and leaves what is behind the datagram. -/
theorem handleData_runs {buffers : Buffers} {src : SocketAddr} {data behind : List UInt8}
    (contents : buffers.recvBuf.1 = data ++ behind) (type : data.head? = some pktData)
    (long : 13 < data.length) :
    RunsTo (handleData node now src data.length) buffers (node.handleData now src data) := by
  obtain ⟨peerId, counter, ciphertext, rfl⟩ := exists_buildDataPacket type long
  have size := congrArg List.length contents
  rw [buffers.recvBuf.2, List.length_append, length_buildDataPacket] at size
  obtain ⟨result, run, receives⟩ := node.receiveData_receives now src peerId counter ciphertext
  rw [length_buildDataPacket]
  refine (receiveData_runs contents).bind fun received buffers' same => ?_
  cases run.symm.trans same
  cases receives with
  | unknown missing => exact Simulates.pure _ buffers'
  | refused ip peer found held closed => exact Simulates.pure _ buffers'
  | opened ip peer session plaintext found held established outcome =>
      have within := session.outcome_within (congrArg Prod.snd outcome)
      exact deliver_simulates ip (by omega) buffers'

/-- The handshake arm panics for no datagram. -/
theorem handleHandshake_ok (node : Node) (now : Instant) (src : SocketAddr) (data : List UInt8) :
    ∃ result, node.handleHandshake now src data = .ok result := by
  obtain ⟨parsed, run⟩ := parseHandshake_ok data
  rw [Node.handleHandshake, run]
  cases parsed with
  | none => exact ⟨_, rfl⟩
  | some hs => exact ⟨_, rfl⟩

/-- The keepalive arm panics for no datagram that is long enough for an ID. -/
theorem handleKeepalive_ok (node : Node) (now : Instant) (src : SocketAddr) {data : List UInt8}
    (long : 5 ≤ data.length) : ∃ result, node.handleKeepalive now src data = .ok result := by
  rw [Node.handleKeepalive, array, dif_pos long, Rust.ok_bind]
  dsimp only
  split <;> exact ⟨_, rfl⟩

/-- The keepalive arm reads the five bytes that are checked for. -/
theorem handleKeepalive_append (node : Node) (now : Instant) (src : SocketAddr)
    {data behind : List UInt8} (long : 5 ≤ data.length) :
    node.handleKeepalive now src (data ++ behind) = node.handleKeepalive now src data := by
  rw [Node.handleKeepalive, array_append_left long]
  rfl

/-- Every datagram is handled in bounds, up to what the receive buffer takes of it. -/
theorem inbound_simulates (node : Node) (now : Instant) (src : SocketAddr) (bytes : List UInt8) :
    Simulates (inbound node now src bytes) (node.inbound now src (bytes.take 65536)) := by
  intro buffers
  refine .after rfl ?_
  have contents : (buffers.recvBuf.fill bytes).1 =
    bytes.take 65536 ++ buffers.recvBuf.1.drop bytes.length := rfl
  rw [Nat.min_comm, ← List.length_take]
  generalize bytes.take 65536 = data at contents ⊢
  generalize buffers.recvBuf.1.drop bytes.length = behind at contents
  cases data with
  | nil => exact Simulates.pure _ _
  | cons type rest =>
      have first : index (buffers.recvBuf.fill bytes).1 0 = .ok type := by
        rw [contents]
        rfl
      rw [if_neg (by simp)]
      refine .after rfl (.after (liftM_run first) ?_)
      have whole : slice (buffers.recvBuf.fill bytes).1 0 (type :: rest).length =
          .ok (type :: rest) := by
        rw [contents]
        exact slice_front _ _
      refine .ite (fun _ => ?_) fun _ => .ite (fun data => ?_) fun _ => .ite (fun alive => ?_)
        fun _ => ?_
      · refine .after (liftM_run whole) ?_
        exact Simulates.lift (handleHandshake_ok node now src _) _
      · exact handleData_runs contents (congrArg some data.1) data.2
      · rw [contents, handleKeepalive_append node now src alive.2]
        exact Simulates.lift (handleKeepalive_ok node now src alive.2) _
      · exact Simulates.pure _ _

end Receiving

/-- Every packet from the TUN device is handled in bounds, up to what the buffer takes of it. -/
theorem outbound_simulates (node : Node) (packet : List UInt8) (now : Instant) :
    Simulates (outbound node packet now) (node.outbound (packet.take 65536) now) := by
  intro buffers
  refine .after rfl ?_
  have contents : (buffers.tunBuf.fill packet).1 =
    packet.take 65536 ++ buffers.tunBuf.1.drop packet.length := rfl
  have read : (packet.take 65536).length ≤ 65536 := List.length_take_le _ _
  rw [Nat.min_comm, ← List.length_take]
  generalize packet.take 65536 = pkt at contents read ⊢
  cases pkt with
  | nil => exact Simulates.pure _ _
  | cons first rest =>
      have whole : slice (buffers.tunBuf.fill packet).1 0 (first :: rest).length =
          .ok (first :: rest) := by
        rw [contents]
        exact slice_front _ _
      rw [if_neg (by simp)]
      refine .after rfl (.after (liftM_run whole) ?_)
      refine (Simulates.lift (getDestIp_ok _)).bind (fun dest _ => ?_) _
      cases dest with
      | some destIp =>
          exact .ite (fun _ => sendBroadcast_simulates read [] _)
            fun _ => outboundUnicast_simulates destIp read
      | none =>
          refine (Simulates.lift (getDestIp6_ok _)).bind fun dest6 _ => ?_
          cases dest6 with
          | some destIp =>
              refine .after_lift (findSubnetMatchV6_ok _ _) ?_
              exact (sendAlong_simulates _ read).bind fun sent _ => .pure _
          | none => exact .pure _

/-- Every event is handled in bounds, and as the model handles what is read of it. -/
theorem handle_simulates (node : Node) (event : Node.Event) :
    Simulates (handle node event) (node.handle event.read) := by
  cases event with
  | tun now packet => exact outbound_simulates node packet now
  | tunnel now src bytes => exact inbound_simulates node now src bytes
  | _ => exact .lift ⟨_, rfl⟩

/-- So is every sequence of events. -/
theorem handleAll_simulates (node : Node) (events : List Node.Event) :
    Simulates (handleAll node events) (node.handleAll (events.map Node.Event.read)) := by
  induction events generalizing node with
  | nil => exact .pure _
  | cons event events ih =>
      refine (handle_simulates node event).bind fun handled _ => ?_
      exact (ih handled.1).bind fun others _ => .pure _

/-- Whatever state the daemon is in, and whatever its buffers hold, no access of the packet path
is out of range: every sequence of reads and other events is handled to its end, as the node
without buffers handles it. -/
theorem packets_in_bounds (node : Node) (buffers : Buffers) (events : List Node.Event) :
    ∃ node' effects buffers',
      handleAll node events buffers = .ok ((node', effects), buffers') ∧
        node.handleAll (events.map Node.Event.read) = .ok (node', effects) := by
  obtain ⟨handled, buffers', run, same⟩ := handleAll_simulates node events buffers
  exact ⟨handled.1, handled.2, buffers', run, same⟩

end WolfNet.EventLoop
