import WolfNet.Daemon.Emissions
import WolfNet.Transport.Handshake

/-!
# What a datagram can set off

A datagram makes the node send one datagram at most: a relayed packet of the same length, or a
handshake in reply to one. Nobody can then use a node to send much more than what was sent to it.
-/

namespace WolfNet

open WolfNet.Std WolfNet.Semantics

section Daemon

variable [Crates]

namespace Node

variable {node mid node' start last : Node} {event : Event} {now : Instant} {src : SocketAddr}
  {bytes packet : List UInt8} {effects : List Effect}

/-- What comes out for a packet is one effect at most. -/
inductive Single (packet : List UInt8) : List Effect → Prop where
  | nothing : Single packet []
  | written : Single packet [.writeTun packet]
  | sent {endpoint : SocketAddr} {datagram : List UInt8} (size : datagram.length = packet.length + 29) :
      Single packet [.sendTo endpoint datagram]

/-- A packet that is relayed comes out once. -/
theorem single_rule (packet : List UInt8) (now : Instant) :
    RelayRule (fun _ effects _ => Single packet effects) packet now where
  nothing _ := .nothing
  after _ further := further
  send run := by
    rcases sendToPeer_cases run with ⟨_, rfl⟩ | ⟨peer, next, _, _, encrypted, _⟩
    · exact .nothing
    · rcases encryptAndSend_cases encrypted with
        ⟨_, rfl⟩ | ⟨session, endpoint, _, _, _, _, _, rfl⟩
      · exact .nothing
      · refine .sent ?_
        rw [length_buildDataPacket, SessionCipher.length_sealed]
        omega

/-- What a datagram sets off. -/
inductive Reaction (node : Node) (src : SocketAddr) (bytes : List UInt8) : List Effect → Prop where
  | nothing : Reaction node src bytes []
  | written {packet : List UInt8} (size : packet.length + 29 = bytes.length) :
      Reaction node src bytes [.writeTun packet]
  | relayed {endpoint : SocketAddr} {datagram : List UInt8} (size : datagram.length = bytes.length) :
      Reaction node src bytes [.sendTo endpoint datagram]
  | greeted (handshake : bytes.head? = some pktHandshake) (long : 40 ≤ bytes.length) :
      Reaction node src bytes [.sendTo src node.greeting]

/-- An opened packet lacks the header and the tag of its datagram. -/
theorem length_of_received {sender : Ipv4Addr} (type : bytes.head? = some pktData)
    (long : 13 < bytes.length) (received : node.receiveData now src bytes =
      .ok (mid, some (sender, packet))) : packet.length + 29 = bytes.length := by
  obtain ⟨peerId, counter, ciphertext, rfl⟩ := exists_buildDataPacket type long
  obtain ⟨result, run, receives⟩ := node.receiveData_receives now src peerId counter ciphertext
  cases run.symm.trans received
  cases receives with
  | opened ip peer session plaintext found held established outcome =>
      rcases session.outcome_cases counter ciphertext with ⟨_, _, opened, same⟩ | ⟨_, same⟩
      · rw [same, Prod.mk.injEq, Option.some.injEq] at outcome
        have size := SessionCipher.length_of_opens opened
        rw [length_buildDataPacket, ← size, ← outcome.2]
        omega
      · rw [same, Prod.mk.injEq] at outcome
        cases outcome.2

/-- What an arriving datagram sets off. -/
theorem inbound_reaction (run : node.inbound now src bytes = .ok (node', effects)) :
    node.Reaction src bytes effects := by
  unfold inbound at run
  split at run
  · cases run
    exact .nothing
  next type head =>
  split_ifs at run with handshake isData keepalive
  · simp only [handleHandshake, Rust.bind_eq_ok] at run
    obtain ⟨parsed, parsing, run⟩ := run
    cases parsed with
    | none =>
        cases run
        exact .nothing
    | some hs =>
        simp only [Rust.pure_eq, Except.ok.injEq, Prod.mk.injEq] at run
        rw [← run.2]
        split
        · exact .nothing
        · obtain ⟨frame, rfl, typed, _⟩ := HandshakeFrame.parse_eq_some.mp parsing
          have size := frame.length_bytes
          exact .greeted (by rw [HandshakeFrame.bytes, typed]; rfl) (by omega)
  · obtain ⟨rfl, long⟩ := isData
    simp only [handleData, Rust.bind_eq_ok] at run
    obtain ⟨⟨mid, opened⟩, received, run⟩ := run
    cases opened with
    | none =>
        cases run
        exact .nothing
    | some opening =>
        obtain ⟨sender, packet⟩ := opening
        have size := length_of_received head long received
        by_cases exchange : 1 < packet.length ∧ packet.head? = some pktPeerExchange
        · simp only [deliver, if_pos exchange] at run
          split at run <;> cases run <;> exact .nothing
        · cases (single_rule packet now).deliver (fun _ => .written) exchange run with
          | nothing => exact .nothing
          | written => exact .written size
          | sent longer => exact .relayed (longer.trans size)
  · simp only [handleKeepalive, Rust.bind_eq_ok] at run
    obtain ⟨peerId, _, run⟩ := run
    split at run <;> cases run <;> exact .nothing
  · cases run
    exact .nothing

/-- A node takes an event and lets out what the label tells. -/
def Acts : Transition Node (Event × List Effect) :=
  fun node label node' => node.Does label.1 node' label.2

/-- The datagram that an event brings. -/
def Event.datagram? : Event → Option (List UInt8)
  | .tunnel _ _ bytes => some bytes
  | .discovery _ bytes => some bytes
  | _ => none

/-- The datagrams that arrived. -/
def arrived (trace : List (Node × Event × List Effect)) : List (List UInt8) :=
  trace.filterMap fun entry => entry.2.1.datagram?

/-- What the arrivals set off. -/
def setOff (trace : List (Node × Event × List Effect)) : List Effect :=
  trace.flatMap fun entry => if entry.2.1.datagram?.isSome then entry.2.2 else []

/-- How many bytes the datagrams have. -/
def volume (datagrams : List (List UInt8)) : Nat := (datagrams.map List.length).sum

/-- A greeting fills a frame. -/
theorem le_length_greeting (node : Node) : 40 ≤ node.greeting.length := by
  rw [greeting, Handshake.buildHandshake_eq, HandshakeFrame.length_bytes]
  omega

/-- A reaction is one effect at most. -/
theorem Reaction.length_le (reaction : node.Reaction src bytes effects) : effects.length ≤ 1 := by
  cases reaction <;> simp

/-- For every 40 bytes of a datagram, no more than a greeting comes out. -/
theorem Reaction.volume_le (reaction : node.Reaction src bytes effects) :
    40 * volume (datagramsOf effects) ≤ node.greeting.length * bytes.length := by
  have frame := node.le_length_greeting
  cases reaction with
  | nothing => simp [volume, datagramsOf]
  | written => simp [volume, datagramsOf]
  | relayed size =>
      simp only [volume, datagramsOf, List.filterMap_cons, List.filterMap_nil, List.map_cons,
        List.map_nil, List.sum_singleton, size]
      exact Nat.mul_le_mul_right _ frame
  | greeted handshake long =>
      simp only [volume, datagramsOf, List.filterMap_cons, List.filterMap_nil, List.map_cons,
        List.map_nil, List.sum_singleton]
      rw [Nat.mul_comm]
      exact Nat.mul_le_mul_left _ long

/-- A datagram that arrives sets off a reaction, from whatever socket it came. -/
theorem Does.reaction (does : node.Does event node' effects) (arrives : event.datagram? = some bytes) :
    ∃ src, node.Reaction src bytes effects := by
  cases does with
  | handled run =>
      cases event with
      | tunnel now src bytes =>
          cases arrives
          exact ⟨src, inbound_reaction run⟩
      | discovery src bytes =>
          cases run
          exact ⟨src, .nothing⟩
      | _ => cases arrives
  | reordered => cases arrives
  | @exchanged _ src => exact ⟨src, .nothing⟩

omit [Crates] in
/-- The bytes of two lists of datagrams. -/
theorem volume_append (first second : List (List UInt8)) :
    volume (first ++ second) = volume first + volume second := by
  simp [volume]

section Runs

variable {trace : List (Node × Event × List Effect)}

/-- A run leaves the node's identity. -/
theorem sameSelf_of_acts (run : Run Acts start trace last) : SameSelf start last := by
  induction run with
  | refl => exact .refl _
  | step _ does ih => exact ih.trans (Does.step does).sameSelf

/-- What one more event sets off. -/
theorem datagramsOf_setOff_snoc :
    datagramsOf (setOff (trace ++ [(node, event, effects)])) = datagramsOf (setOff trace) ++
      datagramsOf (if event.datagram?.isSome then effects else []) := by
  simp [setOff, datagramsOf]

/-- Along any run, and whatever arrives, arrivals set off one effect each at most, and 40 bytes of
them no more bytes than a greeting has. -/
theorem no_amplification (run : Run Acts start trace last) :
    (setOff trace).length ≤ (arrived trace).length ∧
      40 * volume (datagramsOf (setOff trace)) ≤ start.greeting.length * volume (arrived trace) := by
  induction run with
  | refl => simp [setOff, arrived, volume, datagramsOf]
  | @step trace node label _ prior does ih =>
      obtain ⟨event, effects⟩ := label
      cases arrives : event.datagram? with
      | none => simpa [setOff, arrived, arrives] using ih
      | some bytes =>
          obtain ⟨src, reaction⟩ := Does.reaction does arrives
          have once := reaction.length_le
          have bounded := reaction.volume_le
          rw [(sameSelf_of_acts prior).greeting] at bounded
          have arrival : arrived (trace ++ [(node, event, effects)]) = arrived trace ++ [bytes] := by
            simp [arrived, arrives]
          have single : volume [bytes] = bytes.length := by simp [volume]
          rw [datagramsOf_setOff_snoc, arrival, volume_append, volume_append, arrives, single,
            Nat.mul_add, Nat.mul_add]
          refine ⟨?_, Nat.add_le_add ih.2 bounded⟩
          simp only [setOff, List.flatMap_append, List.length_append, List.flatMap_cons,
            List.flatMap_nil, List.append_nil, arrives, Option.isSome_some, if_true,
            List.length_singleton] at ih ⊢
          exact Nat.add_le_add ih.1 once

end Runs

end Node
end Daemon

section Sample

attribute [local instance] Sample.crates

namespace Node

/-- The first sample node hears the handshake of the second, and answers. -/
def answering : List (Node × Event × List Effect) :=
  [(newcomer 1, hearsFrom 2, [.sendTo Sample.endpoint (newcomer 1).greeting])]

/-- The answer is the one effect that the handshake sets off. -/
theorem no_amplification_sample : (setOff answering).length = 1 ∧
    (setOff answering).length ≤ (arrived answering).length ∧
      40 * volume (datagramsOf (setOff answering)) ≤
        (newcomer 1).greeting.length * volume (arrived answering) :=
  have run : Run Acts (newcomer 1) answering (befriended 1 2) := Run.refl.step (.handled rfl)
  ⟨rfl, no_amplification run⟩

end Node
end Sample
end WolfNet
