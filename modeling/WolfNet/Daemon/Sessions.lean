import WolfNet.Daemon.Inbound
import WolfNet.Daemon.Receive
import WolfNet.Session.Link
import WolfNet.Table.Effects

/-!
# Sessions outlive everything but handshakes

A session's key and direction are set by a handshake, by the peer exchange that brings a new
peer, and by the configuration. Sending, and receiving any other datagram, moves the
counters at most.
-/

namespace WolfNet

open WolfNet.Std

section Sessions

variable [Crates]

/-- The record at each IP of a table stays there, with a session of the same key and direction. -/
def KeepsSessions (pm pm' : PeerManager) : Prop :=
  ∀ ip peer session, pm.peersByIp.get ip = some peer → peer.cipher = some session →
    ∃ peer' session', pm'.peersByIp.get ip = some peer' ∧ peer'.cipher = some session' ∧
      session'.cipher = session.cipher ∧ session'.isLowSide = session.isLowSide

variable {pm pm' pm'' : PeerManager} {ip : Ipv4Addr} {now : Instant}

namespace KeepsSessions

/-- A table keeps its own sessions. -/
theorem refl (pm : PeerManager) : KeepsSessions pm pm :=
  fun _ peer session held established => ⟨peer, session, held, established, rfl, rfl⟩

/-- Sessions are kept by what keeps them step after step. -/
theorem trans (first : KeepsSessions pm pm') (second : KeepsSessions pm' pm'') :
    KeepsSessions pm pm'' := by
  intro ip peer session held established
  obtain ⟨_, _, held', established', key', side'⟩ := first ip peer session held established
  obtain ⟨_, _, held'', established'', key'', side''⟩ := second ip _ _ held' established'
  exact ⟨_, _, held'', established'', key''.trans key', side''.trans side'⟩

/-- A record replaced by one with the same session key and direction. -/
theorem of_record {old new : Peer} (held : pm.peersByIp.get ip = some old)
    (peers : ∀ other, pm'.peersByIp.get other =
      if other = ip then some new else pm.peersByIp.get other)
    (kept : ∀ session, old.cipher = some session → ∃ session', new.cipher = some session' ∧
      session'.cipher = session.cipher ∧ session'.isLowSide = session.isLowSide) :
    KeepsSessions pm pm' := by
  intro other peer session there established
  rw [peers]
  split
  · next here =>
      subst here
      cases held.symm.trans there
      obtain ⟨session', established', key, side⟩ := kept session established
      exact ⟨new, session', rfl, established', key, side⟩
  · exact ⟨peer, session, there, established, rfl, rfl⟩

/-- An edit that leaves the session keeps it. -/
theorem of_edits {old new : Peer} (edits : PeerManager.Edits pm pm' ip old new)
    (cipher : new.cipher = old.cipher) : KeepsSessions pm pm' :=
  of_record edits.held edits.peers fun session established =>
    ⟨session, cipher.trans established, rfl, rfl⟩

end KeepsSessions

/-- An edit by name that leaves the session alone keeps it. -/
theorem withPeerByIp_keepsSessions (pm : PeerManager) (ip : Ipv4Addr) (f : Peer → Peer)
    (cipher : ∀ peer, (f peer).cipher = peer.cipher) : KeepsSessions pm (pm.withPeerByIp ip f) := by
  cases held : pm.peersByIp.get ip with
  | none =>
      simp only [PeerManager.withPeerByIp, held]
      exact .refl pm
  | some peer =>
      simp only [PeerManager.withPeerByIp, held]
      refine .of_record held (fun other => HashMap.get_insert ..) fun session established => ?_
      exact ⟨session, (cipher peer).trans established, rfl, rfl⟩

/-- Roaming keeps the sessions. -/
theorem updateEndpointIfRoaming_keepsSessions (pm : PeerManager) (ip : Ipv4Addr)
    (addr : SocketAddr) :
    KeepsSessions pm (pm.updateEndpointIfRoaming ip addr).1 := by
  rcases @PeerManager.updateEndpointIfRoaming_cases _ pm ip addr with ⟨_, same⟩ | ⟨peer, _, moves⟩
  · rw [same]
    exact .refl pm
  · exact .of_edits moves.toEdits rfl

/-- A peer exchange brings new peers, and leaves the sessions of known ones alone. -/
theorem addFromPex_keepsSessions (pm : PeerManager) (entries : List PexEntry)
    (senderIp myIp : Ipv4Addr) (keypair : KeyPair) (now : Instant) :
    KeepsSessions pm (pm.addFromPex entries senderIp myIp keypair now) := by
  induction entries generalizing pm with
  | nil => exact .refl pm
  | cons entry entries ih =>
      refine .trans ?_ (ih (pm.addPexEntry entry senderIp myIp keypair now))
      cases pm.addPexEntry_exchanges entry senderIp myIp keypair now with
      | ignored same =>
          rw [same]
          exact .refl pm
      | relayed ip peer touches => exact .of_edits touches.toEdits rfl
      | inserted publicKey ip free parsed unknown replaces =>
          intro other peer session held established
          have elsewhere : other ≠ ip := by
            rintro rfl
            rw [free] at held
            cases held
          refine ⟨peer, session, ?_, established, rfl, rfl⟩
          rw [replaces.peers, if_neg elsewhere, if_neg (by simp)]
          exact held

namespace Node

variable {node node' : Node} {effects : List Effect} {packet data : List UInt8} {src : SocketAddr}

/-- Sending advances the send counter of a record at most. -/
theorem encryptAndSend_session {buf : List UInt8} {peer next : Peer} {peerId : PeerId} {sent : Bool}
    (run : encryptAndSend buf packet peer peerId now = .ok (next, effects, sent)) :
    next.cipher = peer.cipher ∨ next.cipher = peer.cipher.map SessionCipher.sent := by
  unfold encryptAndSend at run
  split at run
  · cases run
    exact Or.inl rfl
  split at run
  · cases run
    exact Or.inl rfl
  simp only [Rust.bind_eq_ok] at run
  obtain ⟨_, _, _, _, ⟨peer', payload, result⟩, encrypted, rest⟩ := run
  have advanced := (Peer.encryptInto_sent encrypted).1
  cases result with
  | ok packet' =>
      simp only [Rust.bind_eq_ok, Rust.pure_eq, Except.ok.injEq, Prod.mk.injEq] at rest
      obtain ⟨_, _, rfl, _⟩ := rest
      exact Or.inr advanced
  | error message =>
      simp only [Rust.pure_eq, Except.ok.injEq, Prod.mk.injEq] at rest
      obtain ⟨rfl, _⟩ := rest
      exact Or.inr advanced

/-- In-place encryption succeeds only on a plaintext that the cipher takes. -/
theorem fits_of_encryptInto {session session' : SessionCipher} {buf buf' : List UInt8} {len : Nat}
    {result : UInt64 × Nat} (run : session.encryptInto buf len = .ok (session', buf', .ok result)) :
    len ≤ Crates.plaintextLimit := by
  simp only [SessionCipher.encryptInto, Rust.bind_eq_ok] at run
  obtain ⟨plaintext, front, sealing⟩ := run
  have whole : plaintext.length = len := by
    unfold slice at front
    split at front
    · next bounded =>
        cases front
        simp only [List.drop_zero, List.length_take]
        omega
    · cases front
  by_contra tooLong
  have refused : Aead.encryptInPlaceDetached session.cipher session.sendNonce plaintext = none := by
    rw [Aead.encryptInPlaceDetached, whole, if_neg tooLong]
  simp [refused] at sealing

/-- Sending emits nothing, or the packet sealed in the session of the record. -/
theorem encryptAndSend_effects {plaintext : List UInt8} {peer peer' : Peer} {peerId : PeerId}
    {now : Instant} {effects : List Effect} {sent : Bool} (read : plaintext.length ≤ 65536)
    (run : encryptAndSend sendBuf plaintext peer peerId now = .ok (peer', effects, sent)) :
    effects = [] ∨ ∃ session endpoint, peer.cipher = some session ∧ effects =
      [.sendTo endpoint (buildDataPacket peerId session.sendCounter
        (session.sealed plaintext))] := by
  by_cases fits : plaintext.length ≤ Crates.plaintextLimit
  · cases placed : peer.endpoint with
    | none =>
        simp only [encryptAndSend, placed, Rust.pure_eq, Except.ok.injEq, Prod.mk.injEq] at run
        exact Or.inl run.2.1.symm
    | some endpoint =>
        cases connected : peer.isConnected now with
        | false =>
            simp only [encryptAndSend, placed, connected, Bool.not_false, if_true, Rust.pure_eq,
              Except.ok.injEq, Prod.mk.injEq] at run
            exact Or.inl run.2.1.symm
        | true =>
            obtain ⟨session, established⟩ := Peer.exists_session connected
            cases (encryptAndSend_eq peerId placed connected established read fits).symm.trans run
            exact Or.inr ⟨session, endpoint, established, rfl⟩
  · unfold encryptAndSend at run
    split at run
    · cases run
      exact Or.inl rfl
    split at run
    · cases run
      exact Or.inl rfl
    simp only [Rust.bind_eq_ok] at run
    obtain ⟨_, _, payload, _, ⟨peer', buf, result⟩, encrypted, rest⟩ := run
    cases result with
    | error message =>
        simp only [Rust.pure_eq, Except.ok.injEq, Prod.mk.injEq] at rest
        exact Or.inl rest.2.1.symm
    | ok packet =>
        refine absurd ?_ fits
        cases established : peer.cipher with
        | none => simp [Peer.encryptInto, established] at encrypted
        | some session =>
            simp only [Peer.encryptInto, established, Rust.bind_eq_ok] at encrypted
            obtain ⟨⟨session', buf', result'⟩, inner, outer⟩ := encrypted
            cases result' with
            | error message => simp at outer
            | ok packet' => exact fits_of_encryptInto inner

/-- Sending to an IP changes the record there at most, by its send counter. -/
theorem sendToPeer_cases {sent : Bool}
    (run : node.sendToPeer ip packet now = .ok (node', effects, sent)) :
    (node' = node ∧ effects = []) ∨ ∃ peer next, node.peerManager.peersByIp.get ip = some peer ∧
      (next.cipher = peer.cipher ∨ next.cipher = peer.cipher.map SessionCipher.sent) ∧
      encryptAndSend sendBuf packet peer node.keypair.myPeerId now = .ok (next, effects, sent) ∧
      node' = node.withManager { node.peerManager with
        peersByIp := node.peerManager.peersByIp.insert ip next } := by
  unfold sendToPeer at run
  split at run
  · cases run
    exact Or.inl ⟨rfl, rfl⟩
  · next peer held =>
      simp only [Rust.bind_eq_ok, Rust.pure_eq, Except.ok.injEq, Prod.mk.injEq] at run
      obtain ⟨⟨next, emitted, flag⟩, encrypted, rfl, rfl, rfl⟩ := run
      exact Or.inr ⟨peer, next, held, encryptAndSend_session encrypted, encrypted, rfl⟩

/-- The node keeps its identity and its sessions. -/
structure Keeps (node node' : Node) : Prop where
  wolfnetIp : node'.wolfnetIp = node.wolfnetIp
  keypair : node'.keypair = node.keypair
  sessions : KeepsSessions node.peerManager node'.peerManager

/-- A node keeps its own. -/
theorem Keeps.refl (node : Node) : Keeps node node := ⟨rfl, rfl, .refl _⟩

/-- Nodes that keep their sessions, one after the other. -/
theorem Keeps.trans {mid : Node} (first : Keeps node mid) (second : Keeps mid node') :
    Keeps node node' :=
  ⟨second.wolfnetIp.trans first.wolfnetIp, second.keypair.trans first.keypair,
    first.sessions.trans second.sessions⟩

/-- Sending keeps the sessions. -/
theorem sendToPeer_keeps {sent : Bool}
    (run : node.sendToPeer ip packet now = .ok (node', effects, sent)) : Keeps node node' := by
  rcases sendToPeer_cases run with ⟨rfl, _⟩ | ⟨peer, next, held, cipher, _, rfl⟩
  · exact .refl node'
  · refine ⟨rfl, rfl, .of_record held (fun other =>
      HashMap.get_insert ..) fun session established => ?_⟩
    rcases cipher with same | advanced
    · exact ⟨session, same.trans established, rfl, rfl⟩
    · exact ⟨session.sent, by rw [advanced, established]; rfl, rfl, rfl⟩

/-- What a route's end does with a packet keeps the sessions. -/
theorem sendOrWrite_keeps
    (run : (if ip = node.wolfnetIp then return (node, [.writeTun packet])
      else do
        let (node, effects, _) ← node.sendToPeer ip packet now
        return (node, effects) : Rust (Node × List Effect)) = .ok (node', effects)) :
    Keeps node node' := by
  split at run
  · cases run
    exact .refl node
  · simp only [Rust.bind_eq_ok, Rust.pure_eq, Except.ok.injEq, Prod.mk.injEq] at run
    obtain ⟨⟨next, emitted, flag⟩, sending, rfl, _⟩ := run
    exact sendToPeer_keeps sending

/-- The routing of a decrypted packet keeps the sessions. -/
theorem routeInbound_keeps {destIp : Ipv4Addr}
    (run : node.routeInbound now destIp packet = .ok (node', effects)) : Keeps node node' := by
  unfold routeInbound at run
  split at run
  · cases run
    exact .refl node
  simp only [Rust.bind_eq_ok] at run
  obtain ⟨⟨mid, emitted, flag⟩, sending, rest⟩ := run
  have kept := sendToPeer_keeps sending
  dsimp only at rest
  split at rest
  · cases rest
    exact kept
  split at rest
  · exact kept.trans (sendOrWrite_keeps rest)
  split at rest
  · exact kept.trans (sendOrWrite_keeps rest)
  · cases rest
    exact kept

/-- The dispatch of a decrypted packet keeps the sessions. -/
theorem deliver_keeps {sender : Ipv4Addr}
    (run : node.deliver now sender packet = .ok (node', effects)) : Keeps node node' := by
  unfold deliver at run
  split at run
  · split at run
    · cases run
      exact ⟨rfl, rfl, addFromPex_keepsSessions _ _ _ _ _ _⟩
    · cases run
      exact .refl node
  split at run
  · cases run
    exact .refl node
  simp only [Rust.bind_eq_ok] at run
  obtain ⟨dest, _, rest⟩ := run
  cases dest with
  | some destIp => exact routeInbound_keeps rest
  | none =>
      simp only [Rust.bind_eq_ok] at rest
      obtain ⟨dest6, _, rest⟩ := rest
      cases dest6 with
      | none =>
          cases rest
          exact .refl node
      | some dest6 =>
          simp only [routeInboundV6] at rest
          split at rest
          · exact sendOrWrite_keeps rest
          · cases rest
            exact .refl node

/-- The data arm keeps the sessions. -/
theorem Receives.keeps {peerId : PeerId} {counter : UInt64} {ciphertext : List UInt8}
    {result : Node × Option (Ipv4Addr × List UInt8)}
    (receives : Receives node now src peerId counter ciphertext result) : Keeps node result.1 := by
  cases receives with
  | unknown missing => exact .refl node
  | refused ip peer found held closed =>
      refine ⟨rfl, rfl, .of_record held (fun other =>
        HashMap.get_insert ..) fun session established => ?_⟩
      exact ⟨session, established, rfl, rfl⟩
  | opened ip peer session plaintext found held established outcome =>
      obtain ⟨endpoint, peers⟩ := acceptFrom_peers node.peerManager src ip peer
        (peer.received (session.accepted counter) plaintext.length now)
      refine ⟨rfl, rfl, .of_record held peers fun other opening => ?_⟩
      cases established.symm.trans opening
      exact ⟨session.accepted counter, rfl, by simp, by simp⟩

/-- A datagram that is no handshake keeps the node's sessions. -/
theorem inbound_keeps (noHandshake : data.head? ≠ some pktHandshake)
    (run : node.inbound now src data = .ok (node', effects)) : Keeps node node' := by
  unfold inbound at run
  split at run
  · cases run
    exact .refl node
  next type head =>
  split_ifs at run with handshake isData keepalive
  · rw [head, handshake] at noHandshake
    exact absurd rfl noHandshake
  · obtain ⟨rfl, long⟩ := isData
    obtain ⟨peerId, counter, ciphertext, rfl⟩ := exists_buildDataPacket head long
    obtain ⟨⟨received, opened⟩, receiving, receives⟩ :=
      node.receiveData_receives now src peerId counter ciphertext
    simp only [handleData, receiving, Rust.ok_bind] at run
    cases opened with
    | none =>
        cases run
        exact receives.keeps
    | some payload => exact receives.keeps.trans (deliver_keeps run)
  · simp only [handleKeepalive, Rust.bind_eq_ok] at run
    obtain ⟨peerId, _, rest⟩ := run
    split at rest
    · cases rest
      exact .refl node
    · cases rest
      refine ⟨rfl, rfl, ?_⟩
      refine .trans ?_ (withPeerByIp_keepsSessions _ _ _ fun _ => rfl)
      split
      · exact updateEndpointIfRoaming_keepsSessions _ _ _
      · exact .refl _
  · cases run
    exact .refl node

end Node
end Sessions
end WolfNet
