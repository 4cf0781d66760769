import WolfNet.Daemon.Records

/-!
# A record that is followed

Nothing but a reload takes a peer from its IP, as long as no handshake and no broadcast names its key
with another IP, or its IP with another key. Its record may change meanwhile: it keeps a session and
an endpoint where it had one, and is last seen when it was, or now.
-/

namespace WolfNet

open WolfNet.Std PeerManager

variable [Crates]

/-- The record may have been edited at the time, but it is the peer's, and as reachable as before. -/
structure Peer.Ages (now : Instant) (old new : Peer) : Prop where
  publicKey : new.publicKey = old.publicKey
  cipher : old.cipher.isSome = true → new.cipher.isSome = true
  endpoint : old.endpoint.isSome = true → new.endpoint.isSome = true
  lastSeen : new.lastSeen = old.lastSeen ∨ new.lastSeen = some now

namespace Peer.Ages

variable {now : Instant} {first second third : Peer}

/-- A record is one that it ages to. -/
theorem refl (now : Instant) (peer : Peer) : peer.Ages now peer := ⟨rfl, id, id, Or.inl rfl⟩

/-- Aging after aging. -/
theorem trans (before : first.Ages now second) (after : second.Ages now third) :
    first.Ages now third where
  publicKey := after.publicKey.trans before.publicKey
  cipher established := after.cipher (before.cipher established)
  endpoint placed := after.endpoint (before.endpoint placed)
  lastSeen := by
    rcases after.lastSeen with same | seen
    · rw [same]
      exact before.lastSeen
    · exact Or.inr seen

end Peer.Ages

/-- Sending ages the record. -/
theorem Peer.SentOn.ages {now : Instant} {old new : Peer} (sentOn : old.SentOn new) :
    old.Ages now new := by
  refine ⟨?_, fun established => sentOn.established.trans established, ?_, Or.inl ?_⟩ <;>
    rw [sentOn.fields]
  exact id

/-- The record of the key at the IP stays there, and ages. -/
def Follows (now : Instant) (publicKey : PublicKey) (ip : Ipv4Addr) (pm pm' : PeerManager) : Prop :=
  ∀ peer, pm.peersByIp.get ip = some peer → peer.publicKey = publicKey →
    ∃ peer', pm'.peersByIp.get ip = some peer' ∧ peer.Ages now peer'

variable {now : Instant} {publicKey key : PublicKey} {ip other : Ipv4Addr}
  {pm pm' pm'' : PeerManager}

namespace Follows

/-- A table with the same record follows. -/
theorem of_same (same : pm'.peersByIp.get ip = pm.peersByIp.get ip) :
    Follows now publicKey ip pm pm' :=
  fun peer held _ => ⟨peer, same.trans held, .refl now peer⟩

/-- A table follows itself. -/
theorem refl (pm : PeerManager) : Follows now publicKey ip pm pm := of_same rfl

/-- Tables that follow each other, one after the other. -/
theorem trans (first : Follows now publicKey ip pm pm') (second : Follows now publicKey ip pm' pm'') :
    Follows now publicKey ip pm pm'' := by
  intro peer held keyed
  obtain ⟨peer', held', before⟩ := first peer held keyed
  obtain ⟨peer'', held'', after⟩ := second peer' held' (before.publicKey.trans keyed)
  exact ⟨peer'', held'', before.trans after⟩

/-- The record at some IP is put back, and has aged. -/
theorem put {old new : Peer} (held : pm.peersByIp.get other = some old) (ages : old.Ages now new)
    (peers : ∀ another, pm'.peersByIp.get another =
      if another = other then some new else pm.peersByIp.get another) :
    Follows now publicKey ip pm pm' := by
  by_cases here : ip = other
  · subst here
    intro peer there _
    cases held.symm.trans there
    exact ⟨new, (peers ip).trans (if_pos rfl), ages⟩
  · exact of_same ((peers ip).trans (if_neg here))

/-- An edit that ages the record follows. -/
theorem edit {old new : Peer} (edits : Edits pm pm' other old new) (ages : old.Ages now new) :
    Follows now publicKey ip pm pm' :=
  put edits.held ages edits.peers

/-- What happens at other IPs follows. -/
theorem replace {new : Option Peer} {source : Option Ipv4Addr}
    (replaces : Replaces pm pm' other new source) (elsewhere : ip ≠ other)
    (stays : source ≠ some ip) : Follows now publicKey ip pm pm' :=
  of_same (by rw [replaces.peers, if_neg elsewhere, if_neg stays])

/-- An edit by IP that ages every record follows. -/
theorem withPeerByIp {f : Peer → Peer} (ages : ∀ peer, Peer.Ages now peer (f peer)) :
    Follows now publicKey ip pm (pm.withPeerByIp other f) := by
  unfold PeerManager.withPeerByIp
  split
  · next peer held => exact put held (ages peer) fun another => HashMap.get_insert ..
  · exact refl pm

/-- An update of an endpoint follows. -/
theorem updateEndpoint {addr : SocketAddr} :
    Follows now publicKey ip pm (pm.updateEndpoint other addr) := by
  rcases updateEndpoint_cases addr with ⟨_, same⟩ | ⟨peer, moves⟩
  · exact of_same (by rw [same])
  · exact edit moves.toEdits ⟨rfl, id, fun _ => rfl, Or.inl rfl⟩

/-- Roaming follows. -/
theorem updateEndpointIfRoaming {addr : SocketAddr} :
    Follows now publicKey ip pm (pm.updateEndpointIfRoaming other addr).1 := by
  rcases updateEndpointIfRoaming_cases addr with ⟨_, same⟩ | ⟨peer, _, moves⟩
  · exact of_same (by rw [same])
  · exact edit moves.toEdits ⟨rfl, id, fun _ => rfl, Or.inl rfl⟩

/-- A discovery that names the peer by key and IP, or by neither. -/
theorem discovery (endpoint : SocketAddr) (hostname : String) (isGateway : Bool)
    (agree : key.Same publicKey ↔ other = ip) :
    Follows now publicKey ip pm (pm.updateFromDiscovery key endpoint other hostname isGateway) := by
  intro peer held keyed
  cases pm.updateFromDiscovery_discovers key endpoint other hostname isGateway with
  | refreshed record _ _ moves =>
      exact edit moves.toEdits ⟨rfl, id, fun _ => rfl, Or.inl rfl⟩ peer held keyed
  | pinned record _ _ touches =>
      exact edit touches.toEdits ⟨rfl, id, id, Or.inl rfl⟩ peer held keyed
  | migrated oldIp record elsewhere there found _ foreign replaces =>
      have named : other ≠ ip := fun same =>
        foreign peer (same ▸ held) (keyed ▸ (agree.mpr same).symm)
      refine replace replaces (Ne.symm named) (fun same => ?_) peer held keyed
      cases same
      cases held.symm.trans there
      exact named (agree.mp (keyed ▸ found.symm))
  | inserted unknown replaces =>
      have named : other ≠ ip := fun same =>
        unknown ip peer held (keyed ▸ (agree.mpr same).symm)
      exact replace replaces (Ne.symm named) (by simpa using named) peer held keyed

/-- A peer exchange redirects records, and writes only to IPs that are free. -/
theorem exchange {entries : List PexEntry} {senderIp myIp : Ipv4Addr} {keypair : KeyPair}
    {reading : Instant} (run : ExchangeRun senderIp myIp keypair reading entries pm pm') :
    Follows now publicKey ip pm pm' := by
  refine run.invariant (fun follows reordered => follows.trans (of_same (reordered.peers ip)))
    (fun _ follows exchanges => follows.trans ?_) (refl pm)
  cases exchanges with
  | ignored same => exact of_same (by rw [same])
  | relayed _ _ touches => exact edit touches.toEdits ⟨rfl, id, id, Or.inl rfl⟩
  | inserted _ _ free _ _ replaces =>
      intro peer held keyed
      refine replace replaces ?_ (by simp) peer held keyed
      rintro rfl
      cases free.symm.trans held

/-- Resolving the host names follows. -/
theorem resolveAll (dns : String → Option (List SocketAddr)) :
    Follows now publicKey ip pm (resolveAll dns pm) := by
  refine List.foldlRecOn pm.allIps _ (refl pm) fun pm' follows another _ => follows.trans ?_
  unfold resolveAgain
  split
  · exact refl pm'
  · split_ifs
    · exact refl pm'
    · split
      · exact refl pm'
      · split_ifs
        · exact updateEndpoint
        · exact refl pm'

end Follows

namespace Node

variable {node mid node' : Node} {src : SocketAddr} {bytes : List UInt8} {effects : List Effect}
  {event : Event}

/-- A handshake or a broadcast names a key and an IP as those of one peer. -/
inductive Event.Names (publicKey : PublicKey) (ip : Ipv4Addr) : Event → Prop where
  | handshake {now : Instant} {src : SocketAddr} {bytes : List UInt8} {hs : Handshake}
      (parsed : parseHandshake bytes = .ok (some hs)) (key : hs.publicKey = publicKey)
      (wolfnetIp : hs.wolfnetIp = ip) : Names publicKey ip (.tunnel now src bytes)
  | broadcast {src : SocketAddr} {bytes : List UInt8} {message : Discovery}
      (parsed : (fromUtf8 (bytes.take 512)).bind parseDiscovery = some message)
      (key : message.publicKey = publicKey) (wolfnetIp : message.wolfnetIp = ip) :
      Names publicKey ip (.discovery src bytes)

/-- The event is no reload, and does not name the key with another IP or the IP with another key. -/
structure Event.Respects (publicKey : PublicKey) (ip : Ipv4Addr) (event : Event) : Prop where
  names : ∀ key other, event.Names key other → (key.Same publicKey ↔ other = ip)
  noReload : ∀ dns now newConfig routes subnetRoutes,
    event ≠ .reload dns now newConfig routes subnetRoutes

/-- Transmitting follows. -/
theorem Transmits.follows (transmits : Transmits node node') :
    Follows now publicKey ip node.peerManager node'.peerManager := by
  intro peer held _
  obtain ⟨peer', after, sentOn⟩ := transmits.kept ip peer held
  exact ⟨peer', after, sentOn.ages⟩

/-- The data arm follows. -/
theorem follows_receives {peerId : PeerId} {counter : UInt64} {ciphertext : List UInt8}
    {result : Node × Option (Ipv4Addr × List UInt8)}
    (receives : Receives node now src peerId counter ciphertext result) :
    Follows now publicKey ip node.peerManager result.1.peerManager := by
  cases receives with
  | unknown missing => exact .refl _
  | refused other peer found held closed =>
      exact .put held (.refl now peer) fun another => HashMap.get_insert ..
  | opened other peer session plaintext found held established outcome =>
      have accepted : Peer.Ages now peer
          (peer.received (session.accepted counter) plaintext.length now) :=
        ⟨rfl, fun _ => rfl, id, Or.inr rfl⟩
      rw [withManager_peerManager, acceptFrom]
      split_ifs
      · exact (Follows.put held accepted fun another => HashMap.get_insert ..).trans
          .updateEndpointIfRoaming
      · exact .put held accepted fun another => HashMap.get_insert ..

/-- So does what it makes of a datagram of its type. -/
theorem follows_receiveData {opened : Option (Ipv4Addr × List UInt8)}
    (type : bytes.head? = some pktData) (long : 13 < bytes.length)
    (run : node.receiveData now src bytes = .ok (mid, opened)) :
    Follows now publicKey ip node.peerManager mid.peerManager := by
  obtain ⟨peerId, counter, ciphertext, rfl⟩ := exists_buildDataPacket type long
  obtain ⟨result, received, receives⟩ := node.receiveData_receives now src peerId counter ciphertext
  rw [received] at run
  cases run
  exact follows_receives receives

/-- A datagram that names the key and the IP together, or neither, leaves a table that follows. -/
theorem follows_inbound (respects : (Event.tunnel now src bytes).Respects publicKey ip)
    (run : node.inbound now src bytes = .ok (node', effects)) :
    Follows now publicKey ip node.peerManager node'.peerManager := by
  unfold inbound at run
  split at run
  · cases run
    exact .refl _
  next type head =>
  split_ifs at run with handshake isData keepalive
  · simp only [handleHandshake, Rust.bind_eq_ok] at run
    obtain ⟨parsed, parsing, run⟩ := run
    cases parsed with
    | none =>
        cases run
        exact .refl _
    | some hs =>
        cases run
        exact (Follows.discovery _ _ _ (respects.names _ _ (.handshake parsing rfl rfl))).trans
          (.withPeerByIp fun peer => ⟨rfl, fun _ => rfl, id, Or.inr rfl⟩)
  · obtain ⟨rfl, long⟩ := isData
    simp only [handleData, Rust.bind_eq_ok] at run
    obtain ⟨⟨mid, opened⟩, received, run⟩ := run
    have first := @follows_receiveData _ now publicKey ip _ _ _ _ _ head long received
    cases opened with
    | none =>
        cases run
        exact first
    | some packet =>
        refine first.trans ?_
        cases deliver_delivers run with
        | exchanged entries => exact .exchange (exchangeRun_addFromPex _ entries _ _ _ _)
        | sent transmits => exact transmits.follows
  · simp only [handleKeepalive, Rust.bind_eq_ok] at run
    obtain ⟨peerId, _, run⟩ := run
    split at run
    · cases run
      exact .refl _
    · next other found =>
        cases run
        refine Follows.trans ?_ (.withPeerByIp fun peer => ⟨rfl, id, id, Or.inr rfl⟩)
        split
        · exact .updateEndpointIfRoaming
        · exact .refl _
  · cases run
    exact .refl _

/-- An event follows the record of a peer that it respects. -/
theorem Step.follows (step : Step node event node') (respects : event.Respects publicKey ip)
    (reads : ∀ reading, event.now = some reading → reading = now) :
    Follows now publicKey ip node.peerManager node'.peerManager := by
  cases event with
  | reorder =>
      obtain ⟨pm, reordered, rfl⟩ := step
      exact .of_same (reordered.peers ip)
  | tun reading packet =>
      obtain ⟨effects, run⟩ := step
      exact (outbound_transmits run).follows
  | tunnel reading src bytes =>
      cases reads reading rfl
      rcases step with ⟨effects, run⟩ | ⟨mid, sender, plaintext, entries, pm, type, long, received, _,
        run, rfl⟩
      · exact follows_inbound respects run
      · exact (follows_receiveData type long received).trans (.exchange run)
  | discovery src bytes =>
      obtain ⟨effects, run⟩ := step
      cases run
      unfold receiveDiscovery
      split
      · exact .refl _
      next message parsed =>
      split
      · exact .refl _
      · exact .discovery _ _ _ (respects.names _ _ (.broadcast parsed rfl rfl))
  | handshakes reading | keepalives reading =>
      obtain ⟨effects, run⟩ := step
      cases run
      exact .refl _
  | peerExchange reading =>
      obtain ⟨effects, run⟩ := step
      have sent := node.sendPeerExchange_transmits reading
      simp only [handle, Rust.pure_eq, Except.ok.injEq] at run
      rw [run] at sent
      exact sent.follows
  | resolve dns =>
      obtain ⟨effects, run⟩ := step
      cases run
      exact .resolveAll dns
  | readRoutes routes subnetRoutes =>
      obtain ⟨effects, run⟩ := step
      cases run
      exact .of_same (by rw [withManager_peerManager, loadSubnetRoutes_peersByIp,
        loadRoutes_peersByIp])
  | reload dns reading newConfig routes subnetRoutes => exact (respects.noReload _ _ _ _ _ rfl).elim

end Node
end WolfNet
