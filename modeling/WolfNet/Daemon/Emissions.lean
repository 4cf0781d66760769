import WolfNet.Daemon.Gateway
import WolfNet.Daemon.Records

/-!
# What a daemon lets out

Along any run of calls from startup, each record is stored under its own IP and has a session under
this node's key pair. From there, all that a node ever sends is its own handshake, its own keepalive,
or a packet sealed in the session with a connected peer; and all that it writes is what a session
opened and the dispatch keeps here.
-/

namespace WolfNet

open WolfNet.Std WolfNet.Semantics PeerManager

section Daemon

variable [Crates]

/-- What holds of the record at an IP, however it came there. -/
structure Peer.Sound (keypair : KeyPair) (ip : Ipv4Addr) (peer : Peer) : Prop where
  placed : peer.wolfnetIp = ip
  secured : ∀ session, peer.cipher = some session → session.IsFor keypair peer.publicKey

/-- A record whose session was just established is sound at its IP. -/
theorem Peer.sound_of_established {keypair : KeyPair} {ip : Ipv4Addr} {peer : Peer}
    (placed : peer.wolfnetIp = ip) (established : peer.cipher = some (SessionCipher.new
      (Crates.diffieHellman keypair.secret peer.publicKey) keypair.publicKey peer.publicKey)) :
    peer.Sound keypair ip := by
  refine ⟨placed, fun session same => ?_⟩
  cases established.symm.trans same
  exact SessionCipher.isFor_new keypair peer.publicKey

/-- A session of the key and the direction of another is for the same peer. -/
theorem SessionCipher.IsFor.same {session session' : SessionCipher} {keypair : KeyPair}
    {publicKey : PublicKey} (isFor : session.IsFor keypair publicKey)
    (cipher : session'.cipher = session.cipher) (isLowSide : session'.isLowSide = session.isLowSide) :
    session'.IsFor keypair publicKey :=
  ⟨cipher.trans isFor.cipher, isLowSide.trans isFor.isLowSide⟩

/-- The edits of every call keep a record sound. -/
theorem tolerates_sound (keypair : KeyPair) (now : Instant) :
    Tolerates keypair now (Peer.Sound keypair) where
  sent ip old new sentOn same sound := by
    refine ⟨by rw [sentOn.fields]; exact sound.placed, fun session established => ?_⟩
    have before : old.cipher.isSome = true := by
      rw [← sentOn.established, established]
      rfl
    obtain ⟨held, heldEq⟩ := Option.isSome_iff_exists.mp before
    obtain ⟨session', established', cipher, isLowSide⟩ := same held heldEq
    cases established.symm.trans established'
    rw [sentOn.fields]
    exact (sound.secured held heldEq).same cipher isLowSide
  received ip peer session counter len established sound := by
    refine ⟨sound.placed, fun other same => ?_⟩
    cases same
    exact (sound.secured session established).same (by simp) (by simp)
  moved _ _ _ sound := ⟨sound.placed, sound.secured⟩
  seen _ _ sound := ⟨sound.placed, sound.secured⟩
  greeted _ _ sound := Peer.sound_of_established sound.placed rfl
  rediscovered _ _ _ _ sound := ⟨sound.placed, sound.secured⟩
  migrated _ _ _ _ _ _ sound := ⟨rfl, sound.secured⟩
  redirected _ _ _ sound := ⟨sound.placed, sound.secured⟩
  discovered _ _ _ _ _ := ⟨rfl, fun _ same => by cases same⟩
  brought _ _ _ _ := Peer.sound_of_established rfl rfl

/-- So do those of a load. -/
theorem toleratesLoad_sound (keypair : KeyPair) : ToleratesLoad keypair (Peer.Sound keypair) where
  configured _ _ _ _ _ := Peer.sound_of_established rfl rfl
  edited _ _ _ _ _ sound := ⟨sound.placed, sound.secured⟩

namespace Node

variable {start last node node' : Node} {trace : List (Node × Event)} {event : Event}
  {effects : List Effect} {effect : Effect} {now : Instant} {src : SocketAddr}
  {bytes packet : List UInt8}

/-- Every record of the table is sound. -/
def Sound (node : Node) : Prop := node.peerManager.EachPeer (Peer.Sound node.keypair)

/-- A call by either thread leaves the records sound. -/
theorem Interleaves.sound {mid mid' : Midway} {call : Call} (step : Interleaves mid call mid')
    (sound : mid.node.Sound) : mid'.node.Sound := by
  have kept : mid'.node.keypair = mid.node.keypair := by
    cases step
    rfl
  unfold Sound
  rw [kept]
  refine step.eachPeer (tolerates_sound mid.node.keypair (call.now.getD 0))
    (toleratesLoad_sound mid.node.keypair) ?_ sound
  intro reading reads
  rw [reads, Option.getD_some]

/-- Every event leaves sound records. -/
theorem Step.sound (step : Step node event node') (sound : node.Sound) : node'.Sound := by
  have same := step.sameSelf.keypair
  unfold Sound
  rw [same]
  refine Node.Step.eachPeer (tolerates_sound node.keypair (event.now.getD 0))
    (toleratesLoad_sound node.keypair) step ?_ sound
  intro reading reads
  rw [reads, Option.getD_some]

/-- Startup makes sound records. -/
theorem sound_startup {node : Node} {dns : String → Option (List SocketAddr)} {config : Config}
    {routes subnetRoutes : RouteFile} (started : node.peerManager =
      startupManager dns node.keypair now config routes subnetRoutes) : node.Sound := by
  unfold Sound
  rw [started]
  exact eachPeer_startup (toleratesLoad_sound node.keypair) dns now config routes subnetRoutes

/-- In every state of a run of calls from startup, by either thread and with arguments of any age,
every record is stored under its own IP, and its session is under this node's key pair and the
record's key. -/
theorem records_sound {first final : Midway} {trace : List (Midway × Call)}
    (run : Run Interleaves first trace final)
    {dns : String → Option (List SocketAddr)} {config : Config} {routes subnetRoutes : RouteFile}
    (started : first.node.peerManager =
      startupManager dns first.node.keypair now config routes subnetRoutes) :
    Always (fun mid => mid.node.Sound) trace final :=
  run.always (fun sound (_ : True) step => step.sound sound) (sound_startup started)
    fun _ _ => trivial

/-- The handshake that announces the node. -/
def greeting (node : Node) : List UInt8 :=
  buildHandshake node.keypair node.wolfnetIp node.config.network.listenPort node.hostname
    node.config.network.gateway

/-- The greeting depends on the node's identity only. -/
theorem SameSelf.greeting (same : SameSelf node node') : node'.greeting = node.greeting := by
  unfold Node.greeting
  rw [same.wolfnetIp, same.keypair, same.config, same.hostname]

/-- Where a packet that an event sends comes from. -/
inductive Source (node : Node) : Event → Instant → List UInt8 → Prop where
  | read (now : Instant) (packet : List UInt8) : Source node (.tun now packet) now packet
  | opened {now : Instant} {src : SocketAddr} {bytes : List UInt8} {mid : Node} {sender : Ipv4Addr}
      {packet : List UInt8} (type : bytes.head? = some pktData) (long : 13 < bytes.length)
      (received : node.receiveData now src bytes = .ok (mid, some (sender, packet))) :
      Source node (.tunnel now src bytes) now packet
  | told (now : Instant) :
      Source node (.peerExchange now) now (buildPeerExchange node.wolfnetIp node.peerManager)

/-- What an event lets out of a node, which it leaves as the second one. -/
inductive Emission (node node' : Node) : Event → Effect → Prop where
  | greeting {now : Instant} {ip : Ipv4Addr} {peer : Peer} {endpoint : SocketAddr}
      (held : node.peerManager.peersByIp.get ip = some peer)
      (offline : peer.isConnected now = false) (target : endpoint ∈ peer.handshakeTargets now) :
      Emission node node' (.handshakes now) (.sendTo endpoint node.greeting)
  | reply {now : Instant} {src : SocketAddr} {bytes : List UInt8} {hs : Handshake}
      (parsed : parseHandshake bytes = .ok (some hs)) :
      Emission node node' (.tunnel now src bytes) (.sendTo src node.greeting)
  | keepalive {now : Instant} {ip : Ipv4Addr} {peer : Peer} {endpoint : SocketAddr}
      (held : node.peerManager.peersByIp.get ip = some peer)
      (connected : peer.isConnected now = true) (placed : peer.endpoint = some endpoint) :
      Emission node node' (.keepalives now)
        (.sendTo endpoint (buildKeepalive node.keypair.myPeerId))
  | written {now : Instant} {src : SocketAddr} {bytes packet : List UInt8}
      (source : node.Source (.tunnel now src bytes) now packet) (stays : node.StaysHere packet) :
      Emission node node' (.tunnel now src bytes) (.writeTun packet)
  | sealed {event : Event} {now : Instant} {packet : List UInt8} {ip : Ipv4Addr} {peer : Peer}
      {session : SessionCipher} {endpoint : SocketAddr} (source : node.Source event now packet)
      (held : node'.peerManager.peersByIp.get ip = some peer)
      (connected : peer.isConnected now = true) (placed : peer.endpoint = some endpoint)
      (secured : session.IsFor node.keypair peer.publicKey) :
      Emission node node' event (.sendTo endpoint
        (buildDataPacket node.keypair.myPeerId session.sendCounter (session.sealed packet)))

/-- Handling an event is a step. -/
theorem step_of_handle (run : node.handle event = .ok (node', effects)) : Step node event node' := by
  cases event with
  | reorder =>
      cases run
      exact ⟨_, .refl _, rfl⟩
  | tunnel => exact Or.inl ⟨effects, run⟩
  | _ => exact ⟨effects, run⟩

/-- A node takes an event, and lets effects out. -/
inductive Does (node : Node) : Event → Node → List Effect → Prop where
  | handled {event : Event} {node' : Node} {effects : List Effect}
      (run : node.handle event = .ok (node', effects)) : Does node event node' effects
  | reordered {pm : PeerManager} (reordered : PeerManager.Reordered node.peerManager pm) :
      Does node .reorder (node.withManager pm) []
  | exchanged {now : Instant} {src : SocketAddr} {bytes : List UInt8} {node' : Node}
      (takes : node.TakesExchange now src bytes node') : Does node (.tunnel now src bytes) node' []

/-- What a node does is a step. -/
theorem Does.step {node node' : Node} {event : Event} {effects : List Effect}
    (does : node.Does event node' effects) : Step node event node' := by
  cases does with
  | handled run => exact step_of_handle run
  | reordered reordered => exact ⟨_, reordered, rfl⟩
  | exchanged takes => exact Or.inr takes

/-- Sending writes nothing to the TUN device. -/
theorem sends_rule (packet : List UInt8) (now : Instant) :
    SendRule (fun _ effects _ => ∀ packet', Effect.writeTun packet' ∉ effects) packet now where
  nothing node packet' := by simp
  append first second packet' := by
    rw [List.mem_append]
    exact not_or.mpr ⟨first packet', second packet'⟩
  send run packet' := by
    rcases sendToPeer_cases run with ⟨_, rfl⟩ | ⟨_, _, _, _, encrypted, _⟩
    · simp
    · rcases encryptAndSend_cases encrypted with ⟨_, rfl⟩ | ⟨_, _, _, _, _, _, _, rfl⟩ <;> simp

/-- Telling a peer of the others writes nothing to the TUN device. -/
theorem exchangeWith_writes (node : Node) (packet : List UInt8) (now : Instant) (ip : Ipv4Addr)
    (packet' : List UInt8) : Effect.writeTun packet' ∉ (node.exchangeWith packet now ip).2 := by
  unfold exchangeWith
  split
  · simp
  · split
    · dsimp only
      split <;> simp
    · simp

/-- Telling several peers writes nothing to the TUN device. -/
theorem exchangeWithAll_writes (node : Node) (packet : List UInt8) (now : Instant)
    (ips : List Ipv4Addr) (packet' : List UInt8) :
    Effect.writeTun packet' ∉ (node.exchangeWithAll packet now ips).2 := by
  induction ips generalizing node with
  | nil => simp [exchangeWithAll]
  | cons ip ips ih =>
      rw [exchangeWithAll, List.mem_append]
      exact not_or.mpr ⟨node.exchangeWith_writes packet now ip packet', ih _⟩

/-- A peer exchange writes nothing to the TUN device. -/
theorem sendPeerExchange_writes (node : Node) (now : Instant) (packet' : List UInt8) :
    Effect.writeTun packet' ∉ (node.sendPeerExchange now).2 := by
  unfold sendPeerExchange
  dsimp only
  split
  · simp
  · exact node.exchangeWithAll_writes _ now _ packet'

/-- What carries a packet of one of the sources is let out. -/
theorem Carries.emission (carries : Carries node' now packet effect)
    (source : node.Source event now packet) (sound : node'.Sound)
    (keypair : node'.keypair = node.keypair)
    (written : effect = .writeTun packet → Emission node node' event effect) :
    Emission node node' event effect := by
  cases carries with
  | written => exact written rfl
  | @sealed ip peer session endpoint counter held connected placed established =>
      have secured := (sound ip peer held).secured session established
      rw [keypair] at secured ⊢
      have kept : ({ session with sendCounter := counter } : SessionCipher).IsFor node.keypair
        peer.publicKey := ⟨secured.cipher, secured.isLowSide⟩
      exact .sealed source held connected placed kept

/-- A peer exchange has no IP destination, and so does not stay here. -/
theorem StaysHere.head_ne (stays : node.StaysHere packet) :
    packet.head? ≠ some pktPeerExchange := by
  intro head
  rcases stays with ⟨dest, found, _⟩ | ⟨dest6, _, found6, _⟩
  · cases found.symm.trans (getDestIp_eq_none head (by decide))
  · cases found6.symm.trans (getDestIp6_eq_none head (by decide))

/-- What an arriving datagram lets out. -/
theorem emission_inbound (sound : node'.Sound) (run : node.inbound now src bytes = .ok (node', effects))
    (member : effect ∈ effects) : Emission node node' (.tunnel now src bytes) effect := by
  have keypair := (inbound_keepsRest run).keypair
  have whole := run
  unfold inbound at run
  split at run
  · cases run
    cases member
  next type head =>
  split_ifs at run with handshake isData keepalive
  · simp only [handleHandshake, Rust.bind_eq_ok] at run
    obtain ⟨parsed, parsing, run⟩ := run
    cases parsed with
    | none =>
        cases run
        cases member
    | some hs =>
        simp only [Rust.pure_eq, Except.ok.injEq, Prod.mk.injEq] at run
        rw [← run.2] at member
        split at member
        · cases member
        · cases List.mem_singleton.mp member
          exact .reply parsing
  · obtain ⟨rfl, long⟩ := isData
    simp only [handleData, Rust.bind_eq_ok] at run
    obtain ⟨⟨mid, opened⟩, received, run⟩ := run
    cases opened with
    | none =>
        cases run
        cases member
    | some opening =>
        obtain ⟨sender, packet⟩ := opening
        by_cases exchange : 1 < packet.length ∧ packet.head? = some pktPeerExchange
        · simp only [deliver, if_pos exchange] at run
          split at run <;> cases run <;> cases member
        · have sending := (Sending.rule now packet).relay.deliver (Sending.write now packet) exchange run
          have source : node.Source (.tunnel now src bytes) now packet := .opened head long received
          refine (sending.carried effect member).emission source sound keypair ?_
          rintro rfl
          exact .written source (inbound_writes whole member).1
  · simp only [handleKeepalive, Rust.bind_eq_ok] at run
    obtain ⟨peerId, _, run⟩ := run
    split at run <;> cases run <;> cases member
  · cases run
    cases member

/-- A node with sound records lets out what its event accounts for. -/
theorem emission_of_sound (sound : node.Sound) (handled : node.handle event = .ok (node', effects))
    (member : effect ∈ effects) : Emission node node' event effect := by
  have sound' : node'.Sound := (step_of_handle handled).sound sound
  have keypair := (step_of_handle handled).sameSelf.keypair
  cases event with
  | tun now packet =>
      refine ((outbound_sending handled).carried effect member).emission (.read now packet) sound'
        keypair ?_
      rintro rfl
      exact absurd member ((sends_rule packet now).outbound handled packet)
  | tunnel now src bytes => exact emission_inbound sound' handled member
  | handshakes now =>
      cases handled
      obtain ⟨peer, there, listed⟩ := List.mem_flatMap.mp member
      obtain ⟨endpoint, target, rfl⟩ := List.mem_map.mp listed
      obtain ⟨ip, held⟩ := HashMap.mem_values_iff.mp there
      refine .greeting held ?_ target
      by_contra online
      rw [Bool.not_eq_false] at online
      simp [Peer.handshakeTargets, online] at target
  | keepalives now =>
      cases handled
      obtain ⟨peer, there, emitted⟩ := List.mem_filterMap.mp member
      obtain ⟨ip, held⟩ := HashMap.mem_values_iff.mp there
      rw [Option.ite_none_right_eq_some] at emitted
      obtain ⟨connected, emitted⟩ := emitted
      obtain ⟨endpoint, placed, rfl⟩ := Option.map_eq_some_iff.mp emitted
      exact .keepalive held connected placed
  | peerExchange now =>
      have sending := node.sendPeerExchange_sending now
      simp only [handle, Rust.pure_eq, Except.ok.injEq] at handled
      rw [handled] at sending
      refine (sending.carried effect member).emission (.told now) sound' keypair ?_
      rintro rfl
      exfalso
      have sends := node.sendPeerExchange_writes now
        (buildPeerExchange node.wolfnetIp node.peerManager)
      rw [handled] at sends
      exact sends member
  | _ =>
      cases handled
      cases member

/-- Whatever a node lets out, along any run from startup, is its own handshake, its own keepalive, a
packet that a session opened, or a packet sealed in the session with a connected peer. -/
theorem emissions (run : Run Step start trace last) {dns : String → Option (List SocketAddr)}
    {config : Config} {routes subnetRoutes : RouteFile}
    (started : start.peerManager =
      startupManager dns start.keypair now config routes subnetRoutes)
    (handled : last.handle event = .ok (node', effects)) :
    ∀ effect ∈ effects, Emission last node' event effect :=
  fun _ member => emission_of_sound (run.invariant (fun sound (_ : True) step => step.sound sound)
    (sound_startup started) fun _ _ => trivial) handled member

end Node
end Daemon

section Sample

attribute [local instance] Sample.crates

namespace Node

/-- A sample node that starts without configured peers. -/
def newcomer (byte : UInt8) : Node :=
  Sample.node byte false (startupManager (fun _ => none) (Sample.keypair byte) 0
    (Sample.node byte false new).config .missing .missing)

/-- A handshake packet with a sample key and its IP, without a host name. -/
def hearsFrom (byte : UInt8) : Event :=
  .tunnel 5 Sample.endpoint
    ([pktHandshake] ++ (Sample.keypair byte).publicKey.1 ++ [10, 10, 10, byte, 0x80, 0x25, 0])

/-- The first node after the handshake of the second. -/
def befriended (mine theirs : UInt8) : Node :=
  match (newcomer mine).handle (hearsFrom theirs) with
  | .ok (node, _) => node
  | .error _ => newcomer mine

/-- The handshake of the other sample node is a run. -/
theorem run_befriended (mine theirs : UInt8) :
    Run Step (newcomer mine) [(newcomer mine, hearsFrom theirs)] (befriended mine theirs) :=
  Run.refl.step (Or.inl ⟨_, rfl⟩)

/-- The sample nodes have just started. -/
theorem newcomer_started (byte : UInt8) : (newcomer byte).peerManager =
    startupManager (fun _ => none) (newcomer byte).keypair 0 (newcomer byte).config .missing
      .missing := rfl

/-- The second node's key is heard of at an IP. -/
def hearsAt (octet : UInt8) : Call :=
  .updateFromDiscovery (Sample.keypair 2).publicKey Sample.endpoint ⟨10, 10, 10, octet⟩ "" false

/-- A session is established with the peer at an IP. -/
def greetsAt (now : Instant) (octet : UInt8) : Call := .establishSession now ⟨10, 10, 10, octet⟩

/-- The records are sound when the listener moves a peer between the calls of its handshake. -/
theorem records_sound_sample : ∃ trace last, Run Interleaves ⟨newcomer 1, none⟩ trace last ∧
    trace.map Prod.snd = [hearsAt 2, hearsAt 3, greetsAt 5 2, greetsAt 6 3] ∧
    ((last.node.peerManager.peersByIp.get ⟨10, 10, 10, 3⟩).bind Peer.cipher).isSome = true ∧
    Always (fun mid => mid.node.Sound) trace last := by
  have hears (mid : Midway) (octet : UInt8) : Interleaves mid (hearsAt octet) _ :=
    .call rfl fun _ follows => by cases follows
  have greets (mid : Midway) (now : Instant) (octet : UInt8) :
      Interleaves mid (greetsAt now octet) _ := .call rfl fun _ follows => by cases follows
  have run := (((Run.refl.step (hears ⟨newcomer 1, none⟩ 2)).step (hears _ 3)).step
    (greets _ 5 2)).step (greets _ 6 3)
  exact ⟨_, _, run, rfl, rfl, records_sound run (newcomer_started 1)⟩

/-- An IPv4 packet from the first sample node to the second. -/
def samplePacket : List UInt8 :=
  [0x45, 0, 0, 20, 0, 0, 0, 0, 64, 17, 0, 0, 10, 10, 10, 1, 10, 10, 10, 2]

/-- The datagram in which the first sample node seals the packet. -/
def sampleDatagram : List UInt8 :=
  buildDataPacket (Sample.keypair 1).myPeerId (Sample.session 1 2).sendCounter
    ((Sample.session 1 2).sealed samplePacket)

/-- The second node writes what the datagram of the first one opens to. -/
theorem emissions_sample : ∃ node' effects,
    (befriended 2 1).handle (.tunnel 6 Sample.endpoint sampleDatagram) = .ok (node', effects) ∧
      effects.length = 1 ∧ ∀ effect ∈ effects,
        Emission (befriended 2 1) node' (.tunnel 6 Sample.endpoint sampleDatagram) effect :=
  ⟨_, _, rfl, rfl, emissions (run_befriended 2 1) (newcomer_started 2) rfl⟩

end Node
end Sample
end WolfNet
