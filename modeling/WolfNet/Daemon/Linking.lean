import WolfNet.Daemon.Fallback
import WolfNet.Daemon.Handshakes
import WolfNet.Daemon.Receive
import WolfNet.Table.EachPeer

/-!
# How two nodes become linked

A handshake gives its receiver a fresh session with the sender, and the sender's address. Where two
nodes have not met, no handshake is lost, and none is on its way any more, both have heard the other:
each one opens what the other seals, as `handshakes_link` says.
-/

namespace WolfNet

open WolfNet.Std WolfNet.Semantics NonceUse Crossing

section Links

variable [Crates]

namespace Node

/-- The node can send to its peer at the IP, in a session for the key. -/
def SendsFor (node : Node) (now : Instant) (ip : Ipv4Addr) (key : PublicKey)
    (session : SessionCipher) : Prop :=
  ∃ peer endpoint, node.peerManager.peersByIp.get ip = some peer ∧ peer.isConnected now = true ∧
    peer.cipher = some session ∧ peer.endpoint = some endpoint ∧ session.IsFor node.keypair key

/-- The node takes what comes from the source for a packet of its peer at the IP, in a session for
the key. -/
def TakesFrom (node : Node) (src : SocketAddr) (ip : Ipv4Addr) (keys : KeyPair)
    (session : SessionCipher) : Prop :=
  node.peerManager.findIpByEndpointOrId src keys.myPeerId = some ip ∧
    ∃ peer, node.peerManager.peersByIp.get ip = some peer ∧ peer.cipher = some session ∧
      session.IsFor node.keypair keys.publicKey

/-- The first node can send to the second, its peer at `ip`, which takes what comes from the source
for a packet of the first, its peer at `back`, and does not hold the next one for replayed. -/
def Linked (now : Instant) (src : SocketAddr) (a b : Node) (ip back : Ipv4Addr) : Prop :=
  ∃ mine theirs, a.SendsFor now ip b.keypair.publicKey mine ∧ b.TakesFrom src back a.keypair theirs ∧
    replayWindow.Admits theirs.highest mine.sendCounter.toNat

variable {a b a' : Node} {now later : Instant} {src : SocketAddr} {ip back : Ipv4Addr}
  {packet : List UInt8} {effects : List Effect}

/-- A peer with a session to send in is reached. -/
theorem SendsFor.reaches {key : PublicKey} {session : SessionCipher}
    (sendsFor : a.SendsFor now ip key session) : a.reaches now ip = true := by
  obtain ⟨peer, endpoint, held, connected, _, placed, _⟩ := sendsFor
  exact reaches_iff.mpr ⟨peer, endpoint, held, connected, placed⟩

/-- What a node is after it accepted a packet from a peer, which has changed the peer's record. -/
def Accepted (src : SocketAddr) (sender : Ipv4Addr) (node node' : Node) : Prop :=
  ∃ peer accepted, node.peerManager.peersByIp.get sender = some peer ∧
    node' = node.withManager (acceptFrom node.peerManager src sender peer accepted)

/-- An accepted packet changes the sender's record only. -/
theorem Accepted.get {node node' : Node} {sender other : Ipv4Addr}
    (accepted : Accepted src sender node node') (elsewhere : other ≠ sender) :
    node'.peerManager.peersByIp.get other = node.peerManager.peersByIp.get other := by
  obtain ⟨peer, next, _, rfl⟩ := accepted
  obtain ⟨endpoint, peers⟩ := acceptFrom_peers node.peerManager src sender peer next
  rw [withManager_peerManager, peers, if_neg elsewhere]

/-- It leaves the key pair and the IP. -/
theorem Accepted.self {node node' : Node} {sender : Ipv4Addr}
    (accepted : Accepted src sender node node') :
    node'.keypair = node.keypair ∧ node'.wolfnetIp = node.wolfnetIp := by
  obtain ⟨peer, next, _, rfl⟩ := accepted
  exact ⟨rfl, rfl⟩

/-- It leaves the routes and the purged IPs. -/
theorem Accepted.sameRest {node node' : Node} {sender : Ipv4Addr}
    (accepted : Accepted src sender node node') : node.peerManager.SameRest node'.peerManager := by
  obtain ⟨peer, next, _, rfl⟩ := accepted
  exact acceptFrom_sameRest ..

/-- What a node sends along a link is opened at its other end, and delivered there. -/
theorem Linked.opens (agrees : DiffieHellmanAgrees) (ideal : AeadIdeal)
    (distinct : a.keypair.publicKey ≠ b.keypair.publicKey) (linked : Linked now src a b ip back)
    (sends : Sends now packet a [ip] a' effects) (later : Instant) :
    ∃ endpoint datagram b', effects = [.sendTo endpoint datagram] ∧ Accepted src back b b' ∧
      b.inbound later src datagram = b'.deliver later back packet := by
  obtain ⟨mine, theirs, ⟨known, endpoint, holds, _, secured, placed, mineFor⟩,
    ⟨found, peer, held, established, theirsFor⟩, admits⟩ := linked
  cases sends with
  | @packet _ _ _ _ _ peer' session endpoint' held' _ established' placed' rest =>
      obtain rfl := Option.some.inj (holds.symm.trans held')
      obtain rfl := Option.some.inj (secured.symm.trans established')
      have paired := mineFor.paired agrees distinct theirsFor
      have outcome : theirs.outcome mine.sendCounter (mine.sealed packet) =
          (theirs.accepted mine.sendCounter, some packet) := by
        simp [SessionCipher.outcome, admits, paired.opens_sealed ideal]
      refine ⟨endpoint', a.datagram mine packet, _, by rw [rest.effects_eq_nil],
        ⟨peer, peer.received (theirs.accepted mine.sendCounter) packet.length later, held, rfl⟩, ?_⟩
      exact inbound_opened (by simp) (receiveData_opens found held established outcome)

end Node

/-- A record that the code takes for the other node's has its very key. -/
abbrev Recognises (node other : Node) : Prop :=
  node.peerManager.EachPeer fun _ peer =>
    peer.publicKey.Same other.keypair.publicKey → peer.publicKey = other.keypair.publicKey

/-- A record that the node has of the other one is not connected at the time, and one that its config
pins is at the address. -/
def Unmet (node other : Node) (addr : SocketAddr) (since : Instant) : Prop :=
  ∀ ip peer, node.peerManager.peersByIp.get ip = some peer →
    peer.publicKey = other.keypair.publicKey → peer.isConnected since = false ∧
      (peer.configuredEndpoint ≠ none → peer.endpoint = some addr ∧
        node.peerManager.endpointToIp.get addr = some ip)

/-- The node heard the other one at the time, from the address, and has a session that it has not
used. -/
def Meets (node other : Node) (addr : SocketAddr) (time : Instant) : Prop :=
  ∃ peer, node.peerManager.peersByIp.get other.wolfnetIp = some peer ∧
    peer.publicKey = other.keypair.publicKey ∧
    peer.cipher = some (.new (Crates.diffieHellman node.keypair.secret other.keypair.publicKey)
      node.keypair.publicKey other.keypair.publicKey) ∧
    peer.lastSeen = some time ∧ peer.endpoint = some addr ∧
    node.peerManager.endpointToIp.get addr = some other.wolfnetIp

variable {node node' other : Node} {now time since : Instant} {addr : SocketAddr}
  {datagram : List UInt8} {effects : List Effect}

/-- A discovery from the address leaves the key at its IP and at the address, unless its record is
pinned elsewhere. -/
theorem updateFromDiscovery_placed (pm : PeerManager) (publicKey : PublicKey) (addr : SocketAddr)
    (ip : Ipv4Addr) (hostname : String) (isGateway : Bool)
    (exact : pm.EachPeer fun _ peer => peer.publicKey.Same publicKey → peer.publicKey = publicKey)
    (pinned : ∀ peer, pm.peersByIp.get ip = some peer → peer.publicKey = publicKey →
      peer.configuredEndpoint ≠ none → peer.endpoint = some addr ∧
        pm.endpointToIp.get addr = some ip) :
    ∃ peer, (pm.updateFromDiscovery publicKey addr ip hostname isGateway).peersByIp.get ip =
        some peer ∧ peer.publicKey = publicKey ∧ peer.endpoint = some addr ∧
      (pm.updateFromDiscovery publicKey addr ip hostname isGateway).endpointToIp.get addr =
        some ip ∧
      ((∀ time, peer.isConnected time = false) ∨ ∃ other old, pm.peersByIp.get other = some old ∧
        old.publicKey = publicKey ∧ peer.cipher = old.cipher ∧ peer.lastSeen = old.lastSeen) := by
  cases pm.updateFromDiscovery_discovers publicKey addr ip hostname isGateway with
  | refreshed peer same unpinned moves =>
      have keyed := exact ip peer moves.held same
      refine ⟨_, (moves.peers ip).trans (if_pos rfl), keyed, rfl, ?_,
        Or.inr ⟨ip, peer, moves.held, keyed, rfl, rfl⟩⟩
      rw [moves.endpoints]
      exact Change.onIndex_eq_some_iff.mpr (Or.inl ⟨rfl, rfl⟩)
  | pinned peer same line touches =>
      have keyed := exact ip peer touches.held same
      obtain ⟨placed, indexed⟩ := pinned peer touches.held keyed line
      refine ⟨_, (touches.peers ip).trans (if_pos rfl), keyed, placed, ?_,
        Or.inr ⟨ip, peer, touches.held, keyed, rfl, rfl⟩⟩
      rw [touches.endpoints]
      exact indexed
  | migrated oldIp peer elsewhere held same search foreign replaces =>
      have keyed := exact oldIp peer held same
      refine ⟨_, (replaces.peers ip).trans (if_pos rfl), keyed, rfl, ?_,
        Or.inr ⟨oldIp, peer, held, keyed, rfl, rfl⟩⟩
      rw [replaces.endpoints]
      exact Change.onIndex_eq_some_iff.mpr (Or.inl ⟨rfl, rfl⟩)
  | inserted unknown replaces =>
      refine ⟨_, (replaces.peers ip).trans (if_pos rfl), rfl, rfl, ?_, Or.inl fun time => rfl⟩
      rw [replaces.endpoints]
      exact Change.onIndex_eq_some_iff.mpr (Or.inl ⟨rfl, rfl⟩)

/-- The handshake of another node makes the two meet, if what the node has pinned of the other is at
the address. It is answered where they had not met. -/
theorem meets_of_handshake (announces : Announces datagram other)
    (recognises : Recognises node other)
    (pinned : ∀ peer, node.peerManager.peersByIp.get other.wolfnetIp = some peer →
      peer.publicKey = other.keypair.publicKey → peer.configuredEndpoint ≠ none →
        peer.endpoint = some addr ∧ node.peerManager.endpointToIp.get addr = some other.wolfnetIp)
    (run : node.inbound now addr datagram = .ok (node', effects)) :
    Meets node' other addr now ∧ Recognises node' other ∧
      (Unmet node other addr since → since ≤ now → ∃ reply, effects = [.sendTo addr reply]) := by
  obtain ⟨port, hostname, isGateway, rfl⟩ := announces
  obtain ⟨peer, held, keyed, placed, indexed, before⟩ := updateFromDiscovery_placed node.peerManager
    other.keypair.publicKey addr other.wolfnetIp hostname isGateway recognises pinned
  have dispatch : node.inbound now addr
      (buildHandshake other.keypair other.wolfnetIp port hostname isGateway) =
        node.handleHandshake now addr
          (buildHandshake other.keypair other.wolfnetIp port hostname isGateway) := rfl
  rw [dispatch, Node.handleHandshake, Handshake.parseHandshake_build] at run
  simp only [Rust.ok_bind, Rust.pure_eq, Except.ok.injEq, Prod.mk.injEq] at run
  obtain ⟨rfl, rfl⟩ := run
  refine ⟨?_, ?_, ?_⟩
  · refine ⟨{ peer.establishSession node.keypair.secret node.keypair.publicKey now with
      lastSeen := some now }, ?_, keyed, ?_, rfl, placed, ?_⟩
    · simp only [Node.withManager_peerManager, PeerManager.withPeerByIp, held]
      exact HashMap.get_insert_self ..
    · simp only [Peer.establishSession, keyed, Node.withManager]
    · simpa only [Node.withManager_peerManager, PeerManager.withPeerByIp, held] using indexed
  · refine PeerManager.EachPeer.withPeerByIp ?_ fun _ _ keeps => keeps
    exact recognises.discovery (fun _ keeps _ => keeps) (fun _ keeps _ => keeps)
      (fun _ _ keeps _ => keeps) fun _ => rfl
  · intro unmet later
    have offline : peer.isConnected now = false := by
      rcases before with never | ⟨ip, old, there, sameKey, cipher, seen⟩
      · exact never now
      · have silent := (unmet ip old there sameKey).1
        rw [Bool.eq_false_iff] at silent ⊢
        intro connected
        rw [Peer.isConnected, cipher, seen] at connected
        exact silent (Peer.isConnected_earlier connected later)
    refine ⟨buildHandshake node.keypair node.wolfnetIp node.config.network.listenPort node.hostname
      node.config.network.gateway, ?_⟩
    simp only [held, Option.any_some, offline, Bool.false_eq_true, if_false]

/-- Whether nodes have met depends on the other's key only. -/
theorem Unmet.of_identity (unmet : Unmet node other addr since) {other' : Node}
    (keypair : other'.keypair = other.keypair) : Unmet node other' addr since := by
  intro ip peer held keyed
  rw [keypair] at keyed
  exact unmet ip peer held keyed

/-- What a node knows of the other depends on the other's identity only. -/
theorem Meets.of_identity (meets : Meets node other addr time) {other' : Node}
    (keypair : other'.keypair = other.keypair) (wolfnetIp : other'.wolfnetIp = other.wolfnetIp) :
    Meets node other' addr time := by
  unfold Meets
  rw [keypair, wolfnetIp]
  exact meets

/-- Two nodes that met each other are linked, until the timeout of either expires. -/
theorem Meets.linked {src : SocketAddr} {time' : Instant} (meets : Meets node other src time)
    (back : Meets other node addr time') (recent : elapsedSecs now time < 120) :
    Node.Linked now addr node other other.wolfnetIp node.wolfnetIp := by
  obtain ⟨peer, held, keyed, secured, seen, placed, _⟩ := meets
  obtain ⟨peer', held', keyed', secured', _, _, indexed⟩ := back
  refine ⟨_, _, ⟨peer, src, held, ?_, secured, placed, SessionCipher.isFor_new _ _⟩,
    ⟨?_, peer', held', secured', SessionCipher.isFor_new _ _⟩, Or.inl (Nat.zero_le _)⟩
  · rw [Peer.isConnected, secured, seen, Option.any_some]
    exact decide_eq_true recent
  · simp only [PeerManager.findIpByEndpointOrId, indexed]

namespace Crossing

variable {crossing next : Crossing} {event : CrossingEvent} {src : Side → SocketAddr}
  {since : Instant}

/-- From the time on no handshake is lost, and each side gets them from one address. -/
def Faithful (src : Side → SocketAddr) (since : Instant) (_ : Crossing) : CrossingEvent → Prop
  | .deliver side now addr _ => addr = src side ∧ since ≤ now
  | .drop _ _ => False

/-- A side that heard the other has met it, one that did not has not, and whom one side has heard,
the other has heard too or will. -/
structure Linking (src : Side → SocketAddr) (since : Instant) (crossing : Crossing) : Prop where
  settling : crossing.Settling
  recognises : ∀ side, Recognises (crossing.node side) (crossing.node side.other)
  meets : ∀ side time, crossing.heard side = some time →
    Meets (crossing.node side) (crossing.node side.other) (src side) time
  unmet : ∀ side, crossing.heard side = none →
    Unmet (crossing.node side) (crossing.node side.other) (src side) since
  awaited : ∀ side, crossing.heard side.other ≠ none →
    crossing.heard side ≠ none ∨ crossing.flight side ≠ []

/-- What a side has pinned of the other is at its address. -/
theorem Linking.pinned (linking : crossing.Linking src since) (side : Side) : ∀ peer,
    (crossing.node side).peerManager.peersByIp.get (crossing.node side.other).wolfnetIp = some peer →
      peer.publicKey = (crossing.node side.other).keypair.publicKey →
      peer.configuredEndpoint ≠ none → peer.endpoint = some (src side) ∧
        (crossing.node side).peerManager.endpointToIp.get (src side) =
          some (crossing.node side.other).wolfnetIp := by
  intro peer held keyed line
  cases heard : crossing.heard side with
  | none => exact (linking.unmet side heard _ peer held keyed).2 line
  | some time =>
      obtain ⟨_, there, _, _, _, placed, indexed⟩ := linking.meets side time heard
      cases held.symm.trans there
      exact ⟨placed, indexed⟩

/-- A handshake that arrives makes its receiver meet the sender, which hears of it. -/
theorem Linking.step (linking : crossing.Linking src since)
    (guard : crossing.InTime event ∧ crossing.Faithful src since event)
    (transition : CrossingStep crossing event next) : next.Linking src since := by
  obtain ⟨inTime, faithful⟩ := guard
  have settling := linking.settling.step inTime transition
  cases transition with
  | drop => exact absurd faithful id
  | @deliver _ side now addr datagram front back node' effects inFlight run =>
      obtain ⟨rfl, later⟩ := faithful
      have announced := linking.settling.flight side datagram (by simp [inFlight])
      obtain ⟨met, recognises, answered⟩ := meets_of_handshake announced (linking.recognises side)
        (linking.pinned side) run
      obtain ⟨_, _, run', keypair, wolfnetIp, _⟩ :=
        inbound_handshake (crossing.node side) announced now (src side)
      cases run'.symm.trans run
      have same := crossing.sameIdentity keypair wolfnetIp
      refine ⟨settling, fun another => ?_, fun another time heard => ?_, fun another silent => ?_,
        fun another heard => ?_⟩ <;> dsimp only at *
      · have here : Recognises (Function.update crossing.node side node' another)
            (crossing.node another.other) := by
          by_cases taker : another = side
          · subst taker
            rw [Function.update_self]
            exact recognises
          · rw [Function.update_of_ne taker]
            exact linking.recognises another
        unfold Recognises
        rw [(same another.other).1]
        exact here
      · have here : Meets (Function.update crossing.node side node' another)
            (crossing.node another.other) (src another) time := by
          by_cases taker : another = side
          · subst taker
            rw [Function.update_self] at heard ⊢
            cases heard
            exact met
          · rw [Function.update_of_ne taker] at heard ⊢
            exact linking.meets another time heard
        exact here.of_identity (same another.other).1 (same another.other).2
      · have elsewhere : another ≠ side := by
          rintro rfl
          rw [Function.update_self] at silent
          cases silent
        rw [Function.update_of_ne elsewhere] at silent ⊢
        exact (linking.unmet another silent).of_identity (same another.other).1
      · by_cases taker : another = side
        · subst taker
          rw [Function.update_self]
          exact Or.inl (Option.some_ne_none _)
        · obtain rfl : another = side.other := by
            cases another <;> cases side <;> first | rfl | exact absurd rfl taker
          rw [Function.update_of_ne taker, Function.update_self]
          cases before : crossing.heard side with
          | none =>
              obtain ⟨reply, rfl⟩ := answered (linking.unmet side before) later
              refine Or.inr (List.append_ne_nil_of_right_ne_nil _ ?_)
              exact List.cons_ne_nil _ _
          | some time =>
              have known : crossing.heard side.other.other ≠ none := by
                rw [Side.other_other, before]
                exact Option.some_ne_none _
              rcases linking.awaited side.other known with already | waiting
              · exact Or.inl already
              · exact Or.inr (List.append_ne_nil_of_left_ne_nil waiting _)

end Crossing

/-- Two nodes are not connected, and handshakes of theirs are on their way. Where none is lost, once
one was delivered and none is on its way any more, both have heard the other, and what either sends the
other opens as long as its timeout has not expired. -/
theorem handshakes_link {start last : Crossing} {trace : List (Crossing × CrossingEvent)}
    {src : Side → SocketAddr} {since : Instant} (initial : start.Initial)
    (recognises : ∀ side, Recognises (start.node side) (start.node side.other))
    (strangers : ∀ side, Unmet (start.node side) (start.node side.other) (src side) since)
    (run : Run CrossingStep start trace last) (inTime : Throughout InTime trace)
    (faithful : Throughout (Faithful src since) trace) (begun : trace ≠ [])
    (quiet : ∀ side, last.flight side = []) (side : Side) :
    ∃ time, last.heard side = some time ∧ ∀ now, elapsedSecs now time < 120 →
      Node.Linked now (src side.other) (last.node side) (last.node side.other)
        (last.node side.other).wolfnetIp (last.node side).wolfnetIp := by
  have opening : start.Linking src since := by
    refine ⟨initial.settling, recognises, fun side time heard => ?_, fun side _ => strangers side,
      fun side heard => ?_⟩
    · rw [initial.heard] at heard
      cases heard
    · exact absurd (initial.heard side.other) heard
  have linking : last.Linking src since := run.invariant Linking.step opening fun entry member =>
    ⟨inTime entry member, faithful entry member⟩
  have known : ∀ side, last.heard side ≠ none := by
    have one : ∃ side, last.heard side ≠ none := by
      cases run with
      | refl => exact absurd rfl begun
      | step before transition =>
          cases transition with
          | drop => exact ((throughout_snoc.mp faithful).2).elim
          | @deliver _ side now _ _ _ _ _ _ _ _ =>
              refine ⟨side, ?_⟩
              dsimp only
              rw [Function.update_self]
              exact Option.some_ne_none _
    obtain ⟨one, heard⟩ := one
    have two : last.heard one.other ≠ none := by
      rw [← Side.other_other one] at heard
      exact (linking.awaited one.other heard).resolve_right (not_not.mpr (quiet _))
    intro side
    by_cases here : side = one
    · rwa [here]
    · have there : side = one.other := by
        cases side <;> cases one <;> first | rfl | exact absurd rfl here
      rwa [there]
  obtain ⟨time, heard⟩ := Option.ne_none_iff_exists'.mp (known side)
  obtain ⟨time', heard'⟩ := Option.ne_none_iff_exists'.mp (known side.other)
  have back := linking.meets side.other time' heard'
  rw [Side.other_other] at back
  exact ⟨time, heard, fun now recent => (linking.meets side time heard).linked back recent⟩

end Links

section Sample

attribute [local instance] Sample.crates

/-- Two sample nodes that do not know each other, of which the second sent a handshake. -/
def sampleGreeting : Crossing where
  node
    | .first => Sample.node 1 false .new
    | .second => Sample.node 2 false .new
  flight
    | .first => [sampleHandshake 2]
    | .second => []
  replies := fun _ => 0
  heard := fun _ => none
  delivered := 0

/-- The first node takes the handshake, the second one the answer, and the first one the answer to
that. -/
def sampleLinking : List (Crossing × CrossingEvent) :=
  let answered := arrive sampleGreeting .first 0
  [(sampleGreeting, .deliver .first 0 Sample.endpoint (sampleHandshake 2)),
    (answered, .deliver .second 1 Sample.endpoint (sampleHandshake 1)),
    (arrive answered .second 1, .deliver .first 2 Sample.endpoint (sampleHandshake 2))]

/-- The crossing when all handshakes were taken. -/
def sampleLinked : Crossing := arrive (arrive (arrive sampleGreeting .first 0) .second 1) .first 2

/-- The sample handshakes and their answers are a run. -/
theorem sampleLinking_run : Run CrossingStep sampleGreeting sampleLinking sampleLinked :=
  ((Run.refl.step (step_of_arrive rfl rfl)).step (step_of_arrive rfl rfl)).step
    (step_of_arrive rfl rfl)

/-- Then the first node can send to the second, though no handshake is on its way any more. -/
theorem handshakes_link_sample : ∃ time, sampleLinked.heard .first = some time ∧
    ∀ now, elapsedSecs now time < 120 → Node.Linked now Sample.endpoint (sampleLinked.node .first)
      (sampleLinked.node .second) (sampleLinked.node .second).wolfnetIp
      (sampleLinked.node .first).wolfnetIp := by
  have initial : sampleGreeting.Initial := by
    refine ⟨?_, fun _ => rfl, fun _ => rfl, rfl⟩
    rintro (_ | _) datagram member
    · exact ⟨9600, "sample", false, List.mem_singleton.mp member⟩
    · cases member
  have strangers : ∀ side, Unmet (sampleGreeting.node side) (sampleGreeting.node side.other)
      Sample.endpoint 0 := by
    rintro (_ | _) ip peer held <;> cases held
  have recognises : ∀ side, Recognises (sampleGreeting.node side)
      (sampleGreeting.node side.other) := by
    rintro (_ | _) ip peer held <;> cases held
  have faithful : Throughout (Faithful (fun _ => Sample.endpoint) 0) sampleLinking := by
    rintro entry (_ | ⟨_, _ | ⟨_, _ | ⟨_, ⟨⟩⟩⟩⟩) <;>
      exact ⟨rfl, Nat.zero_le _⟩
  have inTime : Throughout InTime sampleLinking := by
    rintro entry (_ | ⟨_, _ | ⟨_, _ | ⟨_, ⟨⟩⟩⟩⟩) last heard <;> cases heard
    decide
  have quiet : ∀ side, sampleLinked.flight side = [] := by
    rintro (_ | _) <;> rfl
  exact handshakes_link initial recognises strangers sampleLinking_run inTime faithful (List.cons_ne_nil _ _)
    quiet .first

end Sample
end WolfNet
