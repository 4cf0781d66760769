import WolfNet.Daemon.Records
import WolfNet.Status.Display

/-!
# Data flow implies connection

Both timestamps of a record are set when a data packet is decrypted, and after that only the
one of any traffic moves on. With a clock that does not go back, the last data is never newer than
the last traffic, whatever happens to the record, so a peer that passes data is connected:
`passing_connected`.
-/

namespace WolfNet

open WolfNet.Std WolfNet.Semantics PeerManager

/-- Less time has passed at an earlier reading since a later instant. -/
theorem elapsedSecs_mono {earlier later first second : Instant} (readings : earlier ≤ later)
    (instants : first ≤ second) : elapsedSecs earlier second ≤ elapsedSecs later first :=
  Nat.div_le_div_right (tsub_le_tsub readings instants)

section Flow

variable [Crates]

/-- The last data of a record is in the past, and the last traffic is no older. -/
structure Peer.Ordered (peer : Peer) (clock : Instant) : Prop where
  past : ∀ t, peer.lastDataRx = some t → t ≤ clock
  seen : ∀ t, peer.lastDataRx = some t → ∃ s, peer.lastSeen = some s ∧ t ≤ s

namespace Peer

variable {peer : Peer} {clock now : Instant}

/-- A peer that never sent data is in order. -/
theorem ordered_of_never (never : peer.lastDataRx = none) : peer.Ordered clock :=
  ⟨by simp [never], by simp [never]⟩

/-- A peer in order stays so. -/
theorem Ordered.later (ordered : peer.Ordered clock) (later : clock ≤ now) : peer.Ordered now :=
  ⟨fun t heard => (ordered.past t heard).trans later, ordered.seen⟩

/-- Only the two timestamps matter. -/
theorem Ordered.same {other : Peer} (ordered : peer.Ordered clock)
    (data : other.lastDataRx = peer.lastDataRx) (traffic : other.lastSeen = peer.lastSeen) :
    other.Ordered clock :=
  ⟨data ▸ ordered.past, by rw [data, traffic]; exact ordered.seen⟩

/-- Traffic at the present moves the last traffic on. -/
theorem Ordered.touched (ordered : peer.Ordered clock) {other : Peer}
    (data : other.lastDataRx = peer.lastDataRx) (traffic : other.lastSeen = some clock) :
    other.Ordered clock :=
  ⟨data ▸ ordered.past, fun t heard => ⟨clock, traffic, ordered.past t (data ▸ heard)⟩⟩

/-- A record that data was received on is in order. -/
theorem ordered_received (session : SessionCipher) (plaintextLen : Nat) :
    (peer.received session plaintextLen now).Ordered now := by
  constructor
  · rintro t ⟨⟩
    exact le_rfl
  · rintro t ⟨⟩
    exact ⟨now, rfl, le_rfl⟩

/-- Who passes data is connected, also at an earlier reading of the clock. -/
theorem Ordered.connected {earlier : Instant} (ordered : peer.Ordered clock)
    (readings : earlier ≤ now) (passing : peer.isPassingData now = true) :
    peer.isConnected earlier = true := by
  simp only [isPassingData, isConnected, Bool.and_eq_true, Option.any_eq_true,
    decide_eq_true_eq] at passing ⊢
  obtain ⟨established, t, heard, recent⟩ := passing
  obtain ⟨s, seen, after⟩ := ordered.seen t heard
  exact ⟨established, s, seen, lt_of_le_of_lt (elapsedSecs_mono readings after) recent⟩

/-- A call of one of the session and traffic methods. -/
inductive Method where
  | establishSession (mySecret : StaticSecret) (myPublic : PublicKey)
  | encrypt (data : List UInt8)
  | decrypt (counter : UInt64) (data : List UInt8)
  | encryptInto (buf : List UInt8) (len : Nat)
  | decryptInto (counter : UInt64) (buf : List UInt8) (len : Nat)

/-- The record after a call that returns. -/
def Calls (peer : Peer) (now : Instant) : Method → Peer → Prop
  | .establishSession mySecret myPublic, next => next = peer.establishSession mySecret myPublic now
  | .encrypt data, next => next = (peer.encrypt data).1
  | .decrypt counter data, next => next = (peer.decrypt counter data now).1
  | .encryptInto buf len, next => ∃ buf' result, peer.encryptInto buf len = .ok (next, buf', result)
  | .decryptInto counter buf len, next =>
    ∃ buf' result, peer.decryptInto counter buf len now = .ok (next, buf', result)

/-- Sending leaves a record in order. -/
theorem Ordered.sentOn {next : Peer} (ordered : peer.Ordered clock) (sentOn : peer.SentOn next) :
    next.Ordered clock := by
  rw [sentOn.fields]
  exact ordered.same rfl rfl

/-- Decryption that fails replaces the session at most. -/
theorem Ordered.decrypt (ordered : peer.Ordered now) (counter : UInt64) (data : List UInt8) :
    (peer.decrypt counter data now).1.Ordered now := by
  unfold Peer.decrypt
  split
  · exact ordered
  · split
    · exact ordered.same rfl rfl
    · exact ordered_received _ _

/-- Decryption leaves a record in order. -/
theorem Ordered.decryptInto {next : Peer} {buf buf' : List UInt8} {len : Nat} {counter : UInt64}
    {result : Except String Nat} (ordered : peer.Ordered now)
    (run : peer.decryptInto counter buf len now = .ok (next, buf', result)) : next.Ordered now := by
  unfold Peer.decryptInto at run
  split at run
  · cases run
    exact ordered
  · rw [Rust.bind_eq_ok] at run
    obtain ⟨⟨session, opened, outcome⟩, _, rest⟩ := run
    cases outcome with
    | error error =>
        cases rest
        exact ordered.same rfl rfl
    | ok plaintextLen =>
        cases rest
        exact ordered_received _ _

/-- Every method keeps the order of the timestamps. -/
theorem Ordered.calls {method : Method} {next : Peer} (ordered : peer.Ordered now)
    (calls : peer.Calls now method next) : next.Ordered now := by
  cases method with
  | establishSession mySecret myPublic =>
      cases calls
      exact ordered.same rfl rfl
  | encrypt data =>
      cases calls
      exact ordered.sentOn (peer.encrypt_sentOn data)
  | decrypt counter data =>
      cases calls
      exact ordered.decrypt counter data
  | encryptInto buf len =>
      obtain ⟨buf', result, run⟩ := calls
      exact ordered.sentOn (Peer.encryptInto_sentOn run)
  | decryptInto counter buf len =>
      obtain ⟨buf', result, run⟩ := calls
      exact ordered.decryptInto run

end Peer

/-- Every edit at one reading of the clock keeps the order of the timestamps. -/
theorem tolerates_ordered (keypair : KeyPair) (now : Instant) :
    Tolerates keypair now fun _ peer => peer.Ordered now where
  sent _ _ _ sentOn _ ordered := ordered.sentOn sentOn
  received _ _ session counter len _ _ := Peer.ordered_received (session.accepted counter) len
  moved _ _ _ ordered := ordered.same rfl rfl
  seen _ _ ordered := ordered.touched rfl rfl
  greeted _ _ ordered := ordered.touched rfl rfl
  rediscovered _ _ _ _ ordered := ordered.same rfl rfl
  migrated _ _ _ _ _ _ ordered := ordered.same rfl rfl
  redirected _ _ _ ordered := ordered.same rfl rfl
  discovered _ _ _ _ _ := Peer.ordered_of_never rfl
  brought _ _ _ _ := Peer.ordered_of_never rfl

/-- So do the edits of a load. -/
theorem toleratesLoad_ordered (keypair : KeyPair) (clock : Instant) :
    ToleratesLoad keypair fun _ peer => peer.Ordered clock where
  configured _ _ _ _ _ := Peer.ordered_of_never rfl
  edited _ _ _ _ _ ordered := ordered.same rfl rfl

/-- A node at a reading of the clock. -/
structure TimedNode where
  clock : Instant
  node : Node

namespace TimedNode

/-- What happens at a reading of the clock: an event of the daemon, or a call of a method of the
peer at an IP. -/
inductive Act where
  | event (event : Node.Event)
  | call (ip : Ipv4Addr) (method : Peer.Method)

/-- One act. The clock does not go back, and an event reads it once. -/
def Step : Transition TimedNode (Instant × Act)
  | state, (now, .event event), next =>
    state.clock ≤ now ∧ next.clock = now ∧ (∀ reading, event.now = some reading → reading = now) ∧
      Node.Step state.node event next.node
  | state, (now, .call ip method), next =>
    state.clock ≤ now ∧ next.clock = now ∧ ∃ peer peer',
      state.node.peerManager.peersByIp.get ip = some peer ∧ peer.Calls now method peer' ∧
      next.node = state.node.withManager { state.node.peerManager with
        peersByIp := state.node.peerManager.peersByIp.insert ip peer' }

/-- The timestamps of every record are in order. -/
def Ordered (state : TimedNode) : Prop :=
  state.node.peerManager.EachPeer fun _ peer => peer.Ordered state.clock

variable {state next : TimedNode} {now : Instant} {act : Act}

/-- Every act leaves the records in order. -/
theorem Step.ordered (step : Step state (now, act) next) (ordered : state.Ordered) :
    next.Ordered := by
  cases act with
  | event event =>
      obtain ⟨forward, rfl, reads, step⟩ := step
      have before : state.node.peerManager.EachPeer fun _ peer => peer.Ordered next.clock :=
        fun ip peer held => (ordered ip peer held).later forward
      exact Node.Step.eachPeer (tolerates_ordered state.node.keypair next.clock)
        (toleratesLoad_ordered state.node.keypair next.clock) step reads before
  | call ip method =>
      obtain ⟨forward, rfl, peer, peer', held, calls, same⟩ := step
      have before : state.node.peerManager.EachPeer fun _ peer => peer.Ordered next.clock :=
        fun ip peer held => (ordered ip peer held).later forward
      unfold Ordered
      rw [same]
      exact before.insert ((before ip peer held).calls calls) rfl

end TimedNode

namespace NodeStatus

/-- The three classes of the summary partition the peers, and offline is not connected. -/
structure Partitions (status : NodeStatus) : Prop where
  flowing : ∀ peer ∈ status.peers, peer.dataFlowing = true → peer.connected = true
  total : status.passingData + status.handshakeOnly + status.offline = status.peers.length
  offline : status.offline = status.peers.countP fun peer => !peer.connected

omit [Crates] in
/-- Where data flows only to connected peers, the classes partition the peers. -/
theorem partitions {status : NodeStatus}
    (flowing : ∀ peer ∈ status.peers, peer.dataFlowing = true → peer.connected = true) :
    status.Partitions := by
  have counts : status.peers.length = status.passingData + status.handshakeOnly +
      status.peers.countP fun peer => !peer.connected := by
    unfold passingData handshakeOnly
    generalize status.peers = peers at flowing
    induction peers with
    | nil => rfl
    | cons peer peers ih =>
        obtain ⟨first, rest⟩ := List.forall_mem_cons.mp flowing
        have ih := ih rest
        simp only [List.countP_cons, List.length_cons]
        cases data : peer.dataFlowing with
        | false => cases alive : peer.connected <;> simp <;> omega
        | true =>
            rw [first data]
            simp
            omega
  have other : status.offline = status.peers.countP fun peer => !peer.connected := by
    unfold offline
    omega
  exact ⟨flowing, by omega, other⟩

end NodeStatus

/-- In every state of a run from startup, a peer that passes data is connected, and the classes of
every snapshot of the status partition the peers. -/
theorem passing_connected {start last : TimedNode} {trace : List (TimedNode × Instant × TimedNode.Act)}
    (run : Run TimedNode.Step start trace last) {dns : String → Option (List SocketAddr)}
    {now : Instant} {config : Config} {routes subnetRoutes : RouteFile}
    (started : start.node.peerManager =
      startupManager dns start.node.keypair now config routes subnetRoutes) :
    Always (fun state =>
      (∀ ip peer, state.node.peerManager.peersByIp.get ip = some peer →
        ∀ now, peer.isPassingData now = true → peer.isConnected now = true) ∧
      ∀ startTime now reads, (state.node.status startTime now reads).Partitions) trace last := by
  have ordered : Always TimedNode.Ordered trace last := by
    refine run.always (fun ordered (_ : True) step => step.ordered ordered) ?_ fun _ _ => trivial
    unfold TimedNode.Ordered
    rw [started]
    exact Node.eachPeer_startup (toleratesLoad_ordered start.node.keypair start.clock) dns now config
      routes subnetRoutes
  have holds (state : TimedNode) (ordered : state.Ordered) :
      (∀ ip peer, state.node.peerManager.peersByIp.get ip = some peer →
        ∀ now, peer.isPassingData now = true → peer.isConnected now = true) ∧
      ∀ startTime now reads, (state.node.status startTime now reads).Partitions := by
    refine ⟨fun ip peer held now passing => (ordered ip peer held).connected le_rfl passing,
      fun startTime now reads => NodeStatus.partitions fun status member flowing => ?_⟩
    obtain ⟨ip, peer, position, held, rfl⟩ := PeerManager.mem_status member
    exact (ordered ip peer held).connected (reads position).beforeFlowing flowing
  exact ⟨fun entry member => holds entry.1 (ordered.1 entry member), holds last ordered.2⟩

end Flow

section Sample

attribute [local instance] Sample.crates

namespace Sample

/-- The first sample node after a startup without peers. -/
def idleNode : TimedNode where
  clock := 0
  node := node 1 false (startupManager (fun _ => none) (keypair 1) 0 (node 1 false .new).config
    .missing .missing)

/-- The second sample node's handshake. -/
def greeting : List UInt8 :=
  [pktHandshake] ++ (keypair 2).publicKey.1 ++ [10, 10, 10, 2, 0x80, 0x25, 0]

/-- The record of the second node after its handshake at time 5. -/
def greetedPeer : Peer :=
  { (discovered (keypair 2).publicKey endpoint ⟨10, 10, 10, 2⟩ "" false).establishSession
      (keypair 1).secret (keypair 1).publicKey 5 with
    lastSeen := some 5 }

end Sample

/-- After a handshake at time 5 and a data packet at time 7 the peer passes data and is connected. -/
theorem passing_connected_sample : ∃ trace last peer, Run TimedNode.Step Sample.idleNode trace last ∧
    last.node.peerManager.peersByIp.get ⟨10, 10, 10, 2⟩ = some peer ∧
    peer.isPassingData 7 = true ∧ peer.isConnected 7 = true := by
  have greets : ∃ node effects,
      Sample.idleNode.node.handle (.tunnel 5 Sample.endpoint Sample.greeting) = .ok (node, effects) ∧
      node.peerManager.peersByIp.get ⟨10, 10, 10, 2⟩ = some Sample.greetedPeer := ⟨_, _, rfl, rfl⟩
  obtain ⟨node, effects, handled, held⟩ := greets
  let session := Sample.session 2 1
  let peer := (Sample.greetedPeer.decrypt session.sendCounter (session.sealed [1, 2, 3]) 7).1
  let last : TimedNode := ⟨7, node.withManager { node.peerManager with
    peersByIp := node.peerManager.peersByIp.insert ⟨10, 10, 10, 2⟩ peer }⟩
  have greeted : TimedNode.Step Sample.idleNode
      (5, .event (.tunnel 5 Sample.endpoint Sample.greeting)) ⟨5, node⟩ :=
    ⟨by decide, rfl, fun _ same => (Option.some.inj same).symm, Or.inl ⟨effects, handled⟩⟩
  have received : TimedNode.Step ⟨5, node⟩ (7, .call ⟨10, 10, 10, 2⟩
      (.decrypt session.sendCounter (session.sealed [1, 2, 3]))) last :=
    ⟨Nat.le_add_right 5 2, rfl, Sample.greetedPeer, peer, held, rfl, rfl⟩
  have run := (Run.refl.step greeted).step received
  have there : last.node.peerManager.peersByIp.get ⟨10, 10, 10, 2⟩ = some peer :=
    HashMap.get_insert_self _ _ _
  have passing : peer.isPassingData 7 = true := by decide
  have started : Sample.idleNode.node.peerManager = startupManager (fun _ => none)
      Sample.idleNode.node.keypair 0 (Sample.node 1 false .new).config .missing .missing := rfl
  exact ⟨_, last, peer, run, there, passing,
    (passing_connected run started).2.1 ⟨10, 10, 10, 2⟩ peer there 7 passing⟩

end Sample
end WolfNet
