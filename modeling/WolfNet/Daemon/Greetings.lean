import WolfNet.Daemon.Handshakes
import WolfNet.Daemon.Records

/-!
# Sending to a peer that shook hands

A handshake leaves its sender at the announced IP, connected. It also has an endpoint, unless the
peer was there already under an endpoint line that did not resolve: the line withholds the source
of the handshake, and the peer is connected but cannot be sent to. No run has such a peer whose
loads of the config resolve the lines of the peers that they add.

The handshake arm calls the manager three times, and the listener may hear broadcasts in between.
They do not matter as long as each names both the announced key and the announced IP, or neither.
-/

namespace WolfNet

open WolfNet.Std WolfNet.Semantics PeerManager

section Daemon

variable [Crates]

/-- The peer has an endpoint line and no endpoint. -/
def Peer.Unresolved (peer : Peer) : Prop :=
  peer.configuredEndpoint ≠ none ∧ peer.endpoint = none

/-- The endpoint line of a config entry resolves, if it has one. -/
def PeerConfig.Resolves (pc : PeerConfig) (dns : String → Option (List SocketAddr)) : Prop :=
  ∀ line, pc.endpoint = some line → resolveEndpoint dns line ≠ none

/-- The endpoint lines of the peers that startup adds resolve. -/
def Config.Resolves (config : Config) (dns : String → Option (List SocketAddr)) : Prop :=
  ∀ pc ∈ config.peers, pc.identity ≠ none → pc.Resolves dns

/-- What the listener hears in a broadcast that is not its own. -/
structure Heard where
  publicKey : PublicKey
  endpoint : SocketAddr
  wolfnetIp : Ipv4Addr
  hostname : String
  isGateway : Bool

/-- The broadcast names both the key and the IP of the handshake, or neither. -/
def Heard.Agrees (heard : Heard) (hs : Handshake) : Prop :=
  heard.publicKey.Same hs.publicKey ↔ heard.wolfnetIp = hs.wolfnetIp

/-- The manager after the listener took broadcasts in, in whatever order it met the table. -/
def PeerManager.Listens (pm : PeerManager) : List Heard → PeerManager → Prop
  | [], pm' => Reordered pm pm'
  | heard :: rest, pm' => ∃ met, Reordered pm met ∧
      (met.updateFromDiscovery heard.publicKey heard.endpoint heard.wolfnetIp heard.hostname
        heard.isGateway).Listens rest pm'

namespace Node

/-- The handshake arm, with what the listener hears before its second call of the manager, which
asks whether the peer is connected, and before the third. -/
inductive ShakesHands (node : Node) (now : Instant) (src : SocketAddr) (bytes : List UInt8)
    (hs : Handshake) : List Heard → Node → List Effect → Prop where
  | shakes {first second : List Heard} {asked left : PeerManager}
      (parsed : parseHandshake bytes = .ok (some hs))
      (before : (node.peerManager.updateFromDiscovery hs.publicKey src hs.wolfnetIp hs.hostname
        hs.isGateway).Listens first asked)
      (between : asked.Listens second left) :
      ShakesHands node now src bytes hs (first ++ second)
        (node.withManager (left.withPeerByIp hs.wolfnetIp fun peer =>
          { peer.establishSession node.keypair.secret node.keypair.publicKey now with
            lastSeen := some now }))
        (if (asked.peersByIp.get hs.wolfnetIp).any fun peer => peer.isConnected now then []
          else [.sendTo src (buildHandshake node.keypair node.wolfnetIp
            node.config.network.listenPort node.hostname node.config.network.gateway)])

/-- The node holds the announced peer at its IP and can send it every packet that fits the buffer,
for as long as it counts as connected. -/
def CanSend (node : Node) (now : Instant) (hs : Handshake) : Prop :=
  ∃ peer endpoint, node.peerManager.peersByIp.get hs.wolfnetIp = some peer ∧
    peer.publicKey.Same hs.publicKey ∧ peer.endpoint = some endpoint ∧
    ∀ later, elapsedSecs later now < 120 → peer.isConnected later = true ∧
      ∀ plaintext, 13 + plaintext.length + 16 ≤ sendBuf.length →
        plaintext.length ≤ Crates.plaintextLimit → ∃ peer' datagram,
          encryptAndSend sendBuf plaintext peer node.keypair.myPeerId later =
            .ok (peer', [.sendTo endpoint datagram], true)

/-- The announced peer is at its IP under an endpoint line that did not resolve. -/
def Withholds (node : Node) (hs : Handshake) : Prop :=
  ∃ peer, node.peerManager.peersByIp.get hs.wolfnetIp = some peer ∧
    peer.publicKey.Same hs.publicKey ∧ peer.Unresolved

/-- The endpoint line of a peer that the call adds resolves. -/
def Call.Resolves : Call → Prop
  | .addPeer dns _ pc _ _ => pc.Resolves dns
  | _ => True

end Node

section Handshake

variable {pm pm' : PeerManager} {publicKey : PublicKey} {endpoint : SocketAddr} {ip : Ipv4Addr}
  {hostname : String} {isGateway : Bool} {hs : Handshake} {withheld : Prop}

/-- A peer of the announced key is at the announced IP, and has no endpoint exactly where its line
withholds it. -/
def PeerManager.Meets (pm : PeerManager) (hs : Handshake) (withheld : Prop) : Prop :=
  ∃ peer, pm.peersByIp.get hs.wolfnetIp = some peer ∧ peer.publicKey.Same hs.publicKey ∧
    (peer.endpoint = none ↔ withheld) ∧ (peer.endpoint = none → peer.configuredEndpoint ≠ none)

/-- The discovery of a handshake leaves its peer without an endpoint only where a line withholds
it. -/
theorem meets_discovered (pm : PeerManager) (hs : Handshake) (src : SocketAddr) :
    (pm.updateFromDiscovery hs.publicKey src hs.wolfnetIp hs.hostname hs.isGateway).Meets hs
      (∃ old, pm.peersByIp.get hs.wolfnetIp = some old ∧ old.publicKey.Same hs.publicKey ∧
        old.Unresolved) := by
  cases pm.updateFromDiscovery_discovers hs.publicKey src hs.wolfnetIp hs.hostname
    hs.isGateway with
  | refreshed peer keyed unpinned moves =>
      refine ⟨_, (moves.peers _).trans (if_pos rfl), keyed,
        iff_of_false (Option.some_ne_none src) ?_, fun none => by cases none⟩
      rintro ⟨old, held, _, pinned, _⟩
      cases held.symm.trans moves.held
      exact pinned unpinned
  | pinned peer keyed pinned touches =>
      refine ⟨_, (touches.peers _).trans (if_pos rfl), keyed,
        ⟨fun none => ⟨peer, touches.held, keyed, pinned, none⟩, ?_⟩, fun _ => pinned⟩
      rintro ⟨old, held, _, _, none⟩
      cases held.symm.trans touches.held
      exact none
  | migrated oldIp peer elsewhere held keyed search foreign replaces =>
      refine ⟨_, (replaces.peers _).trans (if_pos rfl), keyed,
        iff_of_false (Option.some_ne_none src) ?_, fun none => by cases none⟩
      rintro ⟨old, there, same, _⟩
      exact foreign old there same
  | inserted unknown replaces =>
      refine ⟨_, (replaces.peers _).trans (if_pos rfl), .refl _,
        iff_of_false (Option.some_ne_none src) ?_, fun none => by cases none⟩
      rintro ⟨old, there, same, _⟩
      exact unknown _ old there same

/-- A broadcast that agrees with the handshake leaves its peer as it is, or gives it an endpoint that
no line withholds. -/
theorem PeerManager.Meets.discovery (meets : pm.Meets hs withheld)
    (agrees : publicKey.Same hs.publicKey ↔ ip = hs.wolfnetIp) :
    (pm.updateFromDiscovery publicKey endpoint ip hostname isGateway).Meets hs withheld := by
  obtain ⟨peer, held, keyed, unplaced, lined⟩ := meets
  -- A record that the broadcast puts elsewhere leaves this one where it is.
  have stays {new : Option Peer} {source : Option Ipv4Addr} {pm' : PeerManager}
      (replaces : Replaces pm pm' ip new source) (apart : ip ≠ hs.wolfnetIp)
      (unmoved : source ≠ some hs.wolfnetIp) : pm'.Meets hs withheld := by
    refine ⟨peer, ?_, keyed, unplaced, lined⟩
    rw [replaces.peers, if_neg apart.symm, if_neg unmoved, held]
  have edited {new old : Peer} {pm' : PeerManager} (edits : Edits pm pm' ip old new)
      (same : new.publicKey = old.publicKey)
      (further : old = peer → (new.endpoint = none ↔ withheld) ∧
        (new.endpoint = none → new.configuredEndpoint ≠ none)) : pm'.Meets hs withheld := by
    by_cases here : hs.wolfnetIp = ip
    · have there := edits.held
      rw [← here, held] at there
      cases there
      refine ⟨new, (edits.peers _).trans (if_pos here), ?_, further rfl⟩
      rw [same]
      exact keyed
    · exact ⟨peer, (edits.peers _).trans ((if_neg here).trans held), keyed, unplaced, lined⟩
  cases pm.updateFromDiscovery_discovers publicKey endpoint ip hostname isGateway with
  | refreshed record _ unpinned moves =>
      refine edited moves.toEdits rfl fun same => ⟨?_, fun none => by cases none⟩
      cases same
      exact iff_of_false (Option.some_ne_none endpoint)
        fun withholds => lined (unplaced.mpr withholds) unpinned
  | pinned record _ line touches =>
      refine edited touches.toEdits rfl fun same => ?_
      cases same
      exact ⟨unplaced, fun _ => line⟩
  | migrated oldIp record elsewhere there found _ foreign replaces =>
      have apart : ip ≠ hs.wolfnetIp := by
        rintro rfl
        exact foreign peer held (keyed.trans (agrees.mpr rfl).symm)
      refine stays replaces apart fun same => ?_
      cases same
      cases held.symm.trans there
      exact apart (agrees.mp (found.symm.trans keyed))
  | inserted unknown replaces =>
      have apart : ip ≠ hs.wolfnetIp := by
        rintro rfl
        exact unknown _ peer held (keyed.trans (agrees.mpr rfl).symm)
      exact stays replaces apart (by simpa using apart)

/-- The order of the table does not matter for whom it has met. -/
theorem PeerManager.Meets.reordered (meets : pm.Meets hs withheld)
    (reordered : Reordered pm pm') : pm'.Meets hs withheld := by
  obtain ⟨peer, held, rest⟩ := meets
  exact ⟨peer, (reordered.peers _).trans held, rest⟩

/-- Nothing that agrees with the handshake takes its peer away. -/
theorem PeerManager.Meets.listens {heard : List Heard} (meets : pm.Meets hs withheld)
    (listens : pm.Listens heard pm') (agree : ∀ broadcast ∈ heard, broadcast.Agrees hs) :
    pm'.Meets hs withheld := by
  induction heard generalizing pm with
  | nil => exact meets.reordered listens
  | cons broadcast heard ih =>
      obtain ⟨met, reordered, rest⟩ := listens
      obtain ⟨agrees, others⟩ := List.forall_mem_cons.mp agree
      exact ih ((meets.reordered reordered).discovery agrees) rest others

end Handshake

namespace Node

variable {node node' : Node} {now : Instant} {src : SocketAddr} {bytes : List UInt8} {hs : Handshake}
  {heard : List Heard} {effects : List Effect}

/-- A record that a handshake has just left can be sent to when it has an endpoint. -/
theorem canSend_greeted {peer : Peer} {secret : StaticSecret} {publicKey : PublicKey}
    {endpoint : SocketAddr}
    (held : node.peerManager.peersByIp.get hs.wolfnetIp =
      some { peer.establishSession secret publicKey now with lastSeen := some now })
    (keyed : peer.publicKey.Same hs.publicKey) (placed : peer.endpoint = some endpoint) :
    node.CanSend now hs := by
  refine ⟨_, endpoint, held, keyed, placed, fun later recent => ?_⟩
  have connected : ({ peer.establishSession secret publicKey now with
      lastSeen := some now } : Peer).isConnected later = true := decide_eq_true recent
  refine ⟨connected, fun plaintext room fits => ?_⟩
  have read : plaintext.length ≤ 65536 := by
    rw [sendBuf, List.length_replicate] at room
    omega
  exact ⟨_, _, encryptAndSend_eq node.keypair.myPeerId placed connected rfl read fits⟩

/-- The arm that nothing comes between is the whole of it. -/
theorem shakesHands_of_handleHandshake (parsed : parseHandshake bytes = .ok (some hs))
    (run : node.handleHandshake now src bytes = .ok (node', effects)) :
    node.ShakesHands now src bytes hs [] node' effects := by
  simp only [handleHandshake, parsed, Rust.ok_bind, Rust.pure_eq, Except.ok.injEq,
    Prod.mk.injEq] at run
  obtain ⟨rfl, rfl⟩ := run
  have quiet (pm : PeerManager) : pm.Listens [] pm := Reordered.refl pm
  have shakes : node.ShakesHands now src bytes hs ([] ++ []) _ _ :=
    .shakes parsed (quiet _) (quiet _)
  exact shakes

/-- The node can send to a peer that shook hands exactly when no line withholds its endpoint. -/
theorem canSend_iff (shakes : node.ShakesHands now src bytes hs heard node' effects)
    (agree : ∀ broadcast ∈ heard, broadcast.Agrees hs) :
    node'.CanSend now hs ↔ ¬node.Withholds hs := by
  obtain ⟨parsed, before, between⟩ := shakes
  obtain ⟨first, second⟩ := List.forall_mem_append.mp agree
  obtain ⟨peer, held, keyed, unplaced, _⟩ :=
    ((meets_discovered node.peerManager hs src).listens before first).listens between second
  have left := (withPeerByIp_touches held (f := fun peer =>
    { peer.establishSession node.keypair.secret node.keypair.publicKey now with
      lastSeen := some now }) rfl rfl rfl).peers hs.wolfnetIp
  rw [if_pos rfl] at left
  constructor
  · rintro ⟨record, endpoint, there, _, placed, _⟩ withholds
    cases left.symm.trans there
    exact Option.some_ne_none endpoint (placed.symm.trans (unplaced.mpr withholds))
  · intro present
    obtain ⟨endpoint, placed⟩ := Option.ne_none_iff_exists'.mp (mt unplaced.mp present)
    exact canSend_greeted left keyed placed

end Node

/-- No record of the table has an endpoint line and no endpoint. -/
abbrev PeerManager.Settled (pm : PeerManager) : Prop :=
  pm.EachPeer fun _ peer => ¬peer.Unresolved

/-- What the network has the daemon write leaves no endpoint line without an endpoint. -/
theorem tolerates_settled (keypair : KeyPair) (now : Instant) :
    Tolerates keypair now fun _ peer => ¬peer.Unresolved where
  sent ip old new sentOn _ good := by
    rw [sentOn.fields]
    exact good
  received _ _ _ _ _ _ good := good
  moved _ _ addr _ unresolved := Option.some_ne_none addr unresolved.2
  seen _ _ good := good
  greeted _ _ good := good
  rediscovered _ _ _ _ good := good
  migrated _ _ _ endpoint _ _ _ unresolved := Option.some_ne_none endpoint unresolved.2
  redirected _ _ _ good := good
  discovered _ _ _ _ _ unresolved := unresolved.1 rfl
  brought _ _ _ _ unresolved := unresolved.1 rfl

/-- A peer whose line resolves is not unresolved when it is added. -/
theorem configuredPeer_resolved {dns : String → Option (List SocketAddr)} {keypair : KeyPair}
    {now : Instant} {pc : PeerConfig} {publicKey : PublicKey} {ip : Ipv4Addr}
    (resolves : pc.Resolves dns) :
    ¬(configuredPeer dns keypair now pc publicKey ip).Unresolved := by
  rintro ⟨lined, none⟩
  obtain ⟨line, given⟩ := Option.ne_none_iff_exists'.mp lined
  have placed : (configuredPeer dns keypair now pc publicKey ip).endpoint =
      pc.endpoint.bind (resolveEndpoint dns) := rfl
  rw [placed, show pc.endpoint = some line from given, Option.bind_some] at none
  exact resolves line given none

/-- Startup adds no unresolved peer when it resolves the lines of the config. -/
theorem settled_startup {dns : String → Option (List SocketAddr)} {keypair : KeyPair}
    {now : Instant} {config : Config} (resolves : config.Resolves dns)
    (routes subnetRoutes : RouteFile) :
    (startupManager dns keypair now config routes subnetRoutes).Settled := by
  have loaded : (startupPeers dns keypair now config).Settled := by
    refine List.foldlRecOn config.peers _ eachPeer_new fun pm settled pc member => ?_
    unfold startupPeer
    split
    · next publicKey ip identity =>
        refine settled.replace (pm.addPeer_replaces _) fun _ same => ?_
        cases same
        exact configuredPeer_resolved (resolves pc member (identity ▸ Option.some_ne_none _))
    · exact settled
  refine EachPeer.of_table loaded fun ip => ?_
  rw [startupManager, loadSubnetRoutes_peersByIp, loadRoutes_peersByIp]

namespace Node

/-- No record is unresolved, and the one whose endpoint the main loop has just set has it still. -/
structure Settles (mid : Midway) : Prop where
  settled : mid.node.peerManager.Settled
  placed : ∀ ip, mid.placed = some ip →
    mid.node.peerManager.EachPeer fun other peer => other = ip → peer.endpoint ≠ none

/-- A call whose line resolves leaves no record unresolved. -/
theorem Interleaves.settles {mid mid' : Midway} {call : Call} (settles : Settles mid)
    (resolves : call.Resolves) (step : Interleaves mid call mid') : Settles mid' := by
  obtain ⟨settled, placed⟩ := settles
  cases step with
  | @call node last call pm performs ordered =>
  have network (other : call.loads = false) : pm.Settled := by
    refine performs.eachPeer (tolerates_settled node.keypair (call.now.getD 0)) settled ?_ other
    intro reading reads
    rw [reads, Option.getD_some]
  have idle (done : call.placing last = none) (settled : pm.Settled) :
      Settles ⟨node.withManager pm, call.placing last⟩ :=
    ⟨settled, fun ip follows => by cases done.symm.trans follows⟩
  cases call with
  | reorder =>
      exact ⟨network rfl, fun ip follows => (placed ip follows).reordered performs⟩
  | updateFromDiscovery publicKey endpoint ip hostname isGateway =>
      refine ⟨network rfl, fun set follows => ?_⟩
      cases performs
      exact (placed set follows).discovery (fun _ _ _ _ => Option.some_ne_none endpoint)
        (fun _ good _ => good) (fun _ _ _ _ _ => Option.some_ne_none endpoint)
        fun _ => Option.some_ne_none endpoint
  | updateEndpoint ip addr =>
      refine ⟨network rfl, fun set follows other peer held here => ?_⟩
      cases follows
      cases performs
      subst here
      rcases @updateEndpoint_cases _ node.peerManager other addr with ⟨free, same⟩ | ⟨old, moves⟩
      · rw [withManager_peerManager, same, free] at held
        cases held
      · rw [withManager_peerManager, moves.peers, if_pos rfl] at held
        cases held
        exact Option.some_ne_none addr
  | addPeer dns now pc publicKey ip =>
      cases performs
      refine idle rfl (settled.replace (node.peerManager.addPeer_replaces _) fun _ same => ?_)
      cases same
      exact configuredPeer_resolved resolves
  | configureEndpoint ip line =>
      cases performs
      refine idle rfl (settled.withPeerByIp fun peer held _ unresolved => ?_)
      exact placed ip (ordered ip rfl) ip peer held rfl unresolved.2
  | clearEndpoint ip =>
      cases performs
      refine idle rfl ?_
      rcases @clearEndpoint_cases _ node.peerManager ip with ⟨_, same⟩ | ⟨peer, moves⟩
      · rwa [same]
      · exact settled.edit moves.toEdits fun _ unresolved => unresolved.1 rfl
  | rename ip hostname =>
      cases performs
      exact idle rfl (settled.withPeerByIp fun peer _ resolved => resolved)
  | _ => exact idle rfl (network rfl)

/-- Where every line is resolved, none withholds an endpoint. -/
theorem not_withholds_of_settled {node : Node} (settled : node.peerManager.Settled)
    (hs : Handshake) : ¬node.Withholds hs := by
  rintro ⟨peer, held, _, unresolved⟩
  exact settled hs.wolfnetIp peer held unresolved

/-- In every state of a run of calls from startup, a handshake makes its peer one that can be sent to
exactly when no line withholds its endpoint; and where every load resolves the lines of the peers
that it adds, every handshake does. The listener may hear anything in between that names both the
announced key and the announced IP, or neither. -/
theorem greeted_reached_iff {start last : Midway} {trace : List (Midway × Call)}
    (run : Run Interleaves start trace last) (fresh : start.placed = none)
    {dns : String → Option (List SocketAddr)} {now : Instant} {config : Config}
    {routes subnetRoutes : RouteFile}
    (started : start.node.peerManager =
      startupManager dns start.node.keypair now config routes subnetRoutes) :
    Always (fun mid => ∀ now src bytes hs heard node' effects,
      mid.node.ShakesHands now src bytes hs heard node' effects →
      (∀ broadcast ∈ heard, broadcast.Agrees hs) →
      (node'.CanSend now hs ↔ ¬mid.node.Withholds hs)) trace last ∧
    (config.Resolves dns → Throughout (fun _ call => call.Resolves) trace →
      Always (fun mid => ∀ now src bytes hs heard node' effects,
        mid.node.ShakesHands now src bytes hs heard node' effects →
        (∀ broadcast ∈ heard, broadcast.Agrees hs) → node'.CanSend now hs) trace last) := by
  constructor
  · exact ⟨fun _ _ _ _ _ _ _ _ _ => canSend_iff, fun _ _ _ _ _ _ _ => canSend_iff⟩
  · intro resolves throughout
    have begins : Settles start := by
      refine ⟨started ▸ settled_startup resolves routes subnetRoutes, fun ip follows => ?_⟩
      cases fresh.symm.trans follows
    have settled : Always Settles trace last :=
      run.always (fun settles resolves step => step.settles settles resolves) begins throughout
    have reached (mid : Midway) (settles : Settles mid) (now : Instant) (src : SocketAddr)
        (bytes : List UInt8) (hs : Handshake) (heard : List Heard) (node' : Node)
        (effects : List Effect) (shakes : mid.node.ShakesHands now src bytes hs heard node' effects)
        (agree : ∀ broadcast ∈ heard, broadcast.Agrees hs) : node'.CanSend now hs :=
      (canSend_iff shakes agree).mpr (not_withholds_of_settled settles.settled hs)
    exact ⟨fun entry member => reached entry.1 (settled.1 entry member), reached last settled.2⟩

end Node
end Daemon

namespace Node

section Sample

attribute [local instance] Sample.crates

/-- The config of a node with one peer, at the given line. -/
def linedConfig (line : String) : Config :=
  { (Sample.node 1 false new).config with
    peers := [⟨Crates.base64Encode (Sample.keypair 2).publicKey.1, some line, "10.10.10.2", none⟩] }

/-- The node after startup without name resolution. -/
def linedNode (line : String) : Node :=
  { Sample.node 1 false (startupManager (fun _ => none) (Sample.keypair 1) 0 (linedConfig line)
      .missing .missing) with
    config := linedConfig line }

/-- The handshake of that peer. -/
def peerHandshake : List UInt8 :=
  [pktHandshake] ++ (Sample.keypair 2).publicKey.1 ++ [10, 10, 10, 2, 0x80, 0x25, 0]

/-- What it says. -/
def peerHs : Handshake where
  publicKey := (Sample.keypair 2).publicKey
  wolfnetIp := ⟨10, 10, 10, 2⟩
  listenPort := 9600
  isGateway := false
  hostname := ""

/-- The broadcast of a sample node at an IP. -/
def heardOf (byte octet : UInt8) : Heard where
  publicKey := (Sample.keypair byte).publicKey
  endpoint := Sample.endpoint
  wolfnetIp := ⟨10, 10, 10, octet⟩
  hostname := "sample"
  isGateway := false

/-- A peer with a literal address can be sent to after its handshake, although the listener hears of
it and of another node meanwhile. -/
theorem greeted_reached_iff_sample : ∃ node' effects,
    (linedNode "203.0.113.7:9600").ShakesHands 5 Sample.endpoint peerHandshake peerHs
      ([heardOf 3 3] ++ [heardOf 2 2]) node' effects ∧ node'.CanSend 5 peerHs := by
  have resolves : (linedConfig "203.0.113.7:9600").Resolves fun _ => none := by
    intro pc member _ line lined
    rw [linedConfig, List.mem_singleton] at member
    rw [member] at lined
    cases lined
    decide
  have started : (linedNode "203.0.113.7:9600").peerManager = startupManager (fun _ => none)
      (Sample.keypair 1) 0 (linedConfig "203.0.113.7:9600") .missing .missing := rfl
  have listens (pm : PeerManager) (broadcast : Heard) : pm.Listens [broadcast] _ :=
    ⟨pm, .refl pm, .refl _⟩
  have shakes : (linedNode "203.0.113.7:9600").ShakesHands 5 Sample.endpoint peerHandshake peerHs
      ([heardOf 3 3] ++ [heardOf 2 2]) _ _ := .shakes rfl (listens _ _) (listens _ _)
  have agree : ∀ broadcast ∈ [heardOf 3 3] ++ [heardOf 2 2], broadcast.Agrees peerHs := by
    unfold Heard.Agrees
    decide
  have run : Run Interleaves ⟨linedNode "203.0.113.7:9600", none⟩ [] _ := Run.refl
  have reached := ((greeted_reached_iff run rfl started).2 resolves .nil).2
  exact ⟨_, _, shakes, reached 5 Sample.endpoint peerHandshake peerHs _ _ _ shakes agree⟩

/-- A peer whose host name did not resolve at startup cannot be sent to after its handshake. -/
theorem greeted_unreached : (linedNode "peer.example:9600").peerManager =
      startupManager (fun _ => none) (Sample.keypair 1) 0 (linedConfig "peer.example:9600")
        .missing .missing ∧
    parseHandshake peerHandshake = .ok (some peerHs) ∧ ∃ node' effects,
      (linedNode "peer.example:9600").handleHandshake 5 Sample.endpoint peerHandshake =
        .ok (node', effects) ∧ ¬node'.CanSend 5 peerHs := by
  have withheld : (linedNode "peer.example:9600").Withholds peerHs :=
    ⟨_, rfl, .refl _, Option.some_ne_none _, rfl⟩
  have shakes : (linedNode "peer.example:9600").ShakesHands 5 Sample.endpoint peerHandshake peerHs
      [] _ _ := shakesHands_of_handleHandshake rfl rfl
  exact ⟨rfl, rfl, _, _, rfl, fun sends => (canSend_iff shakes (by simp)).mp sends withheld⟩

end Sample
end Node
end WolfNet
