import WolfNet.Daemon.Events
import WolfNet.Daemon.Handshakes
import WolfNet.Table.EachPeer
import WolfNet.Table.Exchange

/-!
# A node and its own announcements

Peers are announced by handshakes, by discovery broadcasts and by the entries of peer exchanges. A
node tells its own announcements differently at each entrance: a handshake is never its own, a
broadcast is when it names the node's host, and an entry is when it names the node's IP.
`recognised_iff` says for which announcements that is right along a run.
-/

namespace WolfNet.Node

open WolfNet.Std WolfNet.Semantics PeerManager

section Daemon

variable [Crates]

/-- A message at one of the entrances, or a change of the order in which the table is met. -/
inductive Announcement where
  | reorder
  | handshake (now : Instant) (src : SocketAddr) (bytes : List UInt8)
  | discovery (src : SocketAddr) (bytes : List UInt8)
  | exchange (sender : Ipv4Addr) (now : Instant) (entries : List PexEntry)

/-- The node takes a message. -/
def Hears : Transition Node Announcement
  | node, .reorder, node' => ∃ pm, Reordered node.peerManager pm ∧ node' = node.withManager pm
  | node, .handshake now src bytes, node' =>
    ∃ effects, node.handleHandshake now src bytes = .ok (node', effects)
  | node, .discovery src bytes, node' => node' = node.receiveDiscovery src bytes
  | node, .exchange sender now entries, node' => ∃ pm,
    ExchangeRun sender node.wolfnetIp node.keypair now entries node.peerManager pm ∧
      node' = node.withManager pm

/-- The IP and the key are both different from a node's own, as the crate compares keys. -/
structure Another (ownIp : Ipv4Addr) (ownKey : PublicKey) (ip : Ipv4Addr) (publicKey : PublicKey) :
    Prop where
  ip : ip ≠ ownIp
  key : ¬publicKey.Same ownKey

/-- The IP and the key are those of another node. -/
abbrev Other (node : Node) (ip : Ipv4Addr) (publicKey : PublicKey) : Prop :=
  Another node.wolfnetIp node.keypair.publicKey ip publicKey

/-- The table holds other nodes only. -/
abbrev HoldsOthers (node : Node) : Prop :=
  node.peerManager.EachPeer fun ip peer => node.Other ip peer.publicKey

/-- The table holds the key at the IP. -/
def Enters (node : Node) (ip : Ipv4Addr) (publicKey : PublicKey) : Prop :=
  ∃ peer, node.peerManager.peersByIp.get ip = some peer ∧ peer.publicKey.Same publicKey

/-- The content of a datagram from the discovery socket. -/
def broadcast (bytes : List UInt8) : Option Discovery :=
  (fromUtf8 (bytes.take 512)).bind parseDiscovery

/-- Whatever the table holds, another node that announces itself enters it; one in a peer exchange
does when it is in the subnet and not purged, and the table has neither its IP nor its key. -/
def TakesOthers (node : Node) : Announcement → Prop
  | .reorder => True
  | .handshake now src bytes => ∀ hs, parseHandshake bytes = .ok (some hs) →
    node.Other hs.wolfnetIp hs.publicKey → ∀ pm, ∃ node' effects,
      (node.withManager pm).handleHandshake now src bytes = .ok (node', effects) ∧
        node'.Enters hs.wolfnetIp hs.publicKey
  | .discovery src bytes => ∀ message, broadcast bytes = some message →
    node.Other message.wolfnetIp message.publicKey → ∀ pm,
      ((node.withManager pm).receiveDiscovery src bytes).Enters message.wolfnetIp message.publicKey
  | .exchange sender now entries => ∀ entry ∈ entries, ∀ ip publicKey,
    Ipv4Addr.parse entry.wolfnetIp.toList = some ip →
    parsePublicKey entry.publicKey = .ok publicKey → node.Other ip publicKey →
    (ip.a = node.wolfnetIp.a ∧ ip.b = node.wolfnetIp.b ∧ ip.c = node.wolfnetIp.c) →
    ∀ pm : PeerManager, ip ∉ pm.purgedIps → pm.peersByIp.get ip = none → pm.Unknown publicKey →
      (node.withManager
        (pm.addPexEntry entry sender node.wolfnetIp node.keypair now)).Enters ip publicKey

/-- The message does not bring the node into its own table: a handshake and a broadcast that does
not name its host are of another node, and no entry that brings a new peer has its key. -/
def NamesOthers (node : Node) : Announcement → Prop
  | .reorder => True
  | .handshake _ _ bytes => ∀ hs, parseHandshake bytes = .ok (some hs) →
    node.Other hs.wolfnetIp hs.publicKey
  | .discovery _ bytes => ∀ message, broadcast bytes = some message →
    message.nodeId ≠ node.hostname → node.Other message.wolfnetIp message.publicKey
  | .exchange _ _ entries => ∀ admission ∈ node.peerManager.admissions node.wolfnetIp entries,
    ¬admission.name.Same node.keypair.publicKey

/-- No broadcast of another node names this node's host. -/
def NoNamesake (node : Node) : Announcement → Prop
  | .discovery _ bytes => ∀ message, broadcast bytes = some message →
    node.Other message.wolfnetIp message.publicKey → message.nodeId ≠ node.hostname
  | _ => True

/-- The node tells the message from its own announcements. -/
structure Recognises (node : Node) (announcement : Announcement) : Prop where
  own : node.NamesOthers announcement
  others : node.NoNamesake announcement

section Tables

variable {pm pm' : PeerManager} {ip : Ipv4Addr} {publicKey ownKey : PublicKey}
  {ownIp : Ipv4Addr}

/-- Who has another key than a node has it in any bytes. -/
theorem Another.same {other : PublicKey} (another : Another ownIp ownKey ip publicKey)
    (same : publicKey.Same other) : Another ownIp ownKey ip other :=
  ⟨another.ip, fun own => another.key (same.trans own)⟩

/-- A discovery leaves others only in a table of others exactly when it announces one. -/
theorem others_discovery_iff
    (others : pm.EachPeer fun ip peer => Another ownIp ownKey ip peer.publicKey)
    {endpoint : SocketAddr} {hostname : String} {isGateway : Bool} :
    (pm.updateFromDiscovery publicKey endpoint ip hostname isGateway).EachPeer
      (fun ip peer => Another ownIp ownKey ip peer.publicKey) ↔
        Another ownIp ownKey ip publicKey := by
  constructor
  · intro after
    obtain ⟨peer, held, keyed, _⟩ := updateFromDiscovery_held pm publicKey endpoint ip hostname isGateway
    exact (after ip peer held).same keyed
  · intro other
    refine others.discovery ?_ ?_ ?_ other
    · exact fun peer good _ => good
    · exact fun peer good _ => good
    · exact fun oldIp peer _ keyed => other.same keyed.symm

/-- An edit that keeps the key keeps the others apart. -/
theorem others_withPeerByIp_iff {f : Peer → Peer}
    (keyed : ∀ peer, (f peer).publicKey = peer.publicKey) :
    (pm.withPeerByIp ip f).EachPeer (fun ip peer => Another ownIp ownKey ip peer.publicKey) ↔
      pm.EachPeer fun ip peer => Another ownIp ownKey ip peer.publicKey := by
  constructor
  · intro after other peer held
    unfold PeerManager.withPeerByIp at after
    split at after
    · next record found =>
        by_cases here : other = ip
        · subst here
          cases found.symm.trans held
          exact keyed peer ▸ after other (f peer) (HashMap.get_insert_self ..)
        · exact after other peer ((HashMap.get_insert_of_ne _ _ here).trans held)
    · exact after other peer held
  · exact fun others => others.withPeerByIp fun peer _ good => (keyed peer).symm ▸ good

/-- A peer exchange leaves others only exactly when no entry that brings a new peer has the node's
key. -/
theorem others_exchange_iff
    (others : pm.EachPeer fun ip peer => Another ownIp ownKey ip peer.publicKey)
    {sender : Ipv4Addr} {keypair : KeyPair} {now : Instant} {entries : List PexEntry}
    (run : ExchangeRun sender ownIp keypair now entries pm pm') :
    pm'.EachPeer (fun ip peer => Another ownIp ownKey ip peer.publicKey) ↔
      ∀ admission ∈ pm.admissions ownIp entries, ¬admission.name.Same ownKey := by
  have exchanged := run.exchanged
  constructor
  · intro after admission member
    have free := (mem_admissions member).2.2.1
    exact (after _ _ ((exchanged.new admission.slot _ free).mpr ⟨admission, member, rfl, rfl⟩)).key
  · intro named ip peer held
    cases before : pm.peersByIp.get ip with
    | some old =>
        have good := others ip old before
        rcases exchanged.known ip old before with same | ⟨same, _⟩
        · cases held.symm.trans same
          exact good
        · cases held.symm.trans same
          exact good
    | none =>
        obtain ⟨admission, member, rfl, rfl⟩ := (exchanged.new ip peer before).mp held
        exact ⟨(mem_admissions member).2.1.foreign, named admission member⟩

end Tables

section Steps

variable {node node' : Node} {announcement : Announcement} {src : SocketAddr} {bytes : List UInt8}

/-- The broadcast is this node's own, or it is entered. -/
theorem receiveDiscovery_eq (node : Node) (src : SocketAddr) {message : Discovery}
    (parsed : broadcast bytes = some message) :
    node.receiveDiscovery src bytes = if message.nodeId = node.hostname then node
      else node.withManager (node.peerManager.updateFromDiscovery message.publicKey
        (.new src.ip message.listenPort) message.wolfnetIp message.hostname message.isGateway) := by
  rw [broadcast] at parsed
  simp only [receiveDiscovery, parsed]

/-- What is no broadcast changes nothing. -/
theorem receiveDiscovery_unparsed (unparsed : broadcast bytes = none) :
    node.receiveDiscovery src bytes = node := by
  rw [broadcast] at unparsed
  simp only [receiveDiscovery, unparsed]

/-- Every handshake enters its IP and key. -/
theorem handshake_enters (node : Node) (now : Instant) {hs : Handshake}
    (parsed : parseHandshake bytes = .ok (some hs)) : ∃ node' effects,
      node.handleHandshake now src bytes = .ok (node', effects) ∧
        node'.Enters hs.wolfnetIp hs.publicKey := by
  obtain ⟨peer, found, keyed, _⟩ := updateFromDiscovery_held node.peerManager hs.publicKey src
    hs.wolfnetIp hs.hostname hs.isGateway
  obtain ⟨node', effects, run, held⟩ := handleHandshake_held now parsed found
  exact ⟨node', effects, run, _, held, keyed⟩

/-- An entry brings its peer where the table has neither its IP nor its key. -/
theorem exchange_enters {pm : PeerManager} {entry : PexEntry} {ip : Ipv4Addr}
    {publicKey : PublicKey} (sender : Ipv4Addr) (now : Instant)
    (acceptable : pm.Acceptable node.wolfnetIp entry ip publicKey)
    (free : pm.peersByIp.get ip = none) (unknown : pm.Unknown publicKey) :
    (node.withManager
      (pm.addPexEntry entry sender node.wolfnetIp node.keypair now)).Enters ip publicKey := by
  have absent : pm.findIpByKey publicKey = none := findIpByKey_none.mpr unknown
  cases pm.addPexEntry_outcome entry sender node.wolfnetIp node.keypair now with
  | ignored same notNew notRelayed => exact absurd absent (notNew ip publicKey acceptable free)
  | relayed other relayed known touches =>
      obtain ⟨rfl, _⟩ := acceptable.unique other
      exact absurd (touches.held.symm.trans free) (Option.some_ne_none _)
  | inserted other _ _ replaces =>
      obtain ⟨rfl, rfl⟩ := acceptable.unique other
      exact ⟨_, (replaces.peers ip).trans (if_pos rfl), .refl _⟩

/-- Only a broadcast that names the node's host keeps another node out. -/
theorem takesOthers_iff : node.TakesOthers announcement ↔ node.NoNamesake announcement := by
  cases announcement with
  | reorder => exact Iff.rfl
  | handshake now src bytes =>
      exact iff_of_true (fun hs parsed _ pm => handshake_enters _ now parsed) trivial
  | discovery src bytes =>
      refine forall₃_congr fun message parsed other => ?_
      constructor
      · intro enters own
        obtain ⟨peer, held, _⟩ := enters new
        rw [receiveDiscovery_eq _ _ parsed] at held
        rw [if_pos (show message.nodeId = (node.withManager new).hostname from own)] at held
        cases held
      · intro foreign pm
        rw [receiveDiscovery_eq _ _ parsed]
        rw [if_neg (show message.nodeId ≠ (node.withManager pm).hostname from foreign)]
        obtain ⟨peer, held, keyed, _⟩ := updateFromDiscovery_held pm message.publicKey
          (.new src.ip message.listenPort) message.wolfnetIp message.hostname message.isGateway
        exact ⟨peer, held, keyed⟩
  | exchange sender now entries =>
      refine iff_of_true ?_ trivial
      intro entry _ ip publicKey ipParsed keyParsed other subnet pm notPurged free unknown
      exact exchange_enters sender now ⟨ipParsed, keyParsed, other.ip, notPurged,
        subnet⟩ free unknown

/-- A message leaves a table of others one exactly when it names others. -/
theorem Hears.holdsOthers_iff (hears : Hears node announcement node') (others : node.HoldsOthers) :
    node'.HoldsOthers ↔ node.NamesOthers announcement := by
  cases announcement with
  | reorder =>
      obtain ⟨pm, reordered, rfl⟩ := hears
      exact iff_of_true (others.reordered reordered) trivial
  | handshake now src bytes =>
      obtain ⟨effects, run⟩ := hears
      cases parsed : parseHandshake bytes with
      | error panic => simp [handleHandshake, parsed] at run
      | ok content =>
          cases content with
          | none =>
              simp only [handleHandshake, parsed, Rust.ok_bind] at run
              cases run
              exact iff_of_true others fun hs same => by simp [parsed] at same
          | some hs =>
              obtain ⟨_, ran⟩ := node.handleHandshake_eq now src parsed
              cases run.symm.trans ran
              refine Iff.trans (others_withPeerByIp_iff ?_) ((others_discovery_iff others).trans ?_)
              · exact fun _ => rfl
              · refine ⟨fun other hs' same => ?_, fun named => named hs parsed⟩
                cases parsed.symm.trans same
                exact other
  | discovery src bytes =>
      obtain rfl := hears
      cases parsed : broadcast bytes with
      | none =>
          rw [receiveDiscovery_unparsed parsed]
          exact iff_of_true others fun message same => by simp [parsed] at same
      | some message =>
          rw [receiveDiscovery_eq _ _ parsed]
          by_cases own : message.nodeId = node.hostname
          · rw [if_pos own]
            refine iff_of_true others fun message' same foreign => ?_
            cases parsed.symm.trans same
            exact absurd own foreign
          · rw [if_neg own]
            refine (others_discovery_iff others).trans ⟨fun other message' same _ => ?_,
              fun named => ?_⟩
            · cases parsed.symm.trans same
              exact other
            · exact named message parsed own
  | exchange sender now entries =>
      obtain ⟨pm, run, rfl⟩ := hears
      exact others_exchange_iff others run

end Steps

/-- Where the config does not list the node, startup does not enter it. -/
theorem holdsOthers_startup {dns : String → Option (List SocketAddr)} {keypair : KeyPair}
    {now : Instant} {config : Config} {ownIp : Ipv4Addr} {ownKey : PublicKey}
    (unlisted : ∀ pc ∈ config.peers, ∀ publicKey ip, pc.identity = some (publicKey, ip) →
      Another ownIp ownKey ip publicKey) (routes subnetRoutes : RouteFile) :
    (startupManager dns keypair now config routes subnetRoutes).EachPeer fun ip peer =>
      Another ownIp ownKey ip peer.publicKey := by
  have loaded : (startupPeers dns keypair now config).EachPeer fun ip peer =>
      Another ownIp ownKey ip peer.publicKey := by
    refine List.foldlRecOn config.peers _ eachPeer_new fun pm others pc member => ?_
    unfold startupPeer
    split
    · next publicKey ip identity =>
        refine others.replace (pm.addPeer_replaces _) fun _ same => ?_
        cases same
        exact unlisted pc member publicKey ip identity
    · exact others
  refine loaded.of_table fun ip => ?_
  rw [startupManager, loadSubnetRoutes_peersByIp, loadRoutes_peersByIp]

/-- Along a run from a config that does not list the node, the table holds others only and no other
node is taken for the node itself, exactly when the node tells every message from its own. -/
theorem recognised_iff {start last : Node} {trace : List (Node × Announcement)}
    (run : Run Hears start trace last) {dns : String → Option (List SocketAddr)} {now : Instant}
    {config : Config} {routes subnetRoutes : RouteFile}
    (started : start.peerManager =
      startupManager dns start.keypair now config routes subnetRoutes)
    (unlisted : ∀ pc ∈ config.peers, ∀ publicKey ip, pc.identity = some (publicKey, ip) →
      start.Other ip publicKey) :
    Always HoldsOthers trace last ∧ Throughout TakesOthers trace ↔ Throughout Recognises trace := by
  have initially : start.HoldsOthers := by
    rw [HoldsOthers, started]
    exact holdsOthers_startup unlisted routes subnetRoutes
  have table : Always HoldsOthers trace last ↔ Throughout NamesOthers trace :=
    run.always_iff id (fun others named hears => (hears.holdsOthers_iff others).mpr named)
      (fun others hears after => (hears.holdsOthers_iff others).mp after) initially
  have taken : Throughout TakesOthers trace ↔ Throughout NoNamesake trace :=
    forall₂_congr fun _ _ => takesOthers_iff
  rw [table, taken]
  constructor
  · exact fun ⟨own, others⟩ entry member => ⟨own entry member, others entry member⟩
  · exact fun told => ⟨fun entry member => (told entry member).own,
      fun entry member => (told entry member).others⟩

end Daemon

section Sample

attribute [local instance] Sample.crates

/-- A node that just started without configured peers. -/
def startedNode : Node :=
  Sample.node 1 false (startupManager (fun _ => none) (Sample.keypair 1) 0
    (Sample.node 1 false new).config .missing .missing)

/-- A handshake packet with a sample key and its IP, without a host name. -/
def sampleGreeting (byte : UInt8) : List UInt8 :=
  [pktHandshake] ++ (Sample.keypair byte).publicKey.1 ++ [10, 10, 10, byte, 0x80, 0x25, 0]

/-- The node after the handshake. -/
def afterGreeting (byte : UInt8) : Node :=
  match startedNode.handleHandshake 5 Sample.endpoint (sampleGreeting byte) with
  | .ok (node, _) => node
  | .error _ => startedNode

/-- The sample greetings are a run. -/
theorem hears_greeting (byte : UInt8) : Run Hears startedNode
    [(startedNode, .handshake 5 Sample.endpoint (sampleGreeting byte))] (afterGreeting byte) :=
  Run.refl.step ⟨_, rfl⟩

/-- The handshake of another node enters it. -/
theorem recognised_iff_sample :
    Always HoldsOthers
        [(startedNode, Announcement.handshake 5 Sample.endpoint (sampleGreeting 2))]
          (afterGreeting 2) ∧
      Throughout TakesOthers
        [(startedNode, Announcement.handshake 5 Sample.endpoint (sampleGreeting 2))] := by
  have started : startedNode.peerManager = startupManager (fun _ => none) (Sample.keypair 1) 0
      (Sample.node 1 false new).config .missing .missing := rfl
  refine (recognised_iff (hears_greeting 2) started fun _ member => by cases member).mpr ?_
  simp only [Throughout, List.forall_mem_singleton]
  refine ⟨fun hs parsed => ?_, trivial⟩
  cases parsed
  exact ⟨by decide, by decide⟩

/-- A broadcast of the second sample node under this node's host name. -/
def namesakeBroadcast : List UInt8 :=
  utf8Bytes "WOLFNET|1|sample|AgAAAAAAAAAAAAAAAAAAAAAAAAAAAAAAAAAAAAAAAAA=|10.10.10.2|9600|sample|N"

/-- What it says. -/
def namesake : Discovery where
  nodeId := "sample"
  publicKey := (Sample.keypair 2).publicKey
  wolfnetIp := ⟨10, 10, 10, 2⟩
  listenPort := 9600
  hostname := "sample"
  isGateway := false

/-- The broadcast of the namesake is parsed. -/
theorem broadcast_namesake : broadcast namesakeBroadcast = some namesake := by
  rfl

/-- The node's own handshake brings it into its own table, and a broadcast of another node that has
its host name is dropped. -/
theorem reflected_handshake_enters :
    Run Hears startedNode [(startedNode, .handshake 5 Sample.endpoint (sampleGreeting 1))]
        (afterGreeting 1) ∧
      ¬(afterGreeting 1).HoldsOthers ∧
      ¬startedNode.TakesOthers (.discovery Sample.endpoint namesakeBroadcast) := by
  refine ⟨hears_greeting 1, fun others => ?_, fun takes => ?_⟩
  · exact (others ⟨10, 10, 10, 1⟩ _ rfl).ip rfl
  · exact takesOthers_iff.mp takes namesake broadcast_namesake ⟨by decide, by decide⟩ rfl

end Sample
end WolfNet.Node
