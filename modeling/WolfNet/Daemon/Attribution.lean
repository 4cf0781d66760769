import WolfNet.Crates.Sample
import WolfNet.Daemon.Indexes
import WolfNet.Daemon.Receive

/-!
# Attribution of data packets

A data packet names its sender, but the data arm looks its source address up first and falls back
to the name only for a source that no peer is indexed under. While the indexes are right, a genuine
packet is counted to its sender unless another peer of the table has the source for its endpoint.
-/

namespace WolfNet.Node

open WolfNet.Std WolfNet.Semantics PeerManager

section Packets

variable [Crates]

/-- The record at an IP counts a packet under its advanced session, and the other records
stay as they are. -/
structure Counted (pm pm' : PeerManager) (ip : Ipv4Addr) (peer : Peer) (session : SessionCipher)
    (plaintextLen : Nat) (now : Instant) : Prop where
  record : ∃ record, pm'.peersByIp.get ip = some record ∧ record.publicKey = peer.publicKey ∧
    record.cipher = some session ∧ record.rxBytes = peer.rxBytes + UInt64.ofNat plaintextLen ∧
    record.lastSeen = some now ∧ record.lastDataRx = some now
  others : ∀ other, other ≠ ip → pm'.peersByIp.get other = pm.peersByIp.get other

/-- An accepted packet is counted to its peer alone. -/
theorem acceptFrom_counted (pm : PeerManager) (src : SocketAddr) (ip : Ipv4Addr) (peer : Peer)
    (session : SessionCipher) (plaintextLen : Nat) (now : Instant) :
    Counted pm (acceptFrom pm src ip peer (peer.received session plaintextLen now)) ip peer session
      plaintextLen now := by
  obtain ⟨endpoint, peers⟩ :=
    acceptFrom_peers pm src ip peer (peer.received session plaintextLen now)
  constructor
  · exact ⟨{ peer.received session plaintextLen now with endpoint := endpoint },
      by rw [peers, if_pos rfl], rfl, rfl, rfl, rfl, rfl⟩
  · intro other elsewhere
    rw [peers, if_neg elsewhere]

/-- The lookup leads to an IP when the source is indexed to it, or when it is not indexed
and the ID is. -/
theorem findIpByEndpointOrId_eq_some {pm : PeerManager} {src : SocketAddr} {peerId : PeerId}
    {ip : Ipv4Addr} :
    pm.findIpByEndpointOrId src peerId = some ip ↔
      pm.endpointToIp.get src = some ip ∨
        pm.endpointToIp.get src = none ∧ pm.idToIp.get peerId = some ip := by
  unfold PeerManager.findIpByEndpointOrId
  cases pm.endpointToIp.get src with
  | none => simp
  | some indexed => simp

/-- The table holds the peer at the IP, and the sender is the other end of its session, at a counter
that the replay check admits. -/
structure Genuine (node : Node) (ip : Ipv4Addr) (peer : Peer) (session sender : SessionCipher) :
    Prop where
  held : node.peerManager.peersByIp.get ip = some peer
  established : peer.cipher = some session
  paired : sender.Paired session
  admitted : replayWindow.Admits session.highest sender.sendCounter.toNat

/-- A data packet of the sender is decrypted with the session of the peer and counted to it alone. -/
def Attributes (node : Node) (now : Instant) (src : SocketAddr) (ip : Ipv4Addr) (peer : Peer)
    (session sender : SessionCipher) (plaintext : List UInt8) : Prop :=
  ∃ node', node.receiveData now src
      (buildDataPacket peer.peerId sender.sendCounter (sender.sealed plaintext)) =
        .ok (node', some (ip, plaintext)) ∧
    Counted node.peerManager node'.peerManager ip peer (session.accepted sender.sendCounter)
      plaintext.length now

variable {node : Node} {ip : Ipv4Addr} {peer : Peer} {session sender : SessionCipher}
  {src : SocketAddr} {keys : Set PublicKey}

/-- A genuine packet goes where the lookup leads. -/
theorem Genuine.attributes_iff (ideal : AeadIdeal) (genuine : node.Genuine ip peer session sender)
    (plaintext : List UInt8) (src : SocketAddr) (now : Instant) :
    node.Attributes now src ip peer session sender plaintext ↔
      node.peerManager.findIpByEndpointOrId src peer.peerId = some ip := by
  have outcome : session.outcome sender.sendCounter (sender.sealed plaintext) =
      (session.accepted sender.sendCounter, some plaintext) := by
    simp [SessionCipher.outcome, genuine.admitted, genuine.paired.opens_sealed ideal]
  constructor
  · rintro ⟨node', same, _⟩
    obtain ⟨result, run, receives⟩ := node.receiveData_receives now src peer.peerId
      sender.sendCounter (sender.sealed plaintext)
    cases run.symm.trans same
    cases receives with
    | opened other record opening text found there opens accepted => exact found
  · intro lookup
    exact ⟨_, receiveData_opens lookup genuine.held genuine.established outcome,
      acceptFrom_counted _ _ _ _ _ _ _⟩

/-- With right indexes, the lookup leads to a peer of the table unless another one has the source
for its endpoint and is indexed under it. -/
theorem findIpByEndpointOrId_of_indexed (indexed : Indexed keys node.peerManager)
    (held : node.peerManager.peersByIp.get ip = some peer) :
    node.peerManager.findIpByEndpointOrId src peer.peerId = some ip ↔
      (∀ other, other ≠ ip → node.peerManager.endpointAt other ≠ some src) ∨
        node.peerManager.endpointAt ip = some src ∧
          node.peerManager.endpointToIp.get src = some ip := by
  have byEndpoint := endpointIndexExact_iff.mp indexed.byEndpoint
  rw [findIpByEndpointOrId_eq_some]
  constructor
  · rintro (found | ⟨unindexed, _⟩)
    · exact Or.inr ⟨byEndpoint.sound found, found⟩
    · left
      intro other _ at_
      obtain ⟨holder, found⟩ := byEndpoint.covers at_
      cases unindexed.symm.trans found
  · rintro (alone | ⟨_, found⟩)
    · cases found : node.peerManager.endpointToIp.get src with
      | none =>
          have byId := (indexed.inverts peer.peerId ip).mpr (idAt_eq_some.mpr ⟨peer, held, rfl⟩)
          exact Or.inr ⟨rfl, byId⟩
      | some holder =>
          have here : holder = ip := by
            by_contra elsewhere
            exact alone holder elsewhere (byEndpoint.sound found)
          exact Or.inl (congrArg some here)
    · exact Or.inl found

end Packets

section Sample

attribute [local instance] Sample.crates

/-- Where the sample packets come from. -/
def sampleSource : SocketAddr := .v4 ⟨203, 0, 113, 7⟩ 9600

/-- A peer is configured, and then another node announces itself from the sample address. -/
def configures : Call :=
  .addPeer (fun _ => none) 0 ⟨"", none, "10.10.10.2", none⟩ (Sample.keypair 2).publicKey
    ⟨10, 10, 10, 2⟩

def announces : Call :=
  .updateFromDiscovery (Sample.keypair 1).publicKey sampleSource ⟨10, 10, 10, 1⟩ "other" false

/-- The record of the configured peer. -/
def configuredSample : Peer :=
  configuredPeer (fun _ => none) (Sample.keypair 3) 0 ⟨"", none, "10.10.10.2", none⟩
    (Sample.keypair 2).publicKey ⟨10, 10, 10, 2⟩

/-- The node before the two calls, between them and after them. -/
def emptySample : Node := Sample.node 3 false .new

def addedSample : Node := Sample.node 3 false (PeerManager.new.addPeer configuredSample)

def announcedSample : Node :=
  Sample.node 3 false ((PeerManager.new.addPeer configuredSample).updateFromDiscovery
    (Sample.keypair 1).publicKey sampleSource ⟨10, 10, 10, 1⟩ "other" false)

/-- The run of the two calls. -/
def announcedTrace : List (Midway × Call) :=
  [(⟨emptySample, none⟩, configures), (⟨addedSample, none⟩, announces)]

/-- The two calls are a run. -/
theorem run_announced :
    Run Interleaves ⟨emptySample, none⟩ announcedTrace ⟨announcedSample, none⟩ := by
  have first : Interleaves ⟨emptySample, none⟩ configures ⟨addedSample, none⟩ :=
    .call rfl fun _ follows => by cases follows
  have second : Interleaves ⟨addedSample, none⟩ announces ⟨announcedSample, none⟩ :=
    .call rfl fun _ follows => by cases follows
  exact (Run.refl.step first).step second

/-- Both calls keep the indexes. -/
theorem keepsIndexes_announced : Throughout (KeepsIndexes sampleKeys) announcedTrace := by
  simp only [Throughout, announcedTrace, List.forall_mem_cons, List.not_mem_nil, false_implies,
    implies_true, and_true]
  constructor
  · rintro _ ⟨⟩
    refine ⟨Or.inr rfl, ⟨by rintro _ ⟨⟩, by rintro _ _ ⟨⟩⟩, ?_⟩
    rintro _ ⟨⟩ endpoint _
    exact ⟨by rintro ⟨⟩, by rintro _ ⟨⟩⟩
  · rintro _ ⟨⟩
    refine ⟨Or.inl rfl, fun _ _ _ => rfl, ?_⟩
    rintro _ ⟨⟩ endpoint _
    exact ⟨by rintro ⟨⟩, by rintro _ ⟨⟩⟩

/-- The configured peer has a session that its node sends in. -/
theorem genuineSample : announcedSample.Genuine ⟨10, 10, 10, 2⟩ configuredSample
    (Sample.session 3 2) (Sample.session 2 3) :=
  ⟨rfl, rfl, ⟨by decide, by decide⟩, by decide⟩

end Sample
end WolfNet.Node
