import Mathlib.Data.Set.Function
import WolfNet.Crates.Sample
import WolfNet.Table.Ops

/-!
# The peer-ID index

The index by peer ID should be the inverse of the table. Two operations break it: an
add over a peer with another key, or of a key that has another IP, and a discovery
that migrates a key to an IP that is taken. `id_index_exact_iff` says that these are
all.
-/

namespace WolfNet.PeerManager

open WolfNet.Std WolfNet.Semantics

section Runs

variable [Crates]

/-- The index maps an ID to an IP exactly when the table holds a peer with that ID at
that IP, under which it knows itself; and no key has two IPs. -/
structure IdIndexExact (pm : PeerManager) : Prop where
  inverse : ∀ id ip, pm.idToIp.get id = some ip ↔
    ∃ peer, pm.peersByIp.get ip = some peer ∧ peer.peerId = id ∧ peer.wolfnetIp = ip
  unique : ∀ {ip other peer twin}, pm.peersByIp.get ip = some peer →
    pm.peersByIp.get other = some twin → peer.publicKey = twin.publicKey → ip = other

/-- The keys that an operation may bring into the table lie in a set. -/
def Op.Within (keys : Set PublicKey) : Op → Prop
  | .addPeer peer => peer.publicKey ∈ keys
  | .updateFromDiscovery publicKey _ _ _ _ => publicKey ∈ keys
  | .addFromPex entries _ _ _ _ => ∀ entry ∈ entries, ∀ publicKey,
    parsePublicKey entry.publicKey = .ok publicKey → publicKey ∈ keys
  | _ => True

/-- A step that brings in keys of the set only. -/
def StepWithin (keys : Set PublicKey) : Transition PeerManager Op := fun pm op pm' =>
  op.Within keys ∧ Step pm op pm'

/-- An add replaces only a peer of the same key and brings in no key that has another
IP, and a discovery that finds its key at another IP names a free one. -/
def KeepsIds (pm : PeerManager) : Op → Prop
  | .addPeer peer =>
    (∀ old, pm.peersByIp.get peer.wolfnetIp = some old → old.publicKey = peer.publicKey) ∧
    ∀ ip other, pm.peersByIp.get ip = some other → other.publicKey = peer.publicKey →
      ip = peer.wolfnetIp
  | .updateFromDiscovery publicKey _ ip _ _ =>
    ∀ oldIp, pm.keyHolder publicKey ip = some oldIp → oldIp ≠ ip → pm.peersByIp.get ip = none
  | _ => True

/-- Every record is for the IP it is under, and its key is in the set. -/
structure Wellformed (keys : Set PublicKey) (pm : PeerManager) : Prop where
  keyed : ∀ {ip peer}, pm.peersByIp.get ip = some peer → peer.wolfnetIp = ip
  known : ∀ {ip peer}, pm.peersByIp.get ip = some peer → peer.publicKey ∈ keys

/-- The table is well formed and the ID index is its inverse. -/
structure IdsInverted (keys : Set PublicKey) (pm : PeerManager) : Prop
    extends Wellformed keys pm where
  inverts : Inverts pm.idAt pm.idToIp.get

variable {keys : Set PublicKey} {pm pm' met : PeerManager} {op : Op} {ip : Ipv4Addr}

/-- An empty manager is well formed. -/
theorem wellformed_new : Wellformed keys new :=
  ⟨by simp [new], by simp [new]⟩

/-- The order of the table does not matter for this. -/
theorem Wellformed.reordered (wellformed : Wellformed keys pm) (reordered : Reordered pm met) :
    Wellformed keys met := by
  refine ⟨?_, ?_⟩
  · intro ip peer held
    exact wellformed.keyed (reordered.peers ip ▸ held)
  · intro ip peer held
    exact wellformed.known (reordered.peers ip ▸ held)

/-- A replacement that fits its IP keeps the table well formed. -/
theorem Wellformed.replaces {replacement : Option Peer} {source : Option Ipv4Addr}
    (wellformed : Wellformed keys pm) (replaces : Replaces pm pm' ip replacement source)
    (fits : ∀ peer, replacement = some peer → peer.wolfnetIp = ip ∧ peer.publicKey ∈ keys) :
    Wellformed keys pm' := by
  have holds : ∀ {other peer}, pm'.peersByIp.get other = some peer →
      peer.wolfnetIp = other ∧ peer.publicKey ∈ keys := by
    intro other peer held
    rw [replaces.peers] at held
    split at held
    · next here =>
        rw [here]
        exact fits peer held
    · split at held
      · cases held
      · exact ⟨wellformed.keyed held, wellformed.known held⟩
  exact ⟨fun held => (holds held).1, fun held => (holds held).2⟩

/-- An edit keeps the table well formed. -/
theorem Wellformed.edits {old edited : Peer} (wellformed : Wellformed keys pm)
    (edits : Edits pm pm' ip old edited) : Wellformed keys pm' := by
  have holds : ∀ {other peer}, pm'.peersByIp.get other = some peer →
      peer.wolfnetIp = other ∧ peer.publicKey ∈ keys := by
    intro other peer held
    rw [edits.peers] at held
    split at held
    · next here =>
        cases held
        rw [here, edits.wolfnetIp, edits.publicKey]
        exact ⟨wellformed.keyed edits.held, wellformed.known edits.held⟩
    · exact ⟨wellformed.keyed held, wellformed.known held⟩
  exact ⟨fun held => (holds held).1, fun held => (holds held).2⟩

/-- An exchange entry whose key is in the set keeps the table well formed. -/
theorem Wellformed.exchanges {entry : PexEntry} {senderIp : Ipv4Addr} {keypair : KeyPair}
    {now : Instant} (wellformed : Wellformed keys pm)
    (within : ∀ publicKey, parsePublicKey entry.publicKey = .ok publicKey → publicKey ∈ keys)
    (exchanges : Exchanges pm pm' entry senderIp keypair now) : Wellformed keys pm' := by
  cases exchanges with
  | ignored same =>
      rw [same]
      exact wellformed
  | relayed ip peer touches => exact wellformed.edits touches.toEdits
  | inserted publicKey ip free parsed unknown replaces =>
      refine wellformed.replaces replaces ?_
      rintro _ ⟨⟩
      exact ⟨rfl, within publicKey parsed⟩

/-- Every step keeps the table well formed. -/
theorem Wellformed.step (wellformed : Wellformed keys pm)
    (transition : StepWithin keys pm op pm') : Wellformed keys pm' := by
  obtain ⟨within, transition⟩ := transition
  cases op with
  | reorder => exact wellformed.reordered transition
  | addPeer peer =>
      cases transition
      refine wellformed.replaces (pm.addPeer_replaces peer) ?_
      rintro _ ⟨⟩
      exact ⟨rfl, within⟩
  | removePeer ip =>
      cases transition
      exact wellformed.replaces (pm.removePeer_replaces ip) (by simp)
  | purgePeer ip =>
      cases transition
      exact wellformed.replaces (pm.purgePeer_replaces ip) (by simp)
  | updateEndpoint _ _ | updateEndpointIfRoaming _ _ | clearEndpoint _ =>
      rcases Step.edits transition rfl with rfl | ⟨_, _, edits⟩
      · exact wellformed
      · exact wellformed.edits edits
  | updateFromDiscovery publicKey endpoint ip hostname isGateway =>
      cases transition
      cases pm.updateFromDiscovery_discovers publicKey endpoint ip hostname isGateway with
      | refreshed peer _ _ moves => exact wellformed.edits moves.toEdits
      | pinned peer _ _ touches => exact wellformed.edits touches.toEdits
      | migrated oldIp peer _ held _ _ _ replaces =>
          have known : peer.publicKey ∈ keys := wellformed.known held
          refine wellformed.replaces replaces ?_
          rintro _ ⟨⟩
          exact ⟨rfl, known⟩
      | inserted _ replaces =>
          refine wellformed.replaces replaces ?_
          rintro _ ⟨⟩
          exact ⟨rfl, within⟩
  | addFromPex entries senderIp myIp keypair now =>
      exact ExchangeRun.invariant (fun wellformed order => wellformed.reordered order)
        (fun member wellformed exchange => wellformed.exchanges (within _ member) exchange)
        wellformed transition

/-- In a well-formed table with distinct IDs, an ID tells the key. -/
theorem Wellformed.publicKey_of_peerId (wellformed : Wellformed keys pm)
    (distinctIds : Set.InjOn KeyPair.peerId keys) {peer : Peer} {publicKey : PublicKey}
    (held : pm.peersByIp.get ip = some peer) (member : publicKey ∈ keys)
    (same : peer.peerId = KeyPair.peerId publicKey) : peer.publicKey = publicKey :=
  distinctIds (wellformed.known held) member (peer.peerIdOfKey ▸ same)

/-- The ID at an IP is that of the peer there. -/
theorem idAt_eq_some {id : PeerId} :
    pm.idAt ip = some id ↔ ∃ peer, pm.peersByIp.get ip = some peer ∧ peer.peerId = id :=
  Option.map_eq_some_iff

namespace IdsInverted

/-- An empty manager has its IDs inverted. -/
theorem new : IdsInverted keys new :=
  ⟨wellformed_new, by simp [PeerManager.idAt, PeerManager.new, Inverts]⟩

/-- A key is at one IP only. -/
theorem unique (inverted : IdsInverted keys pm) {other : Ipv4Addr} {peer twin : Peer}
    (here : pm.peersByIp.get ip = some peer) (there : pm.peersByIp.get other = some twin)
    (same : peer.publicKey = twin.publicKey) : ip = other :=
  inverted.inverts.unique (idAt_eq_some.mpr ⟨peer, here, rfl⟩)
    (idAt_eq_some.mpr ⟨twin, there, by rw [twin.peerIdOfKey, peer.peerIdOfKey, same]⟩)

/-- Inverted IDs are an exact index. -/
theorem exact (inverted : IdsInverted keys pm) : IdIndexExact pm where
  inverse id ip := by
    rw [inverted.inverts id ip, idAt_eq_some]
    constructor
    · rintro ⟨peer, held, same⟩
      exact ⟨peer, held, same, inverted.keyed held⟩
    · rintro ⟨peer, held, same, _⟩
      exact ⟨peer, held, same⟩
  unique here there same := inverted.unique here there same

/-- An exact index inverts the IDs of a well-formed table. -/
theorem of_exact (wellformed : Wellformed keys pm) (exact : IdIndexExact pm) :
    Inverts pm.idAt pm.idToIp.get := by
  intro id ip
  rw [exact.inverse id ip, idAt_eq_some]
  constructor
  · rintro ⟨peer, held, same, _⟩
    exact ⟨peer, held, same⟩
  · rintro ⟨peer, held, same⟩
    exact ⟨peer, held, same, wellformed.keyed held⟩

/-- The order of the table does not matter for the index. -/
theorem reordered (inverted : IdsInverted keys pm) (reordered : Reordered pm met) :
    Inverts met.idAt met.idToIp.get := by
  rw [reordered.idAt, reordered.ids]
  exact inverted.inverts

/-- An edit leaves the index the inverse of the table. -/
theorem edits {old edited : Peer} (inverted : IdsInverted keys pm)
    (edits : Edits pm pm' ip old edited) : Inverts pm'.idAt pm'.idToIp.get := by
  rw [edits.idAt, edits.ids]
  exact inverted.inverts

/-- A replacement keeps the index inverse exactly when its change is exclusive. -/
theorem inverts_iff {replacement : Option Peer} {source : Option Ipv4Addr}
    (inverted : IdsInverted keys pm) (replaces : Replaces pm pm' ip replacement source) :
    Inverts pm'.idAt pm'.idToIp.get ↔
      (Change.mk ip (replacement.map Peer.peerId) source).Exclusive pm.idAt := by
  rw [replaces.idAt, replaces.ids]
  exact inverted.inverts.change_iff

/-- A removal leaves the index the inverse of the table. -/
theorem removes (inverted : IdsInverted keys pm) (replaces : Replaces pm pm' ip none (some ip)) :
    Inverts pm'.idAt pm'.idToIp.get := by
  rw [inverted.inverts_iff replaces]
  exact ⟨fun id held => Or.inr held, by simp⟩

/-- A key that the table does not hold may replace what is at an IP, if the index entry
of that is dropped or there is none. -/
theorem inserts {peer : Peer} {source : Option Ipv4Addr}
    (distinctIds : Set.InjOn KeyPair.peerId keys) (inverted : IdsInverted keys pm)
    (replaces : Replaces pm pm' ip (some peer) source) (member : peer.publicKey ∈ keys)
    (dropped : source = some ip ∨ pm.peersByIp.get ip = none)
    (unknown : ∀ other twin, pm.peersByIp.get other = some twin →
      twin.publicKey ≠ peer.publicKey) : Inverts pm'.idAt pm'.idToIp.get := by
  rw [inverted.inverts_iff replaces]
  constructor
  · intro id held
    right
    rcases dropped with rfl | free
    · exact held
    · obtain ⟨occupant, occupied, _⟩ := idAt_eq_some.mp held
      simp [free] at occupied
  · rintro id named other _ _ held
    obtain ⟨twin, there, same⟩ := idAt_eq_some.mp held
    cases named
    exact unknown other twin there
      (inverted.publicKey_of_peerId distinctIds there member (same.trans peer.peerIdOfKey))

/-- So does an exchange entry, as keys with one ID are equal. -/
theorem exchanges {entry : PexEntry} {senderIp : Ipv4Addr} {keypair : KeyPair} {now : Instant}
    (distinctIds : Set.InjOn KeyPair.peerId keys) (inverted : IdsInverted keys pm)
    (within : ∀ publicKey, parsePublicKey entry.publicKey = .ok publicKey → publicKey ∈ keys)
    (exchanges : Exchanges pm pm' entry senderIp keypair now) :
    Inverts pm'.idAt pm'.idToIp.get := by
  cases exchanges with
  | ignored same =>
      rw [same]
      exact inverted.inverts
  | relayed ip peer touches => exact inverted.edits touches.toEdits
  | inserted publicKey ip free parsed unknown replaces =>
      refine inverted.inserts distinctIds replaces (within publicKey parsed) (Or.inr free) ?_
      exact fun other twin held same => unknown other twin held (.of_eq same)

/-- Adding a peer keeps the index inverse exactly under the guard. -/
theorem addPeer_iff (distinctIds : Set.InjOn KeyPair.peerId keys) (inverted : IdsInverted keys pm)
    {peer : Peer} (member : peer.publicKey ∈ keys) :
    Inverts (pm.addPeer peer).idAt (pm.addPeer peer).idToIp.get ↔ KeepsIds pm (.addPeer peer) := by
  have toKey : ∀ {ip : Ipv4Addr} {other : Peer}, pm.peersByIp.get ip = some other →
      other.peerId = peer.peerId → other.publicKey = peer.publicKey := fun held same =>
    inverted.publicKey_of_peerId distinctIds held member
      (same.trans peer.peerIdOfKey)
  rw [inverted.inverts_iff (pm.addPeer_replaces peer)]
  constructor
  · rintro ⟨ends, alone⟩
    constructor
    · intro old held
      rcases ends old.peerId (idAt_eq_some.mpr ⟨old, held, rfl⟩) with same | forgotten
      · exact toKey held (Option.some.inj same).symm
      · simp [Change.forgotten] at forgotten
    · intro ip other held same
      by_contra elsewhere
      refine alone peer.peerId rfl ip elsewhere (by simp) (idAt_eq_some.mpr ⟨other, held, ?_⟩)
      rw [other.peerIdOfKey, peer.peerIdOfKey, same]
  · rintro ⟨replaced, alone⟩
    constructor
    · intro id held
      obtain ⟨old, oldHeld, rfl⟩ := idAt_eq_some.mp held
      left
      simp [peer.peerIdOfKey, old.peerIdOfKey, replaced old oldHeld]
    · rintro id named other elsewhere _ held
      obtain ⟨twin, twinHeld, same⟩ := idAt_eq_some.mp held
      cases named
      exact elsewhere (alone other twin twinHeld (toKey twinHeld same))

/-- A migration keeps the index inverse exactly when the new IP is free. -/
theorem migrates_iff (distinctIds : Set.InjOn KeyPair.peerId keys) (inverted : IdsInverted keys pm)
    {oldIp : Ipv4Addr} {peer : Peer} {endpoint : SocketAddr} {hostname : String} {isGateway : Bool}
    (held : pm.peersByIp.get oldIp = some peer)
    (foreign : ∀ occupant, pm.peersByIp.get ip = some occupant →
      occupant.publicKey ≠ peer.publicKey)
    (replaces : Replaces pm pm' ip (some (migrated peer endpoint ip hostname isGateway))
      (some oldIp)) :
    Inverts pm'.idAt pm'.idToIp.get ↔ pm.peersByIp.get ip = none := by
  have heldId : pm.idAt oldIp = some peer.peerId := idAt_eq_some.mpr ⟨peer, held, rfl⟩
  rw [inverted.inverts_iff replaces]
  constructor
  · rintro ⟨ends, _⟩
    by_contra taken
    obtain ⟨occupant, occupied⟩ := Option.ne_none_iff_exists'.mp taken
    have same : occupant.peerId = peer.peerId := by
      rcases ends occupant.peerId (idAt_eq_some.mpr ⟨occupant, occupied, rfl⟩) with
        named | forgotten
      · exact (Option.some.inj named).symm
      · rw [Change.forgotten, Option.bind_some, heldId] at forgotten
        exact (Option.some.inj forgotten).symm
    exact foreign occupant occupied
      (inverted.publicKey_of_peerId distinctIds occupied (inverted.known held)
        (same.trans peer.peerIdOfKey))
  · intro free
    constructor
    · intro id there
      obtain ⟨occupant, occupied, _⟩ := idAt_eq_some.mp there
      simp [free] at occupied
    · rintro id named other _ notSource there
      cases named
      exact notSource (congrArg some (inverted.inverts.unique heldId there))

/-- Every admitted step keeps the index inverse. -/
theorem step (distinctIds : Set.InjOn KeyPair.peerId keys) (inverted : IdsInverted keys pm)
    (keeps : KeepsIds pm op) (transition : StepWithin keys pm op pm') : IdsInverted keys pm' := by
  refine ⟨inverted.toWellformed.step transition, ?_⟩
  obtain ⟨within, transition⟩ := transition
  cases op with
  | reorder => exact inverted.reordered transition
  | addPeer peer =>
      cases transition
      exact (inverted.addPeer_iff distinctIds within).mpr keeps
  | removePeer ip =>
      cases transition
      exact inverted.removes (pm.removePeer_replaces ip)
  | purgePeer ip =>
      cases transition
      exact inverted.removes (pm.purgePeer_replaces ip)
  | updateEndpoint _ _ | updateEndpointIfRoaming _ _ | clearEndpoint _ =>
      rcases Step.edits transition rfl with rfl | ⟨_, _, edits⟩
      · exact inverted.inverts
      · exact inverted.edits edits
  | updateFromDiscovery publicKey endpoint ip hostname isGateway =>
      cases transition
      cases pm.updateFromDiscovery_discovers publicKey endpoint ip hostname isGateway with
      | refreshed peer _ _ moves => exact inverted.edits moves.toEdits
      | pinned peer _ _ touches => exact inverted.edits touches.toEdits
      | migrated oldIp peer elsewhere held keyed search foreign replaces =>
          refine (inverted.migrates_iff distinctIds held ?_ replaces).mpr
            (keeps oldIp ((keyHolder_of_foreign foreign).trans search) elsewhere)
          exact fun occupant occupied same =>
            foreign occupant occupied ((PublicKey.Same.of_eq same).trans keyed)
      | inserted unknown replaces =>
          refine inverted.inserts distinctIds replaces within (Or.inl rfl) ?_
          exact fun other twin held same => unknown other twin held (.of_eq same)
  | addFromPex entries senderIp myIp keypair now =>
      have after := ExchangeRun.invariant
        (fun (inverted : IdsInverted keys _) order =>
          ⟨inverted.toWellformed.reordered order, inverted.reordered order⟩)
        (fun member inverted exchange =>
          ⟨inverted.toWellformed.exchanges (within _ member) exchange,
            inverted.exchanges distinctIds (within _ member) exchange⟩)
        inverted transition
      exact after.inverts

/-- A step after which the index is still exact was admitted. -/
theorem keepsIds (distinctIds : Set.InjOn KeyPair.peerId keys) (inverted : IdsInverted keys pm)
    (transition : StepWithin keys pm op pm') (exact : IdIndexExact pm') : KeepsIds pm op := by
  have after := of_exact (inverted.toWellformed.step transition) exact
  obtain ⟨within, transition⟩ := transition
  cases op with
  | addPeer peer =>
      cases transition
      exact (inverted.addPeer_iff distinctIds within).mp after
  | updateFromDiscovery publicKey endpoint ip hostname isGateway =>
      cases transition
      intro oldIp found elsewhere
      cases pm.updateFromDiscovery_discovers publicKey endpoint ip hostname isGateway with
      | refreshed occupant keyed _ moves =>
          cases (keyHolder_of_keyed moves.held keyed).symm.trans found
          exact absurd rfl elsewhere
      | pinned occupant keyed _ touches =>
          cases (keyHolder_of_keyed touches.held keyed).symm.trans found
          exact absurd rfl elsewhere
      | migrated _ source _ held keyed _ foreign replaces =>
          refine (inverted.migrates_iff distinctIds held ?_ replaces).mp after
          exact fun occupant occupied same =>
            foreign occupant occupied ((PublicKey.Same.of_eq same).trans keyed)
      | inserted unknown _ =>
          rw [keyHolder_of_foreign (unknown ip), findIpByKey_none.mpr unknown] at found
          cases found
  | _ => trivial

end IdsInverted

/-- In every run from an empty manager over keys with distinct peer IDs, the index by ID
is always the inverse of the table exactly when no add replaces a peer of another key or
brings in a key that has another IP, and no discovery that finds its key at another IP names a
taken one. -/
theorem id_index_exact_iff (distinctIds : Set.InjOn KeyPair.peerId keys)
    {trace : List (PeerManager × Op)} {last : PeerManager}
    (run : Run (StepWithin keys) new trace last) :
    Always IdIndexExact trace last ↔ Throughout KeepsIds trace :=
  run.always_iff IdsInverted.exact (IdsInverted.step distinctIds) (IdsInverted.keepsIds distinctIds)
    IdsInverted.new

end Runs

section Sample

attribute [local instance] Sample.crates

/-- The keys of two sample nodes. -/
def sampleKeys : Set PublicKey := {(Sample.keypair 1).publicKey, (Sample.keypair 2).publicKey}

/-- The two sample keys have different IDs. -/
theorem sampleKeys_distinctIds : Set.InjOn KeyPair.peerId sampleKeys := by
  rintro _ (rfl | rfl) _ (rfl | rfl) same
  · rfl
  · exact absurd same (by decide)
  · exact absurd same (by decide)
  · rfl

/-- Discovery of a sample node at a WolfNet IP and a port. -/
def sampleDiscovery (byte octet : UInt8) (port : UInt16) : Op :=
  .updateFromDiscovery (Sample.keypair byte).publicKey (.v4 ⟨203, 0, 113, 7⟩ port)
    ⟨10, 10, 10, octet⟩ "peer" false

/-- Operations over the sample keys are a run. -/
theorem run_sampleDiscoveries (ops : List Op) (within : ∀ op ∈ ops, op.Within sampleKeys) :
    Run (StepWithin sampleKeys) new (traceOf apply new ops) (ops.foldl apply new) := by
  apply Run.of_traceOf
  intro entry member
  have label := List.mem_map_of_mem (f := Prod.snd) member
  rw [labels_traceOf] at label
  exact ⟨within _ label, step_apply entry.1 entry.2⟩

/-- A node that moves to a free IP. -/
theorem id_index_exact_iff_sample :
    Always IdIndexExact (traceOf apply new [sampleDiscovery 1 2 1, sampleDiscovery 1 3 1])
      ([sampleDiscovery 1 2 1, sampleDiscovery 1 3 1].foldl apply new) := by
  have run := run_sampleDiscoveries [sampleDiscovery 1 2 1, sampleDiscovery 1 3 1]
    (by simp [sampleDiscovery, Op.Within, sampleKeys])
  refine (id_index_exact_iff sampleKeys_distinctIds run).mpr ?_
  simp only [Throughout, traceOf, List.forall_mem_cons, List.not_mem_nil, false_implies,
    implies_true, and_true]
  exact ⟨fun _ _ _ => rfl, fun _ _ _ => rfl⟩

/-- A node that moves to the IP of another one leaves that one's index entry behind. -/
theorem id_index_stale :
    Run (StepWithin sampleKeys) new
      (traceOf apply new [sampleDiscovery 1 2 1, sampleDiscovery 2 3 2, sampleDiscovery 1 3 1])
      ([sampleDiscovery 1 2 1, sampleDiscovery 2 3 2, sampleDiscovery 1 3 1].foldl apply new) ∧
    ¬Always IdIndexExact
      (traceOf apply new [sampleDiscovery 1 2 1, sampleDiscovery 2 3 2, sampleDiscovery 1 3 1])
      ([sampleDiscovery 1 2 1, sampleDiscovery 2 3 2, sampleDiscovery 1 3 1].foldl apply new) := by
  refine ⟨run_sampleDiscoveries _ (by simp [sampleDiscovery, Op.Within, sampleKeys]), ?_⟩
  intro always
  obtain ⟨peer, held, same, _⟩ :=
    (always.2.inverse (Sample.keypair 2).myPeerId ⟨10, 10, 10, 3⟩).mp (by decide)
  exact absurd (idAt_eq_some.mpr ⟨peer, held, same⟩) (by decide)

end Sample
end WolfNet.PeerManager
