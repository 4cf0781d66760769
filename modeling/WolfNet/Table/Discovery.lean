import WolfNet.Crates.Sample
import WolfNet.Table.Ops

/-!
# One discovery in a consistent table

A discovery should put the announced peer at its IP and leave the others as they were.
Three things stand in the way: a key that the code takes for another one's is not entered, a known
key that moves to an IP that is taken leaves the index entries of the displaced peer behind, and an
unknown key takes over the ID entry of a peer with the same ID. `discovers_correctly_iff` says that
these are all.
-/

namespace WolfNet.PeerManager

open WolfNet.Std WolfNet.Semantics

section Correct

variable [Crates]

/-- No key has two IPs and both indexes are exact, so no ID and no endpoint is held twice. -/
structure Consistent (pm : PeerManager) : Prop where
  keys : ∀ {ip other peer twin}, pm.peersByIp.get ip = some peer →
    pm.peersByIp.get other = some twin → peer.publicKey = twin.publicKey → ip = other
  ids : Inverts pm.idAt pm.idToIp.get
  endpoints : Inverts pm.endpointAt pm.endpointToIp.get

/-- Both indexes lead to an IP from the ID and the endpoint of the peer that it holds. -/
structure Found (pm : PeerManager) (ip : Ipv4Addr) (peer : Peer) : Prop where
  byId : pm.findIpById peer.peerId = some ip
  byEndpoint : ∀ endpoint, peer.endpoint = some endpoint → pm.findIpByEndpoint endpoint = some ip

/-- Neither index knows the ID or the endpoint of a peer. -/
structure Unfound (pm : PeerManager) (peer : Peer) : Prop where
  byId : pm.findIpById peer.peerId = none
  byEndpoint : ∀ endpoint, peer.endpoint = some endpoint → pm.findIpByEndpoint endpoint = none

/-- What a move to another IP keeps of a peer: its session with the packet counters, its
traffic counters and its timestamps. -/
structure KeepsSession (old new : Peer) : Prop where
  cipher : new.cipher = old.cipher
  rxBytes : new.rxBytes = old.rxBytes
  txBytes : new.txBytes = old.txBytes
  lastSeen : new.lastSeen = old.lastSeen
  lastHandshake : new.lastHandshake = old.lastHandshake
  lastDataRx : new.lastDataRx = old.lastDataRx

/-- A discovery took effect at the announced IP and nowhere else. -/
structure DiscoveredAt (pm pm' : PeerManager) (publicKey : PublicKey) (ip : Ipv4Addr)
    (hostname : String) (isGateway : Bool) : Prop where
  announced : ∃ peer, pm'.peersByIp.get ip = some peer ∧ peer.publicKey = publicKey ∧
    peer.hostname = hostname ∧ peer.isGateway = isGateway ∧ peer.relayVia = none
  alone : ∀ other peer, pm'.peersByIp.get other = some peer → peer.publicKey = publicKey →
    other = ip
  moved : ∀ oldIp old, oldIp ≠ ip → pm.peersByIp.get oldIp = some old → old.publicKey = publicKey →
    ∃ peer, pm'.peersByIp.get ip = some peer ∧ KeepsSession old peer
  others : ∀ other peer, other ≠ ip → pm.peersByIp.get other = some peer →
    peer.publicKey ≠ publicKey → pm'.peersByIp.get other = some peer ∧ pm'.Found other peer
  displaced : ∀ old, pm.peersByIp.get ip = some old → old.publicKey ≠ publicKey → pm'.Unfound old

/-- The record that a discovery finds for the key has this very key, no peer with another key has
its ID, and a key that has another IP moves only to an IP that is free. -/
structure FreeFor (pm : PeerManager) (publicKey : PublicKey) (ip : Ipv4Addr) : Prop where
  exact : ∀ holder peer, pm.keyHolder publicKey ip = some holder →
    pm.peersByIp.get holder = some peer → peer.publicKey = publicKey
  id : ∀ other peer, pm.peersByIp.get other = some peer → peer.publicKey ≠ publicKey →
    peer.peerId ≠ KeyPair.peerId publicKey
  destination : ∀ oldIp peer, oldIp ≠ ip → pm.peersByIp.get oldIp = some peer →
    peer.publicKey = publicKey → pm.peersByIp.get ip = none

variable {pm pm' : PeerManager} {publicKey : PublicKey} {endpoint : SocketAddr} {ip : Ipv4Addr}
  {hostname : String} {isGateway : Bool}

/-- The ID at an IP that is held. -/
theorem idAt_of_held {peer : Peer} (held : pm.peersByIp.get ip = some peer) :
    pm.idAt ip = some peer.peerId := by
  rw [idAt, held, Option.map_some]

/-- The endpoint at an IP that is held. -/
theorem endpointAt_of_held {peer : Peer} (held : pm.peersByIp.get ip = some peer) :
    pm.endpointAt ip = peer.endpoint := by
  rw [endpointAt, held, Option.bind_some]

/-- An empty table is consistent. -/
theorem consistent_new : Consistent new where
  keys := by simp [new]
  ids := by simp [Inverts, idAt, new]
  endpoints := by simp [Inverts, endpointAt, new]

namespace Consistent

/-- A peer at a free IP whose key, ID and endpoint are new may be added. -/
theorem addPeer (consistent : Consistent pm) {peer : Peer}
    (free : pm.peersByIp.get peer.wolfnetIp = none)
    (fresh : ∀ other twin, pm.peersByIp.get other = some twin → twin.publicKey ≠ peer.publicKey ∧
      twin.peerId ≠ peer.peerId ∧ ∀ addr, peer.endpoint = some addr → twin.endpoint ≠ some addr) :
    Consistent (pm.addPeer peer) := by
  have replaces := pm.addPeer_replaces peer
  refine ⟨?_, ?_, ?_⟩
  · intro ip other first second held heldTwin same
    rw [replaces.peers] at held heldTwin
    split_ifs at held heldTwin with here there there
    · rw [here, there]
    · cases held
      exact absurd same.symm (fresh other second heldTwin).1
    · cases heldTwin
      exact absurd same (fresh ip first held).1
    · exact consistent.keys held heldTwin same
  · rw [replaces.idAt, replaces.ids, consistent.ids.change_iff]
    refine ⟨by simp [idAt, free], fun id marks other _ _ held => ?_⟩
    obtain ⟨twin, twinHeld, rfl⟩ := Option.map_eq_some_iff.mp held
    exact (fresh other twin twinHeld).2.1 (Option.some.inj marks).symm
  · rw [replaces.endpointAt, replaces.endpoints, consistent.endpoints.change_iff]
    refine ⟨by simp [endpointAt, free], fun addr marks other _ _ held => ?_⟩
    obtain ⟨twin, twinHeld, has⟩ := Option.bind_eq_some_iff.mp held
    exact (fresh other twin twinHeld).2.2 addr marks has

/-- In a consistent table a peer has the ID of a known key only if it has the key. -/
theorem key_of_id (consistent : Consistent pm) {other : Ipv4Addr} {peer known : Peer}
    (held : pm.peersByIp.get other = some peer) (knownHeld : pm.peersByIp.get ip = some known)
    (sameId : peer.peerId = known.peerId) : peer.publicKey = known.publicKey := by
  have here : other = ip :=
    consistent.ids.unique (idAt_of_held held) (sameId ▸ idAt_of_held knownHeld)
  rw [here, knownHeld] at held
  cases held
  rfl

/-- A peer that a replacement neither overwrites nor takes away is found as before, unless
the new record has its ID or endpoint. -/
theorem found_other (consistent : Consistent pm) {new : Peer} {source other : Ipv4Addr}
    {peer : Peer} (replaces : Replaces pm pm' ip (some new) (some source))
    (held : pm.peersByIp.get other = some peer) (elsewhere : other ≠ ip) (stays : other ≠ source)
    (id : peer.peerId ≠ new.peerId)
    (endpoint : ∀ addr, peer.endpoint = some addr → new.endpoint ≠ some addr) :
    pm'.peersByIp.get other = some peer ∧ pm'.Found other peer := by
  have notSource : some source ≠ some other := by
    rw [ne_eq, Option.some.injEq]
    exact Ne.symm stays
  refine ⟨?_, ?_, fun addr has => ?_⟩
  · rw [replaces.peers, if_neg elsewhere, if_neg notSource, held]
  · rw [findIpById, replaces.ids]
    refine Change.onIndex_other consistent.ids (idAt_of_held held) notSource ?_
    simpa using Ne.symm id
  · rw [findIpByEndpoint, replaces.endpoints]
    exact Change.onIndex_other consistent.endpoints ((endpointAt_of_held held).trans has) notSource
      (endpoint addr has)

/-- A move of an endpoint that no other peer holds leaves the other peers as they were. -/
theorem found_moves (consistent : Consistent pm) {old new : Peer} {other : Ipv4Addr} {peer : Peer}
    (moves : Moves pm pm' ip old new) (held : pm.peersByIp.get other = some peer)
    (elsewhere : other ≠ ip)
    (endpoint : ∀ addr, peer.endpoint = some addr → new.endpoint ≠ some addr) :
    pm'.peersByIp.get other = some peer ∧ pm'.Found other peer := by
  have notSource : some ip ≠ some other := by
    rw [ne_eq, Option.some.injEq]
    exact Ne.symm elsewhere
  refine ⟨?_, ?_, fun addr has => ?_⟩
  · rw [moves.peers, if_neg elsewhere, held]
  · rw [findIpById, moves.ids]
    exact (consistent.ids _ _).mpr (idAt_of_held held)
  · rw [findIpByEndpoint, moves.endpoints]
    exact Change.onIndex_other consistent.endpoints ((endpointAt_of_held held).trans has) notSource
      (endpoint addr has)

/-- In a consistent table every peer is found. -/
theorem found (consistent : Consistent pm) {peer : Peer}
    (held : pm.peersByIp.get ip = some peer) : pm.Found ip peer :=
  ⟨(consistent.ids _ _).mpr (idAt_of_held held), fun _ has =>
    (consistent.endpoints _ _).mpr ((endpointAt_of_held held).trans has)⟩

end Consistent

/-- A record that keeps the session of the peer at its IP takes effect there alone when the
key was the peer's own. -/
theorem discoveredAt_of_known (consistent : Consistent pm) {old new : Peer}
    (held : pm.peersByIp.get ip = some old) (keyed : old.publicKey = publicKey)
    (sameKey : new.publicKey = old.publicKey) (named : new.hostname = hostname)
    (flagged : new.isGateway = isGateway) (direct : new.relayVia = none)
    (peers : ∀ other, pm'.peersByIp.get other = if other = ip then some new else
      pm.peersByIp.get other)
    (others : ∀ other peer, other ≠ ip → pm.peersByIp.get other = some peer →
      peer.publicKey ≠ publicKey → pm'.peersByIp.get other = some peer ∧ pm'.Found other peer) :
    DiscoveredAt pm pm' publicKey ip hostname isGateway where
  announced := ⟨new, by rw [peers, if_pos rfl], sameKey.trans keyed, named, flagged, direct⟩
  alone other peer found sameAsKey := by
    rw [peers] at found
    split at found
    · assumption
    · exact consistent.keys found held (sameAsKey.trans keyed.symm)
  moved oldIp peer elsewhere found known :=
    absurd (consistent.keys found held (known.trans keyed.symm)) elsewhere
  others := others
  displaced peer found foreign := by
    rw [held] at found
    cases found
    exact absurd keyed foreign

/-- A replacement that brings the key to the IP takes effect there alone when nothing that
both indexes followed is left behind. -/
theorem discoveredAt_of_replaces (consistent : Consistent pm) {new : Peer} {source : Ipv4Addr}
    (replaces : Replaces pm pm' ip (some new) (some source))
    (newKey : new.publicKey = publicKey) (named : new.hostname = hostname)
    (flagged : new.isGateway = isGateway) (direct : new.relayVia = none)
    (newEndpoint : new.endpoint = some endpoint)
    (unheld : ∀ other peer, pm.peersByIp.get other = some peer → peer.publicKey ≠ publicKey →
      peer.endpoint ≠ some endpoint)
    (known : ∀ other peer, pm.peersByIp.get other = some peer → peer.publicKey = publicKey →
      other = source ∧ KeepsSession peer new)
    (foreign : ∀ peer, pm.peersByIp.get source = some peer → peer.publicKey ≠ publicKey →
      source = ip)
    (freeFor : FreeFor pm publicKey ip)
    (displaced : ∀ old, pm.peersByIp.get ip = some old → old.publicKey ≠ publicKey → source = ip) :
    DiscoveredAt pm pm' publicKey ip hostname isGateway where
  announced := ⟨new, by rw [replaces.peers, if_pos rfl], newKey, named, flagged, direct⟩
  alone other peer found sameAsKey := by
    rw [replaces.peers] at found
    split_ifs at found with here gone
    · exact here
    · exact absurd (congrArg some (known other peer found sameAsKey).1.symm) gone
  moved oldIp old _ held keyed :=
    ⟨new, by rw [replaces.peers, if_pos rfl], (known oldIp old held keyed).2⟩
  others other peer elsewhere held different := by
    have stays : other ≠ source := by
      rintro rfl
      exact elsewhere (foreign peer held different)
    refine consistent.found_other replaces held elsewhere stays ?_ ?_
    · rw [new.peerIdOfKey, newKey]
      exact freeFor.id other peer held different
    · intro addr has same
      rw [newEndpoint] at same
      exact unheld other peer held different (has.trans same.symm)
  displaced old held different := by
    obtain rfl := displaced old held different
    constructor
    · rw [findIpById, replaces.ids]
      refine Change.onIndex_forgotten (idAt_of_held held) ?_
      rw [Option.map_some, ne_eq, Option.some.injEq, new.peerIdOfKey, newKey]
      exact Ne.symm (freeFor.id source old held different)
    · intro addr has
      rw [findIpByEndpoint, replaces.endpoints]
      refine Change.onIndex_forgotten ((endpointAt_of_held held).trans has) ?_
      rw [Option.bind_some, newEndpoint]
      exact fun same => unheld source old held different (has.trans same.symm)

/-- A discovery of a key that is free for its IP is correct and local. -/
theorem Consistent.discoveredAt (consistent : Consistent pm)
    (unheld : ∀ other peer, pm.peersByIp.get other = some peer → peer.publicKey ≠ publicKey →
      peer.endpoint ≠ some endpoint) (freeFor : FreeFor pm publicKey ip) :
    DiscoveredAt pm (pm.updateFromDiscovery publicKey endpoint ip hostname isGateway) publicKey ip
      hostname isGateway := by
  cases pm.updateFromDiscovery_discovers publicKey endpoint ip hostname isGateway with
  | refreshed peer same unpinned moves =>
      have keyed := freeFor.exact ip peer (keyHolder_of_keyed moves.held same) moves.held
      refine discoveredAt_of_known consistent moves.held keyed moves.publicKey rfl rfl rfl moves.peers ?_
      intro other record elsewhere held different
      refine consistent.found_moves moves held elsewhere fun addr has same => ?_
      exact unheld other record held different (has.trans same.symm)
  | pinned peer same pinned touches =>
      have keyed := freeFor.exact ip peer (keyHolder_of_keyed touches.held same) touches.held
      refine discoveredAt_of_known consistent touches.held keyed touches.publicKey rfl rfl rfl
        touches.peers ?_
      intro other record elsewhere held _
      have found := consistent.found held
      refine ⟨by rw [touches.peers, if_neg elsewhere, held], ?_, fun addr has => ?_⟩
      · rw [findIpById, touches.ids]
        exact found.byId
      · rw [findIpByEndpoint, touches.endpoints]
        exact found.byEndpoint addr has
  | migrated oldIp peer elsewhere held _ search foreign replaces =>
      have keyed := freeFor.exact oldIp peer ((keyHolder_of_foreign foreign).trans search) held
      refine discoveredAt_of_replaces consistent replaces keyed rfl rfl rfl rfl unheld ?_ ?_ freeFor ?_
      · intro other record found known
        obtain rfl := consistent.keys found held (known.trans keyed.symm)
        rw [held] at found
        cases found
        exact ⟨rfl, rfl, rfl, rfl, rfl, rfl, rfl⟩
      · intro record found different
        rw [held] at found
        cases found
        exact absurd keyed different
      · intro old occupied _
        rw [freeFor.destination oldIp peer elsewhere held keyed] at occupied
        cases occupied
  | inserted unknown replaces =>
      refine discoveredAt_of_replaces consistent replaces rfl rfl rfl rfl rfl unheld ?_ ?_ freeFor ?_
      · intro other record found known
        exact absurd (.of_eq known) (unknown other record found)
      · intro _ _ _
        rfl
      · intro _ _ _
        rfl

/-- After a discovery the ID of the key leads to the announced IP, however the key got there. -/
theorem Consistent.findIpById_discovered (consistent : Consistent pm)
    (exact : ∀ holder peer, pm.keyHolder publicKey ip = some holder →
      pm.peersByIp.get holder = some peer → peer.publicKey = publicKey) :
    (pm.updateFromDiscovery publicKey endpoint ip hostname isGateway).findIpById
      (KeyPair.peerId publicKey) = some ip := by
  cases pm.updateFromDiscovery_discovers publicKey endpoint ip hostname isGateway with
  | refreshed peer same unpinned moves =>
      have keyed := exact ip peer (keyHolder_of_keyed moves.held same) moves.held
      rw [findIpById, moves.ids, ← keyed, ← peer.peerIdOfKey]
      exact (consistent.found moves.held).byId
  | pinned peer same pinned touches =>
      have keyed := exact ip peer (keyHolder_of_keyed touches.held same) touches.held
      rw [findIpById, touches.ids, ← keyed, ← peer.peerIdOfKey]
      exact (consistent.found touches.held).byId
  | migrated oldIp peer elsewhere held _ search foreign replaces =>
      have keyed := exact oldIp peer ((keyHolder_of_foreign foreign).trans search) held
      rw [findIpById, replaces.ids, Change.onIndex, Option.map_some, ← keyed, ← peer.peerIdOfKey]
      exact if_pos rfl
  | inserted unknown replaces =>
      rw [findIpById, replaces.ids]
      exact if_pos rfl

/-- Where a discovery is correct, the record that it found for the key has this very key: another
one would be at the announced IP afterwards. -/
theorem DiscoveredAt.exact
    (discovered : DiscoveredAt pm (pm.updateFromDiscovery publicKey endpoint ip hostname isGateway)
      publicKey ip hostname isGateway) (holder : Ipv4Addr) (peer : Peer)
    (found : pm.keyHolder publicKey ip = some holder)
    (held : pm.peersByIp.get holder = some peer) : peer.publicKey = publicKey := by
  obtain ⟨new, there, named, _⟩ := discovered.announced
  cases pm.updateFromDiscovery_discovers publicKey endpoint ip hostname isGateway with
  | refreshed known same _ moves =>
      cases (keyHolder_of_keyed moves.held same).symm.trans found
      cases moves.held.symm.trans held
      rw [moves.peers, if_pos rfl] at there
      cases there
      exact named
  | pinned known same _ touches =>
      cases (keyHolder_of_keyed touches.held same).symm.trans found
      cases touches.held.symm.trans held
      rw [touches.peers, if_pos rfl] at there
      cases there
      exact named
  | migrated oldIp moving _ moved _ search foreign replaces =>
      cases ((keyHolder_of_foreign foreign).trans search).symm.trans found
      cases moved.symm.trans held
      rw [replaces.peers, if_pos rfl] at there
      cases there
      exact named
  | inserted unknown _ =>
      rw [keyHolder_of_foreign (unknown ip), findIpByKey_none.mpr unknown] at found
      cases found

/-- From a consistent table, with an endpoint that no peer of another key holds, a discovery is
correct and local exactly when the record that it finds for the key has this very key, no other key
has the key's ID and the key does not move to a taken IP. -/
theorem discovers_correctly_iff (consistent : Consistent pm)
    (unheld : ∀ other peer, pm.peersByIp.get other = some peer → peer.publicKey ≠ publicKey →
      peer.endpoint ≠ some endpoint) :
    DiscoveredAt pm (pm.updateFromDiscovery publicKey endpoint ip hostname isGateway) publicKey ip
      hostname isGateway ↔ FreeFor pm publicKey ip := by
  refine ⟨fun discovered => ⟨discovered.exact, ?_, ?_⟩, consistent.discoveredAt unheld⟩
  · intro other peer held different sameId
    have leads := @Consistent.findIpById_discovered _ pm publicKey endpoint ip hostname isGateway
      consistent discovered.exact
    rw [← sameId] at leads
    by_cases here : other = ip
    · have unfound := (discovered.displaced peer (here ▸ held) different).byId
      simp [leads] at unfound
    · have found := (discovered.others other peer here held different).2.byId
      rw [leads] at found
      exact here (Option.some.inj found).symm
  · intro oldIp peer elsewhere held keyed
    cases occupied : pm.peersByIp.get ip with
    | none => rfl
    | some old =>
        have different : old.publicKey ≠ publicKey := fun same =>
          elsewhere (consistent.keys held occupied (keyed.trans same.symm))
        have unfound := (discovered.displaced old occupied different).byId
        cases pm.updateFromDiscovery_discovers publicKey endpoint ip hostname isGateway with
        | refreshed known same _ moves =>
            cases moves.held.symm.trans occupied
            exact absurd (discovered.exact ip _ (keyHolder_of_keyed occupied same) occupied) different
        | pinned known same _ touches =>
            cases touches.held.symm.trans occupied
            exact absurd (discovered.exact ip _ (keyHolder_of_keyed occupied same) occupied) different
        | inserted unknown _ => exact absurd (.of_eq keyed) (unknown oldIp peer held)
        | migrated source moving _ moved _ search foreign replaces =>
            have known := discovered.exact source moving
              ((keyHolder_of_foreign foreign).trans search) moved
            -- The displaced peer's ID entry is neither overwritten nor forgotten.
            have distinct : old.peerId ≠ moving.peerId := fun same =>
              different ((consistent.key_of_id occupied moved same).trans known)
            have notSource : some source ≠ some ip := by
              rintro ⟨⟩
              rw [moved] at occupied
              cases occupied
              exact different known
            rw [findIpById, replaces.ids,
              Change.onIndex_other consistent.ids (idAt_of_held occupied)
              notSource (by simpa [PeerManager.migrated] using Ne.symm distinct)] at unfound
            cases unfound

end Correct

section Sample

attribute [local instance] Sample.crates

/-- A sample peer that is reachable at a port. -/
def knownPeer (byte : UInt8) (port : UInt16) : Peer :=
  { Peer.new (Sample.keypair byte).publicKey ⟨10, 10, 10, byte⟩ with
    endpoint := some (.v4 ⟨203, 0, 113, 7⟩ port) }

/-- A table of two peers. -/
def knownPeers : PeerManager := (new.addPeer (knownPeer 1 1)).addPeer (knownPeer 2 2)

/-- The two known peers are all there are. -/
theorem held_knownPeers {ip : Ipv4Addr} {peer : Peer} :
    knownPeers.peersByIp.get ip = some peer ↔
      ip = ⟨10, 10, 10, 2⟩ ∧ peer = knownPeer 2 2 ∨ ip = ⟨10, 10, 10, 1⟩ ∧
        peer = knownPeer 1 1 := by
  rw [knownPeers, (addPeer_replaces _ _).peers, (addPeer_replaces _ _).peers]
  change (if ip = ⟨10, 10, 10, 2⟩ then _ else if ip = ⟨10, 10, 10, 1⟩ then _ else _) = _ ↔ _
  by_cases second : ip = ⟨10, 10, 10, 2⟩
  · subst second
    simp [eq_comm]
  · by_cases first : ip = ⟨10, 10, 10, 1⟩
    · subst first
      simp [eq_comm]
    · simp [second, first, new]

/-- The two known peers are a consistent table. -/
theorem consistent_knownPeers : Consistent knownPeers := by
  have first : Consistent (new.addPeer (knownPeer 1 1)) :=
    consistent_new.addPeer rfl (by simp [new])
  refine first.addPeer rfl ?_
  intro other twin held
  rw [(addPeer_replaces _ _).peers] at held
  split at held
  · cases held
    exact ⟨by decide, by decide, by simp [knownPeer]⟩
  · simp [new] at held

/-- The first peer moves to an IP that is free, and keeps its session. -/
theorem discovers_correctly_iff_sample :
    DiscoveredAt knownPeers
      (knownPeers.updateFromDiscovery (Sample.keypair 1).publicKey (.v4 ⟨203, 0, 113, 7⟩ 1)
        ⟨10, 10, 10, 3⟩ "peer" true)
      (Sample.keypair 1).publicKey ⟨10, 10, 10, 3⟩ "peer" true := by
  refine (discovers_correctly_iff consistent_knownPeers ?_).mpr ⟨?_, ?_, ?_⟩
  · intro other peer held different
    rcases held_knownPeers.mp held with ⟨_, rfl⟩ | ⟨_, rfl⟩
    · simp [knownPeer]
    · exact absurd rfl different
  · intro holder peer found held
    have first : knownPeers.keyHolder (Sample.keypair 1).publicKey ⟨10, 10, 10, 3⟩ =
      some ⟨10, 10, 10, 1⟩ := by decide
    cases first.symm.trans found
    cases held
    rfl
  · intro other peer held different
    rcases held_knownPeers.mp held with ⟨_, rfl⟩ | ⟨_, rfl⟩
    · decide
    · exact absurd rfl different
  · intro _ _ _ _ _
    rfl

/-- The first peer moves to the IP of the second, whose ID still leads there. -/
theorem displaced_still_found :
    Consistent knownPeers ∧
    (∀ other peer, knownPeers.peersByIp.get other = some peer →
      peer.publicKey ≠ (Sample.keypair 1).publicKey →
      peer.endpoint ≠ some (.v4 ⟨203, 0, 113, 7⟩ 1)) ∧
    ¬DiscoveredAt knownPeers
      (knownPeers.updateFromDiscovery (Sample.keypair 1).publicKey (.v4 ⟨203, 0, 113, 7⟩ 1)
        ⟨10, 10, 10, 2⟩ "peer" true)
      (Sample.keypair 1).publicKey ⟨10, 10, 10, 2⟩ "peer" true := by
  refine ⟨consistent_knownPeers, ?_, ?_⟩
  · intro other peer held different
    rcases held_knownPeers.mp held with ⟨_, rfl⟩ | ⟨_, rfl⟩
    · simp [knownPeer]
    · exact absurd rfl different
  · intro discovered
    have unfound := (discovered.displaced (knownPeer 2 2) rfl (by decide)).byId
    exact absurd unfound (by decide)

end Sample
end WolfNet.PeerManager
