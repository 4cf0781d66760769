import WolfNet.PeerManager
import WolfNet.Semantics.Index

/-!
# What the table operations do

An operation on the peer table does one of three things to its three maps: it
replaces the record at an IP and perhaps takes one from elsewhere (`Replaces`), it
gives a peer another endpoint (`Moves`), or it edits a record's other fields
(`Touches`). Each operation is characterised by these, and its callers do not unfold it.
-/

namespace WolfNet.PeerManager

open WolfNet.Std WolfNet.Semantics

variable [Crates]

/-- The peer ID at an IP. -/
def idAt (pm : PeerManager) (ip : Ipv4Addr) : Option PeerId :=
  (pm.peersByIp.get ip).map Peer.peerId

/-- The endpoint of the peer at an IP. -/
def endpointAt (pm : PeerManager) (ip : Ipv4Addr) : Option SocketAddr :=
  (pm.peersByIp.get ip).bind Peer.endpoint

/-- The record at an IP becomes `new`, the one at the source goes, and both indexes
follow the change. -/
structure Replaces (pm pm' : PeerManager) (ip : Ipv4Addr) (new : Option Peer)
    (source : Option Ipv4Addr) : Prop where
  peers : ∀ other, pm'.peersByIp.get other =
    if other = ip then new else if source = some other then none else pm.peersByIp.get other
  ids : pm'.idToIp.get =
    (Change.mk ip (new.map Peer.peerId) source).onIndex pm.idAt pm.idToIp.get
  endpoints : pm'.endpointToIp.get =
    (Change.mk ip (new.bind Peer.endpoint) source).onIndex pm.endpointAt pm.endpointToIp.get

/-- The record at an IP changes, but not whose it is. -/
structure Edits (pm pm' : PeerManager) (ip : Ipv4Addr) (old new : Peer) : Prop where
  held : pm.peersByIp.get ip = some old
  publicKey : new.publicKey = old.publicKey
  wolfnetIp : new.wolfnetIp = old.wolfnetIp
  peers : ∀ other, pm'.peersByIp.get other = if other = ip then some new else pm.peersByIp.get other
  ids : pm'.idToIp = pm.idToIp

/-- The peer at an IP gets another endpoint or none, and the endpoint index follows. -/
structure Moves (pm pm' : PeerManager) (ip : Ipv4Addr) (old new : Peer) : Prop
    extends Edits pm pm' ip old new where
  endpoints : pm'.endpointToIp.get =
    (Change.mk ip new.endpoint (some ip)).onIndex pm.endpointAt pm.endpointToIp.get

/-- The record at an IP changes in fields that neither index follows. -/
structure Touches (pm pm' : PeerManager) (ip : Ipv4Addr) (old new : Peer) : Prop
    extends Edits pm pm' ip old new where
  endpoint : new.endpoint = old.endpoint
  endpoints : pm'.endpointToIp = pm.endpointToIp

section Indexes

variable {pm : PeerManager} {endpoint : Option SocketAddr}

/-- Forgetting an endpoint leaves the table. -/
@[simp] theorem forgetEndpoint_peersByIp :
    (pm.forgetEndpoint endpoint).peersByIp = pm.peersByIp := by
  cases endpoint <;> rfl

/-- Forgetting an endpoint leaves the ID index. -/
@[simp] theorem forgetEndpoint_idToIp : (pm.forgetEndpoint endpoint).idToIp = pm.idToIp := by
  cases endpoint <;> rfl

/-- Forgetting an endpoint drops its own index entry and no other. -/
@[simp] theorem forgetEndpoint_endpointToIp (addr : SocketAddr) :
    (pm.forgetEndpoint endpoint).endpointToIp.get addr =
      if endpoint = some addr then none else pm.endpointToIp.get addr := by
  cases endpoint with
  | none => simp [forgetEndpoint]
  | some endpoint => simp [forgetEndpoint, HashMap.get_remove, eq_comm]

/-- Indexing an endpoint leaves the table. -/
@[simp] theorem indexEndpoint_peersByIp {ip : Ipv4Addr} :
    (pm.indexEndpoint endpoint ip).peersByIp = pm.peersByIp := by
  cases endpoint <;> rfl

/-- Indexing an endpoint leaves the ID index. -/
@[simp] theorem indexEndpoint_idToIp {ip : Ipv4Addr} :
    (pm.indexEndpoint endpoint ip).idToIp = pm.idToIp := by
  cases endpoint <;> rfl

/-- Indexing an endpoint sets its own index entry and no other. -/
@[simp] theorem indexEndpoint_endpointToIp (ip : Ipv4Addr) (addr : SocketAddr) :
    (pm.indexEndpoint endpoint ip).endpointToIp.get addr =
      if endpoint = some addr then some ip else pm.endpointToIp.get addr := by
  cases endpoint with
  | none => simp [indexEndpoint]
  | some endpoint => simp [indexEndpoint, HashMap.get_insert, eq_comm]

/-- Forgetting a peer's old endpoint leaves the table. -/
@[simp] theorem forgetOldEndpoint_peersByIp {peer : Peer} {addr : SocketAddr} :
    (pm.forgetOldEndpoint peer addr).peersByIp = pm.peersByIp := by
  unfold forgetOldEndpoint
  split <;> simp

/-- Forgetting a peer's old endpoint leaves the ID index. -/
@[simp] theorem forgetOldEndpoint_idToIp {peer : Peer} {addr : SocketAddr} :
    (pm.forgetOldEndpoint peer addr).idToIp = pm.idToIp := by
  unfold forgetOldEndpoint
  split <;> simp

end Indexes

section Routes

variable {pm : PeerManager} {file : RouteFile}

/-- The container routes are no part of the table. -/
@[simp] theorem loadRoutes_peersByIp : (pm.loadRoutes file).peersByIp = pm.peersByIp := by
  cases file <;> rfl

/-- The container routes are no part of the ID index. -/
@[simp] theorem loadRoutes_idToIp : (pm.loadRoutes file).idToIp = pm.idToIp := by
  cases file <;> rfl

/-- The container routes are no part of the endpoint index. -/
@[simp] theorem loadRoutes_endpointToIp : (pm.loadRoutes file).endpointToIp = pm.endpointToIp := by
  cases file <;> rfl

/-- The CIDR routes are no part of the table. -/
@[simp] theorem loadSubnetRoutes_peersByIp :
    (pm.loadSubnetRoutes file).peersByIp = pm.peersByIp := by
  cases file <;> rfl

/-- The CIDR routes are no part of the ID index. -/
@[simp] theorem loadSubnetRoutes_idToIp : (pm.loadSubnetRoutes file).idToIp = pm.idToIp := by
  cases file <;> rfl

/-- The CIDR routes are no part of the endpoint index. -/
@[simp] theorem loadSubnetRoutes_endpointToIp :
    (pm.loadSubnetRoutes file).endpointToIp = pm.endpointToIp := by
  cases file <;> rfl

end Routes

variable (pm : PeerManager) (ip : Ipv4Addr)

/-- An add puts the peer at its IP and drops no IP. -/
theorem addPeer_replaces (peer : Peer) :
    Replaces pm (pm.addPeer peer) peer.wolfnetIp (some peer) none where
  peers other := by simp [addPeer, HashMap.get_insert]
  ids := by
    funext id
    simp [addPeer, HashMap.get_insert, Change.onIndex, Change.forgotten, eq_comm]
  endpoints := by
    funext addr
    simp [addPeer, Change.onIndex, Change.forgotten]

/-- A removal leaves no peer at the IP and drops the index entries that lead there. -/
theorem removePeer_replaces : Replaces pm (pm.removePeer ip) ip none (some ip) := by
  cases held : pm.peersByIp.get ip with
  | none =>
      have same : pm.removePeer ip = pm := by simp [removePeer, held]
      rw [same]
      refine ⟨fun other => ?_, ?_, ?_⟩
      · by_cases here : other = ip
        · simp [here, held]
        · simp [here, Ne.symm here]
      · funext id
        simp [Change.onIndex, Change.forgotten, idAt, held]
      · funext addr
        simp [Change.onIndex, Change.forgotten, endpointAt, held]
  | some peer =>
      refine ⟨fun other => ?_, ?_, ?_⟩
      · by_cases here : other = ip
        · simp [removePeer, held, here]
        · simp [removePeer, held, HashMap.get_remove, here, Ne.symm here]
      · funext id
        simp [removePeer, held, HashMap.get_remove, Change.onIndex, Change.forgotten, idAt, eq_comm]
      · funext addr
        simp [removePeer, held, Change.onIndex, Change.forgotten, endpointAt]

/-- A purge does to the table what a removal does. -/
theorem purgePeer_replaces : Replaces pm (pm.purgePeer ip) ip none (some ip) :=
  let removed := pm.removePeer_replaces ip
  ⟨removed.peers, removed.ids, removed.endpoints⟩

variable {pm ip}

/-- An ID entry outlives the removal of a peer that does not have the ID. -/
theorem Replaces.idToIp_removed {pm' : PeerManager} (removed : Replaces pm pm' ip none (some ip))
    {id : PeerId} {target : Ipv4Addr} :
    pm'.idToIp.get id = some target ↔
      (∀ peer, pm.peersByIp.get ip = some peer → peer.peerId ≠ id) ∧
        pm.idToIp.get id = some target := by
  rw [removed.ids, Option.map_none, Change.onIndex_removed]
  simp [idAt]

/-- An endpoint entry outlives the removal of a peer that does not have the endpoint. -/
theorem Replaces.endpointToIp_removed {pm' : PeerManager}
    (removed : Replaces pm pm' ip none (some ip)) {addr : SocketAddr} {target : Ipv4Addr} :
    pm'.endpointToIp.get addr = some target ↔
      (∀ peer, pm.peersByIp.get ip = some peer → peer.endpoint ≠ some addr) ∧
        pm.endpointToIp.get addr = some target := by
  rw [removed.endpoints, Option.bind_none, Change.onIndex_removed]
  simp [endpointAt, Option.bind_eq_some_iff]

/-- Setting an endpoint moves the peer, whose other fields may have been edited. -/
theorem setEndpoint_moves {old : Peer} (peer : Peer) (held : pm.peersByIp.get ip = some old)
    (publicKey : peer.publicKey = old.publicKey) (wolfnetIp : peer.wolfnetIp = old.wolfnetIp)
    (endpoint : peer.endpoint = old.endpoint) (addr : SocketAddr) :
    Moves pm (pm.setEndpoint ip peer addr) ip old { peer with endpoint := some addr } where
  held := held
  publicKey := publicKey
  wolfnetIp := wolfnetIp
  peers other := by simp [setEndpoint, HashMap.get_insert]
  ids := by simp [setEndpoint]
  endpoints := by
    funext other
    simp only [setEndpoint, HashMap.get_insert, Change.onIndex, Change.forgotten, endpointAt,
      Option.bind_some, held, Option.some.injEq, eq_comm (a := addr), ← endpoint]
    split
    · rfl
    · next different =>
        unfold forgetOldEndpoint
        split
        · next kept => simp [kept, Ne.symm different]
        · simp

/-- An endpoint update moves a peer of the table. -/
theorem updateEndpoint_cases (addr : SocketAddr) :
    pm.peersByIp.get ip = none ∧ pm.updateEndpoint ip addr = pm ∨
    ∃ peer, Moves pm (pm.updateEndpoint ip addr) ip peer { peer with endpoint := some addr } := by
  cases held : pm.peersByIp.get ip with
  | none => exact Or.inl ⟨rfl, by simp [updateEndpoint, held]⟩
  | some peer =>
      have moves := setEndpoint_moves peer held rfl rfl rfl addr
      exact Or.inr ⟨peer, by simpa only [updateEndpoint, held] using moves⟩

/-- Roaming moves a peer whose endpoint is not pinned, and nothing else. -/
theorem updateEndpointIfRoaming_cases (addr : SocketAddr) :
    ((∀ peer, pm.peersByIp.get ip = some peer → peer.configuredEndpoint ≠ none) ∧
      (pm.updateEndpointIfRoaming ip addr).1 = pm) ∨
    ∃ peer, peer.configuredEndpoint = none ∧
      Moves pm (pm.updateEndpointIfRoaming ip addr).1 ip peer
        { peer with endpoint := some addr } := by
  cases held : pm.peersByIp.get ip with
  | none => exact Or.inl ⟨by simp, by simp [updateEndpointIfRoaming, held]⟩
  | some peer =>
      by_cases line : peer.configuredEndpoint = none
      · have moves := setEndpoint_moves peer held rfl rfl rfl addr
        exact Or.inr ⟨peer, line, by simpa [updateEndpointIfRoaming, held, line] using moves⟩
      · left
        refine ⟨?_, ?_⟩
        · rintro _ ⟨⟩
          exact line
        · simp [updateEndpointIfRoaming, held, Option.isSome_iff_ne_none, line]

/-- Clearing takes a peer's endpoint and its configured line. -/
theorem clearEndpoint_cases :
    pm.peersByIp.get ip = none ∧ (pm.clearEndpoint ip).1 = pm ∨
    ∃ peer, Moves pm (pm.clearEndpoint ip).1 ip peer
      { peer with endpoint := none, configuredEndpoint := none } := by
  cases held : pm.peersByIp.get ip with
  | none => exact Or.inl ⟨rfl, by simp [clearEndpoint, held]⟩
  | some peer =>
      refine Or.inr ⟨peer, ⟨held, rfl, rfl, fun other => ?_, ?_⟩, ?_⟩
      · simp [clearEndpoint, held, HashMap.get_insert]
      · simp [clearEndpoint, held]
      · funext addr
        simp [clearEndpoint, held, Change.onIndex, Change.forgotten, endpointAt]

/-- An edit of a record that keeps its key, IP and endpoint. -/
theorem withPeerByIp_touches {peer : Peer} {f : Peer → Peer}
    (held : pm.peersByIp.get ip = some peer) (publicKey : (f peer).publicKey = peer.publicKey)
    (wolfnetIp : (f peer).wolfnetIp = peer.wolfnetIp)
    (endpoint : (f peer).endpoint = peer.endpoint) :
    Touches pm (pm.withPeerByIp ip f) ip peer (f peer) := by
  simp only [withPeerByIp, held]
  exact ⟨⟨held, publicKey, wolfnetIp, fun other => by simp [HashMap.get_insert], rfl⟩, endpoint,
    rfl⟩

/-- An edit of the record after a move is part of the move. -/
theorem Moves.touch {pm' pm'' : PeerManager} {old new edited : Peer}
    (moves : Moves pm pm' ip old new)
    (touches : Touches pm' pm'' ip new edited) : Moves pm pm'' ip old edited where
  held := moves.held
  publicKey := touches.publicKey.trans moves.publicKey
  wolfnetIp := touches.wolfnetIp.trans moves.wolfnetIp
  peers other := by
    rw [touches.peers, moves.peers]
    split <;> rfl
  ids := touches.ids.trans moves.ids
  endpoints := by rw [touches.endpoints, moves.endpoints, touches.endpoint]

section Discovery

variable {publicKey : PublicKey} {endpoint : SocketAddr} {hostname : String} {isGateway : Bool}

/-- The record of a newly discovered peer. -/
def discovered (publicKey : PublicKey) (endpoint : SocketAddr) (ip : Ipv4Addr) (hostname : String)
    (isGateway : Bool) : Peer :=
  { Peer.new publicKey ip with
    endpoint := some endpoint
    hostname := hostname
    isGateway := isGateway }

/-- The record of a peer discovered again at its IP, but for the endpoint. -/
def rediscovered (peer : Peer) (hostname : String) (isGateway : Bool) : Peer :=
  { peer with hostname := hostname, isGateway := isGateway, relayVia := none }

/-- The record of a peer that discovery moves to another IP. -/
def migrated (peer : Peer) (endpoint : SocketAddr) (ip : Ipv4Addr) (hostname : String)
    (isGateway : Bool) : Peer :=
  { peer with
    wolfnetIp := ip
    endpoint := some endpoint
    hostname := hostname
    isGateway := isGateway
    relayVia := none }

/-- A new discovery puts the discovered peer at the IP and drops who was there. -/
theorem insertDiscovered_replaces :
    Replaces pm (pm.insertDiscovered publicKey endpoint ip hostname isGateway) ip
      (some (discovered publicKey endpoint ip hostname isGateway)) (some ip) := by
  cases held : pm.peersByIp.get ip with
  | none =>
      refine ⟨fun other => ?_, ?_, ?_⟩
      · by_cases here : other = ip
        · simp [insertDiscovered, here, discovered]
        · simp [insertDiscovered, held, HashMap.get_insert, here, Ne.symm here]
      · funext id
        simp [insertDiscovered, held, HashMap.get_insert, Change.onIndex, Change.forgotten, idAt,
          discovered, eq_comm]
      · funext addr
        simp [insertDiscovered, held, HashMap.get_insert, Change.onIndex, Change.forgotten,
          endpointAt, discovered, eq_comm]
  | some old =>
      refine ⟨fun other => ?_, ?_, ?_⟩
      · by_cases here : other = ip
        · simp [insertDiscovered, held, here, discovered]
        · simp [insertDiscovered, held, HashMap.get_insert, HashMap.get_remove, here, Ne.symm here]
      · funext id
        simp [insertDiscovered, held, HashMap.get_insert, HashMap.get_remove, Change.onIndex,
          Change.forgotten, idAt, discovered, eq_comm]
      · funext addr
        simp [insertDiscovered, held, HashMap.get_insert, Change.onIndex, Change.forgotten,
          endpointAt, discovered, eq_comm]

/-- A migration moves the record to the IP and drops the old one. -/
theorem migrateDiscovered_replaces {oldIp : Ipv4Addr} {peer : Peer}
    (held : pm.peersByIp.get oldIp = some peer) :
    Replaces pm (pm.migrateDiscovered oldIp peer endpoint ip hostname isGateway) ip
      (some (migrated peer endpoint ip hostname isGateway)) (some oldIp) := by
  refine ⟨fun other => ?_, ?_, ?_⟩
  · by_cases here : other = ip
    · simp [migrateDiscovered, here, migrated]
    · simp [migrateDiscovered, HashMap.get_insert, HashMap.get_remove, here, eq_comm]
  · funext id
    simp only [migrateDiscovered, HashMap.get_insert, forgetEndpoint_idToIp, Change.onIndex,
      Change.forgotten, idAt, migrated, held, Option.bind_some, Option.map_some, Option.some.injEq,
      eq_comm (a := id)]
    split <;> rfl
  · funext addr
    simp [migrateDiscovered, HashMap.get_insert, Change.onIndex, Change.forgotten, endpointAt, held,
      migrated, eq_comm]

/-- A search by key finds a peer with the same key. -/
theorem findIpByKey_some {found : Ipv4Addr} (search : pm.findIpByKey publicKey = some found) :
    ∃ peer, pm.peersByIp.get found = some peer ∧ peer.publicKey.Same publicKey := by
  obtain ⟨⟨ip, peer⟩, met, rfl⟩ := Option.map_eq_some_iff.mp search
  obtain ⟨held, same⟩ := HashMap.find_iter_some met
  exact ⟨peer, held, of_decide_eq_true same⟩

/-- A search by key finds nothing exactly where no peer has the same key. -/
theorem findIpByKey_none :
    pm.findIpByKey publicKey = none ↔
      ∀ other peer, pm.peersByIp.get other = some peer → ¬peer.publicKey.Same publicKey := by
  rw [findIpByKey, Option.map_eq_none_iff, HashMap.find_iter_none]
  simp only [decide_eq_false_iff_not]

/-- Where a discovery at an IP finds the key: there, or else where iteration first meets it. -/
def keyHolder (pm : PeerManager) (publicKey : PublicKey) (ip : Ipv4Addr) : Option Ipv4Addr :=
  if (pm.peersByIp.get ip).any fun peer => peer.publicKey.Same publicKey then some ip
  else pm.findIpByKey publicKey

/-- A discovery at the IP that has the key finds it there. -/
theorem keyHolder_of_keyed {peer : Peer} (held : pm.peersByIp.get ip = some peer)
    (keyed : peer.publicKey.Same publicKey) : pm.keyHolder publicKey ip = some ip := by
  rw [keyHolder, if_pos (by simp [held, keyed])]

/-- A discovery at an IP that does not have the key finds it by iteration. -/
theorem keyHolder_of_foreign
    (foreign : ∀ occupant, pm.peersByIp.get ip = some occupant →
      ¬occupant.publicKey.Same publicKey) : pm.keyHolder publicKey ip = pm.findIpByKey publicKey := by
  rw [keyHolder, if_neg]
  intro held
  obtain ⟨occupant, there, keyed⟩ := (Option.any_eq_true _ _).mp held
  exact foreign occupant there (of_decide_eq_true keyed)

/-- What a discovery does: it refreshes the peer at the IP if the key is its own, else
migrates the key from another IP, else inserts a new peer. -/
inductive Discovers (pm pm' : PeerManager) (publicKey : PublicKey) (endpoint : SocketAddr)
    (ip : Ipv4Addr) (hostname : String) (isGateway : Bool) : Prop where
  | refreshed (peer : Peer) (keyed : peer.publicKey.Same publicKey)
      (unpinned : peer.configuredEndpoint = none)
      (moves : Moves pm pm' ip peer
        { rediscovered peer hostname isGateway with endpoint := some endpoint })
  | pinned (peer : Peer) (keyed : peer.publicKey.Same publicKey)
      (pinned : peer.configuredEndpoint ≠ none)
      (touches : Touches pm pm' ip peer (rediscovered peer hostname isGateway))
  | migrated (oldIp : Ipv4Addr) (peer : Peer) (elsewhere : oldIp ≠ ip)
      (held : pm.peersByIp.get oldIp = some peer) (keyed : peer.publicKey.Same publicKey)
      (search : pm.findIpByKey publicKey = some oldIp)
      (foreign : ∀ occupant, pm.peersByIp.get ip = some occupant → ¬occupant.publicKey.Same publicKey)
      (replaces : Replaces pm pm' ip (some (migrated peer endpoint ip hostname isGateway))
        (some oldIp))
  | inserted
      (unknown : ∀ other peer, pm.peersByIp.get other = some peer → ¬peer.publicKey.Same publicKey)
      (replaces : Replaces pm pm' ip (some (discovered publicKey endpoint ip hostname isGateway))
        (some ip))

/-- With no such key at the IP, a discovery migrates the record that it finds for the key, or enters
a new one. -/
theorem discoverElsewhere_discovers
    (foreign : ∀ occupant, pm.peersByIp.get ip = some occupant → ¬occupant.publicKey.Same publicKey) :
    Discovers pm (pm.discoverElsewhere publicKey endpoint ip hostname isGateway) publicKey endpoint
      ip hostname isGateway := by
  cases search : pm.findIpByKey publicKey with
  | none =>
      simp only [discoverElsewhere, search]
      exact .inserted (findIpByKey_none.mp search) insertDiscovered_replaces
  | some oldIp =>
      obtain ⟨peer, held, keyed⟩ := findIpByKey_some search
      have elsewhere : oldIp ≠ ip := by
        rintro rfl
        exact foreign peer held keyed
      simp only [discoverElsewhere, search, held, if_pos elsewhere]
      exact .migrated oldIp peer elsewhere held keyed search foreign
        (migrateDiscovered_replaces held)

/-- A discovery refreshes the peer at the IP, migrates the one found elsewhere, or enters a new one.
-/
theorem updateFromDiscovery_discovers (pm : PeerManager) (publicKey : PublicKey)
    (endpoint : SocketAddr) (ip : Ipv4Addr) (hostname : String) (isGateway : Bool) :
    Discovers pm (pm.updateFromDiscovery publicKey endpoint ip hostname isGateway) publicKey
      endpoint ip hostname isGateway := by
  cases held : pm.peersByIp.get ip with
  | none =>
      simp only [updateFromDiscovery, held]
      exact discoverElsewhere_discovers (by simp [held])
  | some peer =>
      by_cases keyed : peer.publicKey.Same publicKey
      · simp only [updateFromDiscovery, held, if_pos keyed, refreshDiscovered]
        by_cases line : peer.configuredEndpoint = none
        · rw [if_pos (by simp [line])]
          have moves : Moves pm (pm.setEndpoint ip (rediscovered peer hostname isGateway) endpoint)
              ip peer { rediscovered peer hostname isGateway with endpoint := some endpoint } :=
            setEndpoint_moves (rediscovered peer hostname isGateway) held rfl rfl rfl endpoint
          exact .refreshed peer keyed line moves
        · rw [if_neg (by simpa using line)]
          refine .pinned peer keyed line ⟨⟨held, rfl, rfl, fun other => ?_, rfl⟩, rfl, rfl⟩
          simp [HashMap.get_insert, rediscovered]
      · simp only [updateFromDiscovery, held, if_neg keyed]
        exact discoverElsewhere_discovers fun occupant found =>
          Option.some.inj (held.symm.trans found) ▸ keyed

end Discovery

section Exchange

variable {entry : PexEntry} {senderIp myIp : Ipv4Addr} {keypair : KeyPair} {now : Instant}

/-- The entry names an IP that peer exchange may use, under a key. -/
structure Acceptable (pm : PeerManager) (myIp : Ipv4Addr) (entry : PexEntry) (ip : Ipv4Addr)
    (publicKey : PublicKey) : Prop where
  ipParsed : Ipv4Addr.parse entry.wolfnetIp.toList = some ip
  keyParsed : parsePublicKey entry.publicKey = .ok publicKey
  foreign : ip ≠ myIp
  notPurged : ip ∉ pm.purgedIps
  subnet : ip.a = myIp.a ∧ ip.b = myIp.b ∧ ip.c = myIp.c

/-- The IP and the key that an acceptable entry names. -/
def offer (pm : PeerManager) (myIp : Ipv4Addr) (entry : PexEntry) : Option (Ipv4Addr × PublicKey) :=
  match Ipv4Addr.parse entry.wolfnetIp.toList, parsePublicKey entry.publicKey with
  | some ip, .ok publicKey =>
    if ip ≠ myIp ∧ ip ∉ pm.purgedIps ∧ ip.a = myIp.a ∧ ip.b = myIp.b ∧ ip.c = myIp.c then
      some (ip, publicKey)
    else none
  | _, _ => none

/-- A peer that its relay may be changed for: not connected, and known from an exchange. -/
def Relayed (now : Instant) (peer : Peer) : Prop :=
  peer.isConnected now = false ∧ peer.relayVia ≠ none

/-- The record of a peer that is reached through the sender of an exchange. -/
def redirected (peer : Peer) (senderIp : Ipv4Addr) : Peer := { peer with relayVia := some senderIp }

variable {pm' : PeerManager} {publicKey : PublicKey} {peer : Peer}

/-- An entry offers a peer exactly when it is acceptable. -/
theorem offer_eq_some :
    pm.offer myIp entry = some (ip, publicKey) ↔ pm.Acceptable myIp entry ip publicKey := by
  unfold offer
  constructor
  · intro offered
    split at offered
    · next ip' key' ipParsed keyParsed =>
        rw [Option.ite_none_right_eq_some] at offered
        obtain ⟨⟨foreign, notPurged, subnet⟩, same⟩ := offered
        cases same
        exact ⟨ipParsed, keyParsed, foreign, notPurged, subnet⟩
    · cases offered
  · rintro ⟨ipParsed, keyParsed, foreign, notPurged, subnet⟩
    simp only [ipParsed, keyParsed]
    rw [if_pos ⟨foreign, notPurged, subnet⟩]

/-- An entry names one IP and one key. -/
theorem Acceptable.unique {ip' : Ipv4Addr} {publicKey' : PublicKey}
    (acceptable : pm.Acceptable myIp entry ip publicKey)
    (other : pm.Acceptable myIp entry ip' publicKey') : ip = ip' ∧ publicKey = publicKey' :=
  ⟨Option.some.inj (acceptable.ipParsed.symm.trans other.ipParsed),
    Except.ok.inj (acceptable.keyParsed.symm.trans other.keyParsed)⟩

/-- What an entry does to the table that it meets, and when. -/
inductive Outcome (pm pm' : PeerManager) (entry : PexEntry) (senderIp myIp : Ipv4Addr)
    (keypair : KeyPair) (now : Instant) : Prop where
  | ignored (same : pm' = pm)
      (notNew : ∀ ip publicKey, pm.Acceptable myIp entry ip publicKey → pm.peersByIp.get ip = none →
        pm.findIpByKey publicKey ≠ none)
      (notRelayed : ∀ ip publicKey peer, pm.Acceptable myIp entry ip publicKey →
        pm.peersByIp.get ip = some peer → Relayed now peer →
        ∃ found, pm.findIpByKey publicKey = some found ∧ found ≠ ip)
  | relayed {ip : Ipv4Addr} {publicKey : PublicKey} {peer : Peer}
      (acceptable : pm.Acceptable myIp entry ip publicKey) (relayed : Relayed now peer)
      (known : ∀ found, pm.findIpByKey publicKey = some found → found = ip)
      (touches : Touches pm pm' ip peer (redirected peer senderIp))
  | inserted {ip : Ipv4Addr} {publicKey : PublicKey}
      (acceptable : pm.Acceptable myIp entry ip publicKey) (free : pm.peersByIp.get ip = none)
      (unknown : pm.findIpByKey publicKey = none)
      (replaces : Replaces pm pm' ip (some (pexPeer entry publicKey ip senderIp keypair now)) none)

/-- An entry that is not acceptable is ignored. -/
theorem Outcome.of_unacceptable (same : pm' = pm)
    (unacceptable : ∀ ip publicKey, ¬pm.Acceptable myIp entry ip publicKey) :
    Outcome pm pm' entry senderIp myIp keypair now :=
  .ignored same (fun ip publicKey acceptable => absurd acceptable (unacceptable ip publicKey))
    fun ip publicKey _ acceptable => absurd acceptable (unacceptable ip publicKey)

/-- An exchange entry is skipped, names a relay, or brings a peer. -/
theorem addPexEntry_outcome (pm : PeerManager) (entry : PexEntry) (senderIp myIp : Ipv4Addr)
    (keypair : KeyPair) (now : Instant) :
    Outcome pm (pm.addPexEntry entry senderIp myIp keypair now) entry senderIp myIp keypair now := by
  unfold addPexEntry
  split
  · next unparsed =>
      refine .of_unacceptable rfl fun ip publicKey acceptable => ?_
      rw [acceptable.ipParsed] at unparsed
      cases unparsed
  next ip ipParsed =>
  have named {ip' : Ipv4Addr} {publicKey : PublicKey}
    (acceptable : pm.Acceptable myIp entry ip' publicKey) :
      ip' = ip := Option.some.inj (acceptable.ipParsed.symm.trans ipParsed)
  split_ifs with self purged subnet direct
  · exact .of_unacceptable rfl fun ip' _ acceptable =>
      acceptable.foreign ((named acceptable).trans self)
  · exact .of_unacceptable rfl fun ip' _ acceptable =>
      acceptable.notPurged (named acceptable ▸ purged)
  · refine .of_unacceptable rfl fun ip' _ acceptable => ?_
    obtain ⟨a, b, c⟩ := acceptable.subnet
    rw [named acceptable] at a b c
    exact subnet.elim (· a) fun rest => rest.elim (· b) (· c)
  · -- A known peer that is connected, or that no exchange brought.
    refine .ignored rfl (fun ip' publicKey acceptable free => ?_) fun ip' publicKey peer acceptable held relayed => ?_
    · rw [named acceptable] at free
      simp [free] at direct
    · rw [named acceptable] at held
      simp [held, relayed.1, relayed.2] at direct
  split
  · next error unparsed =>
      refine .of_unacceptable rfl fun ip' publicKey acceptable => ?_
      rw [acceptable.keyParsed] at unparsed
      cases unparsed
  next publicKey keyParsed =>
  have keyed {ip' : Ipv4Addr} {publicKey' : PublicKey}
    (acceptable : pm.Acceptable myIp entry ip' publicKey') :
      publicKey' = publicKey := Except.ok.inj (acceptable.keyParsed.symm.trans keyParsed)
  have acceptable : pm.Acceptable myIp entry ip publicKey := by
    simp only [not_or, not_not] at subnet
    exact ⟨ipParsed, keyParsed, self, purged, subnet.1, subnet.2.1, subnet.2.2⟩
  split_ifs with elsewhere
  · obtain ⟨found, search, different⟩ :
        ∃ found, pm.findIpByKey publicKey = some found ∧ found ≠ ip := by
      simpa [Option.any_eq_true] using elsewhere
    refine .ignored rfl (fun ip' publicKey' acceptable _ => ?_) fun ip' publicKey' _ acceptable _ _ => ?_
    · simp [keyed acceptable, search]
    · rw [keyed acceptable, named acceptable]
      exact ⟨found, search, different⟩
  have known : ∀ found, pm.findIpByKey publicKey = some found → found = ip := by
    intro found search
    simpa [search] using elsewhere
  cases held : pm.peersByIp.get ip with
  | some peer =>
      have relayed : Relayed now peer := by
        simpa [held, Relayed] using direct
      dsimp only
      rw [if_neg (by simp [relayed.1])]
      refine .relayed acceptable relayed known ⟨⟨held, rfl, rfl, fun other => ?_, rfl⟩, rfl, rfl⟩
      simp [HashMap.get_insert, redirected]
  | none =>
      have unknown : pm.findIpByKey publicKey = none := by
        cases search : pm.findIpByKey publicKey with
        | none => rfl
        | some found =>
            obtain ⟨peer, foundHeld, _⟩ := findIpByKey_some search
            rw [known found search, held] at foundHeld
            cases foundHeld
      exact .inserted acceptable held unknown
        (pm.addPeer_replaces (pexPeer entry publicKey ip senderIp keypair now))

/-- What one entry of a peer exchange does: nothing, a new relay for a relayed peer that
is not connected, or a new peer. -/
inductive Exchanges (pm pm' : PeerManager) (entry : PexEntry) (senderIp : Ipv4Addr)
    (keypair : KeyPair) (now : Instant) : Prop where
  | ignored (same : pm' = pm)
  | relayed (ip : Ipv4Addr) (peer : Peer)
      (touches : Touches pm pm' ip peer { peer with relayVia := some senderIp })
  | inserted (publicKey : PublicKey) (ip : Ipv4Addr) (free : pm.peersByIp.get ip = none)
      (parsed : parsePublicKey entry.publicKey = .ok publicKey)
      (unknown : ∀ other peer, pm.peersByIp.get other = some peer → ¬peer.publicKey.Same publicKey)
      (replaces : Replaces pm pm' ip (some (pexPeer entry publicKey ip senderIp keypair now)) none)

/-- What an exchange entry does to one record at most. -/
theorem addPexEntry_exchanges (pm : PeerManager) (entry : PexEntry) (senderIp myIp : Ipv4Addr)
    (keypair : KeyPair) (now : Instant) :
    Exchanges pm (pm.addPexEntry entry senderIp myIp keypair now) entry senderIp keypair now := by
  cases pm.addPexEntry_outcome entry senderIp myIp keypair now with
  | ignored same _ _ => exact .ignored same
  | relayed _ _ _ touches => exact .relayed _ _ touches
  | inserted acceptable free unknown replaces =>
      exact .inserted _ _ free acceptable.keyParsed (findIpByKey_none.mp unknown) replaces

end Exchange
end WolfNet.PeerManager
