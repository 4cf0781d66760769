import WolfNet.Reload.Load

/-!
# The purge loop of a reload

The second loop drops peers that the config does not list, each with its index entries,
whoever these lead to. `reloadPeers_get`, `reloadPeers_findIpById` and
`reloadPeers_findIpByEndpoint` describe the lookups after a whole reload.
-/

namespace WolfNet

open WolfNet.Std WolfNet.Semantics

variable [Crates]

variable (dns : String → Option (List SocketAddr)) (keypair : KeyPair) (now : Instant)

namespace PeerManager

section Purge

variable (config : Config)

/-- The reload purges a peer that is not configured. -/
structure Purges (pm : PeerManager) (ip : Ipv4Addr) (peer : Peer) : Prop where
  held : pm.peersByIp.get ip = some peer
  unconfigured : ip ∉ config.configuredIps
  purged : isPurged (config.configuredEndpoints dns) now peer = true

/-- The purge step of a reload with the config. -/
def purgeStep (pm : PeerManager) (ip : Ipv4Addr) : PeerManager :=
  reloadPurge config.configuredIps (config.configuredEndpoints dns) now pm ip

/-- The purge step drops a peer with its index entries, or the peer is not purged. -/
theorem purgeStep_cases (pm : PeerManager) (ip : Ipv4Addr) :
    ((∀ peer, ¬Purges dns now config pm ip peer) ∧ purgeStep dns now config pm ip = pm) ∨
    (ip ∉ config.configuredIps ∧
      (∀ peer, pm.peersByIp.get ip = some peer → Purges dns now config pm ip peer) ∧
      Replaces pm (purgeStep dns now config pm ip) ip none (some ip)) := by
  unfold purgeStep reloadPurge
  split_ifs with configured purged
  · exact Or.inl ⟨fun _ purges => purges.unconfigured configured, rfl⟩
  · refine Or.inr ⟨configured, fun peer held => ⟨held, configured, ?_⟩, pm.purgePeer_replaces ip⟩
    simpa [held] using purged
  · refine Or.inl ⟨fun peer purges => purged ?_, rfl⟩
    simp [purges.held, purges.purged]

/-- The purge step leaves the records at other IPs and at configured ones. -/
theorem purgeStep_frame (pm : PeerManager) {ip other : Ipv4Addr}
    (kept : other ≠ ip ∨ other ∈ config.configuredIps) :
    (purgeStep dns now config pm ip).peersByIp.get other = pm.peersByIp.get other := by
  rcases purgeStep_cases dns now config pm ip with ⟨_, same⟩ | ⟨unconfigured, _, replaces⟩
  · rw [same]
  · have elsewhere : other ≠ ip := by
      rintro rfl
      exact kept.elim (· rfl) unconfigured
    rw [replaces.peers, if_neg elsewhere, if_neg (by simpa using Ne.symm elsewhere)]

/-- A lookup that outlives a removal unless the removed peer hits it outlives the purge step
unless the purged peer does. -/
theorem purgeStep_lookup {look : PeerManager → Option Ipv4Addr} {hit : Peer → Prop}
    {target : Ipv4Addr} {pm : PeerManager} {ip : Ipv4Addr}
    (removal : ∀ pm', Replaces pm pm' ip none (some ip) → (look pm' = some target ↔
      (∀ peer, pm.peersByIp.get ip = some peer → ¬hit peer) ∧ look pm = some target)) :
    look (purgeStep dns now config pm ip) = some target ↔
      (∀ peer, Purges dns now config pm ip peer → ¬hit peer) ∧ look pm = some target := by
  rcases purgeStep_cases dns now config pm ip with ⟨spared, same⟩ | ⟨_, purges, replaces⟩
  · rw [same]
    exact ⟨fun found => ⟨fun peer purged => absurd purged (spared peer), found⟩, And.right⟩
  · rw [removal _ replaces]
    refine and_congr_left fun _ => forall_congr' fun peer => imp_congr_left ?_
    exact ⟨purges peer, Purges.held⟩

/-- A lookup outlives the purge loop when it outlives each of its steps. -/
theorem foldl_purgeStep {look : PeerManager → Option Ipv4Addr} {hit : Peer → Prop}
    {target : Ipv4Addr}
    (step : ∀ pm ip, look (purgeStep dns now config pm ip) = some target ↔
      (∀ peer, Purges dns now config pm ip peer → ¬hit peer) ∧ look pm = some target)
    {ips : List Ipv4Addr} (distinct : ips.Nodup) (pm : PeerManager) :
    look (ips.foldl (purgeStep dns now config) pm) = some target ↔
      (∀ ip ∈ ips, ∀ peer, Purges dns now config pm ip peer → ¬hit peer) ∧
        look pm = some target := by
  induction ips generalizing pm with
  | nil => simp
  | cons ip rest ih =>
      obtain ⟨fresh, distinct⟩ := List.nodup_cons.mp distinct
      rw [List.foldl_cons, ih distinct, step, List.forall_mem_cons, and_assoc, and_left_comm]
      refine and_congr_right fun _ => and_congr_left fun _ => ?_
      -- The step at one IP leaves the records that the later steps look at.
      refine forall₂_congr fun other member => forall_congr' fun peer => ?_
      have elsewhere : other ≠ ip := by
        rintro rfl
        exact fresh member
      have frame := purgeStep_frame dns now config pm (Or.inl elsewhere)
      refine imp_congr_left ⟨fun purges => ?_, fun purges => ?_⟩
      · exact ⟨frame ▸ purges.held, purges.unconfigured, purges.purged⟩
      · exact ⟨frame.trans purges.held, purges.unconfigured, purges.purged⟩

/-- The purge loop leaves the records at configured IPs. -/
theorem foldl_purgeStep_configured (ips : List Ipv4Addr) (pm : PeerManager) {ip : Ipv4Addr}
    (configured : ip ∈ config.configuredIps) :
    (ips.foldl (purgeStep dns now config) pm).peersByIp.get ip = pm.peersByIp.get ip := by
  induction ips generalizing pm with
  | nil => rfl
  | cons first rest ih =>
      rw [List.foldl_cons, ih, purgeStep_frame dns now config pm (Or.inr configured)]

end Purge

end PeerManager

variable {config : Config} {entries before after : List PeerEntry} {entry : PeerEntry}
  {pm : PeerManager} {routes subnetRoutes : RouteFile}

namespace PeerManager

/-- The table between the two loops of the reload. -/
def halfReloaded (config : Config) (pm : PeerManager) : PeerManager :=
  config.peers.foldl (reloadPeer dns keypair now pm.allIps) pm

/-- The first loop of a reload has reloaded every entry. -/
theorem halfReloaded_reloading (pm : PeerManager) (lists : config.Lists entries) :
    Reloading dns keypair now pm (halfReloaded dns keypair now config pm) entries := by
  rw [halfReloaded, lists.lines]
  exact foldl_reloadPeer dns keypair now pm lists.distinct

/-- The peers to be purged are those that the table had before the reload. -/
theorem halfReloaded_purges (lists : config.Lists entries) {ip : Ipv4Addr} {peer : Peer} :
    Purges dns now config (halfReloaded dns keypair now config pm) ip peer ↔
      Purges dns now config pm ip peer := by
  have same (unconfigured : ip ∉ config.configuredIps) :
      (halfReloaded dns keypair now config pm).peersByIp.get ip = pm.peersByIp.get ip :=
    (halfReloaded_reloading dns keypair now pm lists).peers_of_not_mem dns keypair now
      (lists.configuredIps ▸ unconfigured)
  constructor
  · rintro ⟨held, unconfigured, purged⟩
    exact ⟨same unconfigured ▸ held, unconfigured, purged⟩
  · rintro ⟨held, unconfigured, purged⟩
    exact ⟨(same unconfigured).trans held, unconfigured, purged⟩

/-- An index lookup after the purge loop, when a removal ends those that the removed peer
hits. -/
theorem purged_lookup (look : PeerManager → Option Ipv4Addr) (hit : Peer → Prop)
    {target : Ipv4Addr} (lists : config.Lists entries)
    (removal : ∀ pm pm' ip, Replaces pm pm' ip none (some ip) → (look pm' = some target ↔
      (∀ peer, pm.peersByIp.get ip = some peer → ¬hit peer) ∧ look pm = some target)) :
    look ((halfReloaded dns keypair now config pm).allIps.foldl (purgeStep dns now config)
        (halfReloaded dns keypair now config pm)) = some target ↔
      (∀ ip peer, Purges dns now config pm ip peer → ¬hit peer) ∧
        look (halfReloaded dns keypair now config pm) = some target := by
  have step (pm : PeerManager) (ip : Ipv4Addr) :=
    purgeStep_lookup dns now config fun pm' => removal pm pm' ip
  have distinct : (halfReloaded dns keypair now config pm).allIps.Nodup := HashMap.nodup_keys _
  rw [foldl_purgeStep dns now config step distinct]
  refine and_congr_left fun _ => forall_congr' fun ip => ?_
  simp only [halfReloaded_purges dns keypair now lists]
  refine ⟨fun spared peer purges => ?_, fun spared _ => spared⟩
  have member := HashMap.mem_keys_iff.mpr
    ⟨peer, ((halfReloaded_purges dns keypair now lists).mpr purges).held⟩
  exact spared member peer purges

end PeerManager

/-- No other entry has the IP of an entry. -/
theorem Config.Lists.other_ip (lists : config.Lists (before ++ entry :: after)) :
    ∀ other ∈ before ++ after, other.ip ≠ entry.ip := by
  have distinct := lists.distinct
  rw [List.map_append, List.map_cons, List.nodup_middle, ← List.map_append] at distinct
  intro other member same
  exact (List.nodup_cons.mp distinct).1 (same ▸ List.mem_map_of_mem member)

/-- The reload leaves at a configured IP the record that its first loop makes. -/
theorem reloadPeers_get (lists : config.Lists (before ++ entry :: after)) :
    (reloadPeers dns keypair now pm config routes subnetRoutes).peersByIp.get entry.ip =
      some (entry.reloaded dns keypair now (pm.peersByIp.get entry.ip)) := by
  have configured : entry.ip ∈ config.configuredIps := by simp [lists.configuredIps]
  have reloading := PeerManager.halfReloaded_reloading dns keypair now pm lists
  have silent (other : PeerEntry) (member : other ∈ before ++ after) :
      pm.recordWrite dns keypair now entry.ip other = none :=
    if_neg (lists.other_ip other member)
  simp only [reloadPeers, PeerManager.loadRoutes_peersByIp, PeerManager.loadSubnetRoutes_peersByIp]
  refine (PeerManager.foldl_purgeStep_configured dns now config _ _ configured).trans ?_
  refine (reloading.peers _).trans ?_
  refine (written_eq_iff fun other member => by simp [silent other member]).mpr ?_
  exact ⟨fun other member => silent other (List.mem_append_right _ member), Or.inl (if_pos rfl)⟩

/-- The ID index after a reload: what the entries wrote, unless a purged peer has the ID. -/
theorem reloadPeers_findIpById (lists : config.Lists entries) {id : PeerId} {target : Ipv4Addr} :
    (reloadPeers dns keypair now pm config routes subnetRoutes).findIpById id = some target ↔
      (∀ ip peer, pm.Purges dns now config ip peer → peer.peerId ≠ id) ∧
        written (pm.idWrite id) (pm.idToIp.get id) entries = some target := by
  have reloading := PeerManager.halfReloaded_reloading dns keypair now pm lists
  simp only [reloadPeers, PeerManager.findIpById, PeerManager.loadRoutes_idToIp,
    PeerManager.loadSubnetRoutes_idToIp]
  rw [← reloading.ids]
  exact PeerManager.purged_lookup dns keypair now (·.idToIp.get id) (·.peerId = id) lists
    fun _ _ _ removed => removed.idToIp_removed

/-- The endpoint index after a reload: what the entries wrote, unless a purged peer has the
endpoint. -/
theorem reloadPeers_findIpByEndpoint (lists : config.Lists entries) {addr : SocketAddr}
    {target : Ipv4Addr} :
    (reloadPeers dns keypair now pm config routes subnetRoutes).findIpByEndpoint addr =
        some target ↔
      (∀ ip peer, pm.Purges dns now config ip peer → peer.endpoint ≠ some addr) ∧
        written (pm.endpointWrite dns addr) (pm.endpointToIp.get addr) entries = some target := by
  have reloading := PeerManager.halfReloaded_reloading dns keypair now pm lists
  simp only [reloadPeers, PeerManager.findIpByEndpoint, PeerManager.loadRoutes_endpointToIp,
    PeerManager.loadSubnetRoutes_endpointToIp]
  rw [← reloading.endpoints]
  exact PeerManager.purged_lookup dns keypair now (·.endpointToIp.get addr)
    (·.endpoint = some addr) lists
    fun _ _ _ removed => removed.endpointToIp_removed

end WolfNet
