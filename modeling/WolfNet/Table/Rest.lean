import WolfNet.PeerManager

/-!
# What the table operations leave alone

The operations on peers edit the table and its two indexes. The route tables change by loads of
their files alone, and the purged IPs by a purge alone.
-/

namespace WolfNet.PeerManager

open WolfNet.Std

variable [Crates]

/-- The route tables are as they were. -/
structure KeepsRoutes (pm pm' : PeerManager) : Prop where
  containers : pm'.subnetRoutes = pm.subnetRoutes
  cidrs : pm'.subnetRoutesCidrs = pm.subnetRoutesCidrs
  cidrsV6 : pm'.subnetRoutesCidrsV6 = pm.subnetRoutesCidrsV6

/-- The route tables and the purged IPs are as they were. -/
structure SameRest (pm pm' : PeerManager) : Prop extends KeepsRoutes pm pm' where
  purged : pm'.purgedIps = pm.purgedIps

variable {pm pm' pm'' : PeerManager} (endpoint : Option SocketAddr) (addr : SocketAddr)
  (ip : Ipv4Addr) (peer : Peer)

/-- Managers with the same routes, one after the other. -/
theorem KeepsRoutes.trans (first : KeepsRoutes pm pm') (second : KeepsRoutes pm' pm'') :
    KeepsRoutes pm pm'' :=
  ⟨second.containers.trans first.containers, second.cidrs.trans first.cidrs,
    second.cidrsV6.trans first.cidrsV6⟩

namespace SameRest

/-- A manager has its own routes and purged IPs. -/
theorem refl (pm : PeerManager) : SameRest pm pm := ⟨⟨rfl, rfl, rfl⟩, rfl⟩

/-- Managers with the same routes and purged IPs, one after the other. -/
theorem trans (first : SameRest pm pm') (second : SameRest pm' pm'') : SameRest pm pm'' :=
  ⟨first.toKeepsRoutes.trans second.toKeepsRoutes, second.purged.trans first.purged⟩

/-- An edit of the table and its indexes. -/
theorem edit (first : SameRest pm pm') (table : HashMap Ipv4Addr Peer)
    (ids : HashMap PeerId Ipv4Addr) (endpoints : HashMap SocketAddr Ipv4Addr) :
    SameRest pm { pm' with peersByIp := table, idToIp := ids, endpointToIp := endpoints } :=
  first.trans ⟨⟨rfl, rfl, rfl⟩, rfl⟩

end SameRest

/-- Forgetting an endpoint concerns the indexes only. -/
theorem forgetEndpoint_sameRest : SameRest pm (pm.forgetEndpoint endpoint) := by
  cases endpoint <;> exact ⟨⟨rfl, rfl, rfl⟩, rfl⟩

/-- Indexing an endpoint concerns the indexes only. -/
theorem indexEndpoint_sameRest : SameRest pm (pm.indexEndpoint endpoint ip) := by
  cases endpoint <;> exact ⟨⟨rfl, rfl, rfl⟩, rfl⟩

/-- Forgetting a peer's old endpoint concerns the indexes only. -/
theorem forgetOldEndpoint_sameRest : SameRest pm (pm.forgetOldEndpoint peer addr) := by
  unfold forgetOldEndpoint
  split
  · exact .refl pm
  · exact forgetEndpoint_sameRest _

/-- An add concerns the table and the indexes only. -/
theorem addPeer_sameRest : SameRest pm (pm.addPeer peer) :=
  (indexEndpoint_sameRest _ _).edit _ _ _

/-- A removal concerns the table and the indexes only. -/
theorem removePeer_sameRest : SameRest pm (pm.removePeer ip) := by
  unfold removePeer
  split
  · exact ((SameRest.refl pm).edit _ _ _).trans (forgetEndpoint_sameRest _)
  · exact .refl pm

/-- A purge blocks one IP more. -/
theorem purgePeer_purgedIps : (pm.purgePeer ip).purgedIps = insert ip pm.purgedIps :=
  congrArg (insert ip) (removePeer_sameRest ip).purged

/-- A purge also bars the IP, and leaves the routes. -/
theorem purgePeer_keepsRoutes : KeepsRoutes pm (pm.purgePeer ip) :=
  let removed : SameRest pm (pm.removePeer ip) := removePeer_sameRest ip
  ⟨removed.containers, removed.cidrs, removed.cidrsV6⟩

/-- An edit of a record concerns the table only. -/
theorem withPeerByIp_sameRest (f : Peer → Peer) : SameRest pm (pm.withPeerByIp ip f) := by
  unfold withPeerByIp
  split
  · exact (SameRest.refl pm).edit _ _ _
  · exact .refl pm

/-- Setting an endpoint concerns the table and the indexes only. -/
theorem setEndpoint_sameRest : SameRest pm (pm.setEndpoint ip peer addr) :=
  (forgetOldEndpoint_sameRest _ _).edit _ _ _

/-- So does an update of an endpoint. -/
theorem updateEndpoint_sameRest : SameRest pm (pm.updateEndpoint ip addr) := by
  unfold updateEndpoint
  split
  · exact setEndpoint_sameRest _ _ _
  · exact .refl pm

/-- So does roaming. -/
theorem updateEndpointIfRoaming_sameRest : SameRest pm (pm.updateEndpointIfRoaming ip addr).1 := by
  unfold updateEndpointIfRoaming
  split
  · exact .refl pm
  · split
    · exact .refl pm
    · exact setEndpoint_sameRest _ _ _

/-- So does clearing an endpoint. -/
theorem clearEndpoint_sameRest : SameRest pm (pm.clearEndpoint ip).1 := by
  unfold clearEndpoint
  split
  · exact (forgetEndpoint_sameRest _).edit _ _ _
  · exact .refl pm

section Discovery

variable (publicKey : PublicKey) (hostname : String) (isGateway : Bool)

/-- A refresh of a known peer leaves the routes and the purged IPs. -/
theorem refreshDiscovered_sameRest :
    SameRest pm (pm.refreshDiscovered peer addr ip hostname isGateway) := by
  unfold refreshDiscovered
  dsimp only
  split
  · exact setEndpoint_sameRest _ _ _
  · exact (SameRest.refl pm).edit _ _ _

/-- So does the migration of one. -/
theorem migrateDiscovered_sameRest (oldIp : Ipv4Addr) :
    SameRest pm (pm.migrateDiscovered oldIp peer addr ip hostname isGateway) :=
  (((SameRest.refl pm).edit _ _ _).trans (forgetEndpoint_sameRest _)).edit _ _ _

/-- So does the entry of a new one. -/
theorem insertDiscovered_sameRest :
    SameRest pm (pm.insertDiscovered publicKey addr ip hostname isGateway) := by
  unfold insertDiscovered
  dsimp only
  split
  · exact ((((SameRest.refl pm).edit _ _ _).trans
      (forgetEndpoint_sameRest _)).edit _ _ _).edit _ _ _
  · exact (SameRest.refl pm).edit _ _ _

/-- A discovery leaves the routes and the purged IPs. -/
theorem updateFromDiscovery_sameRest :
    SameRest pm (pm.updateFromDiscovery publicKey addr ip hostname isGateway) := by
  have elsewhere : SameRest pm (pm.discoverElsewhere publicKey addr ip hostname isGateway) := by
    unfold discoverElsewhere
    split
    · split
      · split
        · exact migrateDiscovered_sameRest _ _ _ _ _ _
        · exact insertDiscovered_sameRest _ _ _ _ _
      · exact insertDiscovered_sameRest _ _ _ _ _
    · exact insertDiscovered_sameRest _ _ _ _ _
  unfold updateFromDiscovery
  split
  · split
    · exact refreshDiscovered_sameRest _ _ _ _ _
    · exact elsewhere
  · exact elsewhere

end Discovery

section Exchange

variable (entry : PexEntry) (entries : List PexEntry) (senderIp myIp : Ipv4Addr) (keypair : KeyPair)
  (now : Instant)

/-- An exchange entry leaves the routes and the purged IPs. -/
theorem addPexEntry_sameRest : SameRest pm (pm.addPexEntry entry senderIp myIp keypair now) := by
  unfold addPexEntry
  split
  · exact .refl pm
  split_ifs
  · exact .refl pm
  · exact .refl pm
  · exact .refl pm
  · exact .refl pm
  split
  · exact .refl pm
  split_ifs
  · exact .refl pm
  split
  · split_ifs
    · exact .refl pm
    · exact (SameRest.refl pm).edit _ _ _
  · exact addPeer_sameRest _

/-- A peer exchange leaves the routes and the purged IPs. -/
theorem addFromPex_sameRest : SameRest pm (pm.addFromPex entries senderIp myIp keypair now) := by
  induction entries generalizing pm with
  | nil => exact .refl pm
  | cons entry entries ih => exact (addPexEntry_sameRest entry _ _ _ _).trans ih

end Exchange
end WolfNet.PeerManager
