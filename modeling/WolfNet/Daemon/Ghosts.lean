import WolfNet.Daemon.Events
import WolfNet.Reload.Purge
import WolfNet.Table.Exchange

/-!
# Ghosts

The purge loop of a reload drops the peers that no config entry lists, unless they are directly
connected at an endpoint of their own. A dropped IP is blocked until a restart: whatever happens
later, no peer exchange touches its record.
-/

namespace WolfNet

open WolfNet.Std WolfNet.Semantics

section Daemon

variable [Crates]

section Loop

variable (dns : String → Option (List SocketAddr)) (now : Instant) (config : Config)

/-- No config entry lists the IP, and its peer is not directly connected or shares the endpoint of
a configured one. -/
structure Ghost (ip : Ipv4Addr) (peer : Peer) : Prop where
  unlisted : ip ∉ config.configuredIps
  astray : peer.relayVia ≠ none ∨ peer.isConnected now = false ∨
    ∃ addr ∈ config.configuredEndpoints dns, peer.endpoint = some addr

/-- The purge loop leaves the peer at the IP. -/
def spares (ip : Ipv4Addr) (peer : Peer) : Bool :=
  decide (ip ∈ config.configuredIps) || !isPurged (config.configuredEndpoints dns) now peer

/-- A peer is not spared exactly when it is a ghost. -/
theorem spares_eq_false {ip : Ipv4Addr} {peer : Peer} :
    spares dns now config ip peer = false ↔ Ghost dns now config ip peer := by
  have purged : isPurged (config.configuredEndpoints dns) now peer = true ↔ peer.relayVia ≠ none ∨
      peer.isConnected now = false ∨
      ∃ addr ∈ config.configuredEndpoints dns, peer.endpoint = some addr := by
    unfold isPurged isDupEndpoint
    cases peer.relayVia <;> cases peer.isConnected now <;> cases peer.endpoint <;> simp
  rw [spares, Bool.or_eq_false_iff, decide_eq_false_iff_not, Bool.not_eq_false', purged]
  exact ⟨fun ⟨unlisted, astray⟩ => ⟨unlisted, astray⟩, fun ghost => ⟨ghost.unlisted, ghost.astray⟩⟩

namespace PeerManager

/-- The purge loop over the IPs in the given order. -/
def purgeLoop (ips : List Ipv4Addr) (pm : PeerManager) : PeerManager :=
  ips.foldl (purgeStep dns now config) pm

variable {pm : PeerManager} {ips : List Ipv4Addr} {ip : Ipv4Addr} {peer : Peer}

/-- A purge step drops the peer unless it is spared. -/
theorem purgeStep_get : (purgeStep dns now config pm ip).peersByIp.get ip =
    (pm.peersByIp.get ip).filter (spares dns now config ip) := by
  unfold purgeStep reloadPurge
  split_ifs with listed purged
  · have spared : spares dns now config ip = fun _ => true := by
      funext peer
      simp [spares, listed]
    rw [spared]
    cases pm.peersByIp.get ip <;> rfl
  · rw [(pm.purgePeer_replaces ip).peers, if_pos rfl]
    cases held : pm.peersByIp.get ip with
    | none => rfl
    | some peer =>
        rw [held] at purged
        have gone : spares dns now config ip peer = false := by simpa [spares, listed] using purged
        simp [Option.filter, gone]
  · cases held : pm.peersByIp.get ip with
    | none => rfl
    | some peer =>
        rw [held] at purged
        have kept : spares dns now config ip peer = true := by simpa [spares, listed] using purged
        simp [Option.filter, kept]

/-- The purge loop leaves IPs that it does not meet. -/
theorem purgeLoop_frame (fresh : ip ∉ ips) :
    (purgeLoop dns now config ips pm).peersByIp.get ip = pm.peersByIp.get ip := by
  induction ips generalizing pm with
  | nil => rfl
  | cons first rest ih =>
      rw [List.mem_cons, not_or] at fresh
      exact (ih fresh.2).trans (purgeStep_frame dns now config pm (Or.inl fresh.1))

/-- What the loop leaves at an IP that it meets. -/
theorem purgeLoop_get (member : ip ∈ ips) : (purgeLoop dns now config ips pm).peersByIp.get ip =
    (pm.peersByIp.get ip).filter (spares dns now config ip) := by
  induction ips generalizing pm with
  | nil => cases member
  | cons first rest ih =>
      change (purgeLoop dns now config rest
        (purgeStep dns now config pm first)).peersByIp.get ip = _
      by_cases later : ip ∈ rest
      · rw [ih later]
        by_cases here : ip = first
        · subst here
          rw [purgeStep_get, Option.filter_filter]
          simp
        · rw [purgeStep_frame dns now config pm (Or.inl here)]
      · obtain rfl := (List.mem_cons.mp member).resolve_right later
        rw [purgeLoop_frame dns now config later, purgeStep_get]

/-- The purge loop unbars no IP. -/
theorem purgeLoop_blocks (ips : List Ipv4Addr) (pm : PeerManager) :
    pm.Blocks (purgeLoop dns now config ips pm) :=
  foldl_blocks (fun _ ip => reloadPurge_blocks now _ _ ip) pm ips

/-- Every IP that the loop drops is blocked. -/
theorem mem_purgedIps_of_ghost (member : ip ∈ ips) (held : pm.peersByIp.get ip = some peer)
    (ghost : Ghost dns now config ip peer) : ip ∈ (purgeLoop dns now config ips pm).purgedIps := by
  induction ips generalizing pm with
  | nil => cases member
  | cons first rest ih =>
      by_cases here : ip = first
      · subst here
        refine (purgeLoop_blocks dns now config rest _).purged ?_
        have purged : isPurged (config.configuredEndpoints dns) now peer = true := by
          simpa [spares, ghost.unlisted] using (spares_eq_false dns now config).mpr ghost
        rw [purgeStep, reloadPurge, if_neg ghost.unlisted, if_pos (by rw [held]; exact purged),
          purgePeer_purgedIps]
        exact Finset.mem_insert_self _ _
      · exact ih ((List.mem_cons.mp member).resolve_left here)
          ((purgeStep_frame dns now config pm (Or.inl here)).trans held)

/-- A peer exchange leaves what the table has at a blocked IP. -/
theorem ExchangeRun.blocked {senderIp myIp : Ipv4Addr} {keypair : KeyPair} {entries : List PexEntry}
    {pm' : PeerManager} (run : ExchangeRun senderIp myIp keypair now entries pm pm')
    (blocked : ip ∈ pm.purgedIps) : pm'.peersByIp.get ip = pm.peersByIp.get ip := by
  have exchanged := run.exchanged
  cases held : pm.peersByIp.get ip with
  | some peer =>
      refine (exchanged.known ip peer held).resolve_right ?_
      rintro ⟨_, _, ⟨_, _, _, acceptable, _⟩ | ⟨_, _, _, _, _, acceptable, _⟩⟩
      · exact acceptable.notPurged blocked
      · exact acceptable.notPurged blocked
  | none =>
      rw [Option.eq_none_iff_forall_ne_some]
      intro peer brought
      obtain ⟨admission, member, slot, _⟩ := (exchanged.new ip peer held).mp brought
      exact (mem_admissions member).2.1.notPurged (slot ▸ blocked)

end PeerManager

end Loop

namespace Node

open PeerManager

/-- No peer exchange touches what the table has at the IP, and none that a datagram brings makes
a peer there. -/
structure Bars (node : Node) (ip : Ipv4Addr) : Prop where
  exchange : ∀ senderIp now entries pm,
    ExchangeRun senderIp node.wolfnetIp node.keypair now entries node.peerManager pm →
    pm.peersByIp.get ip = node.peerManager.peersByIp.get ip
  datagram : ∀ now src bytes node', node.TakesExchange now src bytes node' →
    node.peerManager.peersByIp.get ip = none → node'.peerManager.peersByIp.get ip = none

variable {node node' : Node} {now : Instant} {src : SocketAddr} {bytes : List UInt8} {ip : Ipv4Addr}

/-- A data packet makes no peers. -/
theorem Receives.free {peerId : PeerId} {counter : UInt64} {ciphertext : List UInt8}
    {result : Node × Option (Ipv4Addr × List UInt8)}
    (receives : Receives node now src peerId counter ciphertext result)
    (free : node.peerManager.peersByIp.get ip = none) :
    result.1.peerManager.peersByIp.get ip = none := by
  have elsewhere {other : Ipv4Addr} {peer : Peer}
      (held : node.peerManager.peersByIp.get other = some peer) : ip ≠ other := by
    rintro rfl
    exact Option.some_ne_none peer (held.symm.trans free)
  cases receives with
  | unknown missing => exact free
  | refused other peer found held closed =>
      rw [withManager_peerManager, HashMap.get_insert_of_ne _ _ (elsewhere held)]
      exact free
  | opened other peer session plaintext found held established outcome =>
      obtain ⟨_, peers⟩ := acceptFrom_peers node.peerManager src other peer
        (peer.received (session.accepted counter) plaintext.length now)
      rw [withManager_peerManager, peers, if_neg (elsewhere held)]
      exact free

/-- An IP that is blocked is barred to exchanges and datagrams. -/
theorem bars_of_blocked (blocked : ip ∈ node.peerManager.purgedIps) : node.Bars ip where
  exchange _ now _ _ run := run.blocked now blocked
  datagram now src bytes node' takes free := by
    obtain ⟨mid, sender, plaintext, entries, pm, type, long, received, _, run, rfl⟩ := takes
    have keeps := receiveData_keepsRest type long received
    obtain ⟨peerId, counter, ciphertext, rfl⟩ := exists_buildDataPacket type long
    obtain ⟨result, opened, receives⟩ := node.receiveData_receives now src peerId counter ciphertext
    obtain rfl := Except.ok.inj (opened.symm.trans received)
    exact (run.blocked now (keeps.rest.purged ▸ blocked)).trans (receives.free free)

/-- Blocked IPs stay blocked. -/
theorem run_purgedIps {start last : Node} {trace : List (Node × Event)}
    (run : Run Step start trace last) :
    start.peerManager.purgedIps ⊆ last.peerManager.purgedIps := by
  induction run with
  | refl => exact subset_rfl
  | step _ transition ih => exact ih.trans transition.purgedIps_subset

section Reload

variable (dns : String → Option (List SocketAddr)) (now : Instant) (config : Config)
  (routes subnetRoutes : RouteFile)

/-- The table when the purge loop of a reload starts. -/
def atPurge (node : Node) : PeerManager :=
  halfReloaded dns node.keypair now config node.peerManager

/-- The node after a reload whose purge loop met the IPs in the given order. -/
def reloaded (ips : List Ipv4Addr) (node : Node) : Node :=
  node.withManager (((purgeLoop dns now config ips (node.atPurge dns now config)).loadRoutes
    routes).loadSubnetRoutes subnetRoutes)

/-- The reload of the peer table is the one that meets the IPs in the table's own order. -/
theorem reloaded_allIps : node.reloaded dns now config routes subnetRoutes
      (node.atPurge dns now config).allIps =
    node.withManager (reloadPeers dns node.keypair now node.peerManager config routes subnetRoutes) :=
  rfl

/-- In every order of the table, a reload drops exactly the ghosts, leaves the other records, and no
peer exchange of any later run brings a peer to a dropped IP. -/
theorem purges_ghosts {ips : List Ipv4Addr}
    (order : ips.Perm (node.atPurge dns now config).allIps) :
    (∀ ip peer, (node.atPurge dns now config).peersByIp.get ip = some peer →
      ((node.reloaded dns now config routes subnetRoutes ips).peerManager.peersByIp.get ip = none ↔
        Ghost dns now config ip peer) ∧
      (¬Ghost dns now config ip peer →
        (node.reloaded dns now config routes subnetRoutes ips).peerManager.peersByIp.get ip =
          some peer) ∧
      (Ghost dns now config ip peer → ∀ trace last,
        Run Step (node.reloaded dns now config routes subnetRoutes ips) trace last →
          last.Bars ip)) ∧
    ∀ ip, (node.atPurge dns now config).peersByIp.get ip = none →
      (node.reloaded dns now config routes subnetRoutes ips).peerManager.peersByIp.get ip =
        none := by
  have table (ip : Ipv4Addr) :
      (node.reloaded dns now config routes subnetRoutes ips).peerManager.peersByIp.get ip =
        (purgeLoop dns now config ips (node.atPurge dns now config)).peersByIp.get ip := by
    rw [reloaded, withManager_peerManager, loadSubnetRoutes_peersByIp, loadRoutes_peersByIp]
  refine ⟨fun ip peer held => ?_, fun ip free => ?_⟩
  · have member : ip ∈ ips := order.mem_iff.mpr (HashMap.mem_keys_iff.mpr ⟨peer, held⟩)
    rw [table, purgeLoop_get dns now config member, held, ← spares_eq_false]
    refine ⟨?_, ?_, fun dropped trace last run => bars_of_blocked (run_purgedIps run ?_)⟩
    · cases spared : spares dns now config ip peer <;> simp [Option.filter, spared]
    · intro spared
      simpa [Option.filter] using spared
    · rw [reloaded, withManager_peerManager, loadFiles_purgedIps]
      exact mem_purgedIps_of_ghost dns now config member held
        ((spares_eq_false dns now config).mp dropped)
  · have fresh : ip ∉ ips := by
      rw [order.mem_iff]
      intro member
      obtain ⟨peer, held⟩ := HashMap.mem_keys_iff.mp member
      exact Option.some_ne_none peer (held.symm.trans free)
    rw [table, purgeLoop_frame dns now config fresh, free]

end Reload
end Node
end Daemon

namespace Node

open PeerManager

section Sample

attribute [local instance] Sample.crates

/-- A node that is connected to 10.10.10.2 and heard of 10.10.10.3 from it. -/
def hauntedNode : Node :=
  Sample.node 1 false ((Sample.connectedTable 1 2).addPeer { Sample.record 1 3 with
    relayVia := some ⟨10, 10, 10, 2⟩ })

/-- That node after a reload of a config without peers. -/
def exorcisedNode : Node :=
  hauntedNode.withManager (reloadPeers (fun _ => none) hauntedNode.keypair 5 hauntedNode.peerManager
    hauntedNode.config .missing .missing)

/-- The connected peer stays, and the relayed one is dropped for good. -/
theorem purges_ghosts_sample :
    (exorcisedNode.peerManager.peersByIp.get ⟨10, 10, 10, 2⟩).isSome ∧
    exorcisedNode.peerManager.peersByIp.get ⟨10, 10, 10, 3⟩ = none ∧
    ∀ trace last, Run Step exorcisedNode trace last → last.Bars ⟨10, 10, 10, 3⟩ := by
  have ghost : Ghost (fun _ => none) 5 hauntedNode.config ⟨10, 10, 10, 3⟩
      { Sample.record 1 3 with relayVia := some ⟨10, 10, 10, 2⟩ } :=
    ⟨by decide, Or.inl (Option.some_ne_none _)⟩
  have dropped := (purges_ghosts (fun _ => none) 5 hauntedNode.config .missing .missing
    (.refl (hauntedNode.atPurge (fun _ => none) 5 hauntedNode.config).allIps)).1
      ⟨10, 10, 10, 3⟩ _ rfl
  rw [reloaded_allIps] at dropped
  exact ⟨rfl, dropped.1.mpr ghost, dropped.2.2 ghost⟩

end Sample
end Node
end WolfNet
