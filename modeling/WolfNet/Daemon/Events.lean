import WolfNet.Daemon.Receive
import WolfNet.Daemon.Traffic
import WolfNet.Table.Ops

/-!
# The event loop

A running daemon takes packets from the TUN device and datagrams from its two sockets, does its
periodic work, and reloads its config on SIGHUP. `Step` is one such event; the tables may be met
in another order between events, and between the entries of a peer exchange. A reload whose config
does not load does nothing, and is no event.
-/

namespace WolfNet

open WolfNet.Std WolfNet.Semantics

variable [Crates]

/-- The manager when the event loop starts: the configured peers and both route files. -/
def startupManager (dns : String → Option (List SocketAddr)) (keypair : KeyPair) (now : Instant)
    (config : Config) (routes subnetRoutes : RouteFile) : PeerManager :=
  ((startupPeers dns keypair now config).loadRoutes routes).loadSubnetRoutes subnetRoutes

namespace Node

/-- An event of the daemon. -/
inductive Event where
  | reorder
  | tun (now : Instant) (packet : List UInt8)
  | tunnel (now : Instant) (src : SocketAddr) (bytes : List UInt8)
  | discovery (src : SocketAddr) (bytes : List UInt8)
  | handshakes (now : Instant)
  | keepalives (now : Instant)
  | peerExchange (now : Instant)
  | resolve (dns : String → Option (List SocketAddr))
  | readRoutes (routes subnetRoutes : RouteFile)
  | reload (dns : String → Option (List SocketAddr)) (now : Instant) (newConfig : Config)
      (routes subnetRoutes : RouteFile)

/-- The node after an event that meets the tables in their present order, and the effects. -/
def handle (node : Node) : Event → Rust (Node × List Effect)
  | .reorder => return (node, [])
  | .tun now packet => node.outbound packet now
  | .tunnel now src bytes => node.inbound now src bytes
  | .discovery src bytes => return (node.receiveDiscovery src bytes, [])
  | .handshakes now => return (node, node.sendHandshakes now)
  | .keepalives now => return (node, node.sendKeepalives now)
  | .peerExchange now => return node.sendPeerExchange now
  | .resolve dns => return (node.withManager (resolveAll dns node.peerManager), [])
  | .readRoutes routes subnetRoutes =>
    return (node.withManager ((node.peerManager.loadRoutes routes).loadSubnetRoutes subnetRoutes),
      [])
  | .reload dns now newConfig routes subnetRoutes =>
    return (node.withManager (reloadPeers dns node.keypair now node.peerManager newConfig routes
      subnetRoutes), [])

/-- A decrypted payload is a peer exchange with the entries. -/
structure IsExchange (plaintext : List UInt8) (entries : List PexEntry) : Prop where
  long : 1 < plaintext.length
  type : plaintext.head? = some pktPeerExchange
  parsed : parsePeerExchange plaintext = some entries

/-- A datagram opens to a peer exchange, whose entries each meet the table in some order. -/
def TakesExchange (node : Node) (now : Instant) (src : SocketAddr) (bytes : List UInt8)
    (node' : Node) : Prop :=
  ∃ mid sender plaintext entries pm, bytes.head? = some pktData ∧ 13 < bytes.length ∧
    node.receiveData now src bytes = .ok (mid, some (sender, plaintext)) ∧
    IsExchange plaintext entries ∧
    PeerManager.ExchangeRun sender mid.wolfnetIp mid.keypair now entries mid.peerManager pm ∧
    node' = mid.withManager pm

/-- One event. -/
def Step : Transition Node Event
  | node, .reorder, node' => ∃ pm, PeerManager.Reordered node.peerManager pm ∧
    node' = node.withManager pm
  | node, .tunnel now src bytes, node' =>
    (∃ effects, node.handle (.tunnel now src bytes) = .ok (node', effects)) ∨
      node.TakesExchange now src bytes node'
  | node, event, node' => ∃ effects, node.handle event = .ok (node', effects)

/-- The route files that an event reads. -/
def Event.files : Event → Option (RouteFile × RouteFile)
  | .readRoutes routes subnetRoutes => some (routes, subnetRoutes)
  | .reload _ _ _ routes subnetRoutes => some (routes, subnetRoutes)
  | _ => none

variable {node mid node' : Node} {now : Instant} {src : SocketAddr} {bytes plaintext : List UInt8}
  {sender : Ipv4Addr} {effects : List Effect} {event : Event}

/-- What happens to a decrypted payload. -/
inductive Delivers (node : Node) (now : Instant) (sender : Ipv4Addr) (plaintext : List UInt8) :
    Node → Prop where
  | exchanged (entries : List PexEntry) (exchange : IsExchange plaintext entries) :
      Delivers node now sender plaintext
        (node.withManager (node.peerManager.addFromPex entries sender node.wolfnetIp node.keypair now))
  | sent {node' : Node} (transmits : Transmits node node') : Delivers node now sender plaintext node'

/-- The dispatch of a decrypted packet delivers it. -/
theorem deliver_delivers (run : node.deliver now sender plaintext = .ok (node', effects)) :
    Delivers node now sender plaintext node' := by
  unfold deliver at run
  split at run
  · next exchange =>
      cases parsed : parsePeerExchange plaintext with
      | some entries =>
          simp only [parsed] at run
          cases run
          exact .exchanged entries ⟨exchange.1, exchange.2, parsed⟩
      | none =>
          simp only [parsed] at run
          cases run
          exact .sent (.refl _)
  · split at run
    · cases run
      exact .sent (.refl _)
    · simp only [Rust.bind_eq_ok] at run
      obtain ⟨dest, _, run⟩ := run
      cases dest with
      | some destIp => exact .sent (routeInbound_transmits run)
      | none =>
          simp only [Rust.bind_eq_ok] at run
          obtain ⟨dest6, _, run⟩ := run
          cases dest6 with
          | some dest6 => exact .sent (routeInboundV6_transmits run)
          | none =>
              cases run
              exact .sent (.refl _)

/-- A delivery leaves the rest of the node. -/
theorem Delivers.keepsRest (delivers : Delivers node now sender plaintext node') :
    KeepsRest node node' := by
  cases delivers with
  | exchanged entries => exact .manager (PeerManager.addFromPex_sameRest _ _ _ _ _)
  | sent transmits => exact transmits.toKeepsRest

/-- The data arm leaves the rest of the node. -/
theorem Receives.keepsRest {peerId : PeerId} {counter : UInt64} {ciphertext : List UInt8}
    {result : Node × Option (Ipv4Addr × List UInt8)}
    (receives : Receives node now src peerId counter ciphertext result) :
    KeepsRest node result.1 := by
  cases receives with
  | unknown missing => exact .refl node
  | refused ip peer found held closed => exact .manager ((PeerManager.SameRest.refl _).edit _ _ _)
  | opened ip peer session plaintext found held established outcome =>
      exact .manager (acceptFrom_sameRest _ _ _ _ _)

/-- So does what it makes of a datagram of its type. -/
theorem receiveData_keepsRest {opened : Option (Ipv4Addr × List UInt8)}
    (type : bytes.head? = some pktData)
    (long : 13 < bytes.length) (run : node.receiveData now src bytes = .ok (mid, opened)) :
    KeepsRest node mid := by
  obtain ⟨peerId, counter, ciphertext, rfl⟩ := exists_buildDataPacket type long
  obtain ⟨result, received, receives⟩ := node.receiveData_receives now src peerId counter ciphertext
  rw [received] at run
  cases run
  exact receives.keepsRest

/-- The handshake arm leaves the rest of the node. -/
theorem handleHandshake_keepsRest
    (run : node.handleHandshake now src bytes = .ok (node', effects)) :
    KeepsRest node node' := by
  simp only [handleHandshake, Rust.bind_eq_ok] at run
  obtain ⟨parsed, _, run⟩ := run
  cases parsed with
  | none =>
      cases run
      exact .refl _
  | some hs =>
      cases run
      exact .manager ((PeerManager.updateFromDiscovery_sameRest _ _ _ _ _).trans
        (PeerManager.withPeerByIp_sameRest _ _))

/-- The keepalive arm leaves the rest of the node. -/
theorem handleKeepalive_keepsRest
    (run : node.handleKeepalive now src bytes = .ok (node', effects)) :
    KeepsRest node node' := by
  simp only [handleKeepalive, Rust.bind_eq_ok] at run
  obtain ⟨peerId, _, run⟩ := run
  split at run
  · cases run
    exact .refl _
  · cases run
    refine .manager (PeerManager.SameRest.trans ?_ (PeerManager.withPeerByIp_sameRest _ _))
    split
    · exact PeerManager.updateEndpointIfRoaming_sameRest _ _
    · exact .refl _

/-- A datagram from the tunnel socket leaves the node's identity, its routes and the purged IPs. -/
theorem inbound_keepsRest (run : node.inbound now src bytes = .ok (node', effects)) :
    KeepsRest node node' := by
  unfold inbound at run
  split at run
  · cases run
    exact .refl _
  next type head =>
  split_ifs at run with handshake isData keepalive
  · exact handleHandshake_keepsRest run
  · simp only [handleData, Rust.bind_eq_ok] at run
    obtain ⟨⟨mid, opened⟩, received, run⟩ := run
    obtain ⟨rfl, long⟩ := isData
    refine (receiveData_keepsRest head long received).trans ?_
    cases opened with
    | none =>
        cases run
        exact .refl _
    | some packet => exact (deliver_delivers run).keepsRest
  · exact handleKeepalive_keepsRest run
  · cases run
    exact .refl _

/-- A peer exchange leaves the rest of the node, in whatever order it meets the table. -/
theorem TakesExchange.keepsRest (takes : node.TakesExchange now src bytes node') :
    KeepsRest node node' := by
  obtain ⟨mid, sender, plaintext, entries, pm, type, long, received, _, run, rfl⟩ := takes
  exact (receiveData_keepsRest type long received).trans (.manager run.sameRest)

/-- The listener leaves the rest of the node. -/
theorem receiveDiscovery_keepsRest (node : Node) (src : SocketAddr) (datagram : List UInt8) :
    KeepsRest node (node.receiveDiscovery src datagram) := by
  unfold receiveDiscovery
  split
  · exact .refl node
  · split
    · exact .refl node
    · exact .manager (PeerManager.updateFromDiscovery_sameRest _ _ _ _ _)

/-- Resolving the host names leaves the routes and the purged IPs. -/
theorem resolveAll_sameRest (dns : String → Option (List SocketAddr)) (pm : PeerManager) :
    pm.SameRest (resolveAll dns pm) := by
  have step (pm : PeerManager) (ip : Ipv4Addr) : pm.SameRest (resolveAgain dns pm ip) := by
    unfold resolveAgain
    split
    · exact .refl pm
    · split_ifs
      · exact .refl pm
      · split
        · exact .refl pm
        · split_ifs
          · exact PeerManager.updateEndpoint_sameRest _ _
          · exact .refl pm
  unfold resolveAll
  generalize pm.allIps = ips
  induction ips generalizing pm with
  | nil => exact .refl pm
  | cons ip ips ih => exact (step pm ip).trans (ih _)

/-- An event that reads no route file leaves the routes, the purged IPs and the node's identity. -/
theorem Step.keepsRest (step : Step node event node') (noFiles : event.files = none) :
    KeepsRest node node' := by
  cases event with
  | reorder =>
      obtain ⟨pm, reordered, rfl⟩ := step
      exact .manager reordered.rest
  | tun now packet =>
      obtain ⟨effects, run⟩ := step
      exact (outbound_transmits run).toKeepsRest
  | tunnel now src bytes =>
      rcases step with ⟨effects, run⟩ | takes
      · exact inbound_keepsRest run
      · exact takes.keepsRest
  | discovery src bytes =>
      obtain ⟨effects, run⟩ := step
      cases run
      exact node.receiveDiscovery_keepsRest src bytes
  | handshakes now =>
      obtain ⟨effects, run⟩ := step
      cases run
      exact .refl _
  | keepalives now =>
      obtain ⟨effects, run⟩ := step
      cases run
      exact .refl _
  | peerExchange now =>
      obtain ⟨effects, run⟩ := step
      have sent := (node.sendPeerExchange_transmits now).toKeepsRest
      simp only [handle, Rust.pure_eq, Except.ok.injEq] at run
      rwa [run] at sent
  | resolve dns =>
      obtain ⟨effects, run⟩ := step
      cases run
      exact .manager (resolveAll_sameRest dns _)
  | readRoutes => cases noFiles
  | reload => cases noFiles

end Node

section Reload

variable {pm : PeerManager} (dns : String → Option (List SocketAddr)) (keypair : KeyPair)
  (now : Instant)

/-- The reload of an endpoint line leaves the routes and the purged IPs. -/
theorem reloadEndpoint_sameRest (ip : Ipv4Addr) (endpoint : Option String) :
    pm.SameRest (reloadEndpoint dns pm ip endpoint) := by
  unfold reloadEndpoint
  split
  · split
    · dsimp only
      split_ifs
      · exact (PeerManager.updateEndpoint_sameRest _ _).trans
          (PeerManager.withPeerByIp_sameRest _ _)
      · exact .refl pm
    · exact .refl pm
  · exact PeerManager.clearEndpoint_sameRest _

/-- The reload of a name leaves the routes and the purged IPs. -/
theorem reloadHostname_sameRest (ip : Ipv4Addr) (name : Option String) :
    pm.SameRest (reloadHostname pm ip name) := by
  unfold reloadHostname
  dsimp only
  split_ifs
  · exact PeerManager.withPeerByIp_sameRest _ _
  · exact .refl pm

/-- The reload of an entry leaves the routes and the purged IPs. -/
theorem reloadPeer_sameRest (ips : List Ipv4Addr) (pc : PeerConfig) :
    pm.SameRest (reloadPeer dns keypair now ips pm pc) := by
  unfold reloadPeer
  split
  · split_ifs
    · exact (reloadEndpoint_sameRest dns _ _).trans (reloadHostname_sameRest _ _)
    · exact PeerManager.addPeer_sameRest _
  · exact .refl pm

/-- The routes are as they were, and the purged IPs are still so. -/
structure PeerManager.Blocks (pm pm' : PeerManager) : Prop extends KeepsRoutes pm pm' where
  purged : pm.purgedIps ⊆ pm'.purgedIps

/-- Managers that unbar no IP, one after the other. -/
theorem PeerManager.Blocks.trans {pm' pm'' : PeerManager} (first : pm.Blocks pm')
    (second : pm'.Blocks pm'') :
    pm.Blocks pm'' :=
  ⟨first.toKeepsRoutes.trans second.toKeepsRoutes, first.purged.trans second.purged⟩

/-- With the same purged IPs, no IP is unbarred. -/
theorem PeerManager.SameRest.blocks {pm' : PeerManager} (same : pm.SameRest pm') : pm.Blocks pm' :=
  ⟨same.toKeepsRoutes, same.purged.ge⟩

/-- The purge of one IP blocks that IP at most. -/
theorem reloadPurge_blocks (configuredIps : List Ipv4Addr) (configuredEndpoints : List SocketAddr)
    (ip : Ipv4Addr) : pm.Blocks (reloadPurge configuredIps configuredEndpoints now pm ip) := by
  unfold reloadPurge
  split_ifs
  · exact (PeerManager.SameRest.refl pm).blocks
  · refine ⟨PeerManager.purgePeer_keepsRoutes _, ?_⟩
    rw [PeerManager.purgePeer_purgedIps]
    exact Finset.subset_insert _ _
  · exact (PeerManager.SameRest.refl pm).blocks

/-- A loop blocks IPs at most when each of its steps does. -/
theorem foldl_blocks {Item : Type} {step : PeerManager → Item → PeerManager}
    (each : ∀ (pm : PeerManager) item, pm.Blocks (step pm item)) (pm : PeerManager)
    (items : List Item) :
    pm.Blocks (items.foldl step pm) := by
  induction items generalizing pm with
  | nil => exact (PeerManager.SameRest.refl pm).blocks
  | cons item items ih => exact (each pm item).trans (ih _)

/-- A reload reads the route files after loops that block IPs at most. -/
theorem reloadPeers_reads (pm : PeerManager) (newConfig : Config)
    (routes subnetRoutes : RouteFile) :
    ∃ pm', pm.Blocks pm' ∧ reloadPeers dns keypair now pm newConfig routes subnetRoutes =
      (pm'.loadRoutes routes).loadSubnetRoutes subnetRoutes := by
  have loaded : pm.Blocks (newConfig.peers.foldl (reloadPeer dns keypair now pm.allIps) pm) :=
    foldl_blocks (fun pm' pc => (reloadPeer_sameRest dns keypair now _ pc).blocks) pm _
  exact ⟨_, loaded.trans (foldl_blocks (fun pm' ip => reloadPurge_blocks now _ _ ip) _ _), rfl⟩

/-- The route files unbar no IP. -/
theorem loadFiles_purgedIps (routes subnetRoutes : RouteFile) :
    ((pm.loadRoutes routes).loadSubnetRoutes subnetRoutes).purgedIps = pm.purgedIps := by
  cases routes <;> cases subnetRoutes <;> rfl

end Reload

namespace Node

variable {node node' : Node} {event : Event}

/-- An event that reads the route files does so after changes that block IPs at most. -/
theorem Step.reads {routes subnetRoutes : RouteFile} (step : Step node event node')
    (files : event.files = some (routes, subnetRoutes)) : ∃ pm, node.peerManager.Blocks pm ∧
      node' = node.withManager ((pm.loadRoutes routes).loadSubnetRoutes subnetRoutes) := by
  cases event with
  | readRoutes =>
      obtain ⟨effects, run⟩ := step
      cases files
      cases run
      exact ⟨_, (PeerManager.SameRest.refl _).blocks, rfl⟩
  | reload dns now newConfig =>
      obtain ⟨effects, run⟩ := step
      cases files
      cases run
      obtain ⟨pm, blocks, loaded⟩ := reloadPeers_reads dns node.keypair now node.peerManager newConfig
        routes subnetRoutes
      exact ⟨pm, blocks, by rw [loaded]⟩
  | _ => cases files

/-- No event unblocks an IP. -/
theorem Step.purgedIps_subset (step : Step node event node') :
    node.peerManager.purgedIps ⊆ node'.peerManager.purgedIps := by
  cases files : event.files with
  | none => exact (step.keepsRest files).rest.purged.ge
  | some pair =>
      obtain ⟨pm, blocks, rfl⟩ := step.reads files
      rw [withManager_peerManager, loadFiles_purgedIps]
      exact blocks.purged

/-- The node's own identity. -/
structure SameSelf (node node' : Node) : Prop where
  wolfnetIp : node'.wolfnetIp = node.wolfnetIp
  keypair : node'.keypair = node.keypair
  config : node'.config = node.config
  hostname : node'.hostname = node.hostname

/-- A node has its own identity. -/
theorem SameSelf.refl (node : Node) : SameSelf node node := ⟨rfl, rfl, rfl, rfl⟩

/-- Nodes with one identity, one after the other. -/
theorem SameSelf.trans {mid : Node} (first : SameSelf node mid) (second : SameSelf mid node') :
    SameSelf node node' where
  wolfnetIp := second.wolfnetIp.trans first.wolfnetIp
  keypair := second.keypair.trans first.keypair
  config := second.config.trans first.config
  hostname := second.hostname.trans first.hostname

/-- No event changes who the node is. -/
theorem Step.sameSelf (step : Step node event node') : SameSelf node node' := by
  cases files : event.files with
  | none =>
      have keeps := step.keepsRest files
      exact ⟨keeps.wolfnetIp, keeps.keypair, keeps.config, keeps.hostname⟩
  | some pair =>
      obtain ⟨pm, _, rfl⟩ := step.reads files
      exact ⟨rfl, rfl, rfl, rfl⟩

end Node
end WolfNet
