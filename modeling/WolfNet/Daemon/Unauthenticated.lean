import WolfNet.Daemon.Receive
import WolfNet.Daemon.Reload
import WolfNet.Table.Ops

/-!
# Datagrams without a secret

Only a data packet proves that its sender holds a key. Handshakes, keepalives and
discovery broadcasts edit the table on the strength of the bytes they carry:
`undisturbed` states which of them must not arrive for the configured peers to stay as
they are.
-/

namespace WolfNet

open WolfNet.Std WolfNet.Semantics

section Runs

variable [Crates]

/-- The keys and IPs of the config's peers. -/
def Config.identities (config : Config) : List (PublicKey × Ipv4Addr) :=
  config.peers.filterMap PeerConfig.identity

/-- The IPs whose records a discovery rewrites: the one it names, and where it finds the
key if the one it names does not have it. -/
def PeerManager.discoveryTargets (pm : PeerManager) (publicKey : PublicKey) (ip : Ipv4Addr) :
    List Ipv4Addr :=
  if (pm.peersByIp.get ip).any fun peer => peer.publicKey.Same publicKey then [ip]
  else ip :: (pm.findIpByKey publicKey).toList

namespace Node

/-- A datagram that reaches one of the daemon's sockets, or a change of the order in which
the table is met. -/
inductive Arrival where
  | reorder
  | tunnel (now : Instant) (src : SocketAddr) (bytes : List UInt8)
  | discovery (src : SocketAddr) (bytes : List UInt8)

/-- A datagram is no data packet that opens. -/
def DoesNotOpen (node : Node) (now : Instant) (src : SocketAddr) (bytes : List UInt8) : Prop :=
  bytes.head? = some pktData → 13 < bytes.length → ∀ node' opened,
    node.receiveData now src bytes = .ok (node', opened) → opened = none

/-- The daemon takes a datagram that holds no proof of a secret. -/
def Unauthenticated : Transition Node Arrival
  | node, .reorder, node' => ∃ pm, PeerManager.Reordered node.peerManager pm ∧
    node' = node.withManager pm
  | node, .tunnel now src bytes, node' => node.DoesNotOpen now src bytes ∧
    ∃ effects, node.inbound now src bytes = .ok (node', effects)
  | node, .discovery src bytes, node' => node' = node.receiveDiscovery src bytes

/-- The table holds a peer of the config at its IP, under its key. -/
structure Loaded (node : Node) (ip : Ipv4Addr) (peer : Peer) : Prop where
  configured : (peer.publicKey, ip) ∈ node.config.identities
  held : node.peerManager.peersByIp.get ip = some peer

/-- Each configured peer is still at its IP with its key, session, endpoint and time of
last contact. -/
structure Undisturbed (start node : Node) : Prop where
  config : node.config = start.config
  peers : ∀ ip peer, start.Loaded ip peer → ∃ peer', node.Loaded ip peer' ∧
    peer'.publicKey = peer.publicKey ∧ peer'.cipher = peer.cipher ∧
    peer'.endpoint = peer.endpoint ∧ peer'.lastSeen = peer.lastSeen

/-- No configured peer is at any of the IPs. -/
def Avoids (node : Node) (targets : List Ipv4Addr) : Prop :=
  ∀ ip ∈ targets, ∀ peer, ¬node.Loaded ip peer

/-- A handshake names no configured peer by IP or key, a keepalive does not lead to one,
and a broadcast names one only at its own IP with the endpoint it has, unless that is
configured. -/
def Spares (node : Node) : Arrival → Prop
  | .reorder => True
  | .tunnel _ src bytes =>
    (∀ hs, parseHandshake bytes = .ok (some hs) →
      node.Avoids (node.peerManager.discoveryTargets hs.publicKey hs.wolfnetIp)) ∧
    (bytes.head? = some pktKeepalive → ∀ peerId, array bytes 1 4 = .ok peerId →
      node.Avoids (node.peerManager.findIpByEndpointOrId src peerId).toList)
  | .discovery src bytes => ∀ message,
    (fromUtf8 (bytes.take 512)).bind parseDiscovery = some message →
    message.nodeId ≠ node.hostname →
      (∃ peer, node.peerManager.peersByIp.get message.wolfnetIp = some peer ∧
        peer.publicKey.Same message.publicKey ∧ (peer.configuredEndpoint ≠ none ∨
          peer.endpoint = some (.new src.ip message.listenPort))) ∨
      node.Avoids (node.peerManager.discoveryTargets message.publicKey message.wolfnetIp)

variable {node node' : Node}

/-- A node is undisturbed at first. -/
theorem Undisturbed.refl (node : Node) : Undisturbed node node :=
  ⟨rfl, fun _ peer loaded => ⟨peer, loaded, rfl, rfl, rfl, rfl⟩⟩

/-- Steps that disturb nothing, one after the other. -/
theorem Undisturbed.trans {first second third : Node} (before : Undisturbed first second)
    (after : Undisturbed second third) : Undisturbed first third := by
  refine ⟨after.config.trans before.config, fun ip peer loaded => ?_⟩
  obtain ⟨middle, loadedMiddle, key, cipher, endpoint, lastSeen⟩ := before.peers ip peer loaded
  obtain ⟨final, loadedFinal, key', cipher', endpoint', lastSeen'⟩ :=
    after.peers ip middle loadedMiddle
  exact ⟨final, loadedFinal, key'.trans key, cipher'.trans cipher, endpoint'.trans endpoint,
    lastSeen'.trans lastSeen⟩

/-- A manager that keeps the records of the configured peers disturbs none of them. -/
theorem Undisturbed.of_kept {pm : PeerManager}
    (kept : ∀ ip peer, node.Loaded ip peer → pm.peersByIp.get ip = some peer) :
    Undisturbed node (node.withManager pm) :=
  ⟨rfl, fun ip peer loaded => ⟨peer, ⟨loaded.configured, kept ip peer loaded⟩, rfl, rfl, rfl, rfl⟩⟩

/-- A manager that differs only at IPs without a configured peer disturbs none. -/
theorem Undisturbed.of_avoids {pm : PeerManager} {targets : List Ipv4Addr}
    (avoids : node.Avoids targets)
    (frame : ∀ other, other ∉ targets →
      pm.peersByIp.get other = node.peerManager.peersByIp.get other) :
    Undisturbed node (node.withManager pm) := by
  refine .of_kept fun ip peer loaded => ?_
  have elsewhere : ip ∉ targets := fun member => avoids ip member peer loaded
  rw [frame ip elsewhere]
  exact loaded.held

/-- An edit that keeps a record's session, endpoint and time of last contact disturbs no
configured peer. -/
theorem Undisturbed.of_edits {pm : PeerManager} {ip : Ipv4Addr} {old new : Peer}
    (edits : PeerManager.Edits node.peerManager pm ip old new) (cipher : new.cipher = old.cipher)
    (endpoint : new.endpoint = old.endpoint) (lastSeen : new.lastSeen = old.lastSeen) :
    Undisturbed node (node.withManager pm) := by
  refine ⟨rfl, fun other peer loaded => ?_⟩
  by_cases here : other = ip
  · subst here
    cases loaded.held.symm.trans edits.held
    refine ⟨new, ⟨?_, ?_⟩, edits.publicKey, cipher, endpoint, lastSeen⟩
    · rw [edits.publicKey]
      exact loaded.configured
    · rw [withManager_peerManager, edits.peers, if_pos rfl]
  · refine ⟨peer, ⟨loaded.configured, ?_⟩, rfl, rfl, rfl, rfl⟩
    rw [withManager_peerManager, edits.peers, if_neg here]
    exact loaded.held

/-- A discovery leaves the records at all other IPs as they are. -/
theorem updateFromDiscovery_frame (pm : PeerManager) (publicKey : PublicKey)
    (endpoint : SocketAddr) (ip : Ipv4Addr) (hostname : String) (isGateway : Bool)
    {other : Ipv4Addr} (elsewhere : other ∉ pm.discoveryTargets publicKey ip) :
    (pm.updateFromDiscovery publicKey endpoint ip hostname isGateway).peersByIp.get other =
      pm.peersByIp.get other := by
  unfold PeerManager.discoveryTargets at elsewhere
  have notTarget : other ≠ ip := by
    rintro rfl
    split at elsewhere <;> simp at elsewhere
  cases pm.updateFromDiscovery_discovers publicKey endpoint ip hostname isGateway with
  | refreshed peer keyed unpinned moves => rw [moves.peers, if_neg notTarget]
  | pinned peer keyed pinned touches => rw [touches.peers, if_neg notTarget]
  | migrated oldIp peer _ held keyed search foreign replaces =>
      have absent :
          (pm.peersByIp.get ip).any (fun peer => peer.publicKey.Same publicKey) = false := by
        cases there : pm.peersByIp.get ip with
        | none => rfl
        | some occupant => simpa using foreign occupant there
      have notSource : oldIp ≠ other := by
        rintro rfl
        simp [absent, search] at elsewhere
      rw [replaces.peers, if_neg notTarget, if_neg (by simpa using notSource)]
  | inserted unknown replaces =>
      rw [replaces.peers, if_neg notTarget, if_neg (by simpa using Ne.symm notTarget)]

/-- A change by name at an IP leaves the records at all other IPs as they are. -/
theorem withPeerByIp_frame (pm : PeerManager) (ip : Ipv4Addr) (f : Peer → Peer) {other : Ipv4Addr}
    (elsewhere : other ≠ ip) :
    (pm.withPeerByIp ip f).peersByIp.get other = pm.peersByIp.get other := by
  unfold PeerManager.withPeerByIp
  split
  · rw [HashMap.get_insert_of_ne _ _ elsewhere]
  · rfl

/-- Roaming touches no other IP. -/
theorem updateEndpointIfRoaming_frame (pm : PeerManager) (ip : Ipv4Addr) (addr : SocketAddr)
    {other : Ipv4Addr} (elsewhere : other ≠ ip) :
    (pm.updateEndpointIfRoaming ip addr).1.peersByIp.get other = pm.peersByIp.get other := by
  rcases @PeerManager.updateEndpointIfRoaming_cases _ pm ip addr with ⟨_, same⟩ | ⟨_, _, moves⟩
  · rw [same]
  · rw [moves.peers, if_neg elsewhere]

/-- A handshake that spares the configured peers leaves them. -/
theorem handleHandshake_undisturbed {now : Instant} {src : SocketAddr} {bytes : List UInt8}
    {effects : List Effect}
    (spares : ∀ hs, parseHandshake bytes = .ok (some hs) →
      node.Avoids (node.peerManager.discoveryTargets hs.publicKey hs.wolfnetIp))
    (run : node.handleHandshake now src bytes = .ok (node', effects)) : Undisturbed node node' := by
  simp only [handleHandshake, Rust.bind_eq_ok] at run
  obtain ⟨parsed, parse, rest⟩ := run
  cases parsed with
  | none =>
      cases rest
      exact .refl node
  | some hs =>
      simp only [Rust.pure_eq, Except.ok.injEq, Prod.mk.injEq] at rest
      obtain ⟨rfl, _⟩ := rest
      refine .of_avoids (spares hs parse) fun other elsewhere => ?_
      have notTarget : other ≠ hs.wolfnetIp := by
        rintro rfl
        unfold PeerManager.discoveryTargets at elsewhere
        split at elsewhere <;> simp at elsewhere
      rw [withPeerByIp_frame _ _ _ notTarget, updateFromDiscovery_frame _ _ _ _ _ _ elsewhere]

/-- A data packet that does not open leaves them. -/
theorem handleData_undisturbed {now : Instant} {src : SocketAddr} {bytes : List UInt8}
    {effects : List Effect} (head : bytes.head? = some pktData) (long : 13 < bytes.length)
    (closed : node.DoesNotOpen now src bytes)
    (run : node.handleData now src bytes = .ok (node', effects)) : Undisturbed node node' := by
  obtain ⟨peerId, counter, ciphertext, rfl⟩ := exists_buildDataPacket head long
  obtain ⟨⟨received, opened⟩, receiving, receives⟩ :=
    node.receiveData_receives now src peerId counter ciphertext
  have refused := closed head long received opened receiving
  subst refused
  simp only [handleData, receiving, Rust.ok_bind, Rust.pure_eq, Except.ok.injEq,
    Prod.mk.injEq] at run
  obtain ⟨rfl, _⟩ := run
  cases receives with
  | unknown missing => exact .refl _
  | refused ip peer found held closed =>
      refine .of_kept fun other record loaded => ?_
      rw [HashMap.get_insert]
      split
      · next here => rw [← held, ← here, loaded.held]
      · exact loaded.held

/-- A keepalive that spares the configured peers leaves them. -/
theorem handleKeepalive_undisturbed {now : Instant} {src : SocketAddr} {bytes : List UInt8}
    {effects : List Effect}
    (spares : ∀ peerId, array bytes 1 4 = .ok peerId →
      node.Avoids (node.peerManager.findIpByEndpointOrId src peerId).toList)
    (run : node.handleKeepalive now src bytes = .ok (node', effects)) : Undisturbed node node' := by
  simp only [handleKeepalive, Rust.bind_eq_ok] at run
  obtain ⟨peerId, header, rest⟩ := run
  cases found : node.peerManager.findIpByEndpointOrId src peerId with
  | none =>
      simp only [found, Rust.pure_eq, Except.ok.injEq, Prod.mk.injEq] at rest
      rw [← rest.1]
      exact .refl node
  | some ip =>
      simp only [found, Rust.pure_eq, Except.ok.injEq, Prod.mk.injEq] at rest
      rw [← rest.1]
      refine .of_avoids (spares peerId header) fun other elsewhere => ?_
      have notTarget : other ≠ ip := by simpa [found] using elsewhere
      rw [withPeerByIp_frame _ _ _ notTarget]
      split
      · exact updateEndpointIfRoaming_frame _ _ _ notTarget
      · rfl

/-- A broadcast that spares the configured peers leaves them. -/
theorem receiveDiscovery_undisturbed {src : SocketAddr} {bytes : List UInt8}
    (spares : node.Spares (.discovery src bytes)) :
    Undisturbed node (node.receiveDiscovery src bytes) := by
  unfold receiveDiscovery
  split
  · exact .refl node
  next message parse =>
  split
  · exact .refl node
  next foreign =>
  rcases spares message parse foreign with ⟨peer, held, keyed, same⟩ | avoids
  · cases PeerManager.updateFromDiscovery_discovers node.peerManager message.publicKey
      (.new src.ip message.listenPort) message.wolfnetIp message.hostname message.isGateway with
    | refreshed record _ unpinned moves =>
        cases held.symm.trans moves.held
        rcases same with pinned | placed
        · exact absurd unpinned pinned
        · exact .of_edits moves.toEdits rfl placed.symm rfl
    | pinned record _ _ touches =>
        cases held.symm.trans touches.held
        exact .of_edits touches.toEdits rfl rfl rfl
    | migrated oldIp record _ _ _ _ foreignKey _ => exact absurd keyed (foreignKey peer held)
    | inserted unknown _ => exact absurd keyed (unknown _ peer held)
  · exact .of_avoids avoids fun other elsewhere => updateFromDiscovery_frame _ _ _ _ _ _ elsewhere

/-- A datagram that spares the configured peers disturbs none of them. -/
theorem Unauthenticated.keeps {arrival : Arrival} (spares : node.Spares arrival)
    (transition : Unauthenticated node arrival node') : Undisturbed node node' := by
  cases arrival with
  | reorder =>
      obtain ⟨pm, reordered, rfl⟩ := transition
      exact .of_kept fun ip peer loaded => (reordered.peers ip).trans loaded.held
  | discovery src bytes =>
      cases transition
      exact receiveDiscovery_undisturbed spares
  | tunnel now src bytes =>
      obtain ⟨closed, effects, run⟩ := transition
      unfold inbound at run
      split at run
      · cases run
        exact .refl node
      next type head =>
      split_ifs at run with handshake isData keepalive
      · exact handleHandshake_undisturbed spares.1 run
      · exact handleData_undisturbed (isData.1 ▸ head) isData.2 closed run
      · exact handleKeepalive_undisturbed (spares.2 (keepalive.1 ▸ head)) run
      · cases run
        exact .refl node

/-- In every run of datagrams without a secret that spare the configured peers, each of
these stays in the table at its IP with its key, session, endpoint and time of last
contact. -/
theorem undisturbed {start last : Node} {trace : List (Node × Arrival)}
    (run : Run Unauthenticated start trace last) (spares : Throughout Spares trace) :
    Always (Undisturbed start) trace last :=
  run.relates .refl .trans Unauthenticated.keeps spares

end Node
end Runs

namespace Node

section Sample

attribute [local instance] Sample.crates

/-- A sample node with one configured peer, to which it has sent seven packets. -/
def guardedNode : Node :=
  let node := Sample.node 1 false (PeerManager.new.addPeer { Sample.record 1 2 with
    cipher := some { Sample.session 1 2 with sendCounter := 7 } })
  { node with config := { node.config with
      peers := [⟨Crates.base64Encode (Sample.keypair 2).publicKey.1, none, "10.10.10.2", none⟩] } }

/-- The config of the guarded node lists one peer. -/
theorem guardedNode_identities :
    guardedNode.config.identities = [((Sample.keypair 2).publicKey, ⟨10, 10, 10, 2⟩)] := by
  decide

def strangerSource : SocketAddr := .v4 ⟨198, 51, 100, 9⟩ 4444

/-- A handshake packet with a sample key that names an IP, without a host name. -/
def strangerHandshake (byte octet : UInt8) : List UInt8 :=
  [pktHandshake] ++ (Sample.keypair byte).publicKey.1 ++ [10, 10, 10, octet, 0x80, 0x25, 0]

/-- The guarded node after a handshake. -/
def afterHandshake (byte octet : UInt8) : Node :=
  match guardedNode.inbound 5 strangerSource (strangerHandshake byte octet) with
  | .ok (node, _) => node
  | .error _ => guardedNode

/-- The stranger's handshake is no data packet that opens. -/
theorem handshake_doesNotOpen (byte octet : UInt8) :
    guardedNode.DoesNotOpen 5 strangerSource (strangerHandshake byte octet) := by
  intro head
  exact absurd head (by simp [strangerHandshake, pktHandshake, pktData])

/-- A handshake with a key and an IP that the config does not list. -/
theorem undisturbed_sample :
    Always (Undisturbed guardedNode)
      [(guardedNode, Arrival.tunnel 5 strangerSource (strangerHandshake 3 3))]
        (afterHandshake 3 3) := by
  have run : Run Unauthenticated guardedNode
      [(guardedNode, Arrival.tunnel 5 strangerSource (strangerHandshake 3 3))]
        (afterHandshake 3 3) :=
    Run.refl.step ⟨handshake_doesNotOpen 3 3, _, rfl⟩
  refine undisturbed run ?_
  simp only [Throughout, List.forall_mem_singleton]
  constructor
  · intro hs parse ip target peer loaded
    have targets : ∀ hs, parseHandshake (strangerHandshake 3 3) = .ok (some hs) →
        guardedNode.peerManager.discoveryTargets hs.publicKey hs.wolfnetIp =
          [⟨10, 10, 10, 3⟩] := by
      rintro _ ⟨⟩
      rfl
    rw [targets hs parse, List.mem_singleton] at target
    have configured := loaded.configured
    rw [guardedNode_identities, target] at configured
    simp at configured
  · intro head
    exact absurd head (by decide)

/-- A handshake with the configured peer's own public key and IP, from anywhere, resets its
session. -/
theorem session_reset_by_stranger :
    Run Unauthenticated guardedNode
      [(guardedNode, Arrival.tunnel 5 strangerSource (strangerHandshake 2 2))]
        (afterHandshake 2 2) ∧
    ¬Always (Undisturbed guardedNode)
      [(guardedNode, Arrival.tunnel 5 strangerSource (strangerHandshake 2 2))]
        (afterHandshake 2 2) := by
  refine ⟨Run.refl.step ⟨handshake_doesNotOpen 2 2, _, rfl⟩, ?_⟩
  rintro ⟨_, disturbed⟩
  obtain ⟨peer, ⟨_, held⟩, _, cipher, _⟩ := disturbed.peers ⟨10, 10, 10, 2⟩ _
    ⟨by rw [guardedNode_identities]; exact List.mem_singleton_self _, rfl⟩
  have reset : ((afterHandshake 2 2).peerManager.peersByIp.get ⟨10, 10, 10, 2⟩).bind Peer.cipher =
      some (Sample.session 1 2) := rfl
  rw [held, Option.bind_some, cipher] at reset
  exact absurd reset (by decide)

end Sample
end Node
end WolfNet
