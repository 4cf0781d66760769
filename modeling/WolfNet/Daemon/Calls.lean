import WolfNet.Daemon.Events
import WolfNet.Daemon.Sending

/-!
# Calls of the manager

The main loop and the discovery listener share the manager, and each call of it takes and releases
its lock. Between two calls of the main loop the listener may take a broadcast in, so that the
arguments of a call may be out of date. `Interleaves` is one call by either thread; an event of the
main loop is a run of calls, and what every run of calls keeps holds however the threads are
scheduled.
-/

namespace WolfNet

open WolfNet.Std WolfNet.Semantics PeerManager

variable [Crates]

/-- Decryption in place leaves the record, or counts a packet that its session opened. -/
theorem Peer.decryptInto_cases {peer next : Peer} {counter : UInt64} {buf buf' : List UInt8}
    {len : Nat} {now : Instant} {result : Except String Nat}
    (run : peer.decryptInto counter buf len now = .ok (next, buf', result)) :
    next = peer ∨ ∃ session plaintextLen, peer.cipher = some session ∧
      next = peer.received (session.accepted counter) plaintextLen now := by
  unfold decryptInto at run
  split at run
  · cases run
    exact Or.inl rfl
  next session established =>
  have kept : ({ peer with cipher := some session } : Peer) = peer := by rw [← established]
  simp only [Rust.bind_eq_ok] at run
  obtain ⟨⟨session', buf, result⟩, inner, run⟩ := run
  unfold SessionCipher.decryptInto at inner
  split_ifs at inner
  · cases inner
    cases run
    exact Or.inl kept
  · cases inner
    cases run
    exact Or.inl kept
  · simp only [Rust.bind_eq_ok] at inner
    obtain ⟨tag, _, body, _, inner⟩ := inner
    split at inner
    · cases inner
      cases run
      exact Or.inr ⟨session, len - 16, established, rfl⟩
    · cases inner
      cases run
      exact Or.inl kept

namespace Node

/-- A call of the manager by one of the two threads, with what it was called with. -/
inductive Call where
  | reorder
  | addPeer (dns : String → Option (List SocketAddr)) (now : Instant) (pc : PeerConfig)
      (publicKey : PublicKey) (ip : Ipv4Addr)
  | purgePeer (ip : Ipv4Addr)
  | updateEndpoint (ip : Ipv4Addr) (addr : SocketAddr)
  | configureEndpoint (ip : Ipv4Addr) (line : String)
  | clearEndpoint (ip : Ipv4Addr)
  | rename (ip : Ipv4Addr) (hostname : String)
  | updateEndpointIfRoaming (ip : Ipv4Addr) (src : SocketAddr)
  | updateFromDiscovery (publicKey : PublicKey) (endpoint : SocketAddr) (ip : Ipv4Addr)
      (hostname : String) (isGateway : Bool)
  | addFromPex (now : Instant) (entries : List PexEntry) (sender : Ipv4Addr)
  | encryptAndSend (now : Instant) (ip : Ipv4Addr) (plaintext : List UInt8)
  | exchangeWith (now : Instant) (ip : Ipv4Addr) (packet : List UInt8)
  | decryptInto (now : Instant) (ip : Ipv4Addr) (counter : UInt64) (buf : List UInt8) (len : Nat)
  | establishSession (now : Instant) (ip : Ipv4Addr)
  | sawPeer (now : Instant) (ip : Ipv4Addr)
  | loadRoutes (file : RouteFile)
  | loadSubnetRoutes (file : RouteFile)

/-- The record at an IP after an attempt to decrypt a packet with it. -/
def Decrypts (pm : PeerManager) (now : Instant) (ip : Ipv4Addr) (counter : UInt64)
    (buf : List UInt8) (len : Nat) (pm' : PeerManager) : Prop :=
  (pm.peersByIp.get ip = none ∧ pm' = pm) ∨ ∃ peer next buf' result,
    pm.peersByIp.get ip = some peer ∧ peer.decryptInto counter buf len now =
      .ok (next, buf', result) ∧ pm' = { pm with peersByIp := pm.peersByIp.insert ip next }

/-- The manager after a call by the node. -/
def Performs (node : Node) (pm' : PeerManager) : Call → Prop
  | .reorder => Reordered node.peerManager pm'
  | .addPeer dns now pc publicKey ip =>
    pm' = node.peerManager.addPeer (configuredPeer dns node.keypair now pc publicKey ip)
  | .purgePeer ip => pm' = node.peerManager.purgePeer ip
  | .updateEndpoint ip addr => pm' = node.peerManager.updateEndpoint ip addr
  | .configureEndpoint ip line => pm' = node.peerManager.withPeerByIp ip fun peer =>
      { peer with configuredEndpoint := some line }
  | .clearEndpoint ip => pm' = (node.peerManager.clearEndpoint ip).1
  | .rename ip hostname => pm' = node.peerManager.withPeerByIp ip fun peer =>
      { peer with hostname := hostname }
  | .updateEndpointIfRoaming ip src => pm' = (node.peerManager.updateEndpointIfRoaming ip src).1
  | .updateFromDiscovery publicKey endpoint ip hostname isGateway =>
    pm' = node.peerManager.updateFromDiscovery publicKey endpoint ip hostname isGateway
  | .addFromPex now entries sender =>
    ExchangeRun sender node.wolfnetIp node.keypair now entries node.peerManager pm'
  | .encryptAndSend now ip plaintext => ∃ effects sent,
    node.sendToPeer ip plaintext now = .ok (node.withManager pm', effects, sent)
  | .exchangeWith now ip packet => node.withManager pm' = (node.exchangeWith packet now ip).1
  | .decryptInto now ip counter buf len => Decrypts node.peerManager now ip counter buf len pm'
  | .establishSession now ip => pm' = node.peerManager.withPeerByIp ip fun peer =>
      { peer.establishSession node.keypair.secret node.keypair.publicKey now with
        lastSeen := some now }
  | .sawPeer now ip => pm' = node.peerManager.withPeerByIp ip fun peer =>
      { peer with lastSeen := some now }
  | .loadRoutes file => pm' = node.peerManager.loadRoutes file
  | .loadSubnetRoutes file => pm' = node.peerManager.loadSubnetRoutes file

end Node

/-- The daemon between two calls. `placed` is the IP whose endpoint the main loop has just set,
until it calls the manager again. -/
structure Midway where
  node : Node
  placed : Option Ipv4Addr

namespace Node

/-- What a call leaves of the IP whose endpoint the main loop has just set. The listener's calls
leave it. -/
def Call.placing (placed : Option Ipv4Addr) : Call → Option Ipv4Addr
  | .updateEndpoint ip _ => some ip
  | .updateFromDiscovery .. | .reorder => placed
  | _ => none

/-- The IP whose endpoint the main loop has set just before it makes the call. -/
def Call.follows : Call → Option Ipv4Addr
  | .configureEndpoint ip _ => some ip
  | _ => none

/-- One call by either thread. -/
inductive Interleaves : Transition Midway Call where
  | call {node : Node} {placed : Option Ipv4Addr} {call : Call} {pm : PeerManager}
      (performs : node.Performs pm call)
      (ordered : ∀ ip, call.follows = some ip → placed = some ip) :
      Interleaves ⟨node, placed⟩ call ⟨node.withManager pm, call.placing placed⟩

/-- The reading of the clock that a call makes. -/
def Call.now : Call → Option Instant
  | .addPeer _ now .. | .addFromPex now .. | .encryptAndSend now .. | .exchangeWith now ..
  | .decryptInto now .. | .establishSession now _ | .sawPeer now _ => some now
  | _ => none

/-- The call reads the clock at the time, if it does. -/
def Call.At (time : Instant) (call : Call) : Prop := ∀ now, call.now = some now → now = time

omit [Crates] in
/-- A call that reads no clock, or reads the time, reads it at that time. -/
theorem Call.At.of_reads {call : Call} {now : Instant}
    (reads : call.now = none ∨ call.now = some now) : call.At now := by
  intro reading read
  rcases reads with none | some
  · cases none.symm.trans read
  · cases some.symm.trans read
    rfl

/-- Calls at one reading of the clock lead from one node to the other. -/
def Reaches (now : Instant) (node node' : Node) : Prop :=
  ∀ placed, ∃ trace placed', Run Interleaves ⟨node, placed⟩ trace ⟨node', placed'⟩ ∧
    Throughout (fun _ call => call.At now) trace

/-- The reading of the clock that an event makes. -/
def Event.now : Event → Option Instant
  | .tun now _ | .tunnel now _ _ | .handshakes now | .keepalives now | .peerExchange now => some now
  | .reload _ now _ _ _ => some now
  | .reorder | .discovery _ _ | .resolve _ | .readRoutes _ _ => none

variable {node mid node' : Node} {now : Instant} {pm : PeerManager}

namespace Reaches

/-- A node reaches itself without a call. -/
theorem refl (now : Instant) (node : Node) : Reaches now node node :=
  fun placed => ⟨[], placed, .refl, .nil⟩

/-- Runs of calls compose. -/
theorem trans (first : Reaches now node mid) (second : Reaches now mid node') :
    Reaches now node node' := by
  intro placed
  obtain ⟨trace, placed', run, here⟩ := first placed
  obtain ⟨later, placed'', rest, there⟩ := second placed'
  exact ⟨trace ++ later, placed'', run.trans rest, throughout_append.mpr ⟨here, there⟩⟩

/-- A call that needs no other call before it. -/
theorem single (call : Call) (performs : node.Performs pm call) (free : call.follows = none)
    (reads : call.now = none ∨ call.now = some now) : Reaches now node (node.withManager pm) := by
  intro placed
  have step : Interleaves ⟨node, placed⟩ call ⟨node.withManager pm, call.placing placed⟩ :=
    .call performs fun ip follows => by cases free.symm.trans follows
  exact ⟨_, _, Run.refl.step step, throughout_snoc.mpr ⟨.nil, .of_reads reads⟩⟩

/-- The main loop sets an endpoint, and then writes its line. -/
theorem configure (now : Instant) (node : Node) (ip : Ipv4Addr) (addr : SocketAddr)
    (line : String) :
    Reaches now node (node.withManager ((node.peerManager.updateEndpoint ip addr).withPeerByIp ip
      fun peer => { peer with configuredEndpoint := some line })) := by
  intro placed
  have sets : node.Performs _ (.updateEndpoint ip addr) := rfl
  have first : Interleaves ⟨node, placed⟩ _ _ := .call sets fun _ follows => by cases follows
  have writes : (node.withManager (node.peerManager.updateEndpoint ip addr)).Performs _
      (.configureEndpoint ip line) := rfl
  have second : Interleaves ⟨_, some ip⟩ _ _ := .call writes fun _ follows => follows
  exact ⟨_, _, (Run.refl.step first).step second, throughout_snoc.mpr
    ⟨throughout_snoc.mpr ⟨.nil, .of_reads (Or.inl rfl)⟩, .of_reads (Or.inl rfl)⟩⟩

/-- What a loop over some IPs calls for each of them. -/
theorem fold {Item : Type} (now : Instant) (node : Node) (items : List Item)
    {f : PeerManager → Item → PeerManager} (each : ∀ pm, ∀ item ∈ items,
      Reaches now (node.withManager pm) (node.withManager (f pm item))) (pm : PeerManager) :
    Reaches now (node.withManager pm) (node.withManager (items.foldl f pm)) :=
  List.foldlRecOn (motive := fun pm' => Reaches now (node.withManager pm) (node.withManager pm'))
    items f (.refl now _) fun pm' reached item member => reached.trans (each pm' item member)

end Reaches

section Arms

variable {src : SocketAddr} {bytes plaintext : List UInt8} {sender ip : Ipv4Addr}
  {effects : List Effect} {sent : Bool}

/-- A discovery is one call. -/
theorem reaches_discovery (now : Instant) (node : Node) (publicKey : PublicKey)
    (endpoint : SocketAddr) (ip : Ipv4Addr) (hostname : String) (isGateway : Bool) :
    Reaches now node (node.withManager
      (node.peerManager.updateFromDiscovery publicKey endpoint ip hostname isGateway)) :=
  .single (.updateFromDiscovery publicKey endpoint ip hostname isGateway) rfl rfl (Or.inl rfl)

/-- Roaming is one call. -/
theorem reaches_roaming (now : Instant) (node : Node) (ip : Ipv4Addr) (src : SocketAddr) :
    Reaches now node (node.withManager (node.peerManager.updateEndpointIfRoaming ip src).1) :=
  .single (.updateEndpointIfRoaming ip src) rfl rfl (Or.inl rfl)

/-- The entries of a peer exchange are taken in one call. -/
theorem reaches_exchange {entries : List PexEntry}
    (run : ExchangeRun sender node.wolfnetIp node.keypair now entries node.peerManager pm) :
    Reaches now node (node.withManager pm) :=
  .single (.addFromPex now entries sender) run rfl (Or.inr rfl)

/-- Sending to a peer is one call, or none where the table has no record of it. -/
theorem reaches_sendToPeer
    (run : node.sendToPeer ip plaintext now = .ok (node', effects, sent)) :
    Reaches now node node' := by
  have same : node' = node.withManager node'.peerManager := by
    rcases sendToPeer_cases run with ⟨rfl, _⟩ | ⟨_, _, _, _, _, rfl⟩ <;> rfl
  rw [same] at run ⊢
  exact .single (.encryptAndSend now ip plaintext) ⟨effects, sent, run⟩ rfl (Or.inr rfl)

/-- Whatever way a packet takes, it takes it by calls. -/
theorem sendRule_reaches (packet : List UInt8) (now : Instant) :
    SendRule (fun node _ node' => Reaches now node node') packet now where
  nothing node := .refl now node
  append := Reaches.trans
  send := reaches_sendToPeer

/-- Telling one peer of the others is one call, or none. -/
theorem reaches_exchangeWith (now : Instant) (node : Node) (packet : List UInt8) (ip : Ipv4Addr) :
    Reaches now node (node.exchangeWith packet now ip).1 := by
  have same : (node.exchangeWith packet now ip).1 =
      node.withManager (node.exchangeWith packet now ip).1.peerManager := by
    unfold exchangeWith
    split
    · rfl
    · split
      · dsimp only
        split <;> rfl
      · rfl
  rw [same]
  exact .single (.exchangeWith now ip packet) same.symm rfl (Or.inr rfl)

/-- Telling several peers makes a call for each. -/
theorem reaches_exchangeWithAll (now : Instant) (node : Node) (packet : List UInt8)
    (ips : List Ipv4Addr) : Reaches now node (node.exchangeWithAll packet now ips).1 := by
  induction ips generalizing node with
  | nil => exact .refl now node
  | cons ip ips ih => exact (reaches_exchangeWith now node packet ip).trans (ih _)

/-- The peer exchange is a run of calls. -/
theorem reaches_sendPeerExchange (now : Instant) (node : Node) :
    Reaches now node (node.sendPeerExchange now).1 := by
  unfold sendPeerExchange
  dsimp only
  split
  · exact .refl now node
  · exact reaches_exchangeWithAll now node _ _

/-- The data arm looks the peer up, decrypts, and lets the peer roam. -/
theorem reaches_receiveData {opened : Option (Ipv4Addr × List UInt8)}
    (run : node.receiveData now src bytes = .ok (mid, opened)) : Reaches now node mid := by
  simp only [receiveData, Rust.bind_eq_ok] at run
  obtain ⟨peerId, _, counterBytes, _, run⟩ := run
  split at run
  · cases run
    exact .refl now node
  next ip found =>
  split at run
  · cases run
    exact .refl now node
  next peer held =>
  simp only [Rust.bind_eq_ok] at run
  obtain ⟨buf, _, ⟨next, buf', result⟩, decrypted, run⟩ := run
  have decrypts : node.Performs _ (.decryptInto now ip (u64FromLeBytes counterBytes) buf
      (bytes.length - 13)) := Or.inr ⟨peer, next, buf', result, held, decrypted, rfl⟩
  have first := Reaches.single _ decrypts rfl (Or.inr rfl)
  cases result with
  | error message =>
      cases run
      exact first
  | ok len =>
      simp only [Rust.bind_eq_ok] at run
      obtain ⟨plaintext, _, run⟩ := run
      cases run
      refine first.trans ?_
      split
      · exact reaches_roaming now _ ip src
      · exact .refl now _

/-- The dispatch of a decrypted packet is a run of calls. -/
theorem reaches_deliver (run : node.deliver now sender plaintext = .ok (node', effects)) :
    Reaches now node node' := by
  by_cases exchange : 1 < plaintext.length ∧ plaintext.head? = some pktPeerExchange
  · rw [deliver, if_pos exchange] at run
    split at run
    · next entries _ =>
        cases run
        exact reaches_exchange (exchangeRun_addFromPex _ entries _ _ _ _)
    · cases run
      exact .refl now node
  · exact (sendRule_reaches plaintext now).relay.deliver (.refl now) exchange run

/-- The handshake arm makes three calls, or none. -/
theorem reaches_handshake (run : node.handleHandshake now src bytes = .ok (node', effects)) :
    Reaches now node node' := by
  simp only [handleHandshake, Rust.bind_eq_ok] at run
  obtain ⟨parsed, _, run⟩ := run
  cases parsed with
  | none =>
      cases run
      exact .refl now node
  | some hs =>
      cases run
      exact (reaches_discovery now node _ _ _ _ _).trans
        (.single (.establishSession now hs.wolfnetIp) rfl rfl (Or.inr rfl))

/-- The keepalive arm stamps the peer and lets it roam. -/
theorem reaches_keepalive (run : node.handleKeepalive now src bytes = .ok (node', effects)) :
    Reaches now node node' := by
  simp only [handleKeepalive, Rust.bind_eq_ok] at run
  obtain ⟨peerId, _, run⟩ := run
  split at run
  · cases run
    exact .refl now node
  · next ip found =>
      cases run
      have seen (mid : Node) : Reaches now mid (mid.withManager (mid.peerManager.withPeerByIp ip
          fun peer => { peer with lastSeen := some now })) :=
        .single (.sawPeer now ip) rfl rfl (Or.inr rfl)
      split
      · exact (reaches_roaming now node ip src).trans (seen _)
      · exact seen node

/-- Whatever arrives at the tunnel socket is handled by calls. -/
theorem reaches_inbound (run : node.inbound now src bytes = .ok (node', effects)) :
    Reaches now node node' := by
  unfold inbound at run
  split at run
  · cases run
    exact .refl now node
  split_ifs at run with handshake isData keepalive
  · exact reaches_handshake run
  · simp only [handleData, Rust.bind_eq_ok] at run
    obtain ⟨⟨mid, opened⟩, received, run⟩ := run
    have first := reaches_receiveData received
    cases opened with
    | none =>
        cases run
        exact first
    | some packet => exact first.trans (reaches_deliver run)
  · exact reaches_keepalive run
  · cases run
    exact .refl now node

/-- A peer exchange that meets the table in another order is a run of calls too. -/
theorem reaches_takesExchange (takes : node.TakesExchange now src bytes node') :
    Reaches now node node' := by
  obtain ⟨mid, sender, plaintext, entries, pm, _, _, received, _, run, rfl⟩ := takes
  exact (reaches_receiveData received).trans (reaches_exchange run)

/-- The listener makes one call at most. -/
theorem reaches_receiveDiscovery (now : Instant) (node : Node) (src : SocketAddr)
    (bytes : List UInt8) : Reaches now node (node.receiveDiscovery src bytes) := by
  unfold receiveDiscovery
  split
  · exact .refl now node
  · split
    · exact .refl now node
    · exact reaches_discovery now node _ _ _ _ _

/-- Resolving the host names makes a call for each peer that it moves. -/
theorem reaches_resolveAll (now : Instant) (node : Node)
    (dns : String → Option (List SocketAddr)) :
    Reaches now node (node.withManager (resolveAll dns node.peerManager)) := by
  refine Reaches.fold now node node.peerManager.allIps (fun pm ip _ => ?_) node.peerManager
  unfold resolveAgain
  split
  · exact .refl now _
  split_ifs
  · exact .refl now _
  split
  · exact .refl now _
  split_ifs
  · exact .single (.updateEndpoint ip _) rfl rfl (Or.inl rfl)
  · exact .refl now _

/-- Each of the two route files is read in one call. -/
theorem reaches_loadFiles (now : Instant) (node : Node) (routes subnetRoutes : RouteFile) :
    Reaches now node
      (node.withManager ((node.peerManager.loadRoutes routes).loadSubnetRoutes subnetRoutes)) :=
  Reaches.trans (.single (.loadRoutes routes) rfl rfl (Or.inl rfl))
    (.single (.loadSubnetRoutes subnetRoutes) rfl rfl (Or.inl rfl))

/-- A configured peer is added in one call. -/
theorem reaches_addConfigured (node : Node) (dns : String → Option (List SocketAddr))
    (now : Instant) (pc : PeerConfig) (publicKey : PublicKey) (ip : Ipv4Addr) :
    Reaches now node (node.withManager
      (node.peerManager.addPeer (configuredPeer dns node.keypair now pc publicKey ip))) :=
  .single (.addPeer dns now pc publicKey ip) rfl rfl (Or.inr rfl)

/-- The reload of an endpoint line is one call, or none. -/
theorem reaches_reloadEndpoint (now : Instant) (node : Node)
    (dns : String → Option (List SocketAddr)) (ip : Ipv4Addr) (endpoint : Option String) :
    Reaches now node (node.withManager (reloadEndpoint dns node.peerManager ip endpoint)) := by
  unfold reloadEndpoint
  split
  · next line =>
    split
    · next addr _ =>
        dsimp only
        split_ifs
        · exact .configure now node ip addr line
        · exact .refl now node
    · exact .refl now node
  · exact .single (.clearEndpoint ip) rfl rfl (Or.inl rfl)

/-- The reload of one entry is a run of calls. -/
theorem reaches_reloadPeer (node : Node) (dns : String → Option (List SocketAddr))
    (now : Instant) (ips : List Ipv4Addr) (pc : PeerConfig) :
    Reaches now node (node.withManager
      (reloadPeer dns node.keypair now ips node.peerManager pc)) := by
  unfold reloadPeer
  split
  · next publicKey ip _ =>
      split_ifs
      · refine (reaches_reloadEndpoint now node dns ip pc.endpoint).trans ?_
        unfold reloadHostname
        dsimp only
        split_ifs
        · exact .single (.rename ip (pc.name.getD "")) rfl rfl (Or.inl rfl)
        · exact .refl now _
      · exact reaches_addConfigured node dns now pc publicKey ip
  · exact .refl now node

/-- The purge of one IP is one call, or none. -/
theorem reaches_reloadPurge (now : Instant) (node : Node) (configuredIps : List Ipv4Addr)
    (configuredEndpoints : List SocketAddr) (ip : Ipv4Addr) :
    Reaches now node (node.withManager
      (reloadPurge configuredIps configuredEndpoints now node.peerManager ip)) := by
  unfold reloadPurge
  split_ifs
  · exact .refl now node
  · exact .single (.purgePeer ip) rfl rfl (Or.inl rfl)
  · exact .refl now node

/-- A reload is a run of calls. -/
theorem reaches_reload (node : Node) (dns : String → Option (List SocketAddr)) (now : Instant)
    (newConfig : Config) (routes subnetRoutes : RouteFile) :
    Reaches now node (node.withManager
      (reloadPeers dns node.keypair now node.peerManager newConfig routes subnetRoutes)) := by
  have loaded := Reaches.fold now node newConfig.peers
    (fun pm pc _ => reaches_reloadPeer (node.withManager pm) dns now node.peerManager.allIps pc)
    node.peerManager
  have purged (pm : PeerManager) := Reaches.fold now node pm.allIps
    (fun pm ip _ => reaches_reloadPurge now (node.withManager pm) newConfig.configuredIps
      (newConfig.configuredEndpoints dns) ip) pm
  exact (loaded.trans (purged _)).trans (reaches_loadFiles now _ routes subnetRoutes)

end Arms

/-- An event is a run of calls, at its reading of the clock. -/
theorem Step.reaches {event : Event} (step : Step node event node')
    (reads : ∀ reading, event.now = some reading → reading = now) : Reaches now node node' := by
  cases event with
  | reorder =>
      obtain ⟨pm, reordered, rfl⟩ := step
      exact .single (.reorder) reordered rfl (Or.inl rfl)
  | tun reading packet =>
      cases reads reading rfl
      obtain ⟨effects, run⟩ := step
      exact (sendRule_reaches packet now).outbound run
  | tunnel reading src bytes =>
      cases reads reading rfl
      rcases step with ⟨effects, run⟩ | takes
      · exact reaches_inbound run
      · exact reaches_takesExchange takes
  | discovery src bytes =>
      obtain ⟨effects, run⟩ := step
      cases run
      exact reaches_receiveDiscovery now node src bytes
  | handshakes reading | keepalives reading =>
      obtain ⟨effects, run⟩ := step
      cases run
      exact .refl now node
  | peerExchange reading =>
      cases reads reading rfl
      obtain ⟨effects, run⟩ := step
      have sent := reaches_sendPeerExchange now node
      simp only [handle, Rust.pure_eq, Except.ok.injEq] at run
      rwa [run] at sent
  | resolve dns =>
      obtain ⟨effects, run⟩ := step
      cases run
      exact reaches_resolveAll now node dns
  | readRoutes routes subnetRoutes =>
      obtain ⟨effects, run⟩ := step
      cases run
      exact reaches_loadFiles now node routes subnetRoutes
  | reload dns reading newConfig routes subnetRoutes =>
      cases reads reading rfl
      obtain ⟨effects, run⟩ := step
      cases run
      exact reaches_reload node dns now newConfig routes subnetRoutes

end Node
end WolfNet
