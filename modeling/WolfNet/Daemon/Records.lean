import WolfNet.Daemon.Calls
import WolfNet.Table.EachPeer

/-!
# Records through the calls

What the calls of the manager write into the peer table are records edited in few ways and new ones.
A property that these keep and have holds of every record along every run of calls, and so after
every event.
-/

namespace WolfNet

open WolfNet.Std WolfNet.Semantics PeerManager

variable [Crates]

/-- The second record has a session of the key and the direction of the first one's. -/
def Peer.SameSession (old new : Peer) : Prop :=
  ∀ session, old.cipher = some session → ∃ session', new.cipher = some session' ∧
    session'.cipher = session.cipher ∧ session'.isLowSide = session.isLowSide

/-- A property of records that the edits by a node with the key pair at a reading of the clock keep,
and that its new records have, but for those that a load of the config makes. -/
structure Tolerates (keypair : KeyPair) (now : Instant) (Good : Ipv4Addr → Peer → Prop) : Prop where
  sent : ∀ ip old new, Peer.SentOn old new → Peer.SameSession old new → Good ip old → Good ip new
  received : ∀ ip peer session counter len, peer.cipher = some session → Good ip peer →
    Good ip (peer.received (session.accepted counter) len now)
  moved : ∀ ip peer addr, Good ip peer → Good ip { peer with endpoint := some addr }
  seen : ∀ ip peer, Good ip peer → Good ip { peer with lastSeen := some now }
  greeted : ∀ ip peer, Good ip peer →
    Good ip { peer.establishSession keypair.secret keypair.publicKey now with lastSeen := some now }
  rediscovered : ∀ ip peer hostname isGateway, Good ip peer →
    Good ip (rediscovered peer hostname isGateway)
  migrated : ∀ oldIp ip peer endpoint hostname isGateway, Good oldIp peer →
    Good ip (migrated peer endpoint ip hostname isGateway)
  redirected : ∀ ip peer senderIp, Good ip peer → Good ip (redirected peer senderIp)
  discovered : ∀ publicKey endpoint ip hostname isGateway,
    Good ip (discovered publicKey endpoint ip hostname isGateway)
  brought : ∀ entry publicKey ip senderIp, Good ip (pexPeer entry publicKey ip senderIp keypair now)

/-- The same for what a load of the config edits and adds. -/
structure ToleratesLoad (keypair : KeyPair) (Good : Ipv4Addr → Peer → Prop) : Prop where
  configured : ∀ dns now pc publicKey ip,
    Good ip (configuredPeer dns keypair now pc publicKey ip)
  edited : ∀ ip peer endpoint line hostname, Good ip peer →
    Good ip { peer with endpoint := endpoint, configuredEndpoint := line, hostname := hostname }

namespace Node

/-- The call writes what a load of the config has read. -/
def Call.loads : Call → Bool
  | .addPeer .. | .configureEndpoint .. | .clearEndpoint _ | .rename .. => true
  | _ => false

variable {Good : Ipv4Addr → Peer → Prop} {node node' : Node} {now : Instant} {plaintext : List UInt8}
  {effects : List Effect} {event : Event} {call : Call} {pm : PeerManager}

/-- What sending keeps of a record, it keeps of all of them. -/
theorem Sending.eachPeer {reading : Instant}
    (sending : Sending reading plaintext node effects node')
    (tolerates : Tolerates node.keypair now Good) (each : node.peerManager.EachPeer Good) :
    node'.peerManager.EachPeer Good := by
  intro ip peer held
  cases before : node.peerManager.peersByIp.get ip with
  | none => exact absurd (held.symm.trans (sending.only ip before)) (Option.some_ne_none peer)
  | some old =>
      obtain ⟨new, after, sentOn⟩ := sending.kept ip old before
      cases held.symm.trans after
      refine tolerates.sent ip old peer sentOn (fun session established => ?_) (each ip old before)
      obtain ⟨_, session', there, same⟩ := sending.sessions ip old session before established
      cases held.symm.trans there
      exact ⟨session', same⟩

/-- A call that loads nothing keeps what its edits keep. -/
theorem Performs.eachPeer (tolerates : Tolerates node.keypair now Good)
    (each : node.peerManager.EachPeer Good) (performs : node.Performs pm call)
    (reads : call.At now) (other : call.loads = false) : pm.EachPeer Good := by
  cases call with
  | reorder => exact each.reordered performs
  | purgePeer ip =>
      cases performs
      exact each.replace (node.peerManager.purgePeer_replaces ip) fun _ same => by cases same
  | updateEndpoint ip addr =>
      cases performs
      exact each.updateEndpoint fun peer => tolerates.moved ip peer addr
  | updateEndpointIfRoaming ip src =>
      cases performs
      exact each.updateEndpointIfRoaming fun peer => tolerates.moved ip peer src
  | updateFromDiscovery publicKey endpoint ip hostname isGateway =>
      cases performs
      exact each.discovery
        (fun peer good _ => tolerates.moved ip _ endpoint (tolerates.rediscovered ip peer _ _ good))
        (fun peer good _ => tolerates.rediscovered ip peer _ _ good)
        (fun oldIp peer good _ => tolerates.migrated oldIp ip peer _ _ _ good)
        (tolerates.discovered publicKey endpoint ip hostname isGateway)
  | addFromPex reading entries sender =>
      cases reads reading rfl
      exact each.exchange performs (fun ip peer => tolerates.redirected ip peer sender)
        fun entry ip publicKey => tolerates.brought entry publicKey ip sender
  | encryptAndSend reading ip plaintext =>
      obtain ⟨effects, sent, run⟩ := performs
      exact (Sending.send run).eachPeer tolerates each
  | exchangeWith reading ip packet =>
      have sent := (node.exchangeWith_sending packet reading ip).eachPeer tolerates each
      rwa [← show _ = _ from performs] at sent
  | decryptInto reading ip counter buf len =>
      cases reads reading rfl
      rcases performs with ⟨_, rfl⟩ | ⟨peer, next, _, _, held, run, rfl⟩
      · exact each
      refine each.insert ?_ rfl
      rcases Peer.decryptInto_cases run with rfl | ⟨session, plaintextLen, established, rfl⟩
      · exact each ip next held
      · exact tolerates.received ip peer session counter plaintextLen established (each ip peer held)
  | establishSession reading ip =>
      cases reads reading rfl
      cases performs
      exact each.withPeerByIp fun peer _ => tolerates.greeted ip peer
  | sawPeer reading ip =>
      cases reads reading rfl
      cases performs
      exact each.withPeerByIp fun peer _ => tolerates.seen ip peer
  | loadRoutes file =>
      cases performs
      exact each.of_table fun ip => by rw [loadRoutes_peersByIp]
  | loadSubnetRoutes file =>
      cases performs
      exact each.of_table fun ip => by rw [loadSubnetRoutes_peersByIp]
  | addPeer | configureEndpoint | clearEndpoint | rename => cases other

/-- A call that loads something keeps what a load keeps. -/
theorem Performs.eachPeer_load (tolerates : ToleratesLoad node.keypair Good)
    (each : node.peerManager.EachPeer Good) (performs : node.Performs pm call)
    (loads : call.loads = true) : pm.EachPeer Good := by
  cases call with
  | addPeer dns reading pc publicKey ip =>
      cases performs
      refine each.replace (node.peerManager.addPeer_replaces _) fun _ same => ?_
      cases same
      exact tolerates.configured dns reading pc publicKey ip
  | configureEndpoint ip line =>
      cases performs
      exact each.withPeerByIp fun peer _ =>
        tolerates.edited ip peer peer.endpoint (some line) peer.hostname
  | clearEndpoint ip =>
      cases performs
      rcases @clearEndpoint_cases _ node.peerManager ip with ⟨_, same⟩ | ⟨peer, moves⟩
      · rwa [same]
      · exact each.edit moves.toEdits (tolerates.edited ip peer none none peer.hostname)
  | rename ip hostname =>
      cases performs
      exact each.withPeerByIp fun peer _ =>
        tolerates.edited ip peer peer.endpoint peer.configuredEndpoint hostname
  | _ => cases loads

/-- One call by either thread keeps what all edits keep. -/
theorem Interleaves.eachPeer {mid mid' : Midway} (step : Interleaves mid call mid')
    (tolerates : Tolerates mid.node.keypair now Good)
    (loads : ToleratesLoad mid.node.keypair Good) (reads : call.At now)
    (each : mid.node.peerManager.EachPeer Good) : mid'.node.peerManager.EachPeer Good := by
  obtain ⟨performs, _⟩ := step
  cases kind : call.loads with
  | false => exact performs.eachPeer tolerates each reads kind
  | true => exact performs.eachPeer_load loads each kind

section Runs

variable (tolerates : Tolerates node.keypair now Good) (loads : ToleratesLoad node.keypair Good)

include tolerates loads

/-- What all edits at one reading of the clock keep holds where calls at that reading lead. -/
theorem Reaches.eachPeer (reaches : Reaches now node node')
    (each : node.peerManager.EachPeer Good) : node'.peerManager.EachPeer Good := by
  obtain ⟨trace, placed', run, reads⟩ := reaches none
  suffices held : node'.keypair = node.keypair ∧ node'.peerManager.EachPeer Good from held.2
  refine @Run.invariant _ _ _ _ _ _ (fun mid => mid.node.keypair = node.keypair ∧
    mid.node.peerManager.EachPeer Good) _ run ?_ ⟨rfl, each⟩ reads
  rintro mid call mid' ⟨same, each⟩ reads step
  have kept : mid'.node.keypair = mid.node.keypair := by
    cases step
    rfl
  exact ⟨kept.trans same, step.eachPeer (same ▸ tolerates) (same ▸ loads) reads each⟩

/-- And so after every event. -/
theorem Step.eachPeer (step : Step node event node')
    (reads : ∀ reading, event.now = some reading → reading = now)
    (each : node.peerManager.EachPeer Good) : node'.peerManager.EachPeer Good :=
  (step.reaches reads).eachPeer tolerates loads each

omit tolerates in
/-- What a load keeps holds at startup. -/
theorem eachPeer_startup (dns : String → Option (List SocketAddr)) (reading : Instant)
    (config : Config) (routes subnetRoutes : RouteFile) :
    (startupManager dns node.keypair reading config routes subnetRoutes).EachPeer Good := by
  have loaded : (startupPeers dns node.keypair reading config).EachPeer Good := by
    refine List.foldlRecOn config.peers _ eachPeer_new fun pm each pc _ => ?_
    unfold startupPeer
    split
    · next publicKey ip _ =>
        refine each.replace (pm.addPeer_replaces _) fun _ same => ?_
        cases same
        exact loads.configured dns reading pc publicKey ip
    · exact each
  refine loaded.of_table fun ip => ?_
  rw [startupManager, loadSubnetRoutes_peersByIp, loadRoutes_peersByIp]

end Runs
end Node
end WolfNet
