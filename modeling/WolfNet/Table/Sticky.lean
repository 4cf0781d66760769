import WolfNet.Crates.Sample
import WolfNet.Table.Ops

/-!
# Configured endpoints

A peer with an endpoint line in the config should keep its endpoint whatever arrives
from the network. Roaming and peer exchange respect it; a discovery respects it only at
the peer's own IP. `pinned_kept` states the discoveries that must not arrive.
-/

namespace WolfNet.PeerManager

open WolfNet.Std WolfNet.Semantics

section Runs

variable [Crates]

/-- The table holds a peer with this key, this configured line and this endpoint. -/
def Pinned (pm : PeerManager) (publicKey : PublicKey) (line : String)
    (endpoint : Option SocketAddr) : Prop :=
  ∃ ip peer, pm.peersByIp.get ip = some peer ∧ peer.publicKey = publicKey ∧
    peer.configuredEndpoint = some line ∧ peer.endpoint = endpoint

/-- Every pinned peer of the first manager is pinned alike in the second. -/
def KeepsPins (start pm : PeerManager) : Prop :=
  ∀ publicKey line endpoint, start.Pinned publicKey line endpoint →
    pm.Pinned publicKey line endpoint

/-- The operations that packets from the network cause. -/
def Op.FromNetwork : Op → Prop
  | .reorder => True
  | .updateEndpointIfRoaming _ _ => True
  | .updateFromDiscovery _ _ _ _ _ => True
  | .addFromPex _ _ _ _ _ => True
  | _ => False

def NetworkStep : Transition PeerManager Op := fun pm op pm' => op.FromNetwork ∧ Step pm op pm'

/-- A discovery names no IP that holds a pinned peer of another key, and if it migrates a
pinned peer, it comes from that peer's endpoint. -/
def RespectsPins (pm : PeerManager) : Op → Prop
  | .updateFromDiscovery publicKey endpoint ip _ _ =>
    (∀ occupant, pm.peersByIp.get ip = some occupant → ¬occupant.publicKey.Same publicKey →
      occupant.configuredEndpoint = none) ∧
    ((∀ occupant, pm.peersByIp.get ip = some occupant → ¬occupant.publicKey.Same publicKey) →
      ∀ oldIp peer, pm.findIpByKey publicKey = some oldIp → pm.peersByIp.get oldIp = some peer →
        peer.configuredEndpoint ≠ none → peer.endpoint = some endpoint)
  | _ => True

variable {pm pm' : PeerManager} {op : Op} {ip : Ipv4Addr}

/-- A table keeps its own pins. -/
theorem KeepsPins.refl (pm : PeerManager) : KeepsPins pm pm := fun _ _ _ pinned => pinned

/-- Pins are kept by what keeps them step after step. -/
theorem KeepsPins.trans {first second third : PeerManager} (before : KeepsPins first second)
    (after : KeepsPins second third) : KeepsPins first third :=
  fun publicKey line endpoint pinned => after _ _ _ (before publicKey line endpoint pinned)

/-- The order of the table does not matter for the pins. -/
theorem Reordered.keepsPins (reordered : Reordered pm pm') : KeepsPins pm pm' := by
  rintro publicKey line endpoint ⟨ip, peer, held, pinned⟩
  exact ⟨ip, peer, (reordered.peers ip).trans held, pinned⟩

/-- An edit that keeps a pinned record's line and endpoint keeps the pins. -/
theorem Edits.keepsPins {old new : Peer} (edits : Edits pm pm' ip old new)
    (kept : old.configuredEndpoint ≠ none →
      new.configuredEndpoint = old.configuredEndpoint ∧ new.endpoint = old.endpoint) :
    KeepsPins pm pm' := by
  rintro publicKey line endpoint ⟨other, peer, held, keyed, pinned, placed⟩
  by_cases here : other = ip
  · subst here
    cases held.symm.trans edits.held
    obtain ⟨sameLine, sameEndpoint⟩ := kept (by simp [pinned])
    exact ⟨other, new, by simp [edits.peers], edits.publicKey.trans keyed,
      sameLine.trans pinned, sameEndpoint.trans placed⟩
  · exact ⟨other, peer, by simp [edits.peers, here, held], keyed, pinned, placed⟩

/-- A replacement keeps the pins when the record it overwrites is not pinned and a pinned
one it takes from elsewhere stays as it was. -/
theorem Replaces.keepsPins {new : Peer} {source : Option Ipv4Addr}
    (replaces : Replaces pm pm' ip (some new) source)
    (overwritten : ∀ occupant, pm.peersByIp.get ip = some occupant →
      occupant.configuredEndpoint = none)
    (moved : ∀ oldIp peer, source = some oldIp → oldIp ≠ ip → pm.peersByIp.get oldIp = some peer →
      peer.configuredEndpoint ≠ none → new.publicKey = peer.publicKey ∧
        new.configuredEndpoint = peer.configuredEndpoint ∧ new.endpoint = peer.endpoint) :
    KeepsPins pm pm' := by
  rintro publicKey line endpoint ⟨other, peer, held, keyed, pinned, placed⟩
  by_cases here : other = ip
  · subst here
    simp [overwritten peer held] at pinned
  · by_cases taken : source = some other
    · obtain ⟨sameKey, sameLine, sameEndpoint⟩ :=
        moved other peer taken here held (by simp [pinned])
      exact ⟨ip, new, by simp [replaces.peers], sameKey.trans keyed, sameLine.trans pinned,
        sameEndpoint.trans placed⟩
    · exact ⟨other, peer, by simp [replaces.peers, here, taken, held], keyed, pinned, placed⟩

/-- An exchange entry keeps the pins. -/
theorem Exchanges.keepsPins {entry : PexEntry} {senderIp : Ipv4Addr} {keypair : KeyPair}
    {now : Instant} (exchanges : Exchanges pm pm' entry senderIp keypair now) :
    KeepsPins pm pm' := by
  cases exchanges with
  | ignored same =>
      rw [same]
      exact .refl pm
  | relayed ip peer touches => exact touches.keepsPins fun _ => ⟨rfl, rfl⟩
  | inserted publicKey ip free parsed unknown replaces =>
      exact replaces.keepsPins (by simp [free]) (by simp)

/-- A discovery that respects the pins keeps them. -/
theorem Discovers.keepsPins {publicKey : PublicKey} {endpoint : SocketAddr} {hostname : String}
    {isGateway : Bool} (discovers : Discovers pm pm' publicKey endpoint ip hostname isGateway)
    (respects : RespectsPins pm (.updateFromDiscovery publicKey endpoint ip hostname isGateway)) :
    KeepsPins pm pm' := by
  cases discovers with
  | refreshed peer keyed unpinned moves => exact moves.keepsPins fun line => absurd unpinned line
  | pinned peer keyed pinned touches => exact touches.keepsPins fun _ => ⟨rfl, rfl⟩
  | migrated oldIp peer elsewhere held keyed search foreign replaces =>
      refine replaces.keepsPins (fun occupant there => respects.1 occupant there
        (foreign occupant there)) ?_
      rintro _ source ⟨⟩ _ sourceHeld line
      cases held.symm.trans sourceHeld
      exact ⟨rfl, rfl, (respects.2 foreign oldIp peer search held line).symm⟩
  | inserted unknown replaces =>
      refine replaces.keepsPins (fun occupant there => respects.1 occupant there
        (unknown ip occupant there)) ?_
      rintro _ _ ⟨⟩ elsewhere
      exact absurd rfl elsewhere

/-- Every admitted step keeps the pins. -/
theorem NetworkStep.keepsPins (respects : RespectsPins pm op) (transition : NetworkStep pm op pm') :
    KeepsPins pm pm' := by
  obtain ⟨fromNetwork, transition⟩ := transition
  cases op with
  | reorder => exact Reordered.keepsPins transition
  | updateEndpointIfRoaming ip endpoint =>
      cases transition
      rcases @updateEndpointIfRoaming_cases _ pm ip endpoint with
        ⟨_, same⟩ | ⟨peer, unpinned, moves⟩
      · simpa only [apply, same] using KeepsPins.refl pm
      · exact moves.keepsPins fun line => absurd unpinned line
  | updateFromDiscovery publicKey endpoint ip hostname isGateway =>
      cases transition
      exact (pm.updateFromDiscovery_discovers publicKey endpoint ip hostname isGateway).keepsPins
        respects
  | addFromPex entries senderIp myIp keypair now =>
      exact ExchangeRun.invariant (fun kept order => kept.trans (Reordered.keepsPins order))
        (fun _ kept exchange => KeepsPins.trans kept exchange.keepsPins) (.refl pm) transition
  | _ => exact fromNetwork.elim

/-- In every run of operations from the network whose discoveries respect the pinned
peers, each peer with a configured endpoint stays in the table with that line and its
endpoint. -/
theorem pinned_kept {start last : PeerManager} {trace : List (PeerManager × Op)}
    (run : Run NetworkStep start trace last) (respects : Throughout RespectsPins trace) :
    Always (KeepsPins start) trace last :=
  run.relates .refl .trans NetworkStep.keepsPins respects

end Runs

section Sample

attribute [local instance] Sample.crates

/-- A table with one sample peer, whose endpoint is configured. -/
def sampleTable : PeerManager :=
  new.addPeer { Peer.new (Sample.keypair 1).publicKey ⟨10, 10, 10, 2⟩ with
    endpoint := some (.v4 ⟨203, 0, 113, 7⟩ 51820)
    configuredEndpoint := some "203.0.113.7:51820" }

/-- A handshake with a sample key that claims an IP, from another address than the
configured one. -/
def sampleHandshake (byte octet : UInt8) : Op :=
  .updateFromDiscovery (Sample.keypair byte).publicKey (.v4 ⟨198, 51, 100, 9⟩ 4444)
    ⟨10, 10, 10, octet⟩ "laptop" false

/-- A handshake with the pinned key at its own IP. -/
theorem pinned_kept_sample :
    Always (KeepsPins sampleTable) (traceOf apply sampleTable [sampleHandshake 1 2])
      ([sampleHandshake 1 2].foldl apply sampleTable) := by
  have run : Run NetworkStep sampleTable (traceOf apply sampleTable [sampleHandshake 1 2])
      ([sampleHandshake 1 2].foldl apply sampleTable) :=
    Run.refl.step ⟨trivial, step_apply _ _⟩
  refine pinned_kept run ?_
  simp only [Throughout, traceOf, List.forall_mem_cons, List.not_mem_nil, false_implies,
    implies_true, and_true]
  constructor
  · rintro _ ⟨⟩ foreign
    exact absurd (.refl _) foreign
  · intro foreign
    exact absurd (.refl _) (foreign _ rfl)

/-- A handshake with the pinned key that claims another IP takes the endpoint over. -/
theorem pinned_endpoint_lost :
    Run NetworkStep sampleTable (traceOf apply sampleTable [sampleHandshake 1 5])
      ([sampleHandshake 1 5].foldl apply sampleTable) ∧
    ¬Always (KeepsPins sampleTable) (traceOf apply sampleTable [sampleHandshake 1 5])
      ([sampleHandshake 1 5].foldl apply sampleTable) := by
  refine ⟨Run.refl.step ⟨trivial, step_apply _ _⟩, ?_⟩
  intro always
  obtain ⟨ip, peer, held, _, _, placed⟩ :=
    always.2 (Sample.keypair 1).publicKey "203.0.113.7:51820" (some (.v4 ⟨203, 0, 113, 7⟩ 51820))
      ⟨⟨10, 10, 10, 2⟩, _, rfl, rfl, rfl, rfl⟩
  have moved : ([sampleHandshake 1 5].foldl apply sampleTable).peersByIp.values.all
      (fun peer => decide (peer.endpoint ≠ some (.v4 ⟨203, 0, 113, 7⟩ 51820))) = true := by
    decide
  have member := List.mem_map_of_mem (f := Prod.snd) (HashMap.mem_iter_iff.mpr held)
  simpa [placed] using List.all_eq_true.mp moved peer member

end Sample
end WolfNet.PeerManager
