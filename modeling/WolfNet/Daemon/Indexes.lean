import WolfNet.Daemon.Calls
import WolfNet.Table.EndpointIndex
import WolfNet.Table.IdIndex

/-!
# The indexes along the calls

A call of the manager is an operation on the table, or it edits records in place and leaves their
keys, their IPs, their endpoints and the indexes. Both indexes are right along the calls of the two
threads as long as the operations among them keep them so.
-/

namespace WolfNet

open WolfNet.Std WolfNet.Semantics PeerManager

variable [Crates]

namespace Peer

/-- What the indexes are about: the key, which tells the ID, the IP and the endpoint. -/
def place (peer : Peer) : PublicKey × Ipv4Addr × Option SocketAddr :=
  (peer.publicKey, peer.wolfnetIp, peer.endpoint)

/-- Sending moves no record. -/
theorem SentOn.place {old new : Peer} (sentOn : old.SentOn new) : new.place = old.place := by
  rw [sentOn.fields]
  rfl

end Peer

namespace PeerManager

/-- The records are edited in place. -/
structure InPlace (pm pm' : PeerManager) : Prop where
  places : ∀ ip, (pm'.peersByIp.get ip).map Peer.place = (pm.peersByIp.get ip).map Peer.place
  ids : pm'.idToIp = pm.idToIp
  endpoints : pm'.endpointToIp = pm.endpointToIp

variable {pm pm' : PeerManager} {ip : Ipv4Addr} {keys : Set PublicKey}

/-- A record in place of one at the same place. -/
theorem inPlace_put {old new : Peer} (held : pm.peersByIp.get ip = some old)
    (same : new.place = old.place) :
    InPlace pm { pm with peersByIp := pm.peersByIp.insert ip new } := by
  constructor
  · intro other
    rw [HashMap.get_insert]
    split
    · next here => rw [here, held, Option.map_some, Option.map_some, same]
    · rfl
  · rfl
  · rfl

/-- An edit by IP that leaves the place. -/
theorem inPlace_withPeerByIp {f : Peer → Peer} (same : ∀ peer, (f peer).place = peer.place) :
    InPlace pm (pm.withPeerByIp ip f) := by
  unfold withPeerByIp
  split
  · next peer held => exact inPlace_put held (same peer)
  · exact ⟨fun _ => rfl, rfl, rfl⟩

namespace InPlace

variable (inPlace : InPlace pm pm')

include inPlace

/-- The IDs are in place. -/
theorem idAt : pm'.idAt = pm.idAt := by
  have ofPlace (pm : PeerManager) (ip : Ipv4Addr) : pm.idAt ip =
      ((pm.peersByIp.get ip).map Peer.place).map fun place => KeyPair.peerId place.1 := by
    unfold PeerManager.idAt
    cases pm.peersByIp.get ip with
    | none => rfl
    | some peer => exact congrArg some peer.peerIdOfKey
  ext ip
  rw [ofPlace, ofPlace, inPlace.places]

/-- The endpoints are in place. -/
theorem endpointAt : pm'.endpointAt = pm.endpointAt := by
  have ofPlace (pm : PeerManager) (ip : Ipv4Addr) : pm.endpointAt ip =
      ((pm.peersByIp.get ip).map Peer.place).bind fun place => place.2.2 := by
    unfold PeerManager.endpointAt
    cases pm.peersByIp.get ip <;> rfl
  ext ip
  rw [ofPlace, ofPlace, inPlace.places]

/-- Records in place are well formed. -/
theorem wellformed (wellformed : Wellformed keys pm) : Wellformed keys pm' := by
  have earlier : ∀ {ip new}, pm'.peersByIp.get ip = some new → ∃ old,
      pm.peersByIp.get ip = some old ∧ old.publicKey = new.publicKey ∧
        old.wolfnetIp = new.wolfnetIp := by
    intro ip new held
    have same := (inPlace.places ip).symm
    rw [held, Option.map_some] at same
    obtain ⟨old, there, same⟩ := Option.map_eq_some_iff.mp same
    simp only [Peer.place, Prod.mk.injEq] at same
    exact ⟨old, there, same.1, same.2.1⟩
  constructor
  · intro ip new held
    obtain ⟨old, there, _, same⟩ := earlier held
    exact same ▸ wellformed.keyed there
  · intro ip new held
    obtain ⟨old, there, same, _⟩ := earlier held
    exact same ▸ wellformed.known there

end InPlace

/-- Both indexes are right. -/
structure Indexed (keys : Set PublicKey) (pm : PeerManager) : Prop extends
    IdsInverted keys pm where
  byEndpoint : EndpointIndexExact pm

/-- An empty manager is indexed. -/
theorem Indexed.new : Indexed keys new :=
  ⟨IdsInverted.new, endpointIndexExact_new⟩

/-- In-place edits leave the indexes right. -/
theorem Indexed.inPlace (indexed : Indexed keys pm) (inPlace : InPlace pm pm') :
    Indexed keys pm' := by
  refine ⟨⟨inPlace.wellformed indexed.toWellformed, ?_⟩, ?_⟩
  · rw [inPlace.idAt, inPlace.ids]
    exact indexed.inverts
  · rw [endpointIndexExact_iff, inPlace.endpointAt, inPlace.endpoints]
    exact endpointIndexExact_iff.mp indexed.byEndpoint

end PeerManager

namespace Node

/-- The operation on the table that the node performs in a call, unless it edits in place. -/
def Call.op (node : Node) : Call → Option Op
  | .reorder => some .reorder
  | .addPeer dns now pc publicKey ip =>
    some (.addPeer (configuredPeer dns node.keypair now pc publicKey ip))
  | .purgePeer ip => some (.purgePeer ip)
  | .updateEndpoint ip addr => some (.updateEndpoint ip addr)
  | .clearEndpoint ip => some (.clearEndpoint ip)
  | .updateEndpointIfRoaming ip src => some (.updateEndpointIfRoaming ip src)
  | .updateFromDiscovery publicKey endpoint ip hostname isGateway =>
    some (.updateFromDiscovery publicKey endpoint ip hostname isGateway)
  | .addFromPex now entries sender =>
    some (.addFromPex entries sender node.wolfnetIp node.keypair now)
  | _ => none

variable {node node' : Node} {pm : PeerManager} {call : Call} {keys : Set PublicKey}

/-- A call with an operation performs it. -/
theorem Performs.step {op : Op} (performs : node.Performs pm call) (calls : call.op node = some op) :
    PeerManager.Step node.peerManager op pm := by
  cases call with
  | reorder | addPeer | purgePeer | updateEndpoint | clearEndpoint | updateEndpointIfRoaming
  | updateFromDiscovery | addFromPex =>
      cases calls
      exact performs
  | _ => cases calls

/-- Sending edits records in place. -/
theorem Transmits.inPlace (transmits : Transmits node node') :
    InPlace node.peerManager node'.peerManager := by
  refine ⟨fun ip => ?_, transmits.ids, transmits.endpoints⟩
  cases before : node.peerManager.peersByIp.get ip with
  | none => rw [transmits.only ip before]
  | some old =>
      obtain ⟨new, after, sentOn⟩ := transmits.kept ip old before
      rw [after, Option.map_some, Option.map_some, sentOn.place]

/-- A call without an operation edits records in place. -/
theorem Performs.inPlace (performs : node.Performs pm call) (edits : call.op node = none) :
    InPlace node.peerManager pm := by
  cases call with
  | configureEndpoint | rename | establishSession | sawPeer =>
      cases performs
      exact inPlace_withPeerByIp fun peer => rfl
  | encryptAndSend reading ip plaintext =>
      obtain ⟨effects, sent, run⟩ := performs
      exact (Sending.send run).toTransmits.inPlace
  | exchangeWith reading ip packet =>
      have sending := (node.exchangeWith_sending packet reading ip).toTransmits.inPlace
      rwa [← show _ = _ from performs] at sending
  | decryptInto reading ip counter buf len =>
      rcases performs with ⟨_, rfl⟩ | ⟨peer, next, _, _, held, run, rfl⟩
      · exact ⟨fun _ => rfl, rfl, rfl⟩
      · apply inPlace_put held
        rcases Peer.decryptInto_cases run with rfl | ⟨session, plaintextLen, _, rfl⟩ <;> rfl
  | loadRoutes file =>
      cases performs
      cases file <;> exact ⟨fun _ => rfl, rfl, rfl⟩
  | loadSubnetRoutes file =>
      cases performs
      cases file <;> exact ⟨fun _ => rfl, rfl, rfl⟩
  | _ => cases edits

/-- The call brings in keys of the set only, and keeps both indexes. -/
def KeepsIndexes (keys : Set PublicKey) (mid : Midway) (call : Call) : Prop :=
  ∀ op, call.op mid.node = some op →
    op.Within keys ∧ KeepsIds mid.node.peerManager op ∧ KeepsEndpoints mid.node.peerManager op

/-- A call of either thread that keeps the indexes leaves them right. -/
theorem Interleaves.indexed (distinctIds : Set.InjOn KeyPair.peerId keys) {mid mid' : Midway}
    (indexed : Indexed keys mid.node.peerManager) (keeps : KeepsIndexes keys mid call)
    (step : Interleaves mid call mid') : Indexed keys mid'.node.peerManager := by
  obtain @⟨node, placed, call, pm, performs, _⟩ := step
  cases calls : call.op node with
  | none => exact indexed.inPlace (performs.inPlace calls)
  | some op =>
      obtain ⟨within, keepsIds, keepsEndpoints⟩ := keeps op calls
      have step := performs.step calls
      exact ⟨indexed.toIdsInverted.step distinctIds keepsIds ⟨within, step⟩,
        (indexed.byEndpoint.step_iff step).mpr keepsEndpoints⟩

/-- From an empty table, calls that keep the indexes lead to right ones only. -/
theorem indexed_reached (distinctIds : Set.InjOn KeyPair.peerId keys) {start last : Midway}
    {trace : List (Midway × Call)} (run : Run Interleaves start trace last)
    (empty : start.node.peerManager = .new) (keeps : Throughout (KeepsIndexes keys) trace) :
    Indexed keys last.node.peerManager :=
  run.invariant (Interleaves.indexed distinctIds) (empty ▸ Indexed.new) keeps

end Node
end WolfNet
