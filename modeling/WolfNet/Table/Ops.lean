import WolfNet.Semantics.Run
import WolfNet.Table.Effects
import WolfNet.Table.Rest

/-!
# Runs of table operations

A run starts from any manager and performs operations with any arguments. Between
operations, and between the entries of one peer exchange, the table may be met in
another iteration order.
-/

namespace WolfNet.PeerManager

open WolfNet.Std WolfNet.Semantics

variable [Crates]

/-- A call of one of the operations that edit peers. -/
inductive Op where
  | reorder
  | addPeer (peer : Peer)
  | removePeer (ip : Ipv4Addr)
  | purgePeer (ip : Ipv4Addr)
  | updateEndpoint (ip : Ipv4Addr) (endpoint : SocketAddr)
  | updateEndpointIfRoaming (ip : Ipv4Addr) (endpoint : SocketAddr)
  | clearEndpoint (ip : Ipv4Addr)
  | updateFromDiscovery (publicKey : PublicKey) (endpoint : SocketAddr) (ip : Ipv4Addr)
      (hostname : String) (isGateway : Bool)
  | addFromPex (entries : List PexEntry) (senderIp myIp : Ipv4Addr) (keypair : KeyPair)
      (now : Instant)

/-- The manager after an operation that meets the table in its present order. -/
def apply (pm : PeerManager) : Op → PeerManager
  | .reorder => pm
  | .addPeer peer => pm.addPeer peer
  | .removePeer ip => pm.removePeer ip
  | .purgePeer ip => pm.purgePeer ip
  | .updateEndpoint ip endpoint => pm.updateEndpoint ip endpoint
  | .updateEndpointIfRoaming ip endpoint => (pm.updateEndpointIfRoaming ip endpoint).1
  | .clearEndpoint ip => (pm.clearEndpoint ip).1
  | .updateFromDiscovery publicKey endpoint ip hostname isGateway =>
    pm.updateFromDiscovery publicKey endpoint ip hostname isGateway
  | .addFromPex entries senderIp myIp keypair now =>
    pm.addFromPex entries senderIp myIp keypair now

/-- The same manager with its table met in another order. -/
structure Reordered (pm pm' : PeerManager) : Prop where
  table : pm.peersByIp.Reordered pm'.peersByIp
  ids : pm'.idToIp = pm.idToIp
  endpoints : pm'.endpointToIp = pm.endpointToIp
  rest : SameRest pm pm'

/-- A table has its own order. -/
theorem Reordered.refl (pm : PeerManager) : Reordered pm pm :=
  ⟨List.Perm.refl _, rfl, rfl, .refl pm⟩

/-- A peer exchange whose entries each meet the table in some order. -/
def ExchangeRun (senderIp myIp : Ipv4Addr) (keypair : KeyPair) (now : Instant) :
    List PexEntry → PeerManager → PeerManager → Prop
  | [], pm, pm' => pm' = pm
  | entry :: entries, pm, pm' => ∃ met, Reordered pm met ∧
      ExchangeRun senderIp myIp keypair now entries
        (met.addPexEntry entry senderIp myIp keypair now) pm'

/-- One step of a run. -/
def Step : Transition PeerManager Op
  | pm, .reorder, pm' => Reordered pm pm'
  | pm, .addFromPex entries senderIp myIp keypair now, pm' =>
    ExchangeRun senderIp myIp keypair now entries pm pm'
  | pm, op, pm' => pm' = pm.apply op

/-- The model's exchange is one that leaves the table in its order. -/
theorem exchangeRun_addFromPex (pm : PeerManager) (entries : List PexEntry)
    (senderIp myIp : Ipv4Addr) (keypair : KeyPair) (now : Instant) :
    ExchangeRun senderIp myIp keypair now entries pm
      (pm.addFromPex entries senderIp myIp keypair now) := by
  induction entries generalizing pm with
  | nil => rfl
  | cons entry entries ih => exact ⟨pm, .refl pm, ih _⟩

/-- Performing an operation in the present order is a step. -/
theorem step_apply (pm : PeerManager) (op : Op) : Step pm op (pm.apply op) := by
  cases op with
  | reorder => exact .refl pm
  | addFromPex entries senderIp myIp keypair now =>
      exact exchangeRun_addFromPex pm entries senderIp myIp keypair now
  | _ => exact rfl

/-- Performing operations in the order in which the table stands is a run. -/
theorem run_apply (pm : PeerManager) (ops : List Op) :
    Run Step pm (traceOf apply pm ops) (ops.foldl apply pm) :=
  Run.of_traceOf fun entry _ => step_apply entry.1 entry.2

/-- What every entry preserves under every order, an exchange preserves. -/
theorem ExchangeRun.invariant {Holds : PeerManager → Prop} {senderIp myIp : Ipv4Addr}
    {keypair : KeyPair} {now : Instant} {entries : List PexEntry} {pm pm' : PeerManager}
    (reorder : ∀ {pm met}, Holds pm → Reordered pm met → Holds met)
    (exchange : ∀ {pm pm' entry}, entry ∈ entries → Holds pm →
      Exchanges pm pm' entry senderIp keypair now → Holds pm')
    (initially : Holds pm) (run : ExchangeRun senderIp myIp keypair now entries pm pm') :
    Holds pm' := by
  induction entries generalizing pm with
  | nil =>
      cases run
      exact initially
  | cons entry entries ih =>
      obtain ⟨met, reordered, rest⟩ := run
      have after := exchange List.mem_cons_self (reorder initially reordered)
        (met.addPexEntry_exchanges entry senderIp myIp keypair now)
      exact ih (fun member => exchange (List.mem_cons_of_mem _ member)) after rest

/-- A peer exchange leaves the routes and the purged IPs. -/
theorem ExchangeRun.sameRest {senderIp myIp : Ipv4Addr} {keypair : KeyPair} {now : Instant}
    {entries : List PexEntry} {pm pm' : PeerManager}
    (run : ExchangeRun senderIp myIp keypair now entries pm pm') : SameRest pm pm' := by
  induction entries generalizing pm with
  | nil =>
      cases run
      exact .refl pm'
  | cons entry entries ih =>
      obtain ⟨met, reordered, rest⟩ := run
      exact (reordered.rest.trans (addPexEntry_sameRest _ _ _ _ _)).trans (ih rest)

/-- The IP of the peer whose endpoint an operation edits at most. -/
def Op.endpointOf : Op → Option Ipv4Addr
  | .updateEndpoint ip _ => some ip
  | .updateEndpointIfRoaming ip _ => some ip
  | .clearEndpoint ip => some ip
  | _ => none

/-- The endpoint operations edit one record or do nothing. -/
theorem Step.edits {pm pm' : PeerManager} {op : Op} {ip : Ipv4Addr} (transition : Step pm op pm')
    (on : op.endpointOf = some ip) : pm' = pm ∨ ∃ old new, Edits pm pm' ip old new := by
  cases op with
  | updateEndpoint ip endpoint =>
      cases transition
      cases on
      rcases @updateEndpoint_cases _ pm ip endpoint with ⟨_, same⟩ | ⟨peer, moves⟩
      · exact Or.inl same
      · exact Or.inr ⟨peer, _, moves.toEdits⟩
  | updateEndpointIfRoaming ip endpoint =>
      cases transition
      cases on
      rcases @updateEndpointIfRoaming_cases _ pm ip endpoint with ⟨_, same⟩ | ⟨peer, _, moves⟩
      · exact Or.inl same
      · exact Or.inr ⟨peer, _, moves.toEdits⟩
  | clearEndpoint ip =>
      cases transition
      cases on
      rcases @clearEndpoint_cases _ pm ip with ⟨_, same⟩ | ⟨peer, moves⟩
      · exact Or.inl same
      · exact Or.inr ⟨peer, _, moves.toEdits⟩
  | _ => cases on

section Views

variable {pm pm' : PeerManager} {ip : Ipv4Addr} {old new : Peer} {replacement : Option Peer}
  {source : Option Ipv4Addr}

/-- The order does not matter for lookups. -/
theorem Reordered.peers (reordered : Reordered pm pm') (ip : Ipv4Addr) :
    pm'.peersByIp.get ip = pm.peersByIp.get ip :=
  reordered.table.get_eq ip

/-- Nor for the IDs. -/
theorem Reordered.idAt (reordered : Reordered pm pm') : pm'.idAt = pm.idAt := by
  funext ip
  simp [PeerManager.idAt, reordered.peers]

/-- Nor for the endpoints. -/
theorem Reordered.endpointAt (reordered : Reordered pm pm') : pm'.endpointAt = pm.endpointAt := by
  funext ip
  simp [PeerManager.endpointAt, reordered.peers]

/-- What a replacement does to the IDs. -/
theorem Replaces.idAt (replaces : Replaces pm pm' ip replacement source) :
    pm'.idAt = (Change.mk ip (replacement.map Peer.peerId) source).onMarks pm.idAt := by
  funext other
  simp only [PeerManager.idAt, replaces.peers, Change.onMarks]
  split_ifs <;> rfl

/-- What a replacement does to the endpoints. -/
theorem Replaces.endpointAt (replaces : Replaces pm pm' ip replacement source) :
    pm'.endpointAt = (Change.mk ip (replacement.bind Peer.endpoint) source).onMarks pm.endpointAt := by
  funext other
  simp only [PeerManager.endpointAt, replaces.peers, Change.onMarks]
  split_ifs <;> rfl

/-- An edited record keeps its ID. -/
theorem Edits.peerId (edits : Edits pm pm' ip old new) : new.peerId = old.peerId := by
  rw [new.peerIdOfKey, old.peerIdOfKey, edits.publicKey]

/-- An edit leaves the IDs. -/
theorem Edits.idAt (edits : Edits pm pm' ip old new) : pm'.idAt = pm.idAt := by
  funext other
  simp only [PeerManager.idAt, edits.peers]
  split
  · next here => rw [here, edits.held, Option.map_some, Option.map_some, edits.peerId]
  · rfl

/-- What a moving endpoint does to the endpoints. -/
theorem Moves.endpointAt (moves : Moves pm pm' ip old new) :
    pm'.endpointAt = (Change.mk ip new.endpoint (some ip)).onMarks pm.endpointAt := by
  funext other
  simp only [PeerManager.endpointAt, moves.peers, Change.onMarks, Option.some.injEq]
  split
  · rfl
  · next elsewhere => rw [if_neg (Ne.symm elsewhere)]

/-- What leaves the endpoint of a record leaves all of them. -/
theorem Touches.endpointAt (touches : Touches pm pm' ip old new) :
    pm'.endpointAt = pm.endpointAt := by
  funext other
  simp only [PeerManager.endpointAt, touches.peers]
  split
  · next here => rw [here, touches.held, Option.bind_some, Option.bind_some, touches.endpoint]
  · rfl

end Views
end WolfNet.PeerManager
