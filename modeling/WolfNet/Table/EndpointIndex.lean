import WolfNet.Crates.Sample
import WolfNet.Table.Ops

/-!
# The endpoint index

The index by endpoint should have an entry for each endpoint that a peer holds, and no
other. Peers may come to share an endpoint, and each operation edits the entries of the
peer it works on alone: `endpoint_index_exact_iff` says that the index stays right
exactly while no operation drops an entry that another peer still needs or leaves one
behind for a peer that it overwrites.
-/

namespace WolfNet.PeerManager

open WolfNet.Std WolfNet.Semantics

section Runs

variable [Crates]

/-- The index has an entry for exactly the endpoints that peers hold, and each entry
names a peer that holds it. -/
structure EndpointIndexExact (pm : PeerManager) : Prop where
  domain : ∀ endpoint, (∃ ip, pm.endpointToIp.get endpoint = some ip) ↔
    ∃ ip peer, pm.peersByIp.get ip = some peer ∧ peer.endpoint = some endpoint
  holder : ∀ endpoint ip, pm.endpointToIp.get endpoint = some ip →
    ∃ peer, pm.peersByIp.get ip = some peer ∧ peer.endpoint = some endpoint

/-- The peer at an IP gets an endpoint, and its old one is forgotten. -/
def moveTo (ip : Ipv4Addr) (endpoint : Option SocketAddr) : Change Ipv4Addr SocketAddr :=
  ⟨ip, endpoint, some ip⟩

/-- What an operation changes about endpoints: who gets which, and whose old one is
forgotten. An added peer is indexed without regard to the one it overwrites. -/
def endpointChange (pm : PeerManager) : Op → Option (Change Ipv4Addr SocketAddr)
  | .reorder => none
  | .addPeer peer => some ⟨peer.wolfnetIp, peer.endpoint, none⟩
  | .removePeer ip => some (moveTo ip none)
  | .purgePeer ip => some (moveTo ip none)
  | .updateEndpoint ip endpoint => (pm.peersByIp.get ip).map fun _ => moveTo ip (some endpoint)
  | .updateEndpointIfRoaming ip endpoint => (pm.peersByIp.get ip).bind fun peer =>
    if peer.configuredEndpoint = none then some (moveTo ip (some endpoint)) else none
  | .clearEndpoint ip => (pm.peersByIp.get ip).map fun _ => moveTo ip none
  | .updateFromDiscovery publicKey endpoint ip _ _ =>
    match (pm.peersByIp.get ip).filter fun peer => peer.publicKey.Same publicKey with
    | some peer =>
      if peer.configuredEndpoint = none then some (moveTo ip (some endpoint)) else none
    | none => some ⟨ip, some endpoint, some ((pm.findIpByKey publicKey).getD ip)⟩
  | .addFromPex _ _ _ _ _ => none

/-- An operation leaves no trace of the endpoints it ends: the one it forgets is held by
no other peer, and the one it overwrites is not indexed to the peer it overwrites. -/
def KeepsEndpoints (pm : PeerManager) (op : Op) : Prop :=
  ∀ change ∈ pm.endpointChange op, change.Clean pm.endpointAt pm.endpointToIp.get

variable {pm pm' : PeerManager} {op : Op}

/-- The endpoint at an IP is that of the peer there. -/
theorem endpointAt_eq_some {ip : Ipv4Addr} {endpoint : SocketAddr} :
    pm.endpointAt ip = some endpoint ↔
      ∃ peer, pm.peersByIp.get ip = some peer ∧ peer.endpoint = some endpoint :=
  Option.bind_eq_some_iff

/-- An exact index is one that indexes the endpoints. -/
theorem endpointIndexExact_iff :
    EndpointIndexExact pm ↔ Indexes pm.endpointAt pm.endpointToIp.get := by
  constructor
  · intro exact
    constructor
    · intro endpoint ip found
      exact endpointAt_eq_some.mpr (exact.holder endpoint ip found)
    · intro ip endpoint held
      exact (exact.domain endpoint).mpr ⟨ip, endpointAt_eq_some.mp held⟩
  · intro indexes
    constructor
    · intro endpoint
      constructor
      · rintro ⟨ip, found⟩
        exact ⟨ip, endpointAt_eq_some.mp (indexes.sound found)⟩
      · rintro ⟨ip, held⟩
        exact indexes.covers (endpointAt_eq_some.mpr held)
    · intro endpoint ip found
      exact endpointAt_eq_some.mp (indexes.sound found)

/-- The endpoints and their index are as before but for a change. -/
structure Follows (pm pm' : PeerManager) (change : Option (Change Ipv4Addr SocketAddr)) :
    Prop where
  marks : pm'.endpointAt = match change with
    | some change => change.onMarks pm.endpointAt
    | none => pm.endpointAt
  index : pm'.endpointToIp.get = match change with
    | some change => change.onIndex pm.endpointAt pm.endpointToIp.get
    | none => pm.endpointToIp.get

/-- What a replacement changes in the endpoints and their index. -/
theorem Replaces.follows {ip : Ipv4Addr} {replacement : Option Peer} {source : Option Ipv4Addr}
    (replaces : Replaces pm pm' ip replacement source) :
    Follows pm pm' (some ⟨ip, replacement.bind Peer.endpoint, source⟩) :=
  ⟨replaces.endpointAt, replaces.endpoints⟩

/-- What a moving endpoint changes there. -/
theorem Moves.follows {ip : Ipv4Addr} {old new : Peer} (moves : Moves pm pm' ip old new) :
    Follows pm pm' (some (moveTo ip new.endpoint)) :=
  ⟨moves.endpointAt, moves.endpoints⟩

/-- A record whose endpoint stays changes nothing there. -/
theorem Touches.follows {ip : Ipv4Addr} {old new : Peer} (touches : Touches pm pm' ip old new) :
    Follows pm pm' none :=
  ⟨touches.endpointAt, by rw [touches.endpoints]⟩

/-- Nothing changes nothing. -/
theorem Follows.refl (pm : PeerManager) : Follows pm pm none := ⟨rfl, rfl⟩

/-- Every operation but a peer exchange makes the change of endpoints it is said to make. -/
theorem apply_follows (notExchange : ∀ entries senderIp myIp keypair now,
    op ≠ .addFromPex entries senderIp myIp keypair now) :
    Follows pm (pm.apply op) (pm.endpointChange op) := by
  cases op with
  | reorder => exact .refl pm
  | addPeer peer => exact (pm.addPeer_replaces peer).follows
  | removePeer ip => exact (pm.removePeer_replaces ip).follows
  | purgePeer ip => exact (pm.purgePeer_replaces ip).follows
  | updateEndpoint ip endpoint =>
      rcases @updateEndpoint_cases _ pm ip endpoint with ⟨absent, same⟩ | ⟨peer, moves⟩
      · simpa [apply, endpointChange, absent, same] using Follows.refl pm
      · simpa [apply, endpointChange, moves.held] using moves.follows
  | updateEndpointIfRoaming ip endpoint =>
      rcases @updateEndpointIfRoaming_cases _ pm ip endpoint with
        ⟨pinned, same⟩ | ⟨peer, line, moves⟩
      · cases held : pm.peersByIp.get ip with
        | none => simpa [apply, endpointChange, held, same] using Follows.refl pm
        | some peer =>
            simpa [apply, endpointChange, held, pinned peer held, same] using Follows.refl pm
      · simpa [apply, endpointChange, moves.held, line] using moves.follows
  | clearEndpoint ip =>
      rcases @clearEndpoint_cases _ pm ip with ⟨absent, same⟩ | ⟨peer, moves⟩
      · simpa [apply, endpointChange, absent, same] using Follows.refl pm
      · simpa [apply, endpointChange, moves.held] using moves.follows
  | updateFromDiscovery publicKey endpoint ip hostname isGateway =>
      have discovers := pm.updateFromDiscovery_discovers publicKey endpoint ip hostname isGateway
      cases discovers with
      | refreshed peer keyed line moves =>
          simpa [apply, endpointChange, moves.held, Option.filter, keyed, line] using moves.follows
      | pinned peer keyed line touches =>
          simpa [apply, endpointChange, touches.held, Option.filter, keyed, line] using
            touches.follows
      | migrated oldIp peer elsewhere held keyed search foreign replaces =>
          have none : (pm.peersByIp.get ip).filter (fun peer =>
            peer.publicKey.Same publicKey) = none := by
            simpa [Option.filter_eq_none_iff] using foreign
          simp only [apply, endpointChange, none, search]
          exact replaces.follows
      | inserted unknown replaces =>
          have none : (pm.peersByIp.get ip).filter (fun peer =>
            peer.publicKey.Same publicKey) = none := by
            simpa [Option.filter_eq_none_iff] using unknown ip
          simp only [apply, endpointChange, none, findIpByKey_none.mpr unknown]
          exact replaces.follows
  | addFromPex entries senderIp myIp keypair now =>
      exact absurd rfl (notExchange entries senderIp myIp keypair now)

/-- A change keeps the index exact exactly when it is clean. -/
theorem Follows.exact_iff {change : Option (Change Ipv4Addr SocketAddr)}
    (exact : EndpointIndexExact pm) (follows : Follows pm pm' change) :
    EndpointIndexExact pm' ↔
      ∀ made ∈ change, made.Clean pm.endpointAt pm.endpointToIp.get := by
  rw [endpointIndexExact_iff, follows.marks, follows.index]
  have indexes := endpointIndexExact_iff.mp exact
  cases change with
  | none => simpa using indexes
  | some change => simpa using indexes.change_iff

/-- An exchange entry keeps the index exact. -/
theorem EndpointIndexExact.exchanges {entry : PexEntry} {senderIp : Ipv4Addr} {keypair : KeyPair}
    {now : Instant} (exact : EndpointIndexExact pm)
    (exchanges : Exchanges pm pm' entry senderIp keypair now) : EndpointIndexExact pm' := by
  cases exchanges with
  | ignored same =>
      rw [same]
      exact exact
  | relayed ip peer touches => exact (touches.follows.exact_iff exact).mpr (by simp)
  | inserted publicKey ip free parsed unknown replaces =>
      refine (replaces.follows.exact_iff exact).mpr ?_
      rintro _ ⟨⟩ endpoint _
      -- Nothing is forgotten, and at a free IP nothing is overwritten.
      exact ⟨by simp [Change.forgotten], by simp [endpointAt, free]⟩

/-- The order of the table does not matter for the index. -/
theorem EndpointIndexExact.reordered (exact : EndpointIndexExact pm)
    (reordered : Reordered pm pm') : EndpointIndexExact pm' := by
  rw [endpointIndexExact_iff, reordered.endpointAt, reordered.endpoints]
  exact endpointIndexExact_iff.mp exact

/-- A step keeps the index exact exactly when its operation does. -/
theorem EndpointIndexExact.step_iff (exact : EndpointIndexExact pm) (transition : Step pm op pm') :
    EndpointIndexExact pm' ↔ KeepsEndpoints pm op := by
  cases op with
  | reorder =>
      exact iff_of_true (exact.reordered transition) (by simp [KeepsEndpoints, endpointChange])
  | addFromPex entries senderIp myIp keypair now =>
      have after := ExchangeRun.invariant (fun exact order =>
        EndpointIndexExact.reordered exact order)
        (fun _ exact exchange => EndpointIndexExact.exchanges exact exchange) exact transition
      exact iff_of_true after (by simp [KeepsEndpoints, endpointChange])
  | _ =>
      cases transition
      exact (apply_follows (by simp)).exact_iff exact

/-- An empty manager has an exact index. -/
theorem endpointIndexExact_new : EndpointIndexExact new :=
  ⟨by simp [new], by simp [new]⟩

/-- In every run from an empty manager, the index by endpoint is always exact exactly when
no operation drops the entry of an endpoint that another peer holds or leaves one behind
for a peer that it overwrites. -/
theorem endpoint_index_exact_iff {trace : List (PeerManager × Op)} {last : PeerManager}
    (run : Run Step new trace last) :
    Always EndpointIndexExact trace last ↔ Throughout KeepsEndpoints trace :=
  run.always_iff id (fun exact keeps transition => (exact.step_iff transition).mpr keeps)
    (fun exact transition after => (exact.step_iff transition).mp after) endpointIndexExact_new

end Runs

section Sample

attribute [local instance] Sample.crates

/-- A sample node behind a port of one public address. -/
def samplePeer (byte : UInt8) (port : UInt16) : Peer :=
  { Peer.new (Sample.keypair byte).publicKey ⟨10, 10, 10, byte⟩ with
    endpoint := some (.v4 ⟨203, 0, 113, 7⟩ port) }

/-- A peer that roams alone. -/
theorem endpoint_index_exact_iff_sample :
    Always EndpointIndexExact
      (traceOf apply new [.addPeer (samplePeer 1 1),
        .updateEndpointIfRoaming ⟨10, 10, 10, 1⟩ (.v4 ⟨203, 0, 113, 7⟩ 3)])
      ([.addPeer (samplePeer 1 1),
        .updateEndpointIfRoaming ⟨10, 10, 10, 1⟩ (.v4 ⟨203, 0, 113, 7⟩ 3)].foldl apply new) := by
  refine (endpoint_index_exact_iff (run_apply new _)).mpr ?_
  simp only [Throughout, traceOf, List.forall_mem_cons, List.not_mem_nil, false_implies,
    implies_true, and_true]
  constructor
  · rintro _ ⟨⟩ endpoint _
    exact ⟨by simp [Change.forgotten], by simp [endpointAt, new]⟩
  · rintro _ ⟨⟩ endpoint _
    refine ⟨?_, fun kept held => absurd held kept⟩
    intro _ other elsewhere _
    have free : (new.apply (.addPeer (samplePeer 1 1))).endpointAt other = none := by
      have absent : other ≠ (samplePeer 1 1).wolfnetIp := elsewhere
      simp [apply, addPeer, endpointAt, HashMap.get_insert, absent, new]
    simp [free]

/-- Two peers that share an endpoint, one of which roams away. -/
def sharingOps : List Op :=
  [.addPeer (samplePeer 1 1), .addPeer (samplePeer 2 1),
    .updateEndpointIfRoaming ⟨10, 10, 10, 1⟩ (.v4 ⟨203, 0, 113, 7⟩ 3)]

/-- The peer that stays loses its index entry. -/
theorem endpoint_entry_lost :
    Run Step new (traceOf apply new sharingOps) (sharingOps.foldl apply new) ∧
    ¬Always EndpointIndexExact (traceOf apply new sharingOps) (sharingOps.foldl apply new) := by
  refine ⟨run_apply new sharingOps, ?_⟩
  intro always
  have held : (sharingOps.foldl apply new).endpointAt ⟨10, 10, 10, 2⟩ =
      some (.v4 ⟨203, 0, 113, 7⟩ 1) := by decide
  obtain ⟨ip, found⟩ := (always.2.domain _).mpr ⟨_, endpointAt_eq_some.mp held⟩
  have lost : (sharingOps.foldl apply new).endpointToIp.get (.v4 ⟨203, 0, 113, 7⟩ 1) = none := by
    decide
  simp [lost] at found

end Sample
end WolfNet.PeerManager
