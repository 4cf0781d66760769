import WolfNet.Crates.Sample
import WolfNet.Table.Exchange

/-!
# What an exchange does to known peers

An exchange repeats what others say, so it should leave known peers alone: at most it gives a
relayed peer that it names by IP and key a new relay. It does more in three cases, and
`hearsay_frames_iff` says that these are all: an entry names a relayed peer's IP under a key that
nobody has, a new peer comes with the endpoint of a known one, and a new peer has its ID.
-/

namespace WolfNet.PeerManager

open WolfNet.Std WolfNet.Semantics

section Hearsay

variable [Crates]

/-- An entry names an IP under a key, as the crate compares keys. -/
def Names (entries : List PexEntry) (ip : Ipv4Addr) (publicKey : PublicKey) : Prop :=
  ∃ entry ∈ entries, ∃ named, Ipv4Addr.parse entry.wolfnetIp.toList = some ip ∧
    parsePublicKey entry.publicKey = .ok named ∧ publicKey.Same named

/-- Known peers stay as they were, but for the relay of a relayed peer that the message names, and
what led to them still does. -/
structure FramesKnown (pm pm' : PeerManager) (entries : List PexEntry) (senderIp : Ipv4Addr)
    (now : Instant) : Prop where
  records : ∀ ip peer, pm.peersByIp.get ip = some peer → pm'.peersByIp.get ip = some peer ∨
    pm'.peersByIp.get ip = some { peer with relayVia := some senderIp } ∧
      peer.isConnected now = false ∧ peer.relayVia ≠ none ∧ Names entries ip peer.publicKey
  endpoints : ∀ addr ip peer, pm.peersByIp.get ip = some peer → pm.findIpByEndpoint addr = some ip →
    pm'.findIpByEndpoint addr = some ip
  ids : ∀ id ip peer, pm.peersByIp.get ip = some peer → pm.findIpById id = some ip →
    pm'.findIpById id = some ip

/-- The message strays from no relayed peer that it does not name, and no new peer that it brings
has an endpoint or an ID that leads to a known one. -/
structure Harmless (pm : PeerManager) (entries : List PexEntry) (senderIp myIp : Ipv4Addr)
    (now : Instant) : Prop where
  relays : ∀ ip peer, pm.peersByIp.get ip = some peer → peer.isConnected now = false →
    peer.relayVia ≠ none → peer.relayVia ≠ some senderIp → pm.Strays myIp entries ip →
    Names entries ip peer.publicKey
  endpoints : ∀ admission ∈ pm.admissions myIp entries, ∀ addr ip peer,
    offeredEndpoint admission.request = some addr → pm.peersByIp.get ip = some peer →
    pm.findIpByEndpoint addr ≠ some ip
  ids : ∀ admission ∈ pm.admissions myIp entries, ∀ ip peer, pm.peersByIp.get ip = some peer →
    pm.findIpById (KeyPair.peerId admission.name) ≠ some ip

variable {pm pm' : PeerManager} {entries : List PexEntry} {senderIp myIp ip : Ipv4Addr}
  {keypair : KeyPair} {now : Instant} {peer : Peer}

/-- An index entry of a known peer stays exactly when no new peer writes there. -/
theorem written_known {write : Admission → Option (Option Ipv4Addr)} {initial : Option Ipv4Addr}
    (slots : ∀ admission target, write admission = some target → target = some admission.slot)
    (held : pm.peersByIp.get ip = some peer) (leads : initial = some ip) :
    written write initial (pm.admissions myIp entries) = some ip ↔
      ∀ admission ∈ pm.admissions myIp entries, write admission = none := by
  rw [written_eq_iff_silent, and_iff_left leads]
  intro admission member wrote
  have here : ip = admission.slot := Option.some.inj (slots admission _ wrote)
  have free := (mem_admissions member).2.2.1
  rw [← here, held] at free
  cases free

/-- A peer that an entry names under a foreign key is named under its own when the message names
it so at all. -/
theorem NamesOwn.names (names : pm.NamesOwn myIp entries ip peer) :
    Names entries ip peer.publicKey := by
  obtain ⟨entry, member, publicKey, acceptable, own⟩ := names
  exact ⟨entry, member, publicKey, acceptable.ipParsed, acceptable.keyParsed, own⟩

/-- Records of known peers stay exactly when the message strays from none that it does not name. -/
theorem Exchanged.records_iff (exchanged : Exchanged pm pm' entries senderIp myIp keypair now) :
    (∀ ip peer, pm.peersByIp.get ip = some peer → pm'.peersByIp.get ip = some peer ∨
      pm'.peersByIp.get ip = some (redirected peer senderIp) ∧
        peer.isConnected now = false ∧ peer.relayVia ≠ none ∧ Names entries ip peer.publicKey) ↔
    ∀ ip peer, pm.peersByIp.get ip = some peer → peer.isConnected now = false →
      peer.relayVia ≠ none → peer.relayVia ≠ some senderIp → pm.Strays myIp entries ip →
      Names entries ip peer.publicKey := by
  constructor
  · intro records ip peer held silent relayed other strays
    have done := exchanged.redirects ip peer held ⟨silent, relayed⟩ (Or.inl strays)
    rcases records ip peer held with stays | ⟨_, _, _, names⟩
    · rw [stays] at done
      exact absurd (congrArg Peer.relayVia (Option.some.inj done)) other
    · exact names
  · intro named ip peer held
    rcases exchanged.known ip peer held with stays | ⟨done, relayed, names⟩
    · exact Or.inl stays
    · by_cases same : peer.relayVia = some senderIp
      · left
        rw [done, redirected, ← same]
      · refine Or.inr ⟨done, relayed.1, relayed.2, ?_⟩
        rcases names with own | strays
        · exact own.names
        · exact named ip peer held relayed.1 relayed.2 same strays

/-- A message leaves known peers alone exactly when it is harmless. -/
theorem hearsay_frames_iff (run : ExchangeRun senderIp myIp keypair now entries pm pm') :
    FramesKnown pm pm' entries senderIp now ↔ Harmless pm entries senderIp myIp now := by
  have endpoints {addr : SocketAddr} {ip : Ipv4Addr} {peer : Peer}
    (held : pm.peersByIp.get ip = some peer)
      (leads : pm.findIpByEndpoint addr = some ip) : pm'.findIpByEndpoint addr = some ip ↔
        ∀ admission ∈ pm.admissions myIp entries,
          offeredEndpoint admission.request ≠ some addr := by
    rw [findIpByEndpoint] at leads ⊢
    rw [run.exchanged.endpoints, written_known _ held leads]
    · simp [admissionEndpoint]
    · simp [admissionEndpoint, eq_comm]
  have ids {id : PeerId} {ip : Ipv4Addr} {peer : Peer} (held : pm.peersByIp.get ip = some peer)
      (leads : pm.findIpById id = some ip) : pm'.findIpById id = some ip ↔
        ∀ admission ∈ pm.admissions myIp entries, KeyPair.peerId admission.name ≠ id := by
    rw [findIpById] at leads ⊢
    rw [run.exchanged.ids, written_known _ held leads]
    · simp [admissionId]
    · simp [admissionId, eq_comm]
  constructor
  · rintro ⟨records, endpointsKept, idsKept⟩
    refine ⟨run.exchanged.records_iff.mp records, ?_, ?_⟩
    · intro admission member addr ip peer offered held leads
      exact (endpoints held leads).mp (endpointsKept addr ip peer held leads) admission member offered
    · intro admission member ip peer held leads
      exact (ids held leads).mp (idsKept _ ip peer held leads) admission member rfl
  · rintro ⟨relays, noEndpoint, noId⟩
    refine ⟨run.exchanged.records_iff.mpr relays, ?_, ?_⟩
    · intro addr ip peer held leads
      refine (endpoints held leads).mpr fun admission member offered => ?_
      exact noEndpoint admission member addr ip peer offered held leads
    · intro id ip peer held leads
      refine (ids held leads).mpr ?_
      rintro admission member rfl
      exact noId admission member ip peer held leads

end Hearsay

section Sample

attribute [local instance] Sample.crates

/-- A peer that is reached through 10.10.10.2. -/
def relayedPeer : Peer :=
  { Peer.new (Sample.keypair 3).publicKey ⟨10, 10, 10, 3⟩ with relayVia := some ⟨10, 10, 10, 2⟩ }

/-- A table with the sender of a message and a relayed peer. -/
def hearsayTable : PeerManager :=
  (new.addPeer (Peer.new (Sample.keypair 4).publicKey ⟨10, 10, 10, 4⟩)).addPeer relayedPeer

/-- An entry for the relayed peer's IP under a key. -/
def hearsayEntry (byte : UInt8) : PexEntry where
  publicKey := Crates.base64Encode (Sample.keypair byte).publicKey.1
  wolfnetIp := "10.10.10.3"
  endpoint := none
  hostname := "gamma"
  isGateway := false

/-- The table after a message of the sender with that entry. -/
def afterHearsay (byte : UInt8) : PeerManager :=
  hearsayTable.addFromPex [hearsayEntry byte] ⟨10, 10, 10, 4⟩ ⟨10, 10, 10, 1⟩ (Sample.keypair 1) 0

/-- All but one of the records have no relay. -/
theorem held_hearsayTable {ip : Ipv4Addr} {peer : Peer}
    (held : hearsayTable.peersByIp.get ip = some peer) :
    ip = ⟨10, 10, 10, 3⟩ ∧ peer = relayedPeer ∨ peer.relayVia = none := by
  rw [hearsayTable, (addPeer_replaces _ _).peers, (addPeer_replaces _ _).peers] at held
  split_ifs at held with first second
  · exact Or.inl ⟨first, (Option.some.inj held).symm⟩
  · rw [← Option.some.inj held]
    exact Or.inr rfl
  · simp [new] at held

/-- The sender names the relayed peer by its IP and its own key, and becomes its relay. -/
theorem hearsay_frames_iff_sample :
    FramesKnown hearsayTable (afterHearsay 3) [hearsayEntry 3] ⟨10, 10, 10, 4⟩ 0 := by
  refine (hearsay_frames_iff (exchangeRun_addFromPex _ _ _ _ _ _)).mpr ⟨?_, ?_, ?_⟩
  · intro ip peer held _ relayed _ _
    rcases held_hearsayTable held with ⟨rfl, rfl⟩ | direct
    · exact ⟨hearsayEntry 3, List.mem_singleton_self _, _, by decide, by decide, .refl _⟩
    · exact absurd direct relayed
  · have none : hearsayTable.admissions ⟨10, 10, 10, 1⟩ [hearsayEntry 3] = [] := by decide
    simp [none]
  · have none : hearsayTable.admissions ⟨10, 10, 10, 1⟩ [hearsayEntry 3] = [] := by decide
    simp [none]

/-- The sender names the relayed peer's IP under a key that nobody has, and becomes its relay. -/
theorem relay_changed_by_stranger :
    ¬FramesKnown hearsayTable (afterHearsay 9) [hearsayEntry 9] ⟨10, 10, 10, 4⟩ 0 := by
  intro frames
  have changed : ((afterHearsay 9).peersByIp.get ⟨10, 10, 10, 3⟩).map Peer.relayVia =
      some (some ⟨10, 10, 10, 4⟩) := by decide
  rcases frames.records ⟨10, 10, 10, 3⟩ relayedPeer rfl with stays | ⟨_, _, _, names⟩
  · rw [stays] at changed
    exact absurd changed (by decide)
  · obtain ⟨entry, member, named, _, keyParsed, own⟩ := names
    have parsed : parsePublicKey (hearsayEntry 9).publicKey = .ok (Sample.keypair 9).publicKey := by
      decide
    rw [List.mem_singleton.mp member, parsed] at keyParsed
    cases keyParsed
    exact absurd own (by decide)

end Sample
end WolfNet.PeerManager
