import WolfNet.Semantics.Admission
import WolfNet.Semantics.Writes
import WolfNet.Table.Ops

/-!
# What a peer exchange does

Each entry that names a usable IP and key brings a new peer, redirects a relayed one to the
sender, or does nothing. Which entries bring new peers follows from the table before the
message and the order of its entries: `admissions`. `ExchangeRun.exchanged` describes the table
and its indexes after a whole message by these.
-/

namespace WolfNet.PeerManager

open WolfNet.Std WolfNet.Semantics

variable [Crates]

/-- An entry that brings a new peer, with the peer's IP for its slot and the key for its name. -/
abbrev Admission := Grant PexEntry Ipv4Addr PublicKey

/-- No peer of the table has the key. -/
def Unknown (pm : PeerManager) (publicKey : PublicKey) : Prop :=
  ∀ other peer, pm.peersByIp.get other = some peer → ¬peer.publicKey.Same publicKey

/-- No key has two IPs. -/
def KeysDistinct (pm : PeerManager) : Prop :=
  ∀ ip other peer twin, pm.peersByIp.get ip = some peer → pm.peersByIp.get other = some twin →
    peer.publicKey.Same twin.publicKey → ip = other

/-- What an entry asks of the table before the message: an IP without a peer for a key without
one. -/
def asks (pm : PeerManager) (myIp : Ipv4Addr) (entry : PexEntry) : Option (Ipv4Addr × PublicKey) :=
  (pm.offer myIp entry).filter fun (ip, publicKey) =>
    (pm.peersByIp.get ip).isNone && (pm.findIpByKey publicKey).isNone

/-- The entries of a message that bring new peers, the first one winning. -/
def admissions (pm : PeerManager) (myIp : Ipv4Addr) (entries : List PexEntry) : List Admission :=
  Grant.grants Crates.coordinate (pm.asks myIp) entries

/-- The record of the peer that an entry brings. -/
def admittedPeer (senderIp : Ipv4Addr) (keypair : KeyPair) (now : Instant) (admission : Admission) :
    Peer :=
  pexPeer admission.request admission.name admission.slot senderIp keypair now

/-- The endpoint of an entry, if it parses and is routable. -/
def offeredEndpoint (entry : PexEntry) : Option SocketAddr :=
  entry.endpoint.bind fun text => (SocketAddr.parse text.toList).filter isRoutableEndpoint

/-- Where a new peer leads an ID. -/
def admissionId (id : PeerId) (admission : Admission) : Option (Option Ipv4Addr) :=
  if KeyPair.peerId admission.name = id then some (some admission.slot) else none

/-- Where a new peer leads an endpoint. -/
def admissionEndpoint (addr : SocketAddr) (admission : Admission) : Option (Option Ipv4Addr) :=
  if offeredEndpoint admission.request = some addr then some (some admission.slot) else none

/-- An entry names the peer by its own IP and its own key. -/
def NamesOwn (pm : PeerManager) (myIp : Ipv4Addr) (entries : List PexEntry) (ip : Ipv4Addr)
    (peer : Peer) : Prop :=
  ∃ entry ∈ entries, ∃ publicKey, pm.Acceptable myIp entry ip publicKey ∧
    peer.publicKey.Same publicKey

/-- An entry names the IP under a key that no peer has when the entry is met. -/
def Strays (pm : PeerManager) (myIp : Ipv4Addr) (entries : List PexEntry) (ip : Ipv4Addr) : Prop :=
  ∃ before entry after publicKey, entries = before ++ entry :: after ∧
    pm.Acceptable myIp entry ip publicKey ∧ pm.Unknown publicKey ∧
    ∀ admission ∈ pm.admissions myIp before, ¬admission.name.Same publicKey

/-- What a message did to the table: known peers stay but for a new relay, the admitted ones are
new, and the indexes lead to the last one that was written. -/
structure Exchanged (pm pm' : PeerManager) (entries : List PexEntry) (senderIp myIp : Ipv4Addr)
    (keypair : KeyPair) (now : Instant) : Prop where
  rest : SameRest pm pm'
  known : ∀ ip peer, pm.peersByIp.get ip = some peer → pm'.peersByIp.get ip = some peer ∨
    pm'.peersByIp.get ip = some (redirected peer senderIp) ∧ Relayed now peer ∧
      (pm.NamesOwn myIp entries ip peer ∨ pm.Strays myIp entries ip)
  redirects : ∀ ip peer, pm.peersByIp.get ip = some peer → Relayed now peer →
    (pm.Strays myIp entries ip ∨ pm.NamesOwn myIp entries ip peer ∧
      ∀ other twin, pm.peersByIp.get other = some twin → twin.publicKey.Same peer.publicKey →
        other = ip) →
    pm'.peersByIp.get ip = some (redirected peer senderIp)
  new : ∀ ip peer, pm.peersByIp.get ip = none → (pm'.peersByIp.get ip = some peer ↔
    ∃ admission ∈ pm.admissions myIp entries, admission.slot = ip ∧
      peer = admittedPeer senderIp keypair now admission)
  ids : ∀ id, pm'.idToIp.get id =
    written (admissionId id) (pm.idToIp.get id) (pm.admissions myIp entries)
  endpoints : ∀ addr, pm'.endpointToIp.get addr =
    written (admissionEndpoint addr) (pm.endpointToIp.get addr) (pm.admissions myIp entries)

variable {pm pm' met : PeerManager} {entry : PexEntry} {entries before after : List PexEntry}
  {senderIp myIp ip : Ipv4Addr} {publicKey : PublicKey} {keypair : KeyPair} {now : Instant}
  {peer : Peer}

/-- What an entry asks for: an acceptable IP and key that are both unknown. -/
theorem asks_eq_some : pm.asks myIp entry = some (ip, publicKey) ↔
    pm.Acceptable myIp entry ip publicKey ∧ pm.peersByIp.get ip = none ∧ pm.Unknown publicKey := by
  rw [asks, Option.filter_eq_some_iff, offer_eq_some, Bool.and_eq_true, Option.isNone_iff_eq_none,
    Option.isNone_iff_eq_none, findIpByKey_none]
  exact Iff.rfl

/-- The admissions of one more entry. -/
theorem admissions_snoc : pm.admissions myIp (entries ++ [entry]) =
    Grant.serve Crates.coordinate (pm.asks myIp) (pm.admissions myIp entries) entry :=
  Grant.grants_snoc _ _

/-- An admitted peer has the endpoint that its entry offers. -/
theorem pexPeer_endpoint :
    (pexPeer entry publicKey ip senderIp keypair now).endpoint = offeredEndpoint entry := by
  unfold offeredEndpoint pexPeer
  cases entry.endpoint <;> rfl

/-- An admitted peer has the sender for its relay already. -/
@[simp] theorem redirected_admittedPeer (admission : Admission) :
    redirected (admittedPeer senderIp keypair now admission) senderIp =
      admittedPeer senderIp keypair now admission := rfl

/-- What an admitted entry is: it names an IP that was free and a key that was unknown. -/
theorem mem_admissions {admission : Admission} (member : admission ∈ pm.admissions myIp entries) :
    admission.request ∈ entries ∧ pm.Acceptable myIp admission.request admission.slot admission.name ∧
      pm.peersByIp.get admission.slot = none ∧ pm.Unknown admission.name := by
  obtain ⟨before, after, rfl, asked, _⟩ := Grant.mem_grants_iff.mp member
  exact ⟨by simp, asks_eq_some.mp asked⟩

/-- One more entry may name the peer's own IP and key. -/
theorem namesOwn_snoc : pm.NamesOwn myIp (entries ++ [entry]) ip peer ↔
    pm.NamesOwn myIp entries ip peer ∨
      ∃ publicKey, pm.Acceptable myIp entry ip publicKey ∧ peer.publicKey.Same publicKey := by
  simp [NamesOwn, or_and_right, exists_or]

/-- One more entry may name the IP under another key. -/
theorem strays_snoc : pm.Strays myIp (entries ++ [entry]) ip ↔ pm.Strays myIp entries ip ∨
    ∃ publicKey, pm.Acceptable myIp entry ip publicKey ∧ pm.Unknown publicKey ∧
      ∀ admission ∈ pm.admissions myIp entries, ¬admission.name.Same publicKey := by
  constructor
  · rintro ⟨before, stray, after, publicKey, whole, rest⟩
    rcases List.eq_nil_or_concat after with rfl | ⟨front, last, rfl⟩
    · obtain ⟨rfl, same⟩ := List.append_inj' whole rfl
      cases same
      exact Or.inr ⟨publicKey, rest⟩
    · rw [List.concat_eq_append, ← List.cons_append, ← List.append_assoc] at whole
      obtain ⟨rfl, _⟩ := List.append_inj' whole rfl
      exact Or.inl ⟨before, stray, front, publicKey, rfl, rest⟩
  · rintro (⟨before, stray, after, publicKey, rfl, rest⟩ | ⟨publicKey, rest⟩)
    · exact ⟨before, stray, after ++ [entry], publicKey, by simp, rest⟩
    · exact ⟨entries, entry, [], publicKey, rfl, rest⟩

namespace Exchanged

/-- No entry changes nothing. -/
theorem nil : Exchanged pm pm [] senderIp myIp keypair now where
  rest := .refl pm
  known _ _ held := Or.inl held
  redirects ip peer _ _ named := by
    rcases named with ⟨before, _, _, _, whole, _⟩ | ⟨⟨_, member, _⟩, _⟩
    · cases before <;> cases whole
    · cases member
  new ip peer free := by simp [free, admissions]
  ids _ := rfl
  endpoints _ := rfl

/-- A message does the same in every order in which the table is met. -/
theorem reordered (exchanged : Exchanged pm pm' entries senderIp myIp keypair now)
    (reordered : Reordered pm' met) : Exchanged pm met entries senderIp myIp keypair now where
  rest := exchanged.rest.trans reordered.rest
  known ip peer held := by
    rw [reordered.peers]
    exact exchanged.known ip peer held
  redirects ip peer held relayed named := by
    rw [reordered.peers]
    exact exchanged.redirects ip peer held relayed named
  new ip peer free := by
    rw [reordered.peers]
    exact exchanged.new ip peer free
  ids id := by
    rw [reordered.ids]
    exact exchanged.ids id
  endpoints addr := by
    rw [reordered.endpoints]
    exact exchanged.endpoints addr

variable (exchanged : Exchanged pm met entries senderIp myIp keypair now)
include exchanged

/-- Whether an entry is acceptable does not change on the way. -/
theorem acceptable_iff :
    met.Acceptable myIp entry ip publicKey ↔ pm.Acceptable myIp entry ip publicKey := by
  constructor
  · rintro ⟨ipParsed, keyParsed, foreign, notPurged, subnet⟩
    exact ⟨ipParsed, keyParsed, foreign, exchanged.rest.purged ▸ notPurged, subnet⟩
  · rintro ⟨ipParsed, keyParsed, foreign, notPurged, subnet⟩
    exact ⟨ipParsed, keyParsed, foreign, exchanged.rest.purged ▸ notPurged, subnet⟩

/-- A known peer is still there, with its key and as well connected as before. -/
theorem held (held : pm.peersByIp.get ip = some peer) :
    met.peersByIp.get ip = some peer ∨ met.peersByIp.get ip = some (redirected peer senderIp) :=
  (exchanged.known ip peer held).imp_right And.left

/-- An IP is free when no known peer has it and no admitted one. -/
theorem free_iff : met.peersByIp.get ip = none ↔ pm.peersByIp.get ip = none ∧
    ∀ admission ∈ pm.admissions myIp entries, admission.slot ≠ ip := by
  cases held : pm.peersByIp.get ip with
  | some peer => rcases exchanged.held held with same | same <;> simp [same]
  | none =>
      rw [Option.eq_none_iff_forall_ne_some]
      simp only [ne_eq, exchanged.new ip _ held, not_exists, not_and, true_and]
      constructor
      · intro none admission member here
        exact none _ admission member here rfl
      · intro apart _ admission member here
        exact absurd here (apart admission member)

/-- A key is unknown when no known peer has it and no admitted one. -/
theorem unknown_iff : met.Unknown publicKey ↔ pm.Unknown publicKey ∧
    ∀ admission ∈ pm.admissions myIp entries, ¬admission.name.Same publicKey := by
  constructor
  · intro unknown
    constructor
    · intro other peer held
      rcases exchanged.held held with same | same
      · exact unknown other peer same
      · exact unknown other (redirected peer senderIp) same
    · intro admission member
      have free := (mem_admissions member).2.2.1
      exact unknown admission.slot _ ((exchanged.new _ _ free).mpr ⟨admission, member, rfl, rfl⟩)
  · rintro ⟨unknown, apart⟩ other peer held
    cases before : pm.peersByIp.get other with
    | some old =>
        rcases exchanged.held before with same | same <;> cases held.symm.trans same
        · exact unknown other peer before
        · exact unknown other old before
    | none =>
        obtain ⟨admission, member, _, rfl⟩ := (exchanged.new other peer before).mp held
        exact apart admission member

/-- The next entry brings a new peer exactly when its IP is free and its key is unknown by then. -/
theorem asked_iff : pm.asks myIp entry = some (ip, publicKey) ∧
      Grant.Free Crates.coordinate (pm.admissions myIp entries) ip publicKey ↔
    met.Acceptable myIp entry ip publicKey ∧ met.peersByIp.get ip = none ∧
      met.Unknown publicKey := by
  rw [asks_eq_some, exchanged.acceptable_iff, exchanged.free_iff, exchanged.unknown_iff]
  constructor
  · rintro ⟨⟨acceptable, free, unknown⟩, apart⟩
    exact ⟨acceptable, ⟨free, fun admission member => (apart admission member).1⟩, unknown,
      fun admission member => (apart admission member).2⟩
  · rintro ⟨acceptable, ⟨free, slots⟩, unknown, names⟩
    exact ⟨⟨acceptable, free, unknown⟩, fun admission member =>
      ⟨slots admission member, names admission member⟩⟩

/-- An entry that brings no peer is not admitted. -/
theorem admissions_same (notNew : ∀ ip publicKey, met.Acceptable myIp entry ip publicKey →
      met.peersByIp.get ip = none → ¬met.Unknown publicKey) :
    pm.admissions myIp (entries ++ [entry]) = pm.admissions myIp entries := by
  rw [admissions_snoc]
  rcases @Grant.serve_cases _ _ _ _ _ _ Crates.coordinate (pm.asks myIp) (pm.admissions myIp entries) entry with
    ⟨ip, publicKey, asked, free, _⟩ | ⟨_, same⟩
  · obtain ⟨acceptable, free, unknown⟩ := exchanged.asked_iff.mp ⟨asked, free⟩
    exact absurd unknown (notNew ip publicKey acceptable free)
  · exact same

/-- An entry that brings a peer is admitted last. -/
theorem admissions_added (acceptable : met.Acceptable myIp entry ip publicKey)
    (free : met.peersByIp.get ip = none) (unknown : met.Unknown publicKey) :
    pm.admissions myIp (entries ++ [entry]) = pm.admissions myIp entries ++
      [⟨entry, ip, publicKey⟩] := by
  obtain ⟨asked, free⟩ := exchanged.asked_iff.mpr ⟨acceptable, free, unknown⟩
  rw [admissions_snoc, Grant.serve, asked]
  exact if_pos free

/-- An entry that is ignored. -/
theorem ignored (notNew : ∀ ip publicKey, met.Acceptable myIp entry ip publicKey →
      met.peersByIp.get ip = none → met.findIpByKey publicKey ≠ none)
    (notRelayed : ∀ ip publicKey peer, met.Acceptable myIp entry ip publicKey →
      met.peersByIp.get ip = some peer → Relayed now peer →
      ∃ found, met.findIpByKey publicKey = some found ∧ found ≠ ip) :
    Exchanged pm met (entries ++ [entry]) senderIp myIp keypair now := by
  have same := exchanged.admissions_same fun ip publicKey acceptable free unknown =>
    notNew ip publicKey acceptable free (findIpByKey_none.mpr unknown)
  refine ⟨exchanged.rest, fun ip peer held => ?_, fun ip peer held relayed named => ?_, ?_, ?_, ?_⟩
  · refine (exchanged.known ip peer held).imp_right fun ⟨done, relayed, named⟩ =>
      ⟨done, relayed, ?_⟩
    rw [namesOwn_snoc, strays_snoc]
    exact named.imp Or.inl Or.inl
  · rw [namesOwn_snoc, strays_snoc] at named
    rcases exchanged.held held with heldNow | done
    · -- A record that is still as it was would have been redirected, had an entry named it.
      rcases named with (strays | ⟨publicKey, acceptable, unknown⟩) |
        ⟨namesOwn | ⟨publicKey, acceptable, own⟩, alone⟩
      · exact exchanged.redirects ip peer held relayed (Or.inl strays)
      · obtain ⟨found, search, _⟩ :=
          notRelayed ip publicKey peer (exchanged.acceptable_iff.mpr acceptable) heldNow relayed
        rw [findIpByKey_none.mpr (exchanged.unknown_iff.mpr unknown)] at search
        cases search
      · exact exchanged.redirects ip peer held relayed (Or.inr ⟨namesOwn, alone⟩)
      · obtain ⟨found, search, different⟩ :=
          notRelayed ip publicKey peer (exchanged.acceptable_iff.mpr acceptable) heldNow relayed
        obtain ⟨twin, twinHeld, keyed⟩ := findIpByKey_some search
        cases before : pm.peersByIp.get found with
        | some old =>
            have oldKeyed : old.publicKey.Same peer.publicKey := by
              rcases exchanged.held before with stays | stays <;> cases twinHeld.symm.trans stays <;>
                exact keyed.trans own.symm
            exact absurd (alone found old before oldKeyed) different
        | none =>
            obtain ⟨admission, member, _, rfl⟩ := (exchanged.new found twin before).mp twinHeld
            exact absurd (own.trans keyed.symm) ((mem_admissions member).2.2.2 ip peer held)
    · exact done
  · rw [same]
    exact exchanged.new
  · rw [same]
    exact exchanged.ids
  · rw [same]
    exact exchanged.endpoints

/-- An entry that redirects the peer at an IP. -/
theorem relayed (rest : SameRest met pm') (acceptable : met.Acceptable myIp entry ip publicKey)
    (relayed : Relayed now peer)
    (known : ∀ found, met.findIpByKey publicKey = some found → found = ip)
    (touches : Touches met pm' ip peer (redirected peer senderIp)) :
    Exchanged pm pm' (entries ++ [entry]) senderIp myIp keypair now := by
  have same := exchanged.admissions_same fun ip' publicKey' acceptable' free _ => by
    rw [(acceptable'.unique acceptable).1, touches.held] at free
    cases free
  have here : pm'.peersByIp.get ip = some (redirected peer senderIp) := by
    rw [touches.peers, if_pos rfl]
  have elsewhere {other : Ipv4Addr} (different : other ≠ ip) :
      pm'.peersByIp.get other = met.peersByIp.get other := by rw [touches.peers, if_neg different]
  refine ⟨exchanged.rest.trans rest, fun other old held => ?_,
    fun other old held oldRelayed named => ?_,
    fun other fresh free => ?_, fun id => ?_, fun addr => ?_⟩
  · rw [namesOwn_snoc, strays_snoc]
    by_cases named : other = ip
    · subst named
      have keyed : peer = old ∨ peer = redirected old senderIp ∧ Relayed now old :=
        (exchanged.known other old held).imp (fun stays =>
          Option.some.inj (touches.held.symm.trans stays))
          fun ⟨done, oldRelayed, _⟩ => ⟨Option.some.inj (touches.held.symm.trans done), oldRelayed⟩
      have publicKeys : peer.publicKey = old.publicKey := by
        rcases keyed with rfl | ⟨rfl, _⟩ <;> rfl
      refine Or.inr ⟨?_, ?_, ?_⟩
      · rcases keyed with rfl | ⟨rfl, _⟩ <;> exact here
      · rcases keyed with rfl | ⟨_, oldRelayed⟩
        · exact relayed
        · exact oldRelayed
      · -- The key is the peer's own, or one that nobody had.
        have acceptable := exchanged.acceptable_iff.mp acceptable
        cases search : met.findIpByKey publicKey with
        | none =>
            exact Or.inr (Or.inr ⟨publicKey, acceptable,
              exchanged.unknown_iff.mp (findIpByKey_none.mp search)⟩)
        | some found =>
            obtain ⟨twin, twinHeld, keyed⟩ := findIpByKey_some search
            rw [known found search, touches.held] at twinHeld
            cases twinHeld
            exact Or.inl (Or.inr ⟨publicKey, acceptable, publicKeys ▸ keyed⟩)
    · rw [elsewhere named]
      exact (exchanged.known other old held).imp_right fun ⟨done, oldRelayed, before⟩ =>
        ⟨done, oldRelayed, before.imp Or.inl Or.inl⟩
  · by_cases named' : other = ip
    · subst named'
      rcases exchanged.held held with stays | stays <;> cases touches.held.symm.trans stays <;> exact here
    · rw [elsewhere named']
      rw [namesOwn_snoc, strays_snoc] at named
      refine exchanged.redirects other old held oldRelayed ?_
      rcases named with (strays | ⟨key, named, _⟩) | ⟨namesOwn | ⟨key, named, _⟩, alone⟩
      · exact Or.inl strays
      · exact absurd (named.unique (exchanged.acceptable_iff.mp acceptable)).1 named'
      · exact Or.inr ⟨namesOwn, alone⟩
      · exact absurd (named.unique (exchanged.acceptable_iff.mp acceptable)).1 named'
  · rw [same, ← exchanged.new other fresh free]
    by_cases named : other = ip
    · subst named
      obtain ⟨admission, _, _, rfl⟩ := (exchanged.new other peer free).mp touches.held
      rw [here, redirected_admittedPeer, touches.held]
    · rw [elsewhere named]
  · rw [same, touches.ids]
    exact exchanged.ids id
  · rw [same, touches.endpoints]
    exact exchanged.endpoints addr

/-- An entry that brings a new peer. -/
theorem inserted (rest : SameRest met pm') (acceptable : met.Acceptable myIp entry ip publicKey)
    (free : met.peersByIp.get ip = none) (unknown : met.findIpByKey publicKey = none)
    (replaces : Replaces met pm' ip (some (pexPeer entry publicKey ip senderIp keypair now)) none) :
    Exchanged pm pm' (entries ++ [entry]) senderIp myIp keypair now := by
  have added := exchanged.admissions_added acceptable free (findIpByKey_none.mp unknown)
  obtain ⟨freeBefore, slots⟩ := exchanged.free_iff.mp free
  have here : pm'.peersByIp.get ip = some (pexPeer entry publicKey ip senderIp keypair now) := by
    rw [replaces.peers, if_pos rfl]
  have elsewhere {other : Ipv4Addr} (different : other ≠ ip) :
      pm'.peersByIp.get other = met.peersByIp.get other := by
    rw [replaces.peers, if_neg different, if_neg nofun]
  have apart {other : Ipv4Addr} {old : Peer} (held : pm.peersByIp.get other = some old) :
      other ≠ ip := by
    rintro rfl
    cases freeBefore.symm.trans held
  refine ⟨exchanged.rest.trans rest, fun other old held => ?_,
    fun other old held oldRelayed named => ?_,
    fun other fresh otherFree => ?_, fun id => ?_, fun addr => ?_⟩
  · rw [elsewhere (apart held), namesOwn_snoc, strays_snoc]
    exact (exchanged.known other old held).imp_right fun ⟨done, oldRelayed, before⟩ =>
      ⟨done, oldRelayed, before.imp Or.inl Or.inl⟩
  · rw [elsewhere (apart held)]
    rw [namesOwn_snoc, strays_snoc] at named
    refine exchanged.redirects other old held oldRelayed ?_
    rcases named with (strays | ⟨key, named, _⟩) | ⟨namesOwn | ⟨key, named, _⟩, alone⟩
    · exact Or.inl strays
    · exact absurd (named.unique (exchanged.acceptable_iff.mp acceptable)).1 (apart held)
    · exact Or.inr ⟨namesOwn, alone⟩
    · exact absurd (named.unique (exchanged.acceptable_iff.mp acceptable)).1 (apart held)
  · rw [added]
    by_cases named : other = ip
    · subst named
      rw [here, Option.some.injEq]
      constructor
      · rintro rfl
        exact ⟨⟨entry, other, publicKey⟩, by simp, rfl, rfl⟩
      · rintro ⟨admission, member, slot, rfl⟩
        rcases List.mem_append.mp member with earlier | last
        · exact absurd slot (slots admission earlier)
        · rw [List.mem_singleton.mp last]
          rfl
    · rw [elsewhere named, exchanged.new other fresh otherFree]
      simp only [List.mem_append, List.mem_singleton, or_and_right, exists_or, exists_eq_left]
      rw [or_iff_left fun last => named last.1.symm]
  · have marked : (pexPeer entry publicKey ip senderIp keypair now).peerId =
      KeyPair.peerId publicKey := rfl
    rw [added, written_append, ← exchanged.ids, written_cons, written_nil, replaces.ids,
      Change.onIndex_added, Option.map_some, marked]
    simp only [Option.some.injEq, admissionId]
    split_ifs <;> rfl
  · rw [added, written_append, ← exchanged.endpoints, written_cons, written_nil, replaces.endpoints,
      Change.onIndex_added, Option.bind_some, pexPeer_endpoint]
    unfold admissionEndpoint
    split_ifs <;> rfl

/-- One more entry, met by the table in some order. -/
theorem step (reordered : Reordered met pm') :
    Exchanged pm (pm'.addPexEntry entry senderIp myIp keypair now) (entries ++ [entry])
      senderIp myIp
      keypair now := by
  have exchanged := exchanged.reordered reordered
  have rest : SameRest pm' (pm'.addPexEntry entry senderIp myIp keypair now) :=
    addPexEntry_sameRest entry senderIp myIp keypair now
  cases pm'.addPexEntry_outcome entry senderIp myIp keypair now with
  | ignored same notNew notRelayed =>
      rw [same]
      exact exchanged.ignored notNew notRelayed
  | relayed acceptable relayed known touches =>
    exact exchanged.relayed rest acceptable relayed known touches
  | inserted acceptable free unknown replaces =>
    exact exchanged.inserted rest acceptable free unknown replaces

end Exchanged

/-- A message whose entries each meet the table in some order goes on with one more entry. -/
theorem ExchangeRun.append_iff : ExchangeRun senderIp myIp keypair now (before ++ after) pm pm' ↔
    ∃ mid, ExchangeRun senderIp myIp keypair now before pm mid ∧
      ExchangeRun senderIp myIp keypair now after mid pm' := by
  induction before generalizing pm with
  | nil => exact ⟨fun run => ⟨pm, rfl, run⟩, fun ⟨_, same, run⟩ => same ▸ run⟩
  | cons entry before ih =>
      simp only [List.cons_append, ExchangeRun, ih]
      constructor
      · rintro ⟨met, reordered, mid, first, second⟩
        exact ⟨mid, ⟨met, reordered, first⟩, second⟩
      · rintro ⟨mid, ⟨met, reordered, first⟩, second⟩
        exact ⟨met, reordered, mid, first, second⟩

/-- The table after a whole message. -/
theorem ExchangeRun.exchanged (run : ExchangeRun senderIp myIp keypair now entries pm pm') :
    Exchanged pm pm' entries senderIp myIp keypair now := by
  induction entries using List.reverseRecOn generalizing pm' with
  | nil =>
      cases run
      exact .nil
  | append_singleton entries entry ih =>
      obtain ⟨mid, first, met, reordered, last⟩ := append_iff.mp run
      cases last
      exact (ih first).step reordered

end WolfNet.PeerManager
