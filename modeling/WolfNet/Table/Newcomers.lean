import WolfNet.Crates.Sample
import WolfNet.Table.Exchange
import WolfNet.Transport

/-!
# The peers that an exchange brings

An entry brings a new peer when its IP is free and its key unknown by the time it is met. The
table of an honest sender names each IP and each key once, so that every peer of it that the
receiver may take arrives, and is then relayed by the sender.
-/

namespace WolfNet.PeerManager

open WolfNet.Std WolfNet.Semantics

section Newcomers

variable [Crates]

/-- An entry is met with its IP free and its key unknown, in a message that takes one table to
another. -/
def MeetsFree (pm pm' : PeerManager) (entries : List PexEntry) (senderIp myIp : Ipv4Addr)
    (keypair : KeyPair) (now : Instant) (entry : PexEntry) (ip : Ipv4Addr) (publicKey : PublicKey) :
    Prop :=
  ∃ before after mid, entries = before ++ entry :: after ∧
    ExchangeRun senderIp myIp keypair now before pm mid ∧
    ExchangeRun senderIp myIp keypair now (entry :: after) mid pm' ∧
    pm.Acceptable myIp entry ip publicKey ∧ mid.peersByIp.get ip = none ∧ mid.Unknown publicKey

/-- A record shows what an entry says, reached through the sender and with a session. -/
structure Newcomer (entry : PexEntry) (ip : Ipv4Addr) (publicKey : PublicKey) (senderIp : Ipv4Addr)
    (keypair : KeyPair) (now : Instant) (peer : Peer) : Prop where
  keyed : peer.publicKey = publicKey
  placed : peer.wolfnetIp = ip
  hostname : peer.hostname = entry.hostname
  isGateway : peer.isGateway = entry.isGateway
  relayVia : peer.relayVia = some senderIp
  session : peer.cipher = some (SessionCipher.new (Crates.diffieHellman keypair.secret publicKey)
    keypair.publicKey publicKey)
  lastHandshake : peer.lastHandshake = some now
  endpoint : ∀ addr, peer.endpoint = some addr ↔ ∃ text, entry.endpoint = some text ∧
    SocketAddr.parse text.toList = some addr ∧ isRoutableEndpoint addr = true

/-- A table that holds each peer under its own IP and no key twice, and does not list the node
itself. -/
structure Honest (theirs : PeerManager) (ownIp : Ipv4Addr) : Prop where
  keyed : ∀ ip peer, theirs.peersByIp.get ip = some peer → peer.wolfnetIp = ip
  keys : theirs.KeysDistinct
  absent : theirs.peersByIp.get ownIp = none

/-- Base64 keeps the public keys of a table, and puts no white space around them. -/
def KeysRoundTrip (theirs : PeerManager) : Prop :=
  ∀ ip peer, theirs.peersByIp.get ip = some peer →
    trim (Crates.base64Encode peer.publicKey.1) = Crates.base64Encode peer.publicKey.1 ∧
      Crates.base64Decode (Crates.base64Encode peer.publicKey.1) = .ok peer.publicKey.1

/-- The receiver of an exchange may take a peer under an IP and a key. -/
structure Welcome (pm : PeerManager) (myIp ip : Ipv4Addr) (publicKey : PublicKey) : Prop where
  foreign : ip ≠ myIp
  notPurged : ip ∉ pm.purgedIps
  subnet : ip.a = myIp.a ∧ ip.b = myIp.b ∧ ip.c = myIp.c
  free : pm.peersByIp.get ip = none
  unknown : pm.Unknown publicKey

variable {pm pm' mid theirs : PeerManager} {entry : PexEntry} {entries before after : List PexEntry}
  {senderIp myIp ip : Ipv4Addr} {publicKey : PublicKey} {keypair : KeyPair} {now : Instant}
  {peer : Peer}

/-- The entries that are met with a free IP and an unknown key are those admitted. -/
theorem MeetsFree.admitted
    (meets : MeetsFree pm pm' entries senderIp myIp keypair now entry ip publicKey) :
    ⟨entry, ip, publicKey⟩ ∈ pm.admissions myIp entries := by
  obtain ⟨before, after, mid, rfl, first, _, acceptable, free, unknown⟩ := meets
  have acceptable := first.exchanged.acceptable_iff.mpr acceptable
  obtain ⟨asked, apart⟩ := first.exchanged.asked_iff.mpr ⟨acceptable, free, unknown⟩
  exact Grant.mem_grants_iff.mpr ⟨before, after, rfl, asked, apart⟩

/-- An admitted entry meets its IP and key free. -/
theorem meetsFree_of_admitted (run : ExchangeRun senderIp myIp keypair now entries pm pm')
    {admission : Admission} (member : admission ∈ pm.admissions myIp entries) :
    MeetsFree pm pm' entries senderIp myIp keypair now admission.request admission.slot admission.name := by
  obtain ⟨before, after, rfl, asked, apart⟩ := Grant.mem_grants_iff.mp member
  obtain ⟨mid, first, second⟩ := ExchangeRun.append_iff.mp run
  obtain ⟨_, free, unknown⟩ := first.exchanged.asked_iff.mp ⟨asked, apart⟩
  exact ⟨before, after, mid, rfl, first, second, (asks_eq_some.mp asked).1, free, unknown⟩

/-- The peer that an entry brings is a newcomer. -/
theorem newcomer_pexPeer :
    Newcomer entry ip publicKey senderIp keypair now
      (pexPeer entry publicKey ip senderIp keypair now) where
  keyed := rfl
  placed := rfl
  hostname := rfl
  isGateway := rfl
  relayVia := rfl
  session := rfl
  lastHandshake := rfl
  endpoint addr := by
    simp only [pexPeer_endpoint, offeredEndpoint, Option.bind_eq_some_iff,
      Option.filter_eq_some_iff]

/-- A newcomer is reached through the sender, until traffic from it arrives. -/
theorem findRelayFor_newcomer
    (held : pm.peersByIp.get ip = some (pexPeer entry publicKey ip senderIp keypair now))
    (later : Instant) : pm.findRelayFor ip later = some senderIp := by
  rw [findRelayFor, held]
  rfl

/-- The records that an honest table tells of. -/
theorem mem_getPexEntries (honest : theirs.Honest senderIp) :
    entry ∈ theirs.getPexEntries senderIp ↔
      ∃ ip peer, theirs.peersByIp.get ip = some peer ∧ entry = pexEntry peer := by
  simp only [getPexEntries, HashMap.values, List.mem_map, List.mem_filter, Prod.exists,
    exists_eq_right, decide_eq_true_eq, HashMap.mem_iter_iff]
  constructor
  · rintro ⟨peer, ⟨⟨ip, held⟩, _⟩, rfl⟩
    exact ⟨ip, peer, held, rfl⟩
  · rintro ⟨ip, peer, held, rfl⟩
    refine ⟨peer, ⟨⟨ip, held⟩, fun same => ?_⟩, rfl⟩
    rw [honest.keyed ip peer held] at same
    rw [same, honest.absent] at held
    cases held

/-- The IP of an honest entry is parsed as the peer's. -/
theorem parse_pexEntry_wolfnetIp (honest : theirs.Honest senderIp)
    (held : theirs.peersByIp.get ip = some peer) :
    Ipv4Addr.parse (pexEntry peer).wolfnetIp.toList = some ip := by
  rw [pexEntry, Ipv4Addr.parse_toText, honest.keyed ip peer held]

/-- So is its key. -/
theorem parse_pexEntry_publicKey (roundTrip : theirs.KeysRoundTrip)
    (held : theirs.peersByIp.get ip = some peer) :
    parsePublicKey (pexEntry peer).publicKey = .ok peer.publicKey := by
  obtain ⟨trimmed, decoded⟩ := roundTrip ip peer held
  simp only [pexEntry, parsePublicKey, trimmed, decoded]
  rw [dif_pos peer.publicKey.2]

/-- The entries of an honest sender ask for different IPs under different keys. -/
theorem apart_getPexEntries (honest : theirs.Honest senderIp) (roundTrip : theirs.KeysRoundTrip) :
    Grant.Apart Crates.coordinate (pm.asks myIp) (theirs.getPexEntries senderIp) := by
  have names {ip slot : Ipv4Addr} {peer : Peer} {name : PublicKey}
      (held : theirs.peersByIp.get ip = some peer)
      (asked : pm.asks myIp (pexEntry peer) = some (slot, name)) :
      slot = ip ∧ name = peer.publicKey := by
    have acceptable := (asks_eq_some.mp asked).1
    have ips := acceptable.ipParsed
    have keys := acceptable.keyParsed
    rw [parse_pexEntry_wolfnetIp honest held] at ips
    rw [parse_pexEntry_publicKey roundTrip held] at keys
    exact ⟨(Option.some.inj ips).symm, (Except.ok.inj keys).symm⟩
  refine List.pairwise_map.mpr (List.Pairwise.filter _ (List.pairwise_map.mpr ?_))
  refine theirs.peersByIp.pairwise_iter.imp_of_mem ?_
  rintro ⟨ip, peer⟩ ⟨other, twin⟩ member twinMember different slot name slot' name' asked twinAsked
  have held := HashMap.mem_iter_iff.mp member
  have twinHeld := HashMap.mem_iter_iff.mp twinMember
  obtain ⟨rfl, rfl⟩ := names held asked
  obtain ⟨rfl, rfl⟩ := names twinHeld twinAsked
  exact ⟨different, fun same => different (honest.keys _ _ _ _ held twinHeld same)⟩

/-- Every peer of an honest sender's table that the receiver may take is admitted. -/
theorem admitted_of_welcome (honest : theirs.Honest senderIp) (roundTrip : theirs.KeysRoundTrip)
    (held : theirs.peersByIp.get ip = some peer) (welcome : pm.Welcome myIp ip peer.publicKey) :
    ⟨pexEntry peer, ip, peer.publicKey⟩ ∈ pm.admissions myIp (theirs.getPexEntries senderIp) := by
  refine (apart_getPexEntries honest roundTrip).mem_grants_iff.mpr ⟨?_,
    asks_eq_some.mpr ⟨?_, ?_, ?_⟩⟩
  · exact (mem_getPexEntries honest).mpr ⟨ip, peer, held, rfl⟩
  · exact ⟨parse_pexEntry_wolfnetIp honest held, parse_pexEntry_publicKey roundTrip held,
      welcome.foreign, welcome.notPurged, welcome.subnet⟩
  · exact welcome.free
  · exact welcome.unknown

/-- The IPs that an exchange adds are those that an entry names with the IP free and the key
unknown when the entry is met, and their records show that entry. So every peer of an honest sender
that the receiver may take arrives, and is relayed by the sender. -/
theorem exchange_inserts (pm : PeerManager) (senderIp myIp : Ipv4Addr) (keypair : KeyPair)
    (now : Instant) :
    (∀ entries pm', ExchangeRun senderIp myIp keypair now entries pm pm' →
      ∀ ip, pm.peersByIp.get ip = none →
        ((∃ peer, pm'.peersByIp.get ip = some peer) ↔
          ∃ entry publicKey, MeetsFree pm pm' entries senderIp myIp keypair now entry ip publicKey) ∧
        ∀ entry publicKey peer, MeetsFree pm pm' entries senderIp myIp keypair now entry ip publicKey →
          pm'.peersByIp.get ip = some peer →
            Newcomer entry ip publicKey senderIp keypair now peer) ∧
    ∀ theirs : PeerManager, theirs.Honest senderIp → theirs.KeysRoundTrip →
      Crates.entriesFromJson (Crates.entriesToJson (theirs.getPexEntries senderIp)) =
        some (theirs.getPexEntries senderIp) →
      ∃ entries, parsePeerExchange (buildPeerExchange senderIp theirs) = some entries ∧
        ∀ pm', ExchangeRun senderIp myIp keypair now entries pm pm' →
          ∀ ip peer, theirs.peersByIp.get ip = some peer → pm.Welcome myIp ip peer.publicKey →
            ∃ added, pm'.peersByIp.get ip = some added ∧ added.publicKey = peer.publicKey ∧
              added.hostname = peer.hostname ∧ added.isGateway = peer.isGateway ∧
              ∀ later, pm'.findRelayFor ip later = some senderIp := by
  constructor
  · intro entries pm' run ip free
    have new := fun peer => run.exchanged.new ip peer free
    refine ⟨⟨?_, ?_⟩, ?_⟩
    · rintro ⟨peer, held⟩
      obtain ⟨admission, member, rfl, _⟩ := (new peer).mp held
      exact ⟨_, _, meetsFree_of_admitted run member⟩
    · rintro ⟨entry, publicKey, meets⟩
      exact ⟨_, (new _).mpr ⟨_, meets.admitted, rfl, rfl⟩⟩
    · intro entry publicKey peer meets held
      obtain ⟨admission, member, slot, rfl⟩ := (new peer).mp held
      cases Grant.eq_of_slot member meets.admitted slot
      exact newcomer_pexPeer
  · intro theirs honest roundTrip json
    refine ⟨theirs.getPexEntries senderIp, ?_, fun pm' run ip peer held welcome => ?_⟩
    · simp only [buildPeerExchange, parsePeerExchange, json, ne_eq, not_true_eq_false, if_false]
    · have admitted := admitted_of_welcome honest roundTrip held welcome
      have arrived := (run.exchanged.new ip _ welcome.free).mpr ⟨_, admitted, rfl, rfl⟩
      exact ⟨_, arrived, rfl, rfl, rfl, findRelayFor_newcomer arrived⟩

end Newcomers

section Sample

/-- The JSON of an entry without an endpoint, whose texts need no escapes. -/
def jsonText (entry : PexEntry) : String :=
  "[\x7b\"public_key\":\"" ++ entry.publicKey ++ "\",\"wolfnet_ip\":\"" ++ entry.wolfnetIp ++
    "\",\"endpoint\":null,\"hostname\":\"" ++ entry.hostname ++ "\",\"is_gateway\":" ++
    (if entry.isGateway then "true" else "false") ++ "\x7d]"

/-- The entry of the sample message. -/
def sampleEntry : PexEntry where
  publicKey := "AwAAAAAAAAAAAAAAAAAAAAAAAAAAAAAAAAAAAAAAAAA="
  wolfnetIp := "10.10.10.3"
  endpoint := none
  hostname := "gamma"
  isGateway := true

/-- The crates of the examples, with the JSON of one message. -/
@[reducible] def exchangeCrates : Crates :=
  { Sample.crates with
    entriesFromJson := fun json =>
      if json = utf8Bytes (jsonText sampleEntry) then some [sampleEntry] else none
    entriesToJson := fun entries => entries.flatMap fun entry => utf8Bytes (jsonText entry) }

attribute [local instance] exchangeCrates

/-- The key of the exchange has the length of a key. -/
theorem length_exchangeKey (byte : UInt8) : (byte :: List.replicate 31 (0 : UInt8)).length = 32 :=
  rfl

/-- The key pair whose secret starts with the given byte. -/
def exchangeKeypair (byte : UInt8) : KeyPair where
  secret := ⟨byte :: List.replicate 31 0, length_exchangeKey byte⟩
  publicKey := ⟨byte :: List.replicate 31 0, length_exchangeKey byte⟩
  publicOfSecret := rfl

/-- The peer that the sender knows. -/
def gamma : Peer :=
  { Peer.new (exchangeKeypair 3).publicKey ⟨10, 10, 10, 3⟩ with
    hostname := "gamma"
    isGateway := true }

/-- The third node is all that the table holds. -/
theorem held_gamma {ip : Ipv4Addr} {peer : Peer}
    (held : (new.addPeer gamma).peersByIp.get ip = some peer) :
    ip = ⟨10, 10, 10, 3⟩ ∧ peer = gamma := by
  rw [(addPeer_replaces _ _).peers] at held
  split at held
  · next here => exact ⟨here, (Option.some.inj held).symm⟩
  · simp [new] at held

/-- It is told of in one entry. -/
theorem getPexEntries_gamma : (new.addPeer gamma).getPexEntries ⟨10, 10, 10, 2⟩ =
    [sampleEntry] := by
  decide

/-- A node that knows no peer learns of one, and reaches it through the sender. -/
theorem exchange_inserts_sample :
    parsePeerExchange (buildPeerExchange ⟨10, 10, 10, 2⟩ (new.addPeer gamma)) = some [sampleEntry] ∧
      ∃ added, (new.addFromPex [sampleEntry] ⟨10, 10, 10, 2⟩ ⟨10, 10, 10, 1⟩ (exchangeKeypair 1)
          0).peersByIp.get ⟨10, 10, 10, 3⟩ = some added ∧
        Newcomer sampleEntry ⟨10, 10, 10, 3⟩ gamma.publicKey ⟨10, 10, 10, 2⟩
          (exchangeKeypair 1) 0 added ∧
        (new.addFromPex [sampleEntry] ⟨10, 10, 10, 2⟩ ⟨10, 10, 10, 1⟩
          (exchangeKeypair 1) 0).findRelayFor
          ⟨10, 10, 10, 3⟩ 5 = some ⟨10, 10, 10, 2⟩ := by
  obtain ⟨inserts, arrives⟩ := exchange_inserts new ⟨10, 10, 10, 2⟩ ⟨10, 10, 10, 1⟩
    (exchangeKeypair 1) 0
  have honest : (new.addPeer gamma).Honest ⟨10, 10, 10, 2⟩ := by
    refine ⟨fun ip peer held => ?_, fun ip other peer twin held twinHeld _ => ?_, by rfl⟩
    · obtain ⟨rfl, rfl⟩ := held_gamma held
      rfl
    · rw [(held_gamma held).1, (held_gamma twinHeld).1]
  have roundTrip : (new.addPeer gamma).KeysRoundTrip := by
    intro ip peer held
    obtain ⟨rfl, rfl⟩ := held_gamma held
    exact ⟨by decide, by decide⟩
  have json : Crates.entriesFromJson (Crates.entriesToJson [sampleEntry]) = some [sampleEntry] := by
    have printed : Crates.entriesToJson [sampleEntry] = utf8Bytes (jsonText sampleEntry) :=
      List.flatMap_singleton _ _
    rw [printed]
    exact if_pos rfl
  obtain ⟨entries, parsed, arrives⟩ := arrives (new.addPeer gamma) honest roundTrip
    (by rw [getPexEntries_gamma, json])
  have message : parsePeerExchange (buildPeerExchange ⟨10, 10, 10, 2⟩ (new.addPeer gamma)) =
      some [sampleEntry] := by
    rw [buildPeerExchange, getPexEntries_gamma]
    exact json
  cases parsed.symm.trans message
  have acceptable : new.Acceptable ⟨10, 10, 10, 1⟩ sampleEntry ⟨10, 10, 10, 3⟩ gamma.publicKey :=
    ⟨by decide, by decide, by decide, by decide, by decide⟩
  have unknown : new.Unknown gamma.publicKey := by simp [Unknown, new]
  have run := exchangeRun_addFromPex new [sampleEntry] ⟨10, 10, 10, 2⟩ ⟨10, 10, 10, 1⟩
    (exchangeKeypair 1) 0
  obtain ⟨added, held, _, _, _, relayed⟩ := arrives _ run ⟨10, 10, 10, 3⟩ gamma rfl
    ⟨by decide, by decide, by decide, rfl, unknown⟩
  have meets : MeetsFree new _ [sampleEntry] ⟨10, 10, 10, 2⟩ ⟨10, 10, 10, 1⟩
    (exchangeKeypair 1) 0 sampleEntry
      ⟨10, 10, 10, 3⟩ gamma.publicKey := ⟨[], [], new, rfl, rfl, run, acceptable, rfl, unknown⟩
  exact ⟨message, added, held, (inserts _ _ run _ rfl).2 _ _ _ meets held, relayed 5⟩

end Sample
end WolfNet.PeerManager
