import WolfNet.Daemon.Events
import WolfNet.Daemon.Handshakes
import WolfNet.Std.Json

/-!
# The size of a peer exchange

A peer exchange is one datagram, however many peers it tells of and whatever their host names are.
`entriesSize` is the sum of what the entries take in JSON, and `exchange_size` the size of every
datagram of an exchange.
-/

namespace WolfNet

open WolfNet.Std WolfNet.Semantics

namespace PexEntry

/-- The JSON that serde derives. -/
def toJson (entry : PexEntry) : Json :=
  .object [
    ("public_key", .string entry.publicKey),
    ("wolfnet_ip", .string entry.wolfnetIp),
    ("endpoint", match entry.endpoint with
      | some endpoint => .string endpoint
      | none => .null),
    ("hostname", .string entry.hostname),
    ("is_gateway", .bool entry.isGateway)]

/-- The bytes of an entry in JSON: its texts with their escapes, and what stands around them. -/
def size (entry : PexEntry) : Nat :=
  73 + Json.stringSize entry.publicKey + Json.stringSize entry.wolfnetIp +
    (match entry.endpoint with
      | some endpoint => 2 + Json.stringSize endpoint
      | none => 4) +
    Json.stringSize entry.hostname + (if entry.isGateway then 4 else 5)

/-- The JSON of an entry has the length that its fields give it. -/
theorem byteLength_render_toJson (entry : PexEntry) :
    byteLength entry.toJson.render = entry.size := by
  have names : Json.stringSize "public_key" = 10 ∧ Json.stringSize "wolfnet_ip" = 10 ∧
      Json.stringSize "endpoint" = 8 ∧ Json.stringSize "hostname" = 8 ∧
      Json.stringSize "is_gateway" = 10 := by decide
  have signs : (Char.ofNat 123).utf8Size = 1 ∧ (Char.ofNat 125).utf8Size = 1 ∧
      ':'.utf8Size = 1 := by decide
  have words : byteLength "null".toList = 4 ∧ byteLength "true".toList = 4 ∧
      byteLength "false".toList = 5 := by decide
  obtain ⟨publicKey, wolfnetIp, endpoint, hostname, isGateway⟩ := entry
  simp only [toJson, size, Json.render, Json.renderMembers, List.cons_append, byteLength_cons,
    byteLength_append, Json.byteLength_commaSeparated, List.flatten_cons, List.flatten_nil,
    byteLength_nil, Json.byteLength_renderString, List.length_cons, List.length_nil, names, signs]
  cases endpoint <;> cases isGateway <;>
    simp only [Json.render, Json.byteLength_renderString, words, if_true, Bool.false_eq_true,
      if_false] <;> omega

end PexEntry

/-- The bytes of the entries in JSON: two brackets, and commas between the entries. -/
def entriesSize (entries : List PexEntry) : Nat :=
  2 + (entries.map PexEntry.size).foldr (· + ·) 0 + (entries.length - 1)

/-- The JSON of all entries has the length of these and of what separates them. -/
theorem byteLength_render_entries (entries : List PexEntry) :
    byteLength (Json.array (entries.map PexEntry.toJson)).render = entriesSize entries := by
  have sum : byteLength ((entries.map PexEntry.toJson).map Json.render).flatten =
      (entries.map PexEntry.size).foldr (· + ·) 0 := by
    induction entries with
    | nil => rfl
    | cons entry entries ih =>
        simp only [List.map_cons, List.flatten_cons, byteLength_append, List.foldr_cons, ih,
          entry.byteLength_render_toJson]
  have brackets : '['.utf8Size = 1 ∧ ']'.utf8Size = 1 := by decide
  simp only [Json.render, List.cons_append, byteLength_cons, byteLength_append, byteLength_nil,
    Json.byteLength_commaSeparated, Json.renderItems_eq, sum, List.length_map, entriesSize,
      brackets]
  omega

section Daemon

variable [Crates]

/-- `serde_json` writes the entries of an exchange in compact JSON. -/
def EntriesAsJson : Prop := ∀ entries, Crates.entriesToJson entries =
  utf8Bytes (String.ofList (Json.array (entries.map PexEntry.toJson)).render)

/-- A peer exchange is one byte longer than its JSON. -/
theorem EntriesAsJson.length_buildPeerExchange (json : EntriesAsJson) (myIp : Ipv4Addr)
    (pm : PeerManager) :
    (buildPeerExchange myIp pm).length = 1 + entriesSize (pm.getPexEntries myIp) := by
  rw [buildPeerExchange, json, List.length_cons, length_utf8Bytes, byteLength_render_entries,
    Nat.add_comm]

/-- What a session seals in memory of its own is longer by the tag. -/
theorem Peer.length_encrypt {peer next : Peer} {data ciphertext : List UInt8} {counter : UInt64}
    (run : peer.encrypt data = (next, .ok (counter, ciphertext))) :
    ciphertext.length = data.length + 16 := by
  unfold Peer.encrypt at run
  split at run
  · cases run
  · next session established =>
      rw [session.encrypt_eq] at run
      split at run
      · cases run
      · next result sealing =>
          split at sealing
          · cases sealing
            cases run
            exact session.length_sealed data
          · cases sealing

/-- Encryption succeeds under the cipher's limit. -/
theorem Peer.encrypt_succeeds {peer : Peer} {session : SessionCipher} {data : List UInt8}
    (established : peer.cipher = some session) (fits : data.length ≤ Crates.plaintextLimit) :
    ∃ next result, peer.encrypt data = (next, .ok result) := by
  rw [Peer.encrypt, established]
  simp only [session.encrypt_eq, if_pos fits]
  exact ⟨_, _, rfl⟩

namespace Node

variable {node : Node} {packet : List UInt8} {now : Instant} {ip : Ipv4Addr} {peer : Peer}
  {endpoint : SocketAddr}

/-- The effect sends a datagram of the size. -/
def SendsSize (size : Nat) (effect : Effect) : Prop :=
  ∃ endpoint datagram, effect = .sendTo endpoint datagram ∧ datagram.length = size

/-- What is sent to a peer has a header of 13 bytes and a tag of 16. -/
theorem exchangeWith_size (node : Node) (packet : List UInt8) (now : Instant) (ip : Ipv4Addr) :
    ∀ effect ∈ (node.exchangeWith packet now ip).2, SendsSize (29 + packet.length) effect := by
  intro effect member
  unfold exchangeWith at member
  cases held : node.peerManager.peersByIp.get ip with
  | none => simp [held] at member
  | some peer =>
      cases connected : peer.isConnected now with
      | false => simp [held, connected] at member
      | true =>
          cases placed : peer.endpoint with
          | none => simp [held, connected, placed] at member
          | some endpoint =>
              obtain ⟨next, error | ⟨counter, ciphertext⟩, run⟩ :
                  ∃ next result, peer.encrypt packet = (next, result) := ⟨_, _, rfl⟩
              · simp [held, connected, placed, run] at member
              · simp only [held, connected, placed, run, List.mem_singleton] at member
                refine ⟨endpoint, _, member, ?_⟩
                rw [length_buildDataPacket, Peer.length_encrypt run]
                omega

/-- A connected peer with an endpoint is sent what its session seals. -/
theorem exchangeWith_sends (held : node.peerManager.peersByIp.get ip = some peer)
    (connected : peer.isConnected now = true) (placed : peer.endpoint = some endpoint)
    (fits : packet.length ≤ Crates.plaintextLimit) :
    ∃ datagram, .sendTo endpoint datagram ∈ (node.exchangeWith packet now ip).2 := by
  obtain ⟨session, established⟩ := Peer.exists_session connected
  obtain ⟨next, result, run⟩ := Peer.encrypt_succeeds established fits
  refine ⟨buildDataPacket node.keypair.myPeerId result.1 result.2, ?_⟩
  simp only [exchangeWith, held, connected, placed, run, List.mem_singleton]
  rfl

/-- An exchange with one peer leaves the records of the others. -/
theorem exchangeWith_others {other : Ipv4Addr} (apart : ip ≠ other) :
    (node.exchangeWith packet now other).1.peerManager.peersByIp.get ip =
      node.peerManager.peersByIp.get ip := by
  unfold exchangeWith
  split
  · rfl
  · split
    · dsimp only
      split <;> exact HashMap.get_insert_of_ne _ _ apart
    · rfl

/-- Every datagram of an exchange has the same size. -/
theorem exchangeWithAll_size (node : Node) (packet : List UInt8) (now : Instant)
    (ips : List Ipv4Addr) : ∀ effect ∈ (node.exchangeWithAll packet now ips).2,
      SendsSize (29 + packet.length) effect := by
  induction ips generalizing node with
  | nil => simp [exchangeWithAll]
  | cons ip ips ih =>
      intro effect member
      rcases List.mem_append.mp member with first | later
      · exact node.exchangeWith_size packet now ip effect first
      · exact ih _ effect later

/-- Every connected peer with an endpoint is sent one. -/
theorem exchangeWithAll_sends {ips : List Ipv4Addr} (member : ip ∈ ips)
    (held : node.peerManager.peersByIp.get ip = some peer)
    (connected : peer.isConnected now = true) (placed : peer.endpoint = some endpoint)
    (fits : packet.length ≤ Crates.plaintextLimit) :
    ∃ datagram, .sendTo endpoint datagram ∈ (node.exchangeWithAll packet now ips).2 := by
  induction ips generalizing node with
  | nil => simp at member
  | cons first ips ih =>
      by_cases here : ip = first
      · subst here
        obtain ⟨datagram, sent⟩ := exchangeWith_sends held connected placed fits
        exact ⟨datagram, List.mem_append_left _ sent⟩
      · obtain ⟨datagram, sent⟩ := ih ((List.mem_cons.mp member).resolve_left here)
          ((exchangeWith_others here).trans held)
        exact ⟨datagram, List.mem_append_right _ sent⟩

/-- There is always something to say: the exchange of an empty table has two brackets. -/
theorem sendPeerExchange_eq (json : EntriesAsJson) (node : Node) (now : Instant) :
    node.sendPeerExchange now = node.exchangeWithAll
      (buildPeerExchange node.wolfnetIp node.peerManager) now node.peerManager.allIps := by
  refine if_neg ?_
  rw [json.length_buildPeerExchange, entriesSize]
  omega

/-- The size of each datagram is that of the entries and thirty bytes more. -/
theorem sendPeerExchange_size (json : EntriesAsJson) (node : Node) (now : Instant) :
    ∀ effect ∈ (node.sendPeerExchange now).2,
      SendsSize (30 + entriesSize (node.peerManager.getPexEntries node.wolfnetIp)) effect := by
  intro effect member
  rw [sendPeerExchange_eq json] at member
  have sends := exchangeWithAll_size _ _ _ _ effect member
  rwa [json.length_buildPeerExchange, ← Nat.add_assoc] at sends

/-- Where the cipher takes the exchange, each connected peer with an endpoint is sent it. -/
theorem sendPeerExchange_sends (json : EntriesAsJson)
    (held : node.peerManager.peersByIp.get ip = some peer)
    (connected : peer.isConnected now = true) (placed : peer.endpoint = some endpoint)
    (fits : 1 + entriesSize (node.peerManager.getPexEntries node.wolfnetIp) ≤
      Crates.plaintextLimit) :
    ∃ datagram, .sendTo endpoint datagram ∈ (node.sendPeerExchange now).2 := by
  have listed : ip ∈ node.peerManager.allIps := HashMap.mem_keys_iff.mpr ⟨peer, held⟩
  rw [sendPeerExchange_eq json]
  exact exchangeWithAll_sends listed held connected placed
    (by rwa [json.length_buildPeerExchange])

/-- Every datagram of an exchange has 30 bytes besides the JSON of the entries, and every connected
peer with an endpoint is sent one. So they fit a datagram exactly when the JSON leaves room for
these. -/
theorem exchange_size (json : EntriesAsJson) (node : Node) (now : Instant) :
    (∀ effect ∈ (node.sendPeerExchange now).2, ∃ endpoint datagram,
      effect = .sendTo endpoint datagram ∧
      datagram.length = 30 + entriesSize (node.peerManager.getPexEntries node.wolfnetIp) ∧
      (datagram.length ≤ 65507 ↔
        entriesSize (node.peerManager.getPexEntries node.wolfnetIp) ≤ 65477)) ∧
    ∀ ip peer endpoint, node.peerManager.peersByIp.get ip = some peer →
      peer.isConnected now = true → peer.endpoint = some endpoint →
      1 + entriesSize (node.peerManager.getPexEntries node.wolfnetIp) ≤ Crates.plaintextLimit →
      ∃ datagram, .sendTo endpoint datagram ∈ (node.sendPeerExchange now).2 := by
  refine ⟨fun effect member => ?_, fun ip peer endpoint held connected placed fits =>
    sendPeerExchange_sends json held connected placed fits⟩
  obtain ⟨endpoint, datagram, sends, size⟩ := sendPeerExchange_size json node now effect member
  exact ⟨endpoint, datagram, sends, size, by rw [size]; omega⟩

end Node
end Daemon

section Sample

/-- A name of as many letters. -/
def letters (count : Nat) : String := String.ofList (List.replicate count 'a')

/-- The letters are one byte each. -/
theorem utf8Bytes_letters (count : Nat) : utf8Bytes (letters count) = List.replicate count 97 := by
  have letter : String.utf8EncodeChar 'a' = [97] := by decide
  rw [letters, utf8Bytes_ofList]
  induction count with
  | zero => rfl
  | succ count ih =>
      rw [List.replicate_succ, List.flatMap_cons, ih, letter, List.replicate_succ]
      rfl

/-- Letters need no escapes. -/
theorem stringSize_letters (count : Nat) : Json.stringSize (letters count) = count := by
  have letter : Json.escapeChar 'a' = ['a'] := by decide
  have one : 'a'.utf8Size = 1 := by decide
  rw [Json.stringSize, letters, String.toList_ofList]
  induction count with
  | zero => rfl
  | succ count ih =>
      rw [List.replicate_succ, List.flatMap_cons, letter, byteLength_append, ih, byteLength_cons,
        one, byteLength_nil]
      omega

/-- The crates of the examples, with the JSON of exchanges. -/
@[reducible] def jsonCrates : Crates :=
  { Sample.crates with
    entriesToJson := fun entries =>
      utf8Bytes (String.ofList (Json.array (entries.map PexEntry.toJson)).render) }

attribute [local instance] jsonCrates

/-- The sample crate writes the entries as JSON. -/
theorem entriesAsJson : EntriesAsJson := fun _ => rfl

/-- A sample key has the length of a key. -/
theorem length_jsonKey (byte : UInt8) : (byte :: List.replicate 31 (0 : UInt8)).length = 32 := rfl

/-- The key pair whose secret starts with the given byte. -/
def jsonKeypair (byte : UInt8) : KeyPair where
  secret := ⟨byte :: List.replicate 31 0, length_jsonKey byte⟩
  publicKey := ⟨byte :: List.replicate 31 0, length_jsonKey byte⟩
  publicOfSecret := rfl

/-- A config without peers. -/
def peerlessConfig : Config where
  network := {
    interface := "wolfnet0"
    address := "10.10.10.1"
    subnet := 24
    listenPort := 9600
    bindAddress := "0.0.0.0"
    gateway := false
    discovery := true
    mtu := 1400 }
  privateKeyFile := "private.key"
  peers := []

/-- A node that just started without configured peers. -/
def exchanger : Node where
  wolfnetIp := ⟨10, 10, 10, 1⟩
  keypair := jsonKeypair 1
  config := peerlessConfig
  hostname := "alpha"
  peerManager := startupManager (fun _ => none) (jsonKeypair 1) 0 peerlessConfig .missing .missing

/-- The handshake of another node. -/
def introduction (hostname : String) : List UInt8 :=
  buildHandshake (jsonKeypair 2) ⟨10, 10, 10, 2⟩ 9600 hostname false

/-- The record that the node makes of the sender of that handshake. -/
def introduced (hostname : String) : Peer :=
  { (Peer.new (jsonKeypair 2).publicKey ⟨10, 10, 10, 2⟩).establishSession (jsonKeypair 1).secret
      (jsonKeypair 1).publicKey 0 with
    endpoint := some Sample.endpoint
    hostname := hostname
    lastSeen := some 0 }

/-- The introduction enters a peer with the host name that it carries. -/
theorem takes_introduction (hostname : String) :
    ∃ last, Run Node.Step exchanger
        [(exchanger, .tunnel 0 Sample.endpoint (introduction hostname))] last ∧
      last.peerManager.getPexEntries last.wolfnetIp =
        [PeerManager.pexEntry (introduced hostname)] ∧
      last.peerManager.peersByIp.get ⟨10, 10, 10, 2⟩ =
        some (introduced hostname) := by
  have parsed := Handshake.parseHandshake_build (jsonKeypair 2) ⟨10, 10, 10, 2⟩ 9600 hostname false
  obtain ⟨effects, run⟩ := exchanger.handleHandshake_eq 0 Sample.endpoint parsed
  exact ⟨_, Run.refl.step (.inl ⟨effects, run⟩), rfl, rfl⟩

/-- The node when it knows one other node. -/
def acquainted : Node :=
  exchanger.withManager (PeerManager.new.addPeer (introduced "beta"))

/-- The exchange with that node tells it of itself. -/
theorem exchange_size_sample : ∃ datagram,
    .sendTo Sample.endpoint datagram ∈ (acquainted.sendPeerExchange 0).2 ∧
      datagram.length = 186 := by
  obtain ⟨sizes, sends⟩ := Node.exchange_size entriesAsJson acquainted 0
  obtain ⟨datagram, sent⟩ := sends ⟨10, 10, 10, 2⟩ (introduced "beta") Sample.endpoint rfl
    (by decide) rfl (by decide)
  obtain ⟨endpoint, other, same, size, _⟩ := sizes _ sent
  cases same
  exact ⟨datagram, sent, size.trans (by decide)⟩

/-- The introduction is as long as its host name and forty bytes. -/
theorem length_introduction (count : Nat) :
    (introduction (letters count)).length = 40 + count := by
  rw [introduction, buildHandshake, List.length_append, utf8Bytes_letters, List.length_replicate]
  rfl

/-- What the node tells of the sender takes 182 bytes besides its host name. -/
theorem exchange_after_introduction {count : Nat} (short : count ≤ 100000) :
    ∃ last, Run Node.Step exchanger
        [(exchanger, .tunnel 0 Sample.endpoint (introduction (letters count)))] last ∧
      ∃ datagram, .sendTo Sample.endpoint datagram ∈ (last.sendPeerExchange 0).2 ∧
        datagram.length = 182 + count := by
  obtain ⟨last, run, entries, held⟩ := takes_introduction (letters count)
  have size : entriesSize (last.peerManager.getPexEntries last.wolfnetIp) = 152 + count := by
    have rest : (PeerManager.pexEntry (introduced (letters count))).size =
        145 + Json.stringSize (letters count) + 5 := by
      have key : Json.stringSize (Crates.base64Encode (jsonKeypair 2).publicKey.1) = 44 := by decide
      have ip : Json.stringSize (Ipv4Addr.toText ⟨10, 10, 10, 2⟩) = 10 := by decide
      have endpoint : Json.stringSize Sample.endpoint.toText = 16 := by decide
      change 73 + Json.stringSize (Crates.base64Encode (jsonKeypair 2).publicKey.1) +
        Json.stringSize (Ipv4Addr.toText ⟨10, 10, 10, 2⟩) +
          (2 + Json.stringSize Sample.endpoint.toText) + Json.stringSize (letters count) + 5 = _
      rw [key, ip, endpoint]
    rw [entries, entriesSize, List.map_singleton, List.foldr_cons, rest, stringSize_letters]
    simp
    omega
  have fits : 1 + entriesSize (last.peerManager.getPexEntries last.wolfnetIp) ≤ 274877906880 := by
    rw [size]
    omega
  obtain ⟨datagram, sent⟩ : ∃ datagram,
      .sendTo Sample.endpoint datagram ∈ (last.sendPeerExchange 0).2 :=
    Node.sendPeerExchange_sends entriesAsJson held rfl rfl fits
  obtain ⟨endpoint, other, same, length⟩ := Node.sendPeerExchange_size entriesAsJson last 0 _ sent
  cases same
  exact ⟨last, run, datagram, sent, by rw [length, size]; omega⟩

/-- A handshake that fits a datagram makes the exchanges after it too long for one. -/
theorem long_hostname_exceeds :
    (introduction (letters 65467)).length = 65507 ∧
      ∃ last, Run Node.Step exchanger
          [(exchanger, .tunnel 0 Sample.endpoint (introduction (letters 65467)))] last ∧
        ∃ datagram, .sendTo Sample.endpoint datagram ∈ (last.sendPeerExchange 0).2 ∧
          65507 < datagram.length := by
  obtain ⟨last, run, datagram, sent, length⟩ := @exchange_after_introduction 65467 (by decide)
  exact ⟨length_introduction 65467, last, run, datagram, sent, by omega⟩

end Sample
end WolfNet
