import WolfNet.Daemon.Node
import WolfNet.Std.Json

/-!
# The status file

The daemon writes what it knows of its peers as JSON every few seconds, and `wolfnetctl` reads it.
The two declare the same records; the reader has defaults for the fields that older daemons do not
write.
-/

namespace WolfNet

open WolfNet.Std

/-- `u64::MAX`, which stands for "never" in the status. -/
def neverSecs : UInt64 := 18446744073709551615

/-- Status of a single peer. -/
structure PeerStatus where
  hostname : String
  address : String
  endpoint : String
  publicKey : String
  lastSeenSecs : UInt64
  rxBytes : UInt64
  txBytes : UInt64
  /-- Some packet was observed in the last 120 seconds. -/
  connected : Bool
  isGateway : Bool
  relayVia : Option String
  /-- A data packet was decrypted in the last 120 seconds. -/
  dataFlowing : Bool
  lastDataRxSecs : UInt64
deriving DecidableEq, Repr

/-- Status information written by the daemon. -/
structure NodeStatus where
  hostname : String
  address : String
  publicKey : String
  listenPort : UInt16
  gateway : Bool
  interface : String
  uptimeSecs : UInt64
  peers : List PeerStatus
deriving DecidableEq, Repr

namespace PeerStatus

/-- The object that the daemon writes. A peer without a relay has no such member. -/
def members (peer : PeerStatus) : List (String × Json) :=
  [("hostname", .string peer.hostname), ("address", .string peer.address),
    ("endpoint", .string peer.endpoint), ("public_key", .string peer.publicKey),
    ("last_seen_secs", .number peer.lastSeenSecs.toNat), ("rx_bytes", .number peer.rxBytes.toNat),
    ("tx_bytes", .number peer.txBytes.toNat), ("connected", .bool peer.connected),
    ("is_gateway", .bool peer.isGateway)] ++
  (peer.relayVia.map fun relay => ("relay_via", Json.string relay)).toList ++
  [("data_flowing", .bool peer.dataFlowing),
    ("last_data_rx_secs", .number peer.lastDataRxSecs.toNat)]

def toJson (peer : PeerStatus) : Json := .object peer.members

/-- What `wolfnetctl` reads. -/
def fromJson : Json → Option PeerStatus
  | .object members => do
    let hostname ← Json.required members "hostname" Json.asString
    let address ← Json.required members "address" Json.asString
    let endpoint ← Json.required members "endpoint" Json.asString
    let publicKey ← Json.required members "public_key" Json.asString
    let lastSeenSecs ← Json.required members "last_seen_secs" Json.asU64
    let rxBytes ← Json.required members "rx_bytes" Json.asU64
    let txBytes ← Json.required members "tx_bytes" Json.asU64
    let connected ← Json.required members "connected" Json.asBool
    let relayVia ← Json.defaulted members "relay_via" none (Json.asOption Json.asString)
    let isGateway ← Json.defaulted members "is_gateway" false Json.asBool
    let dataFlowing ← Json.defaulted members "data_flowing" false Json.asBool
    let lastDataRxSecs ← Json.defaulted members "last_data_rx_secs" neverSecs Json.asU64
    return {
      hostname := hostname
      address := address
      endpoint := endpoint
      publicKey := publicKey
      lastSeenSecs := lastSeenSecs
      rxBytes := rxBytes
      txBytes := txBytes
      connected := connected
      isGateway := isGateway
      relayVia := relayVia
      dataFlowing := dataFlowing
      lastDataRxSecs := lastDataRxSecs }
  | _ => none

/-- A member other than the relay is read whether or not there is one. -/
theorem lookups_members (peer : PeerStatus) {name : String} (other : name ≠ "relay_via") :
    Json.lookups peer.members name = Json.lookups { peer with relayVia := none }.members name := by
  cases relayed : peer.relayVia with
  | none => simp [members, relayed]
  | some relay =>
      have apart : Json.lookups [("relay_via", .string relay)] name = [] := by
        rw [Json.lookups_cons, if_neg other.symm, Json.lookups_nil]
      simp only [members, relayed, Json.lookups_append, Option.map_some, Option.map_none,
        Option.toList_some, Option.toList_none, apart, Json.lookups_nil]

/-- The relay of a peer is written when it has one. -/
theorem lookups_relayVia (peer : PeerStatus) :
    Json.lookups peer.members "relay_via" = (peer.relayVia.map Json.string).toList := by
  cases relayed : peer.relayVia <;> simp [members, relayed, Json.lookups_cons]

/-- The reader gives back what the daemon wrote. -/
theorem fromJson_toJson (peer : PeerStatus) : fromJson peer.toJson = some peer := by
  have relay : Json.defaulted peer.members "relay_via" none (Json.asOption Json.asString) =
      some peer.relayVia := by
    have given := peer.lookups_relayVia
    cases relayed : peer.relayVia with
    | none =>
        rw [relayed] at given
        exact Json.defaulted_absent given
    | some relay =>
        rw [relayed] at given
        exact Json.defaulted_of_lookups given
  have field {α : Type} {name : String} {value : Json} {read : Json → Option α}
      (other : name ≠ "relay_via")
      (given : Json.lookups { peer with relayVia := none }.members name = [value]) :
      Json.required peer.members name read = read value :=
    Json.required_of_lookups ((peer.lookups_members other).trans given)
  have optional {α : Type} {name : String} {value : Json} {default : α} {read : Json → Option α}
      (other : name ≠ "relay_via")
      (given : Json.lookups { peer with relayVia := none }.members name = [value]) :
      Json.defaulted peer.members name default read = read value :=
    Json.defaulted_of_lookups ((peer.lookups_members other).trans given)
  rw [toJson, fromJson, relay, field (by decide) rfl, field (by decide) rfl, field (by decide) rfl,
    field (by decide) rfl, field (by decide) rfl, field (by decide) rfl, field (by decide) rfl,
    field (by decide) rfl, optional (by decide) rfl, optional (by decide) rfl,
    optional (by decide) rfl]
  simp [Json.asString, Json.asBool]

end PeerStatus

namespace NodeStatus

def toJson (status : NodeStatus) : Json :=
  .object [("hostname", .string status.hostname), ("address", .string status.address),
    ("public_key", .string status.publicKey), ("listen_port", .number status.listenPort.toNat),
    ("gateway", .bool status.gateway), ("interface", .string status.interface),
    ("uptime_secs", .number status.uptimeSecs.toNat),
    ("peers", .array (status.peers.map PeerStatus.toJson))]

def fromJson : Json → Option NodeStatus
  | .object members => do
    let hostname ← Json.required members "hostname" Json.asString
    let address ← Json.required members "address" Json.asString
    let publicKey ← Json.required members "public_key" Json.asString
    let listenPort ← Json.required members "listen_port" Json.asU16
    let gateway ← Json.required members "gateway" Json.asBool
    let interface ← Json.required members "interface" Json.asString
    let uptimeSecs ← Json.required members "uptime_secs" Json.asU64
    let peers ← Json.required members "peers" (Json.asList PeerStatus.fromJson)
    return {
      hostname := hostname
      address := address
      publicKey := publicKey
      listenPort := listenPort
      gateway := gateway
      interface := interface
      uptimeSecs := uptimeSecs
      peers := peers }
  | _ => none

/-- The reader gives back what the daemon wrote. -/
theorem fromJson_toJson (status : NodeStatus) : fromJson status.toJson = some status := by
  have peers := Json.asList_map PeerStatus.fromJson_toJson status.peers
  simp [toJson, fromJson, Json.required, Json.lookups_cons, Json.asString, Json.asBool, peers]

end NodeStatus

/-- The text of the status file. -/
def writeStatus (status : NodeStatus) : String := String.ofList (status.toJson.renderPretty 0)

/-- `load_status` at the text of the status file; `parse` is the parser of JSON text. -/
def loadStatus (parse : String → Option Json) (content : String) : Option NodeStatus :=
  (parse content).bind NodeStatus.fromJson

/-- What the daemon writes is read, if the parser takes the text for the value it was printed
from. -/
theorem loadStatus_writeStatus {parse : String → Option Json} {status : NodeStatus}
    (parsed : parse (writeStatus status) = some status.toJson) :
    loadStatus parse (writeStatus status) = some status := by
  rw [loadStatus, parsed, Option.bind_some, NodeStatus.fromJson_toJson]

/-- The monotonic clock counts its seconds in 63 bits. -/
def clockLimit : Nat := 1000000000 * 9223372036854775808

/-- The readings of the clock that the status of one peer takes, in their order. -/
structure Readings where
  lastSeen : Instant
  connected : Instant
  dataFlowing : Instant
  lastDataRx : Instant
  beforeConnected : lastSeen ≤ connected
  beforeFlowing : connected ≤ dataFlowing
  beforeLast : dataFlowing ≤ lastDataRx
  bounded : lastDataRx < clockLimit

/-- The seconds since an optional instant. -/
def secsSince (now : Instant) (since : Option Instant) : UInt64 :=
  (since.map fun t => UInt64.ofNat (elapsedSecs now t)).getD neverSecs

/-- An instant in the past is never so long ago as the number that stands for "never". -/
theorem secsSince_eq_never {now : Instant} {since : Option Instant}
    (bounded : now < clockLimit) : secsSince now since = neverSecs ↔ since = none := by
  cases since with
  | none => simp [secsSince]
  | some t =>
      have small : elapsedSecs now t < 9223372036854775808 :=
        Nat.div_lt_of_lt_mul (lt_of_le_of_lt (Nat.sub_le now t) bounded)
      have differs : UInt64.ofNat (elapsedSecs now t) ≠ neverSecs := by
        intro same
        have values := congrArg UInt64.toNat same
        rw [UInt64.toNat_ofNat', Nat.mod_eq_of_lt (by omega)] at values
        have top : neverSecs.toNat = 18446744073709551615 := rfl
        omega
      simp [secsSince, differs]

variable [Crates]

/-- The status of one peer. -/
def Peer.status (peer : Peer) (reads : Readings) : PeerStatus where
  hostname := peer.hostname
  address := peer.wolfnetIp.toText
  endpoint := (peer.endpoint.map SocketAddr.toText).getD "-"
  publicKey := Crates.base64Encode peer.publicKey.1
  lastSeenSecs := secsSince reads.lastSeen peer.lastSeen
  rxBytes := peer.rxBytes
  txBytes := peer.txBytes
  connected := peer.isConnected reads.connected
  isGateway := peer.isGateway
  relayVia := peer.relayVia.map Ipv4Addr.toText
  dataFlowing := peer.isPassingData reads.dataFlowing
  lastDataRxSecs := secsSince reads.lastDataRx peer.lastDataRx

/-- Collect status info for all peers. The clock goes on from one peer to the next. -/
def PeerManager.status (pm : PeerManager) (reads : Nat → Readings) : List PeerStatus :=
  pm.peersByIp.values.mapIdx fun position peer => peer.status (reads position)

/-- The status that the daemon writes. -/
def Node.status (node : Node) (startTime now : Instant) (reads : Nat → Readings) : NodeStatus where
  hostname := node.hostname
  address := node.config.network.address
  publicKey := Crates.base64Encode node.keypair.publicKey.1
  listenPort := node.config.network.listenPort
  gateway := node.config.network.gateway
  interface := node.config.network.interface
  uptimeSecs := UInt64.ofNat (elapsedSecs now startTime)
  peers := node.peerManager.status reads

/-- The status lists the records of the table. -/
theorem PeerManager.mem_status {pm : PeerManager} {reads : Nat → Readings} {status : PeerStatus}
    (member : status ∈ pm.status reads) : ∃ ip peer position,
      pm.peersByIp.get ip = some peer ∧ status = peer.status (reads position) := by
  obtain ⟨position, bound, rfl⟩ := List.mem_mapIdx.mp member
  have there : pm.peersByIp.values[position] ∈ pm.peersByIp.values := List.getElem_mem bound
  obtain ⟨⟨ip, peer⟩, entry, same⟩ := List.mem_map.mp there
  exact ⟨ip, peer, position, HashMap.mem_iter_iff.mp entry, by rw [← same]⟩

/-- Every record of the table has its status. -/
theorem PeerManager.status_mem {pm : PeerManager} {ip : Ipv4Addr} {peer : Peer}
    (held : pm.peersByIp.get ip = some peer) (reads : Nat → Readings) :
    ∃ position, peer.status (reads position) ∈ pm.status reads := by
  have there : peer ∈ pm.peersByIp.values :=
    List.mem_map.mpr ⟨(ip, peer), HashMap.mem_iter_iff.mpr held, rfl⟩
  obtain ⟨position, bound, same⟩ := List.getElem_of_mem there
  exact ⟨position, List.mem_mapIdx.mpr ⟨position, bound, by rw [same]⟩⟩

end WolfNet
