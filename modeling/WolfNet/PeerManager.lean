import Mathlib.Data.Finset.Insert
import Mathlib.Data.List.Sort
import WolfNet.Net.Text
import WolfNet.Peer
import WolfNet.Std.HashMap

/-!
# The peer table and its indexes

Peers live in a table by WolfNet IP. Two indexes, by peer ID and by endpoint,
route incoming packets; each operation edits the three maps itself. Route tables
are replaced whole from their files.
-/

namespace WolfNet

open WolfNet.Std

/-- Is this address useful as a peer endpoint we might actually dial? -/
def isRoutableEndpoint (addr : SocketAddr) : Bool :=
  match addr.ip with
  | .v4 ip =>
    if ip.isLoopback then false
    else if ip.isUnspecified then false
    else if ip.isLinkLocal then false
    else if ip.isMulticast then false
    else if ip.a == 10 then false
    else if ip.a == 172 && (16 ≤ ip.b && ip.b ≤ 31) then false
    else if ip.a == 192 && ip.b == 168 then false
    else true
  | .v6 _ => true

/-- What reading a JSON string map from a file gave. A file that is there may be refused, for its
permissions or for bytes that are not UTF-8. -/
inductive RouteFile where
  | missing
  | unreadable
  | unparsable
  | parsed (map : List (String × String))
deriving DecidableEq, Repr

variable [Crates]

/-- Manages all known peers. -/
structure PeerManager where
  /-- Peers indexed by WolfNet IP. -/
  peersByIp : HashMap Ipv4Addr Peer
  /-- Peer ID to WolfNet IP, for packet routing. -/
  idToIp : HashMap PeerId Ipv4Addr
  /-- Endpoint to WolfNet IP, for incoming packets. -/
  endpointToIp : HashMap SocketAddr Ipv4Addr
  /-- Container or VM IP to the IP of its host peer. -/
  subnetRoutes : HashMap Ipv4Addr Ipv4Addr
  /-- Network, prefix length and gateway, longest prefix first. -/
  subnetRoutesCidrs : List (Ipv4Addr × UInt8 × Ipv4Addr)
  subnetRoutesCidrsV6 : List (Ipv6Addr × UInt8 × Ipv4Addr)
  /-- IPs purged by a reload, which peer exchange may not add again. -/
  purgedIps : Finset Ipv4Addr

namespace PeerManager

def new : PeerManager where
  peersByIp := .empty
  idToIp := .empty
  endpointToIp := .empty
  subnetRoutes := .empty
  subnetRoutesCidrs := []
  subnetRoutesCidrsV6 := []
  purgedIps := ∅

/-- Index an endpoint, if there is one. -/
def indexEndpoint (pm : PeerManager) (endpoint : Option SocketAddr) (ip : Ipv4Addr) :
    PeerManager :=
  match endpoint with
  | some endpoint => { pm with endpointToIp := pm.endpointToIp.insert endpoint ip }
  | none => pm

/-- Drop the index entry of an endpoint, if there is one. -/
def forgetEndpoint (pm : PeerManager) (endpoint : Option SocketAddr) : PeerManager :=
  match endpoint with
  | some endpoint => { pm with endpointToIp := pm.endpointToIp.remove endpoint }
  | none => pm

/-- Drop the index entry of a peer's old endpoint when the new one differs. -/
def forgetOldEndpoint (pm : PeerManager) (peer : Peer) (endpoint : SocketAddr) : PeerManager :=
  if peer.endpoint = some endpoint then pm else pm.forgetEndpoint peer.endpoint

/-- Add a peer. -/
def addPeer (pm : PeerManager) (peer : Peer) : PeerManager :=
  let pm := pm.indexEndpoint peer.endpoint peer.wolfnetIp
  { pm with
    idToIp := pm.idToIp.insert peer.peerId peer.wolfnetIp
    peersByIp := pm.peersByIp.insert peer.wolfnetIp peer }

/-- Remove a peer by WolfNet IP. -/
def removePeer (pm : PeerManager) (ip : Ipv4Addr) : PeerManager :=
  match pm.peersByIp.get ip with
  | some peer =>
    let pm := { pm with
      peersByIp := pm.peersByIp.remove ip
      idToIp := pm.idToIp.remove peer.peerId }
    pm.forgetEndpoint peer.endpoint
  | none => pm

/-- Purge a peer and block it from being re-added by peer exchange. -/
def purgePeer (pm : PeerManager) (ip : Ipv4Addr) : PeerManager :=
  let pm := pm.removePeer ip
  { pm with purgedIps := insert ip pm.purgedIps }

/-- Replace the record of the peer at an IP, if there is one. -/
def withPeerByIp (pm : PeerManager) (ip : Ipv4Addr) (f : Peer → Peer) : PeerManager :=
  match pm.peersByIp.get ip with
  | some peer => { pm with peersByIp := pm.peersByIp.insert ip (f peer) }
  | none => pm

/-- Find peer by incoming endpoint address. -/
def findIpByEndpoint (pm : PeerManager) (addr : SocketAddr) : Option Ipv4Addr :=
  pm.endpointToIp.get addr

/-- Find peer by peer ID. -/
def findIpById (pm : PeerManager) (id : PeerId) : Option Ipv4Addr := pm.idToIp.get id

/-- Find peer by endpoint first, then fall back to peer ID. -/
def findIpByEndpointOrId (pm : PeerManager) (addr : SocketAddr) (id : PeerId) :
    Option Ipv4Addr :=
  match pm.endpointToIp.get addr with
  | some ip => some ip
  | none => pm.idToIp.get id

/-- Set a peer's endpoint in its record and in the index. -/
def setEndpoint (pm : PeerManager) (ip : Ipv4Addr) (peer : Peer) (endpoint : SocketAddr) :
    PeerManager :=
  let pm := pm.forgetOldEndpoint peer endpoint
  { pm with
    peersByIp := pm.peersByIp.insert ip { peer with endpoint := some endpoint }
    endpointToIp := pm.endpointToIp.insert endpoint ip }

/-- Update a peer's endpoint unconditionally. -/
def updateEndpoint (pm : PeerManager) (ip : Ipv4Addr) (newEndpoint : SocketAddr) : PeerManager :=
  match pm.peersByIp.get ip with
  | some peer => pm.setEndpoint ip peer newEndpoint
  | none => pm

/-- Update a peer's endpoint from a roamed source, unless it has a configured one.
The flag tells whether the update was applied. -/
def updateEndpointIfRoaming (pm : PeerManager) (ip : Ipv4Addr) (newEndpoint : SocketAddr) :
    PeerManager × Bool :=
  match pm.peersByIp.get ip with
  | none => (pm, false)
  | some peer =>
    if peer.configuredEndpoint.isSome then (pm, false)
    else (pm.setEndpoint ip peer newEndpoint, true)

/-- Forget a peer's static endpoint. The flag tells whether there was one. -/
def clearEndpoint (pm : PeerManager) (ip : Ipv4Addr) : PeerManager × Bool :=
  match pm.peersByIp.get ip with
  | some peer =>
    let hadEndpoint := peer.endpoint.isSome || peer.configuredEndpoint.isSome
    let cleared := { peer with endpoint := none, configuredEndpoint := none }
    let pm := pm.forgetEndpoint peer.endpoint
    ({ pm with peersByIp := pm.peersByIp.insert ip cleared }, hadEndpoint)
  | none => (pm, false)

/-- The IP under which iteration first meets a public key, as the crate compares keys. -/
def findIpByKey (pm : PeerManager) (publicKey : PublicKey) : Option Ipv4Addr :=
  (pm.peersByIp.iter.find? fun (_, peer) => peer.publicKey.Same publicKey).map Prod.fst

/-- Discovery of a known key at its known IP: the endpoint changes only when it is
not pinned by config. -/
def refreshDiscovered (pm : PeerManager) (peer : Peer) (endpoint : SocketAddr)
    (wolfnetIp : Ipv4Addr) (hostname : String) (isGateway : Bool) : PeerManager :=
  let peer := { peer with hostname := hostname, isGateway := isGateway, relayVia := none }
  if peer.configuredEndpoint.isNone then pm.setEndpoint wolfnetIp peer endpoint
  else { pm with peersByIp := pm.peersByIp.insert wolfnetIp peer }

/-- Discovery of a known key at another IP: the peer migrates. -/
def migrateDiscovered (pm : PeerManager) (oldIp : Ipv4Addr) (peer : Peer) (endpoint : SocketAddr)
    (wolfnetIp : Ipv4Addr) (hostname : String) (isGateway : Bool) : PeerManager :=
  let pm := { pm with peersByIp := pm.peersByIp.remove oldIp }
  let pm := pm.forgetEndpoint peer.endpoint
  let peer := { peer with
    wolfnetIp := wolfnetIp
    endpoint := some endpoint
    hostname := hostname
    isGateway := isGateway
    relayVia := none }
  { pm with
    endpointToIp := pm.endpointToIp.insert endpoint wolfnetIp
    idToIp := pm.idToIp.insert peer.peerId wolfnetIp
    peersByIp := pm.peersByIp.insert wolfnetIp peer }

/-- Discovery of an unknown key: a different-key peer at this IP gives way, and its
index entries are cleaned up. -/
def insertDiscovered (pm : PeerManager) (publicKey : PublicKey) (endpoint : SocketAddr)
    (wolfnetIp : Ipv4Addr) (hostname : String) (isGateway : Bool) : PeerManager :=
  let pm := match pm.peersByIp.get wolfnetIp with
    | some oldPeer =>
      let pm := { pm with peersByIp := pm.peersByIp.remove wolfnetIp }
      let pm := pm.forgetEndpoint oldPeer.endpoint
      { pm with idToIp := pm.idToIp.remove oldPeer.peerId }
    | none => pm
  let peer := { Peer.new publicKey wolfnetIp with
    endpoint := some endpoint
    hostname := hostname
    isGateway := isGateway }
  { pm with
    endpointToIp := pm.endpointToIp.insert endpoint wolfnetIp
    idToIp := pm.idToIp.insert peer.peerId wolfnetIp
    peersByIp := pm.peersByIp.insert wolfnetIp peer }

/-- The second and third checks of a discovery: a known key under another IP, or an
entirely new peer. -/
def discoverElsewhere (pm : PeerManager) (publicKey : PublicKey) (endpoint : SocketAddr)
    (wolfnetIp : Ipv4Addr) (hostname : String) (isGateway : Bool) : PeerManager :=
  match pm.findIpByKey publicKey with
  | some oldIp =>
    match pm.peersByIp.get oldIp with
    | some peer =>
      if oldIp ≠ wolfnetIp then
        pm.migrateDiscovered oldIp peer endpoint wolfnetIp hostname isGateway
      else pm.insertDiscovered publicKey endpoint wolfnetIp hostname isGateway
    | none => pm.insertDiscovered publicKey endpoint wolfnetIp hostname isGateway
  | none => pm.insertDiscovered publicKey endpoint wolfnetIp hostname isGateway

/-- Update a peer's endpoint and hostname from discovery. -/
def updateFromDiscovery (pm : PeerManager) (publicKey : PublicKey) (endpoint : SocketAddr)
    (wolfnetIp : Ipv4Addr) (hostname : String) (isGateway : Bool) : PeerManager :=
  match pm.peersByIp.get wolfnetIp with
  | some peer =>
    if peer.publicKey.Same publicKey then
      pm.refreshDiscovered peer endpoint wolfnetIp hostname isGateway
    else pm.discoverElsewhere publicKey endpoint wolfnetIp hostname isGateway
  | none => pm.discoverElsewhere publicKey endpoint wolfnetIp hostname isGateway

/-- Get all peer IPs. -/
def allIps (pm : PeerManager) : List Ipv4Addr := pm.peersByIp.keys

/-- Find a connected gateway peer to route traffic through. -/
def findGateway (pm : PeerManager) (now : Instant) : Option Ipv4Addr :=
  (pm.peersByIp.iter.find? fun (_, peer) => peer.isGateway && peer.isConnected now).map Prod.fst

/-- The relay of a destination that is not directly connected. -/
def findRelayFor (pm : PeerManager) (destIp : Ipv4Addr) (now : Instant) : Option Ipv4Addr :=
  match pm.peersByIp.get destIp with
  | some peer => if peer.isConnected now then none else peer.relayVia
  | none => none

/-- Find the host peer for a container or VM IP. -/
def findRoute (pm : PeerManager) (destIp : Ipv4Addr) : Option Ipv4Addr :=
  pm.subnetRoutes.get destIp

/-- Load container routes: entries that do not parse are skipped. -/
def loadRoutes (pm : PeerManager) (file : RouteFile) : PeerManager :=
  match file with
  | .missing | .unreadable | .unparsable => pm
  | .parsed map =>
    let routes := map.foldl (fun (routes : HashMap Ipv4Addr Ipv4Addr) (container, host) =>
      match Ipv4Addr.parse container.toList, Ipv4Addr.parse host.toList with
      | some containerIp, some hostIp => routes.insert containerIp hostIp
      | _, _ => routes) .empty
    { pm with subnetRoutes := routes }

/-- A CIDR entry of either family: network, prefix length and gateway. -/
inductive CidrEntry where
  | v4 (net : Ipv4Addr) (prefixLen : UInt8) (gateway : Ipv4Addr)
  | v6 (net : Ipv6Addr) (prefixLen : UInt8) (gateway : Ipv4Addr)

/-- `str::split_once`. -/
def splitOnce (separator : Char) (text : List Char) : Option (List Char × List Char) :=
  let front := text.takeWhile (· ≠ separator)
  match text.drop front.length with
  | _ :: back => some (front, back)
  | [] => none

/-- Parse one CIDR route; `none` is an entry the loader skips. -/
def parseCidrEntry (cidr gateway : String) : Option CidrEntry := do
  let (netStr, prefixStr) ← splitOnce '/' cidr.toList
  let gateway ← Ipv4Addr.parse gateway.toList
  match Ipv4Addr.parse netStr with
  | some net =>
    let prefixLen ← parseU8 prefixStr
    if prefixLen ≤ 32 then return .v4 net prefixLen gateway else none
  | none =>
    let net ← Ipv6Addr.parse netStr
    let prefixLen ← parseU8 prefixStr
    if prefixLen ≤ 128 then return .v6 net prefixLen gateway else none

/-- Load CIDR routes: a file that cannot be read clears both tables, an unparsable one keeps
them, and the entries are sorted longest prefix first. -/
def loadSubnetRoutes (pm : PeerManager) (file : RouteFile) : PeerManager :=
  match file with
  | .missing | .unreadable => { pm with subnetRoutesCidrs := [], subnetRoutesCidrsV6 := [] }
  | .unparsable => pm
  | .parsed map =>
    let entries := map.filterMap fun (cidr, gateway) => parseCidrEntry cidr gateway
    let parsed := entries.filterMap fun
      | .v4 net prefixLen gateway => some (net, prefixLen, gateway)
      | .v6 .. => none
    let parsedV6 := entries.filterMap fun
      | .v4 .. => none
      | .v6 net prefixLen gateway => some (net, prefixLen, gateway)
    { pm with
      subnetRoutesCidrs := parsed.insertionSort fun first second => second.2.1 ≤ first.2.1
      subnetRoutesCidrsV6 := parsedV6.insertionSort fun first second => second.2.1 ≤ first.2.1 }

/-- The network mask of a prefix length at a width of `bits`. -/
def prefixMask (bits : Nat) (prefixLen : UInt8) : BitVec bits :=
  if prefixLen = 0 then 0
  else if bits ≤ prefixLen.toNat then BitVec.allOnes bits
  else BitVec.allOnes bits <<< (bits - prefixLen.toNat)

/-- `u32::from_be_bytes(ip.octets())`. -/
def ipv4Bits (ip : Ipv4Addr) : BitVec 32 :=
  ip.a.toBitVec ++ ip.b.toBitVec ++ ip.c.toBitVec ++ ip.d.toBitVec

/-- Longest-prefix match against the loaded CIDR routes: the first hit. -/
def findSubnetMatch (pm : PeerManager) (destIp : Ipv4Addr) : Option Ipv4Addr :=
  (pm.subnetRoutesCidrs.find? fun (net, prefixLen, _) =>
    ipv4Bits destIp &&& prefixMask 32 prefixLen == ipv4Bits net &&& prefixMask 32 prefixLen).map
    fun (_, _, gateway) => gateway

/-- Longest-prefix match against the loaded IPv6 CIDR routes. -/
def findSubnetMatchV6 (pm : PeerManager) (destIp : Ipv6Addr) : Option Ipv4Addr :=
  (pm.subnetRoutesCidrsV6.find? fun (net, prefixLen, _) =>
    destIp.bits &&& prefixMask 128 prefixLen == net.bits &&& prefixMask 128 prefixLen).map
    fun (_, _, gateway) => gateway

/-- The entry that tells others of a peer. An endpoint that is not reachable from outside its
network is left out. -/
def pexEntry (peer : Peer) : PexEntry where
  publicKey := Crates.base64Encode peer.publicKey.1
  wolfnetIp := peer.wolfnetIp.toText
  endpoint := (peer.endpoint.filter isRoutableEndpoint).map SocketAddr.toText
  hostname := peer.hostname
  isGateway := peer.isGateway

/-- The entries of all known peers, to share with others. -/
def getPexEntries (pm : PeerManager) (myIp : Ipv4Addr) : List PexEntry :=
  (pm.peersByIp.values.filter fun peer => peer.wolfnetIp ≠ myIp).map pexEntry

/-- The record of a peer first heard of by peer exchange: routed through the sender,
with its endpoint kept only if routable, and a session established. -/
def pexPeer (entry : PexEntry) (publicKey : PublicKey) (entryIp senderIp : Ipv4Addr)
    (keypair : KeyPair) (now : Instant) : Peer :=
  let endpoint := match entry.endpoint with
    | some text => (SocketAddr.parse text.toList).filter isRoutableEndpoint
    | none => none
  let peer := { Peer.new publicKey entryIp with
    hostname := entry.hostname
    isGateway := entry.isGateway
    relayVia := some senderIp
    endpoint := endpoint }
  peer.establishSession keypair.secret keypair.publicKey now

/-- Process one entry of a peer exchange message. -/
def addPexEntry (pm : PeerManager) (entry : PexEntry) (senderIp myIp : Ipv4Addr)
    (keypair : KeyPair) (now : Instant) : PeerManager :=
  match Ipv4Addr.parse entry.wolfnetIp.toList with
  | none => pm
  | some entryIp =>
    if entryIp = myIp then pm
    else if entryIp ∈ pm.purgedIps then pm
    else if entryIp.a ≠ myIp.a ∨ entryIp.b ≠ myIp.b ∨ entryIp.c ≠ myIp.c then pm
    else if (pm.peersByIp.get entryIp).any fun existing =>
        existing.isConnected now || existing.relayVia.isNone then pm
    else
      match parsePublicKey entry.publicKey with
      | .error _ => pm
      | .ok publicKey =>
        if (pm.findIpByKey publicKey).any fun existingIp => existingIp ≠ entryIp then pm
        else
          match pm.peersByIp.get entryIp with
          | some peer =>
            if peer.isConnected now then pm
            else { pm with
              peersByIp := pm.peersByIp.insert entryIp { peer with relayVia := some senderIp } }
          | none =>
            let peer := pexPeer entry publicKey entryIp senderIp keypair now
            let pm := pm.indexEndpoint peer.endpoint entryIp
            { pm with
              idToIp := pm.idToIp.insert peer.peerId entryIp
              peersByIp := pm.peersByIp.insert entryIp peer }

/-- Process the entries a peer sent, marking new peers as relayed by the sender. -/
def addFromPex (pm : PeerManager) (entries : List PexEntry) (senderIp myIp : Ipv4Addr)
    (keypair : KeyPair) (now : Instant) : PeerManager :=
  entries.foldl (fun pm entry => pm.addPexEntry entry senderIp myIp keypair now) pm

end PeerManager
end WolfNet
