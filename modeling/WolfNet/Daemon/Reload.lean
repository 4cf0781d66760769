import WolfNet.Daemon.Node

/-!
# Loading the configured peers

Startup builds the peer table from the config. A reload on SIGHUP is a second
loader: it updates the peers whose IP it knows, adds the others, and purges what
the config does not list.
-/

namespace WolfNet

open WolfNet.Std

variable [Crates]

/-- The record a loader makes for a config entry. -/
def configuredPeer (dns : String → Option (List SocketAddr)) (keypair : KeyPair) (now : Instant)
    (pc : PeerConfig) (publicKey : PublicKey) (ip : Ipv4Addr) : Peer :=
  let peer := { Peer.new publicKey ip with
    hostname := pc.name.getD ""
    configuredEndpoint := pc.endpoint
    endpoint := pc.endpoint.bind (resolveEndpoint dns) }
  peer.establishSession keypair.secret keypair.publicKey now

/-- The key and the IP of a config entry, if both parse. -/
def PeerConfig.identity (pc : PeerConfig) : Option (PublicKey × Ipv4Addr) :=
  match parsePublicKey pc.publicKey with
  | .error _ => none
  | .ok publicKey => (Ipv4Addr.parse pc.allowedIp.toList).map fun ip => (publicKey, ip)

/-- Startup: add one configured peer. -/
def startupPeer (dns : String → Option (List SocketAddr)) (keypair : KeyPair) (now : Instant)
    (pm : PeerManager) (pc : PeerConfig) : PeerManager :=
  match pc.identity with
  | some (publicKey, ip) => pm.addPeer (configuredPeer dns keypair now pc publicKey ip)
  | none => pm

/-- The peer table at startup. -/
def startupPeers (dns : String → Option (List SocketAddr)) (keypair : KeyPair) (now : Instant)
    (config : Config) : PeerManager :=
  config.peers.foldl (startupPeer dns keypair now) .new

/-- Reload: apply an endpoint line to a peer whose IP is known. -/
def reloadEndpoint (dns : String → Option (List SocketAddr)) (pm : PeerManager) (ip : Ipv4Addr)
    (endpoint : Option String) : PeerManager :=
  match endpoint with
  | some ep =>
    match resolveEndpoint dns ep with
    | some addr =>
      let currentEp := (pm.peersByIp.get ip).bind (·.endpoint)
      if currentEp ≠ some addr then
        (pm.updateEndpoint ip addr).withPeerByIp ip fun peer =>
          { peer with configuredEndpoint := some ep }
      else pm
    | none => pm
  | none => (pm.clearEndpoint ip).1

/-- Reload: update the host name of a known peer when the config gives one. -/
def reloadHostname (pm : PeerManager) (ip : Ipv4Addr) (name : Option String) : PeerManager :=
  let newName := name.getD ""
  if newName ≠ "" then pm.withPeerByIp ip fun peer => { peer with hostname := newName } else pm

/-- Reload: process one config entry, given the IPs known when the reload began. -/
def reloadPeer (dns : String → Option (List SocketAddr)) (keypair : KeyPair) (now : Instant)
    (existingIps : List Ipv4Addr) (pm : PeerManager) (pc : PeerConfig) : PeerManager :=
  match pc.identity with
  | some (publicKey, ip) =>
    if ip ∈ existingIps then reloadHostname (reloadEndpoint dns pm ip pc.endpoint) ip pc.name
    else pm.addPeer (configuredPeer dns keypair now pc publicKey ip)
  | none => pm

/-- The IPs that the config lists. -/
def Config.configuredIps (config : Config) : List Ipv4Addr :=
  config.peers.filterMap fun pc => Ipv4Addr.parse pc.allowedIp.toList

/-- The endpoints of the configured peers, resolved. -/
def Config.configuredEndpoints (dns : String → Option (List SocketAddr)) (config : Config) :
    List SocketAddr :=
  config.peers.filterMap fun pc => pc.endpoint.bind (resolveEndpoint dns)

/-- A peer that shares a configured peer's endpoint. -/
def isDupEndpoint (configuredEndpoints : List SocketAddr) (peer : Peer) : Bool :=
  peer.endpoint.any fun endpoint => endpoint ∈ configuredEndpoints

/-- The purge step spares a peer that is directly connected and no duplicate. -/
def isPurged (configuredEndpoints : List SocketAddr) (now : Instant) (peer : Peer) : Bool :=
  let isDirect := peer.relayVia.isNone && peer.isConnected now
  !isDirect || isDupEndpoint configuredEndpoints peer

/-- Reload: purge one runtime IP unless it is configured or spared. An IP no longer in
the table counts as neither direct nor duplicate. -/
def reloadPurge (configuredIps : List Ipv4Addr) (configuredEndpoints : List SocketAddr)
    (now : Instant) (pm : PeerManager) (ip : Ipv4Addr) : PeerManager :=
  if ip ∈ configuredIps then pm
  else if (pm.peersByIp.get ip).all (isPurged configuredEndpoints now) then pm.purgePeer ip
  else pm

/-- The SIGHUP reload of the peer table, with the route files read at its end. -/
def reloadPeers (dns : String → Option (List SocketAddr)) (keypair : KeyPair) (now : Instant)
    (pm : PeerManager) (newConfig : Config) (routes subnetRoutes : RouteFile) : PeerManager :=
  let pm := newConfig.peers.foldl (reloadPeer dns keypair now pm.allIps) pm
  let pm := pm.allIps.foldl
    (reloadPurge newConfig.configuredIps (newConfig.configuredEndpoints dns) now) pm
  (pm.loadRoutes routes).loadSubnetRoutes subnetRoutes

end WolfNet
