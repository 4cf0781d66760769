import WolfNet.Crypto
import WolfNet.Net.Addr

/-!
# Configuration

The records of the config file, and the resolution of a peer's endpoint line.
-/

namespace WolfNet

open WolfNet.Std

/-- Network configuration. -/
structure NetworkConfig where
  interface : String
  /-- This node's IP address on the virtual network. -/
  address : String
  /-- Prefix length of the virtual network. -/
  subnet : UInt8
  listenPort : UInt16
  bindAddress : String
  /-- Act as a gateway (NAT internet traffic for other nodes). -/
  gateway : Bool
  discovery : Bool
  mtu : UInt16
deriving DecidableEq, Repr

/-- Configured peer. -/
structure PeerConfig where
  /-- Peer's public key (base64 encoded). -/
  publicKey : String
  /-- Peer's endpoint, as an address or a host name with a port. -/
  endpoint : Option String
  /-- Peer's WolfNet IP address. -/
  allowedIp : String
  name : Option String
deriving DecidableEq, Repr

/-- Main configuration. -/
structure Config where
  network : NetworkConfig
  privateKeyFile : String
  peers : List PeerConfig
deriving DecidableEq, Repr

/-- An endpoint that would send to this host or nowhere. -/
def isUnusableEndpoint : SocketAddr → Bool
  | .v4 ip _ => ip.isUnspecified || ip.isLoopback
  | .v6 ip _ _ _ => ip.isUnspecified || ip.isLoopback

/-- Resolve an endpoint string: an address is taken as it is, a host name by the
first address that `dns` (`ToSocketAddrs`) gives. Unusable addresses are rejected. -/
def resolveEndpoint (dns : String → Option (List SocketAddr)) (ep : String) :
    Option SocketAddr :=
  match SocketAddr.parse ep.toList with
  | some addr => if isUnusableEndpoint addr then none else some addr
  | none =>
    match dns ep with
    | some (addr :: _) => if isUnusableEndpoint addr then none else some addr
    | some [] => none
    | none => none

end WolfNet
