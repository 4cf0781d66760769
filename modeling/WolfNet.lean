import WolfNet.Commands.Addresses
import WolfNet.Commands.Rejoin
import WolfNet.Config.Atomic
import WolfNet.Config.Collapse
import WolfNet.Config.Migration
import WolfNet.Config.Recovery
import WolfNet.Daemon.Gateway
import WolfNet.Daemon.Attribution
import WolfNet.Daemon.Bounds
import WolfNet.Daemon.Broadcast
import WolfNet.Daemon.Overlay
import WolfNet.Daemon.Paths
import WolfNet.Daemon.Encapsulation
import WolfNet.Daemon.Tunnel
import WolfNet.Daemon.ExchangeSize
import WolfNet.Reload.Reconcile
import WolfNet.Daemon.Unauthenticated
import WolfNet.Session.Nonce
import WolfNet.Session.Replay
import WolfNet.Session.Resync
import WolfNet.Table.EndpointIndex
import WolfNet.Table.IdIndex
import WolfNet.Table.Discovery
import WolfNet.Table.Sticky
import WolfNet.Routes.Longest
import WolfNet.Session.Window
import WolfNet.Table.Newcomers
import WolfNet.Table.Hearsay
import WolfNet.Table.Commute
import WolfNet.Daemon.RouteFiles
import WolfNet.Daemon.Ghosts
import WolfNet.Daemon.Greetings
import WolfNet.Daemon.Identity
import WolfNet.Daemon.Subnet
import WolfNet.Status.Flow
import WolfNet.Transport.Discovery
import WolfNet.Transport.Handshake
import WolfNet.Mesh.Origin
import WolfNet.Mesh.Introduction
import WolfNet.Crypto.KeyFile
import WolfNet.Daemon.Liveness
import WolfNet.Daemon.Reaction
import WolfNet.Gateway.Lives
