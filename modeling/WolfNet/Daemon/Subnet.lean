import WolfNet.Daemon.Fallback
import WolfNet.Routes.Subnet
import WolfNet.Table.Exchange

/-!
# The configured subnet

The TUN device is configured with the address and the prefix length of the config. The event loop
and the peer exchange take the first three octets of the address instead, so that all of them agree
on the subnet exactly where the prefix length is 24: `subnet_decides_iff`.
-/

namespace WolfNet

open WolfNet.Std

section Daemon

variable [Crates]

namespace Node

/-- Relay a decrypted packet along destination peer, container route and CIDR route: the rest of
`routeInbound` behind its test for this node and for broadcasts. -/
def relayInbound (node : Node) (now : Instant) (destIp : Ipv4Addr) (plaintext : List UInt8) :
    Rust (Node × List Effect) := do
  let (node, effects, forwarded) ← node.sendToPeer destIp plaintext now
  if forwarded then return (node, effects)
  match node.peerManager.findRoute destIp with
  | some hostIp =>
    if hostIp = node.wolfnetIp then return (node, [.writeTun plaintext])
    let (node, effects, _) ← node.sendToPeer hostIp plaintext now
    return (node, effects)
  | none =>
    match node.peerManager.findSubnetMatch destIp with
    | some gwIp =>
      if gwIp = node.wolfnetIp then return (node, [.writeTun plaintext])
      let (node, effects, _) ← node.sendToPeer gwIp plaintext now
      return (node, effects)
    | none => return (node, [])

/-- A decrypted packet is written here, or relayed. -/
theorem routeInbound_eq (node : Node) (now : Instant) (destIp : Ipv4Addr)
    (plaintext : List UInt8) : node.routeInbound now destIp plaintext =
      if destIp = node.wolfnetIp ∨ destIp = node.subnetBroadcast ∨
          destIp = Ipv4Addr.broadcast then
        .ok (node, [.writeTun plaintext])
      else node.relayInbound now destIp plaintext := by
  unfold routeInbound relayInbound
  rfl

/-- The node runs with an address and a prefix length in its config. -/
def ConfiguredAs (node : Node) (address : Ipv4Addr) (prefixLen : UInt8) : Prop :=
  node.wolfnetIp = address ∧ node.config.network.subnet = prefixLen

/-- A packet is sent to all peers, and a decrypted one is delivered, exactly for the broadcast
addresses of the configured subnet; a packet for this node is delivered too. -/
structure BroadcastsBySubnet (address : Ipv4Addr) (prefixLen : UInt8) : Prop where
  sent : ∀ (node : Node) packet dest now, node.ConfiguredAs address prefixLen →
    getDestIp packet = .ok (some dest) →
      (address.IsBroadcast prefixLen dest → node.outbound packet now =
        node.sendBroadcast packet now [] (node.broadcastTargets now)) ∧
      (¬address.IsBroadcast prefixLen dest →
        node.outbound packet now = node.outboundUnicast dest packet now)
  delivered : ∀ (node : Node) sender packet dest now, node.ConfiguredAs address prefixLen →
    getDestIp packet = .ok (some dest) →
      (address.IsBroadcast prefixLen dest →
        node.deliver now sender packet = .ok (node, [.writeTun packet])) ∧
      (¬address.IsBroadcast prefixLen dest → dest ≠ address →
        node.deliver now sender packet = node.relayInbound now dest packet)

/-- The broadcasts of a node follow a subnet whose directed broadcast address ends with 255
behind the node's three octets. -/
theorem broadcastsBySubnet_of {address : Ipv4Addr} {prefixLen : UInt8}
    (octets : ∀ ip, address.IsDirectedBroadcast prefixLen ip ↔
      ip = ⟨address.a, address.b, address.c, 255⟩) : BroadcastsBySubnet address prefixLen := by
  have tested : ∀ (node : Node) dest, node.ConfiguredAs address prefixLen →
      (address.IsBroadcast prefixLen dest ↔
        dest = node.subnetBroadcast ∨ dest = Ipv4Addr.broadcast) := by
    rintro node dest ⟨rfl, _⟩
    rw [Ipv4Addr.IsBroadcast, octets, or_comm]
    rfl
  constructor
  · intro node packet dest now configured read
    rw [tested node dest configured]
    constructor
    · intro broadcast
      simp only [outbound, read, Rust.ok_bind, if_pos broadcast]
    · intro unicast
      simp only [outbound, read, Rust.ok_bind, if_neg unicast]
  · intro node sender packet dest now configured read
    rw [tested node dest configured, deliver_unicast sender read, routeInbound_eq]
    constructor
    · intro broadcast
      rw [if_pos (Or.inr broadcast)]
    · intro unicast foreign
      rw [if_neg]
      rintro (own | broadcast)
      · exact foreign (own.trans configured.1)
      · exact unicast broadcast

end Node

namespace PeerManager

/-- An entry that peer exchange may take as far as all but the subnet of its IP goes. -/
structure OtherwiseAcceptable (pm : PeerManager) (myIp : Ipv4Addr) (now : Instant)
    (entry : PexEntry) (ip : Ipv4Addr) (publicKey : PublicKey) : Prop where
  ipParsed : Ipv4Addr.parse entry.wolfnetIp.toList = some ip
  keyParsed : parsePublicKey entry.publicKey = .ok publicKey
  foreign : ip ≠ myIp
  notPurged : ip ∉ pm.purgedIps
  indirect : ∀ existing, pm.peersByIp.get ip = some existing → Relayed now existing
  known : ∀ found, pm.findIpByKey publicKey = some found → found = ip

/-- An exchange takes the entries whose IPs lie in the configured subnet, so that they are reached
through the sender, and refuses the others; both as far as nothing else keeps an entry out. -/
def ExchangesBySubnet (address : Ipv4Addr) (prefixLen : UInt8) : Prop :=
  ∀ (pm met pm' : PeerManager) before entry senderIp keypair now ip publicKey,
    met = pm.addFromPex before senderIp address keypair now →
    pm' = pm.addFromPex (before ++ [entry]) senderIp address keypair now →
    met.OtherwiseAcceptable address now entry ip publicKey →
      (address.InSubnet prefixLen ip → ∃ peer, pm'.peersByIp.get ip = some peer ∧
        peer.relayVia = some senderIp) ∧
      (¬address.InSubnet prefixLen ip → pm' = met)

variable {pm : PeerManager} {myIp ip senderIp : Ipv4Addr} {entry : PexEntry} {keypair : KeyPair}
  {now : Instant} {publicKey : PublicKey}

/-- An entry of this node's three octets is taken. -/
theorem OtherwiseAcceptable.taken (acceptable : pm.OtherwiseAcceptable myIp now entry ip publicKey)
    (subnet : ip.a = myIp.a ∧ ip.b = myIp.b ∧ ip.c = myIp.c) :
    ∃ peer, (pm.addPexEntry entry senderIp myIp keypair now).peersByIp.get ip = some peer ∧
      peer.relayVia = some senderIp := by
  have whole : pm.Acceptable myIp entry ip publicKey :=
    ⟨acceptable.ipParsed, acceptable.keyParsed, acceptable.foreign, acceptable.notPurged, subnet⟩
  cases pm.addPexEntry_outcome entry senderIp myIp keypair now with
  | ignored same notNew notRelayed =>
      exfalso
      cases held : pm.peersByIp.get ip with
      | none =>
          obtain ⟨found, search⟩ := Option.ne_none_iff_exists'.mp (notNew ip publicKey whole held)
          obtain ⟨peer, there, _⟩ := findIpByKey_some search
          rw [acceptable.known found search, held] at there
          cases there
      | some existing =>
          obtain ⟨found, search, elsewhere⟩ :=
            notRelayed ip publicKey existing whole held (acceptable.indirect existing held)
          exact elsewhere (acceptable.known found search)
  | relayed other _ _ touches =>
      obtain ⟨rfl, _⟩ := whole.unique other
      exact ⟨_, by rw [touches.peers, if_pos rfl], rfl⟩
  | inserted other _ _ replaces =>
      obtain ⟨rfl, _⟩ := whole.unique other
      exact ⟨_, by rw [replaces.peers, if_pos rfl], rfl⟩

/-- An entry of other octets changes nothing. -/
theorem addPexEntry_foreign (parsed : Ipv4Addr.parse entry.wolfnetIp.toList = some ip)
    (apart : ¬(ip.a = myIp.a ∧ ip.b = myIp.b ∧ ip.c = myIp.c)) :
    pm.addPexEntry entry senderIp myIp keypair now = pm := by
  have refused : ∀ {other publicKey}, ¬pm.Acceptable myIp entry other publicKey := by
    intro other publicKey acceptable
    cases parsed.symm.trans acceptable.ipParsed
    exact apart acceptable.subnet
  cases pm.addPexEntry_outcome entry senderIp myIp keypair now with
  | ignored same _ _ => exact same
  | relayed other _ _ _ => exact absurd other refused
  | inserted other _ _ _ => exact absurd other refused

/-- One more entry is taken after the others. -/
theorem addFromPex_append (pm : PeerManager) (before : List PexEntry) (entry : PexEntry)
    (senderIp myIp : Ipv4Addr) (keypair : KeyPair) (now : Instant) :
    pm.addFromPex (before ++ [entry]) senderIp myIp keypair now =
      (pm.addFromPex before senderIp myIp keypair now).addPexEntry entry senderIp myIp keypair
        now := by
  simp only [addFromPex, List.foldl_append, List.foldl_cons, List.foldl_nil]

/-- Peer exchange follows the subnet of three octets. -/
theorem exchangesBySubnet_24 (address : Ipv4Addr) : ExchangesBySubnet address 24 := by
  rintro pm met pm' before entry senderIp keypair now ip publicKey rfl rfl acceptable
  rw [addFromPex_append, Ipv4Addr.inSubnet_24]
  exact ⟨acceptable.taken, addPexEntry_foreign acceptable.ipParsed⟩

/-- The entry of a node that tells no more than its key. -/
def bareEntry (key : String) (ip : Ipv4Addr) : PexEntry where
  publicKey := key
  wolfnetIp := ip.toText
  endpoint := none
  hostname := ""
  isGateway := false

/-- A table without peers has nothing against an entry of another IP. -/
theorem otherwiseAcceptable_new {key : String} (parsed : parsePublicKey key = .ok publicKey)
    (foreign : ip ≠ myIp) :
    new.OtherwiseAcceptable myIp now (bareEntry key ip) ip publicKey where
  ipParsed := ip.parse_toText
  keyParsed := parsed
  foreign := foreign
  notPurged := by simp [new]
  indirect existing held := by simp [new] at held
  known found search := by
    obtain ⟨peer, held, _⟩ := findIpByKey_some search
    simp [new] at held

/-- Peer exchange follows the subnet of no other prefix length. -/
theorem not_exchangesBySubnet (named : ∃ key publicKey, parsePublicKey key = .ok publicKey)
    {address : Ipv4Addr} {prefixLen : UInt8} (other : prefixLen ≠ 24) :
    ¬ExchangesBySubnet address prefixLen := by
  intro exchanges
  obtain ⟨key, publicKey, parsed⟩ := named
  obtain ⟨ip, foreign, apart⟩ := address.exists_apart other
  let keypair : KeyPair := ⟨publicKey, Crates.publicKey publicKey, rfl⟩
  have acceptable := @otherwiseAcceptable_new _ address ip 0 publicKey key parsed foreign
  obtain ⟨taken, refused⟩ := exchanges new _ _ [] (bareEntry key ip) address keypair 0 ip publicKey
    rfl rfl acceptable
  rw [addFromPex_append, apart] at taken refused
  have absent : (new : PeerManager).peersByIp.get ip = none := rfl
  by_cases near : address.InSubnet 24 ip
  · have unchanged : new.addPexEntry (bareEntry key ip) address address keypair 0 = new :=
      refused (not_not.mpr near)
    obtain ⟨peer, held, _⟩ : ∃ peer, (new.addPexEntry (bareEntry key ip) address address keypair
        0).peersByIp.get ip = some peer ∧ peer.relayVia = some address :=
      acceptable.taken (Ipv4Addr.inSubnet_24.mp near)
    rw [unchanged] at held
    cases absent.symm.trans held
  · obtain ⟨peer, held, _⟩ := taken near
    rw [Ipv4Addr.inSubnet_24] at near
    rw [addPexEntry_foreign acceptable.ipParsed near] at held
    cases absent.symm.trans held

end PeerManager

/-- The subnet of the config decides on broadcasts and on the entries of peer exchange. -/
structure SubnetDecides (address : Ipv4Addr) (prefixLen : UInt8) : Prop where
  broadcasts : Node.BroadcastsBySubnet address prefixLen
  exchanges : PeerManager.ExchangesBySubnet address prefixLen

/-- The configured subnet decides exactly when its prefix length is 24. -/
theorem subnet_decides_iff (named : ∃ key publicKey, parsePublicKey key = .ok publicKey)
    (address : Ipv4Addr) (prefixLen : UInt8) :
    SubnetDecides address prefixLen ↔ prefixLen = 24 := by
  constructor
  · intro decides
    by_contra other
    exact PeerManager.not_exchangesBySubnet named other decides.exchanges
  · rintro rfl
    exact ⟨Node.broadcastsBySubnet_of fun _ => Ipv4Addr.isDirectedBroadcast_24,
      PeerManager.exchangesBySubnet_24 address⟩

end Daemon

section Sample

attribute [local instance] Sample.crates

/-- The sample crate parses some key. -/
theorem sample_key : ∃ key publicKey, parsePublicKey key = .ok publicKey :=
  ⟨_, (Sample.keypair 1).publicKey,
    parsePublicKey_encode Sample.base64_padded Sample.base64_keysRoundTrip _⟩

/-- The subnet 10.10.10.0/24 decides. -/
theorem subnet_decides_iff_sample : SubnetDecides ⟨10, 10, 10, 1⟩ 24 :=
  (subnet_decides_iff sample_key ⟨10, 10, 10, 1⟩ 24).mpr rfl

/-- A node at 10.10.10.1/16 that is connected to one peer. -/
def wideNode : Node :=
  let node := Sample.node 1 false (Sample.connectedTable 1 2)
  { node with config := { node.config with network := { node.config.network with subnet := 16 } } }

/-- An empty packet from 10.10.10.2. -/
def packetTo (dest : Ipv4Addr) : List UInt8 :=
  [0x45, 0, 0, 20, 0, 0, 0, 0, 64, 17, 0, 0, 10, 10, 10, 2, dest.a, dest.b, dest.c, dest.d]

/-- At 10.10.10.1/16 the directed broadcast 10.10.255.255 reaches neither the peer nor the TUN
device, the host 10.10.10.255 is taken for a broadcast address in both directions, and the node
10.10.20.5 of the subnet is refused. -/
theorem wide_subnet_ignored :
    (Ipv4Addr.IsBroadcast ⟨10, 10, 10, 1⟩ 16 ⟨10, 10, 255, 255⟩ ∧
      wideNode.outbound (packetTo ⟨10, 10, 255, 255⟩) 0 = .ok (wideNode, []) ∧
      wideNode.deliver 0 ⟨10, 10, 10, 2⟩ (packetTo ⟨10, 10, 255, 255⟩) = .ok (wideNode, [])) ∧
    (¬Ipv4Addr.IsBroadcast ⟨10, 10, 10, 1⟩ 16 ⟨10, 10, 10, 255⟩ ∧
      wideNode.outbound (packetTo ⟨10, 10, 10, 255⟩) 0 =
        wideNode.sendBroadcast (packetTo ⟨10, 10, 10, 255⟩) 0 [] [(⟨10, 10, 10, 2⟩, none)] ∧
      wideNode.deliver 0 ⟨10, 10, 10, 2⟩ (packetTo ⟨10, 10, 10, 255⟩) =
        .ok (wideNode, [.writeTun (packetTo ⟨10, 10, 10, 255⟩)])) ∧
    (Ipv4Addr.InSubnet ⟨10, 10, 10, 1⟩ 16 ⟨10, 10, 20, 5⟩ ∧
      PeerManager.new.addFromPex
        [PeerManager.bareEntry (Crates.base64Encode (Sample.keypair 3).publicKey.1) ⟨10, 10, 20, 5⟩]
        ⟨10, 10, 10, 2⟩ ⟨10, 10, 10, 1⟩ (Sample.keypair 1) 0 = PeerManager.new) ∧
    ¬SubnetDecides ⟨10, 10, 10, 1⟩ 16 := by
  refine ⟨⟨Or.inr ⟨?_, ?_⟩, rfl, rfl⟩, ⟨?_, ?_, rfl⟩, ⟨?_, ?_⟩, fun decides => ?_⟩
  · change ∀ i < 16, _
    decide
  · change ∀ i < 32, 16 ≤ i → _
    decide
  · rintro (limited | ⟨_, ones⟩)
    · exact absurd limited (by decide)
    · exact absurd (ones 16 (by decide) (by decide)) (by decide)
  · have read : getDestIp (packetTo ⟨10, 10, 10, 255⟩) = .ok (some ⟨10, 10, 10, 255⟩) := rfl
    have targets : wideNode.broadcastTargets 0 = [(⟨10, 10, 10, 2⟩, none)] := by decide
    have subnet : (⟨10, 10, 10, 255⟩ : Ipv4Addr) = wideNode.subnetBroadcast := rfl
    rw [Node.outbound, read, Rust.ok_bind, targets]
    exact if_pos (Or.inl subnet)
  · change ∀ i < 16, _
    decide
  · have far : Ipv4Addr.parse (Ipv4Addr.toText ⟨10, 10, 20, 5⟩).toList = some ⟨10, 10, 20, 5⟩ :=
      Ipv4Addr.parse_toText _
    rw [PeerManager.addFromPex, List.foldl_cons, List.foldl_nil]
    exact PeerManager.addPexEntry_foreign far (by decide)
  · exact PeerManager.not_exchangesBySubnet sample_key (by decide) decides.exchanges

end Sample
end WolfNet
