import WolfNet.Daemon.Receive

/-!
# What a node sends

A packet is sent to a peer when the peer is connected and has an endpoint, and else
nothing happens. `Sends` lists the peers that a packet was encrypted for and sent to, in
order, with one datagram each.
-/

namespace WolfNet

open WolfNet.Std

variable [Crates]

/-- A packet can be sent to the peer: it is connected and has an endpoint. -/
def Peer.reachable (peer : Peer) (now : Instant) : Bool :=
  peer.isConnected now && peer.endpoint.isSome

namespace Node

/-- The table holds at the IP a peer that a packet can be sent to. -/
def reaches (node : Node) (now : Instant) (ip : Ipv4Addr) : Bool :=
  (node.peerManager.peersByIp.get ip).any fun peer => peer.reachable now

/-- The node with another peer table. -/
def withTable (node : Node) (table : HashMap Ipv4Addr Peer) : Node :=
  node.withManager { node.peerManager with peersByIp := table }

/-- The table is the one that the node is given. -/
@[simp] theorem withTable_peersByIp (node : Node) (table : HashMap Ipv4Addr Peer) :
    (node.withTable table).peerManager.peersByIp = table := rfl

/-- Nodes that differ in the order of the peer table at most. -/
def SameTable (node node' : Node) : Prop :=
  ∃ table, node' = node.withTable table ∧
    ∀ ip, table.get ip = node.peerManager.peersByIp.get ip

/-- The datagram that carries a packet in a session. -/
def datagram (node : Node) (session : SessionCipher) (packet : List UInt8) : List UInt8 :=
  buildDataPacket node.keypair.myPeerId session.sendCounter (session.sealed packet)

/-- The node encrypted the packet for the peers at the listed IPs and sent it to them. -/
inductive Sends (now : Instant) (packet : List UInt8) :
    Node → List Ipv4Addr → Node → List Effect → Prop where
  | nothing {node node' : Node} (same : SameTable node node') : Sends now packet node [] node' []
  | packet {node node' : Node} {ip : Ipv4Addr} {ips : List Ipv4Addr} {effects : List Effect}
      {peer : Peer} {session : SessionCipher} {endpoint : SocketAddr}
      (held : node.peerManager.peersByIp.get ip = some peer)
      (connected : peer.isConnected now = true) (established : peer.cipher = some session)
      (placed : peer.endpoint = some endpoint)
      (rest : Sends now packet (node.withTable (node.peerManager.peersByIp.insert ip
        (peer.sent session packet.length))) ips node' effects) :
      Sends now packet node (ip :: ips) node'
        (.sendTo endpoint (node.datagram session packet) :: effects)

variable {node mid node' : Node} {now : Instant} {packet : List UInt8} {ip : Ipv4Addr}
  {ips : List Ipv4Addr} {effects : List Effect}

/-- A node has its own table. -/
theorem SameTable.refl (node : Node) : SameTable node node := ⟨_, rfl, fun _ => rfl⟩

/-- Nodes with the same table, one after the other. -/
theorem SameTable.trans (first : SameTable node mid) (second : SameTable mid node') :
    SameTable node node' := by
  obtain ⟨table, rfl, same⟩ := first
  obtain ⟨table', rfl, same'⟩ := second
  exact ⟨table', rfl, fun ip => (same' ip).trans (same ip)⟩

/-- Lookups in the same table. -/
theorem SameTable.get (same : SameTable node node') (ip : Ipv4Addr) :
    node'.peerManager.peersByIp.get ip = node.peerManager.peersByIp.get ip := by
  obtain ⟨table, rfl, lookups⟩ := same
  exact lookups ip

/-- Nodes with the same table reach the same peers. -/
theorem SameTable.reaches (same : SameTable node node') :
    node'.reaches now ip = node.reaches now ip := by
  rw [Node.reaches, Node.reaches, same.get]

/-- What is sent does not depend on the order of the table. -/
theorem Sends.of_sameTable (same : SameTable node mid)
    (sends : Sends now packet mid ips node' effects) :
    Sends now packet node ips node' effects := by
  induction sends generalizing node with
  | nothing others => exact .nothing (same.trans others)
  | @packet mid node' ip ips effects peer session endpoint held connected established placed _ ih =>
      have sameDatagram : mid.datagram session packet = node.datagram session packet := by
        obtain ⟨table, rfl, _⟩ := same
        rfl
      rw [sameDatagram]
      refine .packet ((same.get _).symm.trans held) connected established placed (ih ?_)
      obtain ⟨table, rfl, lookups⟩ := same
      refine ⟨table.insert ip (peer.sent session packet.length), rfl, fun other => ?_⟩
      simp only [withTable_peersByIp, HashMap.get_insert, lookups]

/-- Sending to some peers, and then to others. -/
theorem Sends.append {ips' : List Ipv4Addr} {effects' : List Effect}
    (first : Sends now packet node ips mid effects)
    (second : Sends now packet mid ips' node' effects') :
    Sends now packet node (ips ++ ips') node' (effects ++ effects') := by
  induction first with
  | nothing same => exact second.of_sameTable same
  | packet held connected established placed _ ih =>
      exact .packet held connected established placed (ih second)

/-- Sending a packet leaves every peer as reachable as it was. -/
theorem Sends.reaches (sends : Sends now packet node ips node' effects) (other : Ipv4Addr) :
    node'.reaches now other = node.reaches now other := by
  induction sends with
  | nothing same => exact same.reaches
  | @packet node node' ip ips effects peer session endpoint held _ established _ _ ih =>
      rw [ih, Node.reaches, Node.reaches, withTable_peersByIp, HashMap.get_insert]
      split
      · next here =>
          rw [here, held, Option.any_some, Option.any_some, Peer.reachable, Peer.reachable,
            Peer.isConnected, Peer.isConnected, established]
          rfl
      · rfl

/-- The record at the IP was looked at and left as it was. -/
def LooksUp (node : Node) (ip : Ipv4Addr) (node' : Node) : Prop :=
  node' = node ∨ ∃ peer, node.peerManager.peersByIp.get ip = some peer ∧
    node' = node.withTable (node.peerManager.peersByIp.insert ip peer)

/-- Looking at a record leaves the table. -/
theorem LooksUp.sameTable (looksUp : LooksUp node ip node') : SameTable node node' := by
  rcases looksUp with rfl | ⟨peer, held, rfl⟩
  · exact .refl node'
  · refine ⟨_, rfl, fun other => ?_⟩
    rw [HashMap.get_insert]
    split
    · next here => rw [here, held]
    · rfl

/-- Nothing is sent to a peer that is not reachable. -/
theorem sendToPeer_unreachable (unreachable : node.reaches now ip = false) (packet : List UInt8) :
    ∃ node', node.sendToPeer ip packet now = .ok (node', [], false) ∧ LooksUp node ip node' := by
  cases held : node.peerManager.peersByIp.get ip with
  | none => exact ⟨node, by simp [sendToPeer, held], Or.inl rfl⟩
  | some peer =>
      have idle : encryptAndSend sendBuf packet peer node.keypair.myPeerId now =
          .ok (peer, [], false) := by
        cases placed : peer.endpoint with
        | none => simp [encryptAndSend, placed]
        | some endpoint =>
            have offline : peer.isConnected now = false := by
              simpa [reaches, held, Peer.reachable, placed] using unreachable
            simp [encryptAndSend, placed, offline]
      exact ⟨_, by simp [sendToPeer, held, idle, Node.withTable], Or.inr ⟨peer, held, rfl⟩⟩

/-- A peer is reached when it is connected and has an endpoint. -/
theorem reaches_iff : node.reaches now ip = true ↔
    ∃ peer endpoint, node.peerManager.peersByIp.get ip = some peer ∧
      peer.isConnected now = true ∧ peer.endpoint = some endpoint := by
  cases held : node.peerManager.peersByIp.get ip with
  | none => simp [reaches, held]
  | some peer => simp [reaches, held, Peer.reachable, Option.isSome_iff_exists]

/-- A reachable peer is sent one datagram. -/
theorem sendToPeer_reachable (reachable : node.reaches now ip = true)
    (read : packet.length ≤ 65536) (fits : packet.length ≤ Crates.plaintextLimit) :
    ∃ node' effects, node.sendToPeer ip packet now = .ok (node', effects, true) ∧
      Sends now packet node [ip] node' effects := by
  obtain ⟨peer, endpoint, held, connected, placed⟩ := reaches_iff.mp reachable
  obtain ⟨session, established⟩ := Peer.exists_session connected
  refine ⟨_, _, ?_, .packet held connected established placed (.nothing (.refl _))⟩
  simp [sendToPeer, held, encryptAndSend_eq _ placed connected established read fits,
    Node.withTable, datagram]

/-- A packet is sent to a reachable peer, and to no other. -/
theorem sendToPeer_sends (node : Node) (now : Instant) (ip : Ipv4Addr)
    (read : packet.length ≤ 65536) (fits : packet.length ≤ Crates.plaintextLimit) :
    ∃ node' effects, node.sendToPeer ip packet now = .ok (node', effects, node.reaches now ip) ∧
      Sends now packet node (if node.reaches now ip then [ip] else []) node' effects := by
  cases reached : node.reaches now ip with
  | false =>
      obtain ⟨node', run, looksUp⟩ := sendToPeer_unreachable reached packet
      exact ⟨node', [], run, .nothing looksUp.sameTable⟩
  | true => exact sendToPeer_reachable reached read fits

end Node
end WolfNet
