import WolfNet.Table.Ops

/-!
# Properties of every record

A property of IPs and records holds of a table when it holds of each entry. An operation keeps it
when the records that it writes have it.
-/

namespace WolfNet.PeerManager

open WolfNet.Std

variable [Crates]

/-- Every record of the table has the property at its IP. -/
def EachPeer (Good : Ipv4Addr → Peer → Prop) (pm : PeerManager) : Prop :=
  ∀ ip peer, pm.peersByIp.get ip = some peer → Good ip peer

variable {Good : Ipv4Addr → Peer → Prop} {pm pm' : PeerManager} {ip : Ipv4Addr}
  {publicKey : PublicKey} {endpoint : SocketAddr} {hostname : String} {isGateway : Bool}
  {senderIp myIp : Ipv4Addr} {keypair : KeyPair} {now : Instant}

/-- An empty table has no bad record. -/
theorem eachPeer_new : EachPeer Good new := by
  intro ip peer held
  cases held

namespace EachPeer

variable (each : pm.EachPeer Good)

include each

/-- The records of an equal table. -/
theorem of_table (same : ∀ ip, pm'.peersByIp.get ip = pm.peersByIp.get ip) : pm'.EachPeer Good :=
  fun ip peer held => each ip peer ((same ip).symm.trans held)

/-- The order of the table does not matter. -/
theorem reordered (reordered : Reordered pm pm') : pm'.EachPeer Good :=
  each.of_table reordered.peers

/-- A good record written at an IP. -/
theorem write {new : Peer} {table : HashMap Ipv4Addr Peer} (good : Good ip new)
    (peers : ∀ other, table.get other = if other = ip then some new else pm.peersByIp.get other)
    (same : pm'.peersByIp = table) : pm'.EachPeer Good := by
  intro other peer held
  rw [same, peers] at held
  split_ifs at held with here
  · cases held
    exact here ▸ good
  · exact each other peer held

/-- An edit that keeps the record good. -/
theorem edit {old new : Peer} (edits : Edits pm pm' ip old new)
    (edited : Good ip old → Good ip new) :
    pm'.EachPeer Good :=
  each.write (edited (each ip old edits.held)) edits.peers rfl

/-- A good record inserted at its IP. -/
theorem insert {new : Peer} (good : Good ip new)
    (same : pm'.peersByIp = pm.peersByIp.insert ip new) :
    pm'.EachPeer Good :=
  each.write good (fun other => HashMap.get_insert _ _ other _) same

/-- A good record, or none, in place of another. -/
theorem replace {new : Option Peer} {source : Option Ipv4Addr}
    (replaces : Replaces pm pm' ip new source) (good : ∀ peer, new = some peer → Good ip peer) :
    pm'.EachPeer Good := by
  intro other peer held
  rw [replaces.peers] at held
  split_ifs at held with here gone
  · exact here ▸ good peer held
  · exact each other peer held

/-- An edit by IP that keeps each record good. -/
theorem withPeerByIp {f : Peer → Peer}
    (edited : ∀ peer, pm.peersByIp.get ip = some peer → Good ip peer → Good ip (f peer)) :
    (pm.withPeerByIp ip f).EachPeer Good := by
  unfold PeerManager.withPeerByIp
  split
  · next peer held => exact each.insert (edited peer held (each ip peer held)) rfl
  · exact each

/-- An update of an endpoint, where a moved record is good. -/
theorem updateEndpoint {addr : SocketAddr}
    (moved : ∀ peer, Good ip peer → Good ip { peer with endpoint := some addr }) :
    (pm.updateEndpoint ip addr).EachPeer Good := by
  rcases updateEndpoint_cases addr with ⟨_, same⟩ | ⟨peer, moves⟩
  · rwa [same]
  · exact each.edit moves.toEdits (moved peer)

/-- Roaming, where a moved record is good. -/
theorem updateEndpointIfRoaming {addr : SocketAddr}
    (moved : ∀ peer, Good ip peer → Good ip { peer with endpoint := some addr }) :
    (pm.updateEndpointIfRoaming ip addr).1.EachPeer Good := by
  rcases updateEndpointIfRoaming_cases addr with ⟨_, same⟩ | ⟨peer, _, moves⟩
  · rwa [same]
  · exact each.edit moves.toEdits (moved peer)

/-- A discovery writes a record of the announced key at the announced IP. -/
theorem discovery
    (refreshed : ∀ peer, Good ip peer → peer.publicKey.Same publicKey →
      Good ip { rediscovered peer hostname isGateway with endpoint := some endpoint })
    (pinned : ∀ peer, Good ip peer → peer.publicKey.Same publicKey →
      Good ip (rediscovered peer hostname isGateway))
    (moved : ∀ oldIp peer, Good oldIp peer → peer.publicKey.Same publicKey →
      Good ip (migrated peer endpoint ip hostname isGateway))
    (inserted : Good ip (discovered publicKey endpoint ip hostname isGateway)) :
    (pm.updateFromDiscovery publicKey endpoint ip hostname isGateway).EachPeer Good := by
  cases pm.updateFromDiscovery_discovers publicKey endpoint ip hostname isGateway with
  | refreshed peer keyed unpinned moves =>
      exact each.edit moves.toEdits fun good => refreshed peer good keyed
  | pinned peer keyed line touches =>
      exact each.edit touches.toEdits fun good => pinned peer good keyed
  | migrated oldIp peer elsewhere held keyed search foreign replaces =>
      refine each.replace replaces fun _ same => ?_
      cases same
      exact moved oldIp peer (each oldIp peer held) keyed
  | inserted unknown replaces =>
      refine each.replace replaces fun _ same => ?_
      cases same
      exact inserted

/-- A peer exchange redirects records, and writes those of new peers. -/
theorem exchange {entries : List PexEntry}
    (run : ExchangeRun senderIp myIp keypair now entries pm pm')
    (redirected : ∀ ip peer, Good ip peer → Good ip (redirected peer senderIp))
    (inserted : ∀ entry ip publicKey, Good ip (pexPeer entry publicKey ip senderIp keypair now)) :
    pm'.EachPeer Good := by
  refine run.invariant (fun each order => each.reordered order) (fun _ each exchanges => ?_) each
  cases exchanges with
  | ignored same => rwa [same]
  | relayed ip peer touches => exact each.edit touches.toEdits (redirected ip peer)
  | inserted publicKey ip _ _ _ replaces =>
      refine each.replace replaces fun _ same => ?_
      cases same
      exact inserted _ ip publicKey

end EachPeer
end WolfNet.PeerManager
