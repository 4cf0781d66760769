import WolfNet.Crates.Sample
import WolfNet.Reload.Purge

/-!
# Reload against a fresh start

The two loaders should give a configured peer the same record and lead both indexes to
it. `reload_agrees_iff` states for which tables they do.
-/

namespace WolfNet

open WolfNet.Std WolfNet.Semantics

section Reloads

variable [Crates]

variable (dns : String → Option (List SocketAddr)) (keypair : KeyPair) (now : Instant)

namespace PeerEntry

variable (entry : PeerEntry)

/-- A line takes effect on a known peer: one that resolves to the endpoint the peer has is
the peer's line already, and one that does not resolve finds no endpoint. -/
def TakesEffect (old : Peer) : Prop :=
  ∀ ep, entry.line.endpoint = some ep →
    (resolveEndpoint dns ep = old.endpoint → old.configuredEndpoint = some ep) ∧
    (resolveEndpoint dns ep = none → old.endpoint = none)

/-- A line gives a known peer what a fresh start would exactly when it takes effect on it. -/
theorem relined_matches_iff (old : Peer) :
    (entry.relined dns old).configuredEndpoint = entry.line.endpoint ∧
      (entry.relined dns old).endpoint = entry.endpoint dns ↔ entry.TakesEffect dns old := by
  unfold relined TakesEffect endpoint
  cases line : entry.line.endpoint with
  | none => simp
  | some ep =>
      cases resolved : resolveEndpoint dns ep with
      | none =>
          simp only [Option.some.injEq, forall_eq', Option.bind_some, resolved, forall_const]
          exact ⟨fun ⟨pinned, free⟩ => ⟨fun _ => pinned, free⟩,
            fun ⟨pinned, free⟩ => ⟨pinned free.symm, free⟩⟩
      | some addr =>
          by_cases same : old.endpoint = some addr
          · simp [resolved, same]
          · simp [resolved, same, Ne.symm same]

end PeerEntry

namespace PeerManager

variable {pm : PeerManager} {entry : PeerEntry}

/-- The index entry of an endpoint changes when the reload processes an entry. -/
def Takes (pm : PeerManager) (addr : SocketAddr) (entry : PeerEntry) : Prop :=
  pm.gains dns entry = some addr ∨ pm.loses dns entry = some addr

/-- An entry leaves the index of an ID unless its peer is new and has that ID. -/
theorem idWrite_eq_none {id : PeerId} :
    pm.idWrite id entry = none ↔ (pm.peersByIp.get entry.ip = none → entry.peerId ≠ id) := by
  simp [idWrite]

/-- An entry leaves the index of an endpoint unless it takes it. -/
theorem endpointWrite_eq_none {addr : SocketAddr} :
    pm.endpointWrite dns addr entry = none ↔ ¬Takes dns pm addr entry := by
  unfold endpointWrite Takes
  split_ifs with gained lost
  · simp [gained]
  · simp [lost]
  · simp [gained, lost]

/-- The reload finds the table such that it gives an entry what a fresh start would: the
entries before and after it in the config and the peers to be purged do not spoil it. -/
structure Reloadable (config : Config) (pm : PeerManager) (before : List PeerEntry)
    (entry : PeerEntry) (after : List PeerEntry) : Prop where
  record : ∀ old, pm.peersByIp.get entry.ip = some old →
    old.publicKey = entry.publicKey ∧ entry.TakesEffect dns old
  idKept : ∀ other ∈ after, pm.peersByIp.get other.ip = none → other.peerId ≠ entry.peerId
  idHeld : pm.peersByIp.get entry.ip ≠ none → pm.idToIp.get entry.peerId = some entry.ip ∧
    ∀ other ∈ before, pm.peersByIp.get other.ip = none → other.peerId ≠ entry.peerId
  endpointKept : ∀ addr, entry.endpoint dns = some addr → ∀ other ∈ after, ¬Takes dns pm addr other
  endpointHeld : ∀ addr, entry.endpoint dns = some addr → pm.endpointAt entry.ip = some addr →
    pm.endpointToIp.get addr = some entry.ip ∧ ∀ other ∈ before, ¬Takes dns pm addr other
  purges : ∀ ip peer, Purges dns now config pm ip peer → peer.peerId ≠ entry.peerId ∧
    ∀ addr, entry.endpoint dns = some addr → peer.endpoint ≠ some addr

end PeerManager

/-- The reloaded table has the same peer at an IP as a fresh start, and both indexes lead
to it. -/
def AgreesAt (started reloaded : PeerManager) (ip : Ipv4Addr) : Prop :=
  ∃ fresh peer, started.peersByIp.get ip = some fresh ∧ reloaded.peersByIp.get ip = some peer ∧
    peer.publicKey = fresh.publicKey ∧ peer.configuredEndpoint = fresh.configuredEndpoint ∧
    peer.endpoint = fresh.endpoint ∧ reloaded.findIpById peer.peerId = some ip ∧
    ∀ addr, peer.endpoint = some addr → reloaded.findIpByEndpoint addr = some ip

instance {started reloaded : PeerManager} {ip : Ipv4Addr} : Decidable (AgreesAt started reloaded ip) :=
  decidable_of_iff (∃ fresh ∈ started.peersByIp.get ip, ∃ peer ∈ reloaded.peersByIp.get ip,
      peer.publicKey = fresh.publicKey ∧ peer.configuredEndpoint = fresh.configuredEndpoint ∧
      peer.endpoint = fresh.endpoint ∧ reloaded.findIpById peer.peerId = some ip ∧
      ∀ addr ∈ peer.endpoint, reloaded.findIpByEndpoint addr = some ip)
    ⟨fun ⟨fresh, one, peer, two, agrees⟩ => ⟨fresh, peer, one, two, agrees⟩,
      fun ⟨fresh, peer, one, two, agrees⟩ => ⟨fresh, one, peer, two, agrees⟩⟩

variable {config : Config} {entries before after : List PeerEntry} {entry : PeerEntry}
  {pm : PeerManager} {routes subnetRoutes : RouteFile}

/-- A fresh start has the record of each entry at its IP. -/
theorem startupPeers_get (lists : config.Lists (before ++ entry :: after)) :
    (startupPeers dns keypair now config).peersByIp.get entry.ip =
      some (entry.fresh dns keypair now) := by
  let write (other : PeerEntry) : Option (Option Peer) :=
    if other.ip = entry.ip then some (some (other.fresh dns keypair now)) else none
  have each (pm : PeerManager) (other : PeerEntry) :
      (startupPeer dns keypair now pm other.line).peersByIp.get entry.ip =
        (write other).getD (pm.peersByIp.get entry.ip) := by
    simp only [startupPeer, other.parsed]
    have replaces := pm.addPeer_replaces (other.fresh dns keypair now)
    refine (replaces.peers entry.ip).trans ?_
    by_cases here : other.ip = entry.ip
    · simp [write, here]
    · simp [write, here, Ne.symm here]
  have silent (other : PeerEntry) (member : other ∈ before ++ after) : write other = none :=
    if_neg (lists.other_ip other member)
  unfold startupPeers
  rw [lists.lines, List.foldl_map]
  refine (@foldl_written _ _ write _ (fun pm : PeerManager => pm.peersByIp.get entry.ip) _ each
    .new _).trans ?_
  refine (written_eq_iff fun other member => by simp [silent other member]).mpr ?_
  exact ⟨fun other member => silent other (List.mem_append_right _ member), Or.inl (if_pos rfl)⟩

/-- The record that a reload leaves is that of a fresh start when the peer known at the IP
has the key and takes the line. -/
theorem PeerEntry.reloaded_matches_iff (known : Option Peer) :
    ((entry.reloaded dns keypair now known).publicKey = entry.publicKey ∧
      (entry.reloaded dns keypair now known).configuredEndpoint = entry.line.endpoint ∧
      (entry.reloaded dns keypair now known).endpoint = entry.endpoint dns) ↔
    ∀ old, known = some old → old.publicKey = entry.publicKey ∧ entry.TakesEffect dns old := by
  cases known with
  | none => simp [reloaded]
  | some old => simp [reloaded, ← relined_matches_iff]

/-- The ID of an entry leads to it after the first loop, where no entry behind it takes the ID, and
it had the ID or takes it itself. -/
theorem written_id_iff (lists : config.Lists (before ++ entry :: after)) :
    written (pm.idWrite entry.peerId) (pm.idToIp.get entry.peerId) (before ++ entry :: after) =
        some entry.ip ↔
      (∀ other ∈ after, pm.peersByIp.get other.ip = none → other.peerId ≠ entry.peerId) ∧
      (pm.peersByIp.get entry.ip ≠ none → pm.idToIp.get entry.peerId = some entry.ip ∧
        ∀ other ∈ before, pm.peersByIp.get other.ip = none → other.peerId ≠ entry.peerId) := by
  have never : ∀ other ∈ before ++ after,
      pm.idWrite entry.peerId other ≠ some (some entry.ip) := by
    intro other member
    unfold PeerManager.idWrite
    split <;> simp [lists.other_ip other member]
  rw [written_eq_iff never]
  simp only [PeerManager.idWrite_eq_none]
  refine and_congr_right fun _ => ?_
  cases held : pm.peersByIp.get entry.ip with
  | none => simp [PeerManager.idWrite, held]
  | some old => simp [PeerManager.idWrite, held, and_comm]

/-- The endpoint of an entry leads to it after the first loop, where no entry behind it takes the
endpoint, and it had the endpoint or takes it itself. -/
theorem written_endpoint_iff (lists : config.Lists (before ++ entry :: after)) {addr : SocketAddr}
    (target : entry.endpoint dns = some addr) :
    written (pm.endpointWrite dns addr) (pm.endpointToIp.get addr) (before ++ entry :: after) =
        some entry.ip ↔
      (∀ other ∈ after, ¬pm.Takes dns addr other) ∧
      (pm.endpointAt entry.ip = some addr → pm.endpointToIp.get addr = some entry.ip ∧
        ∀ other ∈ before, ¬pm.Takes dns addr other) := by
  have never : ∀ other ∈ before ++ after,
      pm.endpointWrite dns addr other ≠ some (some entry.ip) := by
    intro other member
    unfold PeerManager.endpointWrite
    split
    · simp [lists.other_ip other member]
    · split <;> simp
  rw [written_eq_iff never]
  simp only [PeerManager.endpointWrite_eq_none]
  refine and_congr_right fun _ => ?_
  by_cases has : pm.endpointAt entry.ip = some addr
  · have line : entry.line.endpoint ≠ none := by
      intro line
      simp [PeerEntry.endpoint, line] at target
    have gained : pm.gains dns entry = none := by simp [PeerManager.gains, target, has]
    have lost : pm.loses dns entry = none := by simp [PeerManager.loses, gained, line]
    simp [PeerManager.Takes, PeerManager.endpointWrite, gained, lost, has, and_comm]
  · have gained : pm.gains dns entry = some addr := by simp [PeerManager.gains, target, has]
    simp [PeerManager.endpointWrite, gained, has]

/-- An entry is reloaded as a fresh start loads it exactly when the table is reloadable at
it. -/
theorem agreesAt_iff (boot : Instant) (lists : config.Lists (before ++ entry :: after)) :
    AgreesAt (startupPeers dns keypair boot config)
        (reloadPeers dns keypair now pm config routes subnetRoutes) entry.ip ↔
      pm.Reloadable dns now config before entry after := by
  have fresh := startupPeers_get dns keypair boot lists
  have found : (reloadPeers dns keypair now pm config routes subnetRoutes).peersByIp.get entry.ip =
      some (entry.reloaded dns keypair now (pm.peersByIp.get entry.ip)) :=
    reloadPeers_get dns keypair now lists
  have sameId (key : (entry.reloaded dns keypair now (pm.peersByIp.get entry.ip)).publicKey =
      entry.publicKey) :
      (entry.reloaded dns keypair now (pm.peersByIp.get entry.ip)).peerId = entry.peerId :=
    (Peer.peerIdOfKey _).trans (congrArg KeyPair.peerId key)
  constructor
  · rintro ⟨started, peer, isFresh, isReloaded, key, line, endpoint, byId, byEndpoint⟩
    cases fresh.symm.trans isFresh
    cases found.symm.trans isReloaded
    have record := (entry.reloaded_matches_iff dns keypair now _).mp ⟨key, line, endpoint⟩
    rw [sameId key, reloadPeers_findIpById dns keypair now lists, written_id_iff lists] at byId
    obtain ⟨idUnpurged, idKept, idHeld⟩ := byId
    have endpoints (addr : SocketAddr) (target : entry.endpoint dns = some addr) := by
      have leads := byEndpoint addr (endpoint.trans target)
      rwa [reloadPeers_findIpByEndpoint dns keypair now lists,
        written_endpoint_iff dns lists target]
        at leads
    exact {
      record := record
      idKept := idKept
      idHeld := idHeld
      endpointKept := fun addr target => (endpoints addr target).2.1
      endpointHeld := fun addr target => (endpoints addr target).2.2
      purges := fun ip peer purged => ⟨idUnpurged ip peer purged,
        fun addr target => (endpoints addr target).1 ip peer purged⟩ }
  · intro reloadable
    obtain ⟨key, line, endpoint⟩ :=
      (entry.reloaded_matches_iff dns keypair now _).mpr reloadable.record
    refine ⟨_, _, fresh, found, key, line, endpoint, ?_, fun addr has => ?_⟩
    · rw [sameId key, reloadPeers_findIpById dns keypair now lists, written_id_iff lists]
      exact ⟨fun ip peer purged => (reloadable.purges ip peer purged).1, reloadable.idKept,
        reloadable.idHeld⟩
    · have target : entry.endpoint dns = some addr := endpoint.symm.trans has
      rw [reloadPeers_findIpByEndpoint dns keypair now lists, written_endpoint_iff dns lists target]
      exact ⟨fun ip peer purged => (reloadable.purges ip peer purged).2 addr target,
        reloadable.endpointKept addr target, reloadable.endpointHeld addr target⟩

/-- The reload leaves every configured peer as a fresh start would, and both indexes lead to
it, exactly from the tables that are reloadable at each entry of the config. -/
theorem reload_agrees_iff (boot : Instant) (pm : PeerManager) (routes subnetRoutes : RouteFile)
    (lists : config.Lists entries) :
    (∀ entry ∈ entries, AgreesAt (startupPeers dns keypair boot config)
        (reloadPeers dns keypair now pm config routes subnetRoutes) entry.ip) ↔
      ∀ before entry after, entries = before ++ entry :: after →
        pm.Reloadable dns now config before entry after := by
  constructor
  · rintro agrees before entry after rfl
    exact (agreesAt_iff dns keypair now boot lists).mp (agrees entry (by simp))
  · intro reloadable entry member
    obtain ⟨before, after, rfl⟩ := List.append_of_mem member
    exact (agreesAt_iff dns keypair now boot lists).mpr (reloadable before entry after rfl)

end Reloads

section Sample

attribute [local instance] Sample.crates

/-- A sample entry at an IP of the sample subnet, with an endpoint line that needs no DNS. -/
def sampleLine (octet : String) : PeerConfig where
  publicKey := Crates.base64Encode (Sample.keypair 2).publicKey.1
  endpoint := some "198.51.100.7:9600"
  allowedIp := "10.10.10." ++ octet
  name := none

def sampleConfig (octet : String) : Config :=
  { (Sample.node 1 false .new).config with peers := [sampleLine octet] }

def noDns (_ : String) : Option (List SocketAddr) := none

/-- The sample entry at the IP that ends in two. -/
def keptEntry : PeerEntry where
  line := sampleLine "2"
  publicKey := (Sample.keypair 2).publicKey
  ip := ⟨10, 10, 10, 2⟩
  parsed := by decide

/-- The sample entry at the IP that ends in three. -/
def movedEntry : PeerEntry where
  line := sampleLine "3"
  publicKey := (Sample.keypair 2).publicKey
  ip := ⟨10, 10, 10, 3⟩
  parsed := by decide

/-- The config lists one peer. -/
theorem keptEntry_lists : (sampleConfig "2").Lists [keptEntry] :=
  ⟨rfl, List.nodup_singleton _⟩

/-- An entry of another peer, at the endpoint that the sample nodes use. -/
def newEntry : PeerEntry where
  line := {
    publicKey := Crates.base64Encode (Sample.keypair 3).publicKey.1
    endpoint := some "203.0.113.7:9600"
    allowedIp := "10.10.10.4"
    name := none }
  publicKey := (Sample.keypair 3).publicKey
  ip := ⟨10, 10, 10, 4⟩
  parsed := by decide

/-- A config that moves one peer and adds another at the endpoint that the first leaves. -/
def handoverConfig : Config :=
  { (Sample.node 1 false .new).config with peers := [keptEntry.line, newEntry.line] }

/-- A peer that no config lists. -/
def staleRecord : Peer := { Sample.record 1 5 with endpoint := some (.v4 ⟨192, 0, 2, 5⟩ 9600) }

/-- A table that knows the first peer at its old endpoint, and a stale one. -/
def handoverTable : PeerManager :=
  (PeerManager.new.addPeer { Sample.record 1 2 with endpoint := some Sample.endpoint }).addPeer
    staleRecord

/-- The table after the reload. -/
def handedOver : PeerManager :=
  reloadPeers noDns (Sample.keypair 1) 5 handoverTable handoverConfig .missing .missing

/-- The reload hands an endpoint over from one entry to the next and purges the stale peer, and both
entries are as a fresh start leaves them. -/
theorem reload_agrees_iff_sample :
    handoverTable.Purges noDns 5 handoverConfig ⟨10, 10, 10, 5⟩ staleRecord ∧
    handoverTable.Takes noDns Sample.endpoint keptEntry ∧
    handoverTable.Takes noDns Sample.endpoint newEntry ∧
    (∀ entry ∈ [keptEntry, newEntry],
      AgreesAt (startupPeers noDns (Sample.keypair 1) 0 handoverConfig) handedOver entry.ip) ∧
    ∀ before entry after, [keptEntry, newEntry] = before ++ entry :: after →
      handoverTable.Reloadable noDns 5 handoverConfig before entry after := by
  have lists : handoverConfig.Lists [keptEntry, newEntry] := ⟨rfl, by decide⟩
  have agrees : ∀ entry ∈ [keptEntry, newEntry],
      AgreesAt (startupPeers noDns (Sample.keypair 1) 0 handoverConfig) handedOver entry.ip := by
    decide +kernel
  have leaves : handoverTable.loses noDns keptEntry = some Sample.endpoint := by decide +kernel
  have takes : handoverTable.gains noDns newEntry = some Sample.endpoint := by decide +kernel
  refine ⟨⟨rfl, ?_, by decide +kernel⟩, Or.inr leaves, Or.inl takes, agrees, ?_⟩
  · rw [lists.configuredIps]
    decide
  exact (reload_agrees_iff noDns (Sample.keypair 1) 5 0 handoverTable .missing .missing lists).mp agrees

/-- A peer whose configured IP changes is purged from its old IP after it was added at the
new one, and its ID leads nowhere. -/
theorem moved_peer_unfindable :
    (sampleConfig "3").Lists [movedEntry] ∧
    ¬AgreesAt (startupPeers noDns (Sample.keypair 1) 0 (sampleConfig "3"))
      (reloadPeers noDns (Sample.keypair 1) 5
        (startupPeers noDns (Sample.keypair 1) 0 (sampleConfig "2")) (sampleConfig "3")
        .missing .missing) ⟨10, 10, 10, 3⟩ := by
  have lists : (sampleConfig "3").Lists ([] ++ movedEntry :: []) :=
    ⟨rfl, List.nodup_singleton _⟩
  refine ⟨lists, fun agrees => ?_⟩
  have reloadable := (agreesAt_iff noDns (Sample.keypair 1) 5 0 lists).mp agrees
  have held := @startupPeers_get _ noDns (Sample.keypair 1) 0 _ [] [] keptEntry keptEntry_lists
  have unconfigured : keptEntry.ip ∉ (sampleConfig "3").configuredIps := by
    rw [lists.configuredIps]
    decide
  exact (reloadable.purges _ _ ⟨held, unconfigured, rfl⟩).1 rfl

end Sample
end WolfNet
