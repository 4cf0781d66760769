import WolfNet.Daemon.Reload
import WolfNet.Semantics.Writes
import WolfNet.Table.Effects

/-!
# The loading loop of a reload

Each entry of the config leaves its own record at its IP and makes some writes to the
indexes. As no two entries have one IP, what an entry writes depends on the table at the
start of the reload alone, and every lookup after the loop is what was last written.
-/

namespace WolfNet

open WolfNet.Std WolfNet.Semantics

variable [Crates]

/-- An entry of the config whose key and IP parse. -/
structure PeerEntry where
  line : PeerConfig
  publicKey : PublicKey
  ip : Ipv4Addr
  parsed : line.identity = some (publicKey, ip)

/-- The peers of the config all parse, and no two have one IP. -/
structure Config.Lists (config : Config) (entries : List PeerEntry) : Prop where
  lines : config.peers = entries.map PeerEntry.line
  distinct : (entries.map PeerEntry.ip).Nodup

variable (dns : String → Option (List SocketAddr)) (keypair : KeyPair) (now : Instant)

namespace PeerEntry

variable (entry : PeerEntry)

def peerId : PeerId := KeyPair.peerId entry.publicKey

/-- The endpoint of an entry, resolved. -/
def endpoint : Option SocketAddr := entry.line.endpoint.bind (resolveEndpoint dns)

/-- The record that a fresh start makes for an entry. -/
def fresh : Peer := configuredPeer dns keypair now entry.line entry.publicKey entry.ip

/-- The fresh record is for the IP of the entry. -/
@[simp] theorem fresh_wolfnetIp : (entry.fresh dns keypair now).wolfnetIp = entry.ip := rfl

/-- The fresh record has the key of the entry. -/
@[simp] theorem fresh_publicKey : (entry.fresh dns keypair now).publicKey = entry.publicKey := rfl

/-- The fresh record has the ID of the entry's key. -/
@[simp] theorem fresh_peerId : (entry.fresh dns keypair now).peerId = entry.peerId := rfl

/-- The fresh record has the endpoint that the line resolves to. -/
@[simp] theorem fresh_endpoint : (entry.fresh dns keypair now).endpoint = entry.endpoint dns := rfl

/-- The fresh record has the line of the entry. -/
@[simp] theorem fresh_configuredEndpoint :
    (entry.fresh dns keypair now).configuredEndpoint = entry.line.endpoint := rfl

/-- A known peer after the reload has applied the endpoint line of its entry. -/
def relined (old : Peer) : Peer :=
  match entry.line.endpoint with
  | none => { old with endpoint := none, configuredEndpoint := none }
  | some ep =>
    match resolveEndpoint dns ep with
    | none => old
    | some addr =>
      if old.endpoint = some addr then old
      else { old with endpoint := some addr, configuredEndpoint := some ep }

/-- A known peer after the reload has applied the name of its entry. -/
def renamed (old : Peer) : Peer :=
  let newName := entry.line.name.getD ""
  if newName ≠ "" then { old with hostname := newName } else old

/-- The record that a reload leaves at the IP of an entry. -/
def reloaded : Option Peer → Peer
  | none => entry.fresh dns keypair now
  | some old => entry.renamed (entry.relined dns old)

/-- A name leaves the key. -/
@[simp] theorem renamed_publicKey (old : Peer) : (entry.renamed old).publicKey = old.publicKey := by
  unfold renamed
  dsimp only
  split <;> rfl

/-- A name leaves the endpoint. -/
@[simp] theorem renamed_endpoint (old : Peer) : (entry.renamed old).endpoint = old.endpoint := by
  unfold renamed
  dsimp only
  split <;> rfl

/-- A name leaves the endpoint line. -/
@[simp] theorem renamed_configuredEndpoint (old : Peer) :
    (entry.renamed old).configuredEndpoint = old.configuredEndpoint := by
  unfold renamed
  dsimp only
  split <;> rfl

/-- An endpoint line leaves the key. -/
@[simp] theorem relined_publicKey (old : Peer) :
    (entry.relined dns old).publicKey = old.publicKey := by
  unfold relined
  split
  · rfl
  · split
    · rfl
    · split <;> rfl

/-- The IP of an entry is the one in its line. -/
theorem parse_allowedIp : Ipv4Addr.parse entry.line.allowedIp.toList = some entry.ip := by
  have parsed := entry.parsed
  unfold PeerConfig.identity at parsed
  split at parsed
  · cases parsed
  · obtain ⟨ip, parse, same⟩ := Option.map_eq_some_iff.mp parsed
    cases same
    exact parse

end PeerEntry

variable {config : Config} {entries : List PeerEntry}

/-- The configured IPs are those of the entries. -/
theorem Config.Lists.configuredIps (lists : config.Lists entries) :
    config.configuredIps = entries.map PeerEntry.ip := by
  rw [Config.configuredIps, lists.lines, List.filterMap_map]
  have each : (fun pc : PeerConfig => Ipv4Addr.parse pc.allowedIp.toList) ∘ PeerEntry.line =
      some ∘ PeerEntry.ip := by
    funext entry
    exact entry.parse_allowedIp
  rw [each, List.filterMap_eq_map]

namespace PeerManager

variable (pm : PeerManager)

/-- The endpoint that the reload puts into the index for an entry: one that its peer does
not have yet. -/
def gains (entry : PeerEntry) : Option SocketAddr :=
  (entry.endpoint dns).filter fun addr => pm.endpointAt entry.ip ≠ some addr

/-- The endpoint that the reload takes out of the index for an entry: that of its peer, if
the line is gone or leads elsewhere. -/
def loses (entry : PeerEntry) : Option SocketAddr :=
  if entry.line.endpoint = none ∨ (pm.gains dns entry).isSome then pm.endpointAt entry.ip else none

/-- What the reload writes to the ID index for an entry: a new peer's own ID. -/
def idWrite (id : PeerId) (entry : PeerEntry) : Option (Option Ipv4Addr) :=
  if pm.peersByIp.get entry.ip = none ∧ entry.peerId = id then some (some entry.ip) else none

/-- What the reload writes to the endpoint index for an entry. -/
def endpointWrite (addr : SocketAddr) (entry : PeerEntry) : Option (Option Ipv4Addr) :=
  if pm.gains dns entry = some addr then some (some entry.ip)
  else if pm.loses dns entry = some addr then some none
  else none

variable {pm : PeerManager} {entry : PeerEntry}

/-- The ID entry of a new peer is written, and no other. -/
theorem idWrite_getD (id : PeerId) (found : Option Ipv4Addr) :
    (pm.idWrite id entry).getD found =
      if pm.peersByIp.get entry.ip = none ∧ entry.peerId = id then some entry.ip else found := by
  unfold idWrite
  split <;> rfl

/-- What an entry writes into the endpoint index depends on its own record only. -/
theorem endpointWrite_congr {pm' : PeerManager} (addr : SocketAddr)
    (same : pm.endpointAt entry.ip = pm'.endpointAt entry.ip) :
    pm.endpointWrite dns addr entry = pm'.endpointWrite dns addr entry := by
  have gained : pm.gains dns entry = pm'.gains dns entry := by
    unfold gains
    rw [same]
  have lost : pm.loses dns entry = pm'.loses dns entry := by
    unfold loses
    rw [gained, same]
  unfold endpointWrite
  rw [gained, lost]

/-- A change of the endpoint index that gains and loses what the entry does. -/
theorem endpointWrite_getD (source : Option Ipv4Addr)
    (lost : source.bind pm.endpointAt = pm.loses dns entry) (addr : SocketAddr)
    (index : SocketAddr → Option Ipv4Addr) :
    (Change.mk entry.ip (pm.gains dns entry) source).onIndex pm.endpointAt index addr =
      (pm.endpointWrite dns addr entry).getD (index addr) := by
  simp only [Change.onIndex, Change.forgotten, lost, endpointWrite]
  split
  · rfl
  · split <;> rfl

/-- Processing an entry leaves its record at its IP and makes its index writes. -/
structure Loads (pm pm' : PeerManager) (entry : PeerEntry) : Prop where
  peers : ∀ ip, pm'.peersByIp.get ip =
    if ip = entry.ip then some (entry.reloaded dns keypair now (pm.peersByIp.get ip))
    else pm.peersByIp.get ip
  ids : ∀ id, pm'.idToIp.get id = (pm.idWrite id entry).getD (pm.idToIp.get id)
  endpoints : ∀ addr, pm'.endpointToIp.get addr =
    (pm.endpointWrite dns addr entry).getD (pm.endpointToIp.get addr)

/-- An add loads an entry at a free IP. -/
theorem addPeer_loads (free : pm.peersByIp.get entry.ip = none) :
    Loads dns keypair now pm (pm.addPeer (entry.fresh dns keypair now)) entry := by
  have replaces := pm.addPeer_replaces (entry.fresh dns keypair now)
  have unplaced : pm.endpointAt entry.ip = none := by simp [endpointAt, free]
  have gained : pm.gains dns entry = entry.endpoint dns := by
    cases target : entry.endpoint dns <;> simp [gains, target, unplaced]
  have lost : none = pm.loses dns entry := by simp [loses, unplaced]
  refine ⟨fun ip => ?_, fun id => ?_, fun addr => ?_⟩
  · rw [replaces.peers]
    by_cases here : ip = entry.ip
    · simp [here, free, PeerEntry.reloaded]
    · simp [here]
  · simp [replaces.ids, Change.onIndex, Change.forgotten, idWrite_getD, free]
  · rw [replaces.endpoints, ← endpointWrite_getD dns none lost, gained]
    rfl

/-- Applying the endpoint line of an entry to a known peer. -/
structure Relines (pm pm' : PeerManager) (entry : PeerEntry) (old : Peer) : Prop where
  peers : ∀ ip, pm'.peersByIp.get ip =
    if ip = entry.ip then some (entry.relined dns old) else pm.peersByIp.get ip
  ids : pm'.idToIp = pm.idToIp
  endpoints : ∀ addr, pm'.endpointToIp.get addr =
    (pm.endpointWrite dns addr entry).getD (pm.endpointToIp.get addr)

variable {old : Peer}

/-- A line that changes nothing takes effect. -/
theorem Relines.of_unchanged (held : pm.peersByIp.get entry.ip = some old)
    (same : entry.relined dns old = old) (gained : pm.gains dns entry = none)
    (line : entry.line.endpoint ≠ none) : Relines dns pm pm entry old where
  peers ip := by
    rw [same]
    split
    · next here => rw [here, held]
    · rfl
  ids := rfl
  endpoints addr := by simp [endpointWrite, gained, loses, line]

/-- An endpoint that moves as the line says takes effect. -/
theorem Moves.relines {pm' : PeerManager} {new : Peer} (moves : Moves pm pm' entry.ip old new)
    (result : new = entry.relined dns old) (gained : pm.gains dns entry = new.endpoint)
    (lost : pm.endpointAt entry.ip = pm.loses dns entry) : Relines dns pm pm' entry old where
  peers ip := result ▸ moves.peers ip
  ids := moves.ids
  endpoints addr := by
    rw [moves.endpoints, ← gained, endpointWrite_getD dns (some entry.ip) lost]

/-- The reload of an endpoint line has the line take effect. -/
theorem reloadEndpoint_relines (held : pm.peersByIp.get entry.ip = some old) :
    Relines dns pm (reloadEndpoint dns pm entry.ip entry.line.endpoint) entry old := by
  have placed : pm.endpointAt entry.ip = old.endpoint := by simp [endpointAt, held]
  unfold reloadEndpoint
  split
  · next ep line =>
    split
    · next addr resolved =>
      have target : entry.endpoint dns = some addr := by simp [PeerEntry.endpoint, line, resolved]
      have current : (pm.peersByIp.get entry.ip).bind (·.endpoint) = old.endpoint := placed
      rw [current]
      dsimp only
      split_ifs with differs
      · obtain ⟨peer, moves⟩ :=
          (@updateEndpoint_cases _ pm entry.ip addr).resolve_left (by simp [held])
        cases held.symm.trans moves.held
        have reads : (pm.updateEndpoint entry.ip addr).peersByIp.get entry.ip =
            some { old with endpoint := some addr } := by rw [moves.peers, if_pos rfl]
        have touches := @withPeerByIp_touches _ _ _ _
          (fun peer => { peer with configuredEndpoint := some ep }) reads rfl rfl rfl
        have gained : pm.gains dns entry = some addr := by simp [gains, target, placed, differs]
        refine (moves.touch touches).relines dns ?_ gained ?_
        · simp [PeerEntry.relined, line, resolved, differs]
        · simp [loses, gained]
      · have same : old.endpoint = some addr := not_not.mp differs
        refine .of_unchanged dns held ?_ ?_ (by simp [line])
        · simp [PeerEntry.relined, line, resolved, same]
        · simp [gains, target, placed, same]
    · next resolved =>
      refine .of_unchanged dns held ?_ ?_ (by simp [line])
      · simp [PeerEntry.relined, line, resolved]
      · simp [gains, PeerEntry.endpoint, line, resolved]
  · next line =>
    obtain ⟨peer, moves⟩ := (@clearEndpoint_cases _ pm entry.ip).resolve_left (by simp [held])
    cases held.symm.trans moves.held
    refine moves.relines dns ?_ ?_ ?_
    · simp [PeerEntry.relined, line]
    · simp [gains, PeerEntry.endpoint, line]
    · simp [loses, line]

/-- A host name that the config gives goes into the record, and nowhere else. -/
theorem reloadHostname_effect {peer : Peer} (held : pm.peersByIp.get entry.ip = some peer) :
    (∀ ip, (reloadHostname pm entry.ip entry.line.name).peersByIp.get ip =
      if ip = entry.ip then some (entry.renamed peer) else pm.peersByIp.get ip) ∧
    (reloadHostname pm entry.ip entry.line.name).idToIp = pm.idToIp ∧
    (reloadHostname pm entry.ip entry.line.name).endpointToIp = pm.endpointToIp := by
  unfold reloadHostname PeerEntry.renamed
  dsimp only
  split_ifs with given
  · have touches := @withPeerByIp_touches _ _ _ _
      (fun peer => { peer with hostname := entry.line.name.getD "" }) held rfl rfl rfl
    exact ⟨touches.peers, touches.ids, touches.endpoints⟩
  · refine ⟨fun ip => ?_, rfl, rfl⟩
    split
    · next here => rw [here, held]
    · rfl

/-- A reload of an entry loads it, be the peer known or new. -/
theorem reloadPeer_loads {existingIps : List Ipv4Addr}
    (existing : entry.ip ∈ existingIps ↔ ∃ old, pm.peersByIp.get entry.ip = some old) :
    Loads dns keypair now pm (reloadPeer dns keypair now existingIps pm entry.line) entry := by
  simp only [reloadPeer, entry.parsed]
  cases held : pm.peersByIp.get entry.ip with
  | none =>
      rw [if_neg (by simp [existing, held])]
      exact addPeer_loads dns keypair now held
  | some old =>
      rw [if_pos (by simp [existing, held])]
      have relines := reloadEndpoint_relines dns held
      have reads := relines.peers entry.ip
      rw [if_pos rfl] at reads
      obtain ⟨peers, ids, endpoints⟩ := reloadHostname_effect reads
      refine ⟨fun ip => ?_, fun id => ?_, fun addr => ?_⟩
      · rw [peers, relines.peers]
        by_cases here : ip = entry.ip
        · simp [here, held, PeerEntry.reloaded]
        · simp [here]
      · rw [ids, relines.ids]
        simp [idWrite, held]
      · rw [endpoints, relines.endpoints]

/-- What the reload writes at an IP for an entry. -/
def recordWrite (pm : PeerManager) (ip : Ipv4Addr) (entry : PeerEntry) : Option (Option Peer) :=
  if entry.ip = ip then some (some (entry.reloaded dns keypair now (pm.peersByIp.get ip))) else none

/-- The table after some entries of a reload that began at `start`: each lookup gives what
was last written. -/
structure Reloading (start pm : PeerManager) (entries : List PeerEntry) : Prop where
  peers : ∀ ip, pm.peersByIp.get ip =
    written (start.recordWrite dns keypair now ip) (start.peersByIp.get ip) entries
  ids : ∀ id, pm.idToIp.get id = written (start.idWrite id) (start.idToIp.get id) entries
  endpoints : ∀ addr, pm.endpointToIp.get addr =
    written (start.endpointWrite dns addr) (start.endpointToIp.get addr) entries

/-- The record at an IP is as it was until the reload reaches the IP's entry. -/
theorem Reloading.peers_of_not_mem {start : PeerManager}
    (reloading : Reloading dns keypair now start pm entries) {ip : Ipv4Addr}
    (unlisted : ip ∉ entries.map PeerEntry.ip) :
    pm.peersByIp.get ip = start.peersByIp.get ip := by
  have silent : ∀ entry ∈ entries, start.recordWrite dns keypair now ip entry = none := by
    intro entry member
    refine if_neg ?_
    rintro rfl
    exact unlisted (List.mem_map_of_mem member)
  rw [reloading.peers]
  refine (written_eq_iff_silent ?_).mpr ⟨silent, rfl⟩
  intro entry member
  simp [silent entry member]

/-- Another entry is reloaded without a trace of those before it. -/
theorem Reloading.step {start pm' : PeerManager}
    (reloading : Reloading dns keypair now start pm entries)
    (fresh : entry.ip ∉ entries.map PeerEntry.ip) (loads : Loads dns keypair now pm pm' entry) :
    Reloading dns keypair now start pm' (entries ++ [entry]) := by
  have same := reloading.peers_of_not_mem dns keypair now fresh
  have sameEndpoint : pm.endpointAt entry.ip = start.endpointAt entry.ip := by
    simp [endpointAt, same]
  refine ⟨fun ip => ?_, fun id => ?_, fun addr => ?_⟩
  · rw [written_append, ← reloading.peers, loads.peers, written_cons, written_nil]
    by_cases here : ip = entry.ip
    · simp [recordWrite, here, same]
    · simp [recordWrite, here, Ne.symm here]
  · rw [written_append, ← reloading.ids, loads.ids, written_cons, written_nil]
    simp only [idWrite, same]
  · rw [written_append, ← reloading.endpoints, loads.endpoints, written_cons, written_nil,
      endpointWrite_congr dns addr sameEndpoint]

/-- The first loop of the reload. -/
theorem foldl_reloadPeer (pm : PeerManager) (distinct : (entries.map PeerEntry.ip).Nodup) :
    Reloading dns keypair now pm
      ((entries.map PeerEntry.line).foldl (reloadPeer dns keypair now pm.allIps) pm) entries := by
  induction entries using List.reverseRecOn with
  | nil => exact ⟨fun _ => rfl, fun _ => rfl, fun _ => rfl⟩
  | append_singleton before entry ih =>
      rw [List.map_append, List.nodup_append] at distinct
      obtain ⟨distinct, _, apart⟩ := distinct
      have reloading := ih distinct
      have fresh : entry.ip ∉ before.map PeerEntry.ip := by
        intro member
        exact apart _ member _ (List.mem_singleton_self _) rfl
      rw [List.map_append, List.foldl_append]
      refine reloading.step dns keypair now fresh (reloadPeer_loads dns keypair now ?_)
      rw [reloading.peers_of_not_mem dns keypair now fresh]
      exact HashMap.mem_keys_iff

end PeerManager
end WolfNet
