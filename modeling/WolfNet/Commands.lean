import WolfNet.Config.OnDisk
import WolfNet.Net.Text

/-!
# The commands that link two nodes

`wolfnet init` writes a config, `wolfnet invite` prints a token, and `wolfnet join`
takes one: it may choose an address, records the peer that the token describes, saves
the config and prints a reverse token for the other node. A token is the base64 of a
JSON object; commands are given what decoding it yields.
-/

namespace WolfNet

open WolfNet.Std

/-- How a command ends early. -/
inductive Exit where
  | error (message : String)
  /-- An addition overflowed in a build that checks. -/
  | overflow
deriving DecidableEq, Repr

/-- The JSON object of a token. A field is absent where it is missing or has another type. -/
structure Invite where
  pk : Option String
  ep : Option String
  ip : Option String
  sn : Option UInt64
  pt : Option UInt64
  hn : Option String
deriving DecidableEq, Repr

/-- What decoding a token yields. -/
inductive Token where
  | notBase64 (error : String)
  | notJson (error : String)
  | json (invite : Invite)
deriving DecidableEq, Repr

def Token.decode : Token → Except Exit Invite
  | .notBase64 error => .error (.error s!"Invalid invite token: {error}")
  | .notJson error => .error (.error s!"Invalid invite token format: {error}")
  | .json invite => .ok invite

/-- What a command finds on its host besides the config file. -/
structure Host where
  /-- The public key of `KeyPair::load_or_generate`. -/
  publicKey : Except String String
  /-- `detect_public_ip`. -/
  publicIp : Option String
  /-- The host's name, empty where there is none. -/
  hostname : String
  /-- The error of saving the config, if that fails. -/
  saveError : Option String
  /-- Whether the build checks additions for overflow; they wrap otherwise. -/
  overflowChecks : Bool

/-- A field that a token must have. -/
def required {α : Type} (field : Option α) (message : String) : Except Exit α :=
  match field with
  | some value => .ok value
  | none => .error (.error message)

/-- `load_config`, where an error ends the command. -/
def loadOrExit (file : ConfigFile) : Except Exit Config :=
  match file.load with
  | .ok config => .ok config
  | .error message => .error (.error message)

namespace Host

def keys (host : Host) (message : String → String) : Except Exit String :=
  match host.publicKey with
  | .ok publicKey => .ok publicKey
  | .error error => .error (.error (message error))

def save (host : Host) (message : String → String) : Except Exit Unit :=
  match host.saveError with
  | none => .ok ()
  | some error => .error (.error (message error))

/-- Where peers reach the node: its public address if that is known. -/
def endpoint (host : Host) (network : NetworkConfig) : String :=
  match host.publicIp with
  | some ip => s!"{ip}:{network.listenPort}"
  | none => s!"{network.address}:{network.listenPort}"

/-- The token that describes a node. -/
def token (host : Host) (publicKey : String) (network : NetworkConfig) : Invite where
  pk := some publicKey
  ep := some (host.endpoint network)
  ip := some network.address
  sn := some network.subnet.toUInt64
  pt := some network.listenPort.toUInt64
  hn := some host.hostname

end Host

/-- `wolfnet init`: the config it writes. -/
def cmdInit (host : Host) (address : String) : Except Exit Config := do
  host.save fun error => s!"Failed to write config: {error}"
  return { Config.default with network := { Config.default.network with address } }

/-- `wolfnet invite`: the token it prints. -/
def cmdInvite (host : Host) (file : ConfigFile) : Except Exit Invite := do
  let config ← loadOrExit file
  let publicKey ← host.keys id
  return host.token publicKey config.network

/-- The friendly name of a peer: its host's name, else one derived from its key. -/
def derivePeerName (hostname : Option String) (pubkey : String) : String :=
  match (hostname.map trim).filter (· ≠ "") with
  | some name => name
  | none => s!"invited-{String.ofList ((pubkey.toList.filter Char.isAlphanum).take 8)}"

/-- `octet + 1`. -/
def increment (overflowChecks : Bool) (octet : UInt8) : Except Exit UInt8 :=
  if overflowChecks && octet == 255 then .error .overflow else .ok (octet + 1)

/-- An increment that succeeds adds one. -/
theorem increment_ok {overflowChecks : Bool} {octet next : UInt8}
    (incremented : increment overflowChecks octet = .ok next) : next = octet + 1 := by
  rw [increment] at incremented
  split at incremented
  · cases incremented
  · exact (Except.ok.inj incremented).symm

/-- Below 255 it does so without a wrap. -/
theorem increment_toNat {overflowChecks : Bool} {octet next : UInt8} (below : octet ≤ 254)
    (incremented : increment overflowChecks octet = .ok next) : next.toNat = octet.toNat + 1 := by
  rw [UInt8.le_iff_toNat_le] at below
  rw [increment_ok incremented, UInt8.toNat_add]
  have : (254 : UInt8).toNat = 254 := rfl
  have : (1 : UInt8).toNat = 1 := rfl
  omega

/-- Below 255 it succeeds with and without overflow checks. -/
theorem increment_of_lt (overflowChecks : Bool) {octet : UInt8} (small : octet.toNat < 255) :
    increment overflowChecks octet = .ok (octet + 1) := by
  have other : (octet == 255) = false := by
    rw [beq_eq_false_iff_ne]
    rintro rfl
    exact absurd small (by decide)
  rw [increment, other, Bool.and_false, if_neg Bool.false_ne_true]

/-- How many candidates the search can still try from an octet on. From 255 it wraps to 0. -/
def searchMeasure (octet : UInt8) : Nat := if octet = 255 then 256 else 255 - octet.toNat

/-- The search comes closer to its end with every octet. -/
theorem searchMeasure_lt {octet next : UInt8} (succ : next = octet + 1) (bounded : ¬ next > 254) :
    searchMeasure next < searchMeasure octet := by
  have checked : ∀ value < 256, ¬ UInt8.ofNat value + 1 > 254 →
      searchMeasure (UInt8.ofNat value + 1) < searchMeasure (UInt8.ofNat value) := by decide +kernel
  have small := checked octet.toNat octet.toNat_lt
  rw [UInt8.ofNat_toNat, ← succ] at small
  exact small bounded

/-- The search for the next free address, from the last octet `octet` on. -/
def nextFree (overflowChecks : Bool) (taken : String → Bool) (peer : Ipv4Addr) (octet : UInt8) :
    Except Exit String :=
  let candidate := { peer with d := octet }.toText
  if !taken candidate then .ok candidate
  else
    match _incremented : increment overflowChecks octet with
    | .error exit => .error exit
    | .ok next =>
      if _above : next > 254 then .error (.error "No available IPs in the subnet")
      else nextFree overflowChecks taken peer next
termination_by searchMeasure octet
decreasing_by
  exact searchMeasure_lt (increment_ok _incremented) _above

section NextFree

variable {overflowChecks : Bool} {taken : String → Bool} {peer : Ipv4Addr} {octet : UInt8}
  {address : String}

/-- A free candidate is taken at once. -/
theorem nextFree_free (free : taken { peer with d := octet }.toText = false) :
    nextFree overflowChecks taken peer octet = .ok { peer with d := octet }.toText := by
  rw [nextFree, free]
  rfl

/-- The address found is free. -/
theorem nextFree_not_taken (found : nextFree overflowChecks taken peer octet = .ok address) :
    taken address = false := by
  fun_induction nextFree overflowChecks taken peer octet with
  | case1 octet candidate free =>
      rw [← Except.ok.inj found]
      simpa using free
  | case2 => cases found
  | case3 => cases found
  | case4 octet candidate taken next incremented bounded ih => exact ih found

/-- From an octet that is not the last, the search goes upwards and ends at 254. -/
theorem nextFree_upward (below : octet ≤ 254)
    (found : nextFree overflowChecks taken peer octet = .ok address) :
    ∃ last, octet ≤ last ∧ last ≤ 254 ∧ address = { peer with d := last }.toText := by
  fun_induction nextFree overflowChecks taken peer octet with
  | case1 octet candidate free => exact ⟨octet, UInt8.le_refl _, below, (Except.ok.inj found).symm⟩
  | case2 => cases found
  | case3 => cases found
  | case4 octet candidate taken next incremented bounded ih =>
      obtain ⟨last, above, top, same⟩ := ih (UInt8.not_lt.mp bounded) found
      have later : octet ≤ next := by
        rw [UInt8.le_iff_toNat_le, increment_toNat below incremented]
        exact Nat.le_succ _
      exact ⟨last, UInt8.le_trans later above, top, same⟩

/-- What is found does not depend on the overflow checks. -/
theorem nextFree_agree {overflowChecks' : Bool} {address' : String}
    (found : nextFree overflowChecks taken peer octet = .ok address)
    (found' : nextFree overflowChecks' taken peer octet = .ok address') : address = address' := by
  fun_induction nextFree overflowChecks taken peer octet with
  | case1 octet candidate free =>
      rw [nextFree_free (by simpa using free)] at found'
      exact (Except.ok.inj found).symm.trans (Except.ok.inj found')
  | case2 => cases found
  | case3 => cases found
  | case4 octet candidate taken next incremented bounded ih =>
      rw [nextFree, if_neg taken] at found'
      split at found'
      · cases found'
      · next next' incremented' =>
          have same : next' = next := (increment_ok incremented').trans
            (increment_ok incremented).symm
          rw [same, dif_neg bounded] at found'
          exact ih found found'

end NextFree

/-- The addresses of a config that was never given one. -/
def defaultAddresses : List String := ["10.0.10.1", "0.0.0.0"]

/-- A candidate that the peer, another peer or the node itself has. -/
def isTaken (config : Config) (peerIp candidate : String) : Bool :=
  let usedIps := config.peers.map PeerConfig.allowedIp
  candidate == peerIp || usedIps.contains candidate || candidate == config.network.address

/-- Auto-assign the next available IP in the subnet of the peer. -/
def assignAddress (overflowChecks : Bool) (config : Config) (peerIp : String) :
    Except Exit String := do
  let peer ← required (Ipv4Addr.parse peerIp.toList) s!"Invalid peer IP in token: {peerIp}"
  let first ← increment overflowChecks peer.d
  nextFree overflowChecks (isTaken config peerIp) peer first

/-- Add the inviting peer: an entry with its key is updated, but keeps its name. -/
def addPeer (publicKey endpoint allowedIp name : String) (peers : List PeerConfig) :
    List PeerConfig :=
  upsert publicKey
    (fun peer =>
      { peer with endpoint := some endpoint, allowedIp, name := peer.name.or (some name) })
    ⟨publicKey, some endpoint, allowedIp, some name⟩ peers

/-- The address of a joining node: the one it has, unless that is a default one. -/
def ownAddress (overflowChecks : Bool) (file : ConfigFile) (config : Config) (peerIp : String) :
    Except Exit String :=
  let hasExistingAddress := file.exists && !defaultAddresses.contains config.network.address
  if hasExistingAddress then .ok config.network.address
  else assignAddress overflowChecks config peerIp

/-- The config after a join. -/
def Config.joined (config : Config) (address : String) (subnet : UInt8) (peers : List PeerConfig) :
    Config :=
  { config with network := { config.network with address, subnet }, peers }

/-- `wolfnet join`: the config it saves and the reverse token it prints. -/
def cmdJoin (host : Host) (file : ConfigFile) (token : Token) : Except Exit (Config × Invite) := do
  let invite ← token.decode
  let peerPubkey ← required invite.pk "Token missing public key"
  let peerEndpoint ← required invite.ep "Token missing endpoint"
  let peerIp ← required invite.ip "Token missing IP"
  let subnet := (invite.sn.getD 24).toUInt8
  let peerName := derivePeerName invite.hn peerPubkey
  let config ← loadOrExit file
  let address ← ownAddress host.overflowChecks file config peerIp
  let config := config.joined address subnet
    (addPeer peerPubkey peerEndpoint peerIp peerName config.peers)
  let publicKey ← host.keys fun error => s!"Key error: {error}"
  host.save fun error => s!"Failed to save config: {error}"
  return (config, host.token publicKey config.network)

/-- The address that a file establishes: one that is not taken for unassigned. -/
def ConfigFile.established : ConfigFile → Option String
  | .parsed config =>
    if config.network.address ∈ defaultAddresses then none else some config.network.address
  | _ => none

/-- An established address is that of a parsed config, and no default one. -/
theorem ConfigFile.established_eq_some {file : ConfigFile} {address : String}
    (established : file.established = some address) :
    ∃ config, file = .parsed config ∧ config.network.address = address ∧
      address ∉ defaultAddresses := by
  cases file with
  | missing => cases established
  | unreadable error => cases established
  | parsed config =>
      rw [ConfigFile.established] at established
      split at established
      · cases established
      · next assigned => exact ⟨config, rfl, Option.some.inj established,
          Option.some.inj established ▸ assigned⟩

/-- An address that is no default one is established. -/
theorem ConfigFile.established_parsed {config : Config}
    (assigned : config.network.address ∉ defaultAddresses) :
    (ConfigFile.parsed config).established = some config.network.address := if_neg assigned

/-- The own address is the established one, or is assigned. -/
theorem ownAddress_eq {overflowChecks : Bool} {file : ConfigFile} {config : Config}
    {peerIp : String} (loaded : file.load = .ok config) :
    ownAddress overflowChecks file config peerIp =
      match file.established with
      | some address => .ok address
      | none => assignAddress overflowChecks config peerIp := by
  cases file with
  | missing => rfl
  | unreadable error => cases loaded
  | parsed config =>
      cases loaded
      by_cases unassigned : config.network.address ∈ defaultAddresses
      · simp [ownAddress, ConfigFile.established, ConfigFile.exists, unassigned]
      · simp [ownAddress, ConfigFile.established, ConfigFile.exists, unassigned]

/-- A run of two steps of a command that succeeds passes through a value of the first. -/
theorem Exit.bind_eq_ok {α β : Type} {first : Except Exit α} {rest : α → Except Exit β}
    {result : β} :
    first >>= rest = .ok result ↔ ∃ value, first = .ok value ∧ rest value = .ok result := by
  cases first with
  | ok value => simp [bind, Except.bind]
  | error exit => simp [bind, Except.bind]

/-- A required field is there or ends the command. -/
theorem required_eq_ok {α : Type} {field : Option α} {message : String} {value : α} :
    required field message = .ok value ↔ field = some value := by
  cases field with
  | some given => simp [required]
  | none => simp [required]

/-- Only a well-formed token is decoded. -/
theorem Token.decode_eq_ok {token : Token} {invite : Invite} :
    token.decode = .ok invite ↔ token = .json invite := by
  cases token <;> simp [decode]

/-- A config that loads is the one that the command goes on with. -/
theorem loadOrExit_eq_ok {file : ConfigFile} {config : Config} :
    loadOrExit file = .ok config ↔ file.load = .ok config := by
  cases loaded : file.load with
  | ok config => simp [loadOrExit, loaded]
  | error message => simp [loadOrExit, loaded]

namespace Host

variable {host : Host}

/-- The key is loaded or ends the command. -/
theorem keys_eq_ok {message : String → String} {publicKey : String} :
    host.keys message = .ok publicKey ↔ host.publicKey = .ok publicKey := by
  cases keys : host.publicKey with
  | ok publicKey => simp [Host.keys, keys]
  | error error => simp [Host.keys, keys]

/-- The config is saved or the command ends. -/
theorem save_eq_ok {message : String → String} {saved : Unit} :
    host.save message = .ok saved ↔ host.saveError = none := by
  cases failed : host.saveError with
  | none => simp [save, failed]
  | some error => simp [save, failed]

end Host

/-- An assigned address was searched for from the peer's address on. -/
theorem assignAddress_eq_ok {overflowChecks : Bool} {config : Config} {peerIp address : String} :
    assignAddress overflowChecks config peerIp = .ok address ↔
      ∃ peer first, Ipv4Addr.parse peerIp.toList = some peer ∧
        increment overflowChecks peer.d = .ok first ∧
        nextFree overflowChecks (isTaken config peerIp) peer first = .ok address := by
  simp only [assignAddress, Exit.bind_eq_ok, required_eq_ok]
  constructor
  · rintro ⟨peer, parsed, first, incremented, found⟩
    exact ⟨peer, first, parsed, incremented, found⟩
  · rintro ⟨peer, first, parsed, incremented, found⟩
    exact ⟨peer, parsed, first, incremented, found⟩

/-- The address after the peer's is assigned where it is free. -/
theorem assignAddress_next {overflowChecks : Bool} {config : Config} {peer : Ipv4Addr}
    (below : peer.d.toNat < 255)
    (free : isTaken config peer.toText { peer with d := peer.d + 1 }.toText = false) :
    assignAddress overflowChecks config peer.toText = .ok { peer with d := peer.d + 1 }.toText :=
  assignAddress_eq_ok.mpr
    ⟨peer, peer.d + 1, peer.parse_toText, increment_of_lt overflowChecks below, nextFree_free free⟩

/-- An assigned address is neither the inviting peer's nor the node's own before. -/
theorem assignAddress_ne {overflowChecks : Bool} {config : Config} {peerIp address : String}
    (assigned : assignAddress overflowChecks config peerIp = .ok address) :
    address ≠ peerIp ∧ address ≠ config.network.address := by
  obtain ⟨peer, first, _, _, found⟩ := assignAddress_eq_ok.mp assigned
  have free := nextFree_not_taken found
  simp only [isTaken, Bool.or_eq_false_iff, beq_eq_false_iff_ne] at free
  exact ⟨free.1.1, free.2⟩

/-- An invite describes the node as its config does. -/
theorem cmdInvite_eq_ok {host : Host} {file : ConfigFile} {invite : Invite} :
    cmdInvite host file = .ok invite ↔ ∃ config publicKey, file.load = .ok config ∧
      host.publicKey = .ok publicKey ∧ invite = host.token publicKey config.network := by
  simp only [cmdInvite, Exit.bind_eq_ok, loadOrExit_eq_ok, Host.keys_eq_ok]
  constructor
  · rintro ⟨config, loaded, publicKey, hasKey, same⟩
    exact ⟨config, publicKey, loaded, hasKey, (Except.ok.inj same).symm⟩
  · rintro ⟨config, publicKey, loaded, hasKey, rfl⟩
    exact ⟨config, loaded, publicKey, hasKey, rfl⟩

/-- What a token, the config file and the host make of a join that succeeds. -/
structure Join (host : Host) (file : ConfigFile) (token : Token) where
  invite : Invite
  decoded : token = .json invite
  pubkey : String
  hasPubkey : invite.pk = some pubkey
  endpoint : String
  hasEndpoint : invite.ep = some endpoint
  ip : String
  hasIp : invite.ip = some ip
  loaded : Config
  isLoaded : file.load = .ok loaded
  address : String
  isAddress : ownAddress host.overflowChecks file loaded ip = .ok address
  publicKey : String
  hasKey : host.publicKey = .ok publicKey
  saved : host.saveError = none

namespace Join

variable {host : Host} {file : ConfigFile} {token : Token} (join : Join host file token)

/-- The config that the join saves. -/
def config : Config :=
  join.loaded.joined join.address (join.invite.sn.getD 24).toUInt8
    (addPeer join.pubkey join.endpoint join.ip
      (derivePeerName join.invite.hn join.pubkey) join.loaded.peers)

/-- The token that the join prints. -/
def reverse : Invite := host.token join.publicKey join.config.network

end Join

/-- A join succeeds exactly with what some `Join` says. -/
theorem cmdJoin_eq_ok {host : Host} {file : ConfigFile} {token : Token} {result : Config × Invite} :
    cmdJoin host file token = .ok result ↔
      ∃ join : Join host file token, result = (join.config, join.reverse) := by
  unfold cmdJoin
  constructor
  · intro ran
    simp only [Exit.bind_eq_ok, required_eq_ok, Token.decode_eq_ok, loadOrExit_eq_ok,
      Host.keys_eq_ok, Host.save_eq_ok] at ran
    obtain ⟨invite, decoded, pubkey, hasPubkey, endpoint, hasEndpoint, ip, hasIp, loaded, isLoaded,
      address, isAddress, publicKey, hasKey, _, saved, same⟩ := ran
    exact ⟨⟨invite, decoded, pubkey, hasPubkey, endpoint, hasEndpoint, ip, hasIp, loaded, isLoaded,
      address, isAddress, publicKey, hasKey, saved⟩, (Except.ok.inj same).symm⟩
  · rintro ⟨join, rfl⟩
    simp only [Exit.bind_eq_ok, required_eq_ok, Token.decode_eq_ok, loadOrExit_eq_ok,
      Host.keys_eq_ok, Host.save_eq_ok]
    exact ⟨_, join.decoded, _, join.hasPubkey, _, join.hasEndpoint, _, join.hasIp, _,
      join.isLoaded, _, join.isAddress, _, join.hasKey, (), join.saved, rfl⟩

/-- A join by a node's token records that node. -/
theorem Join.of_token {host other : Host} {file : ConfigFile} {publicKey : String}
    {network : NetworkConfig} (join : Join host file (.json (other.token publicKey network))) :
    join.pubkey = publicKey ∧ join.ip = network.address := by
  have same : other.token publicKey network = join.invite := Token.json.inj join.decoded
  have pk := join.hasPubkey
  have ip := join.hasIp
  rw [← same] at pk ip
  exact ⟨(Option.some.inj pk).symm, (Option.some.inj ip).symm⟩

/-- The join by a node's token, where the file loads, the address is settled and nothing fails. -/
def Join.byToken {host other : Host} {file : ConfigFile} {publicKey ownKey address : String}
    {network : NetworkConfig} {loaded : Config} (isLoaded : file.load = .ok loaded)
    (isAddress : ownAddress host.overflowChecks file loaded network.address = .ok address)
    (hasKey : host.publicKey = .ok ownKey) (saved : host.saveError = none) :
    Join host file (.json (other.token publicKey network)) where
  invite := other.token publicKey network
  decoded := rfl
  pubkey := publicKey
  hasPubkey := rfl
  endpoint := other.endpoint network
  hasEndpoint := rfl
  ip := network.address
  hasIp := rfl
  loaded := loaded
  isLoaded := isLoaded
  address := address
  isAddress := isAddress
  publicKey := ownKey
  hasKey := hasKey
  saved := saved

/-- A joining node keeps an established address. -/
theorem Join.address_established {host : Host} {file : ConfigFile} {token : Token}
    (join : Join host file token) {address : String}
    (established : file.established = some address) :
    join.address = address := by
  have own := join.isAddress
  rw [ownAddress_eq join.isLoaded, established] at own
  exact (Except.ok.inj own).symm

/-- A joining node without an established address is assigned one. -/
theorem Join.address_assigned {host : Host} {file : ConfigFile} {token : Token}
    (join : Join host file token) (unestablished : file.established = none) :
    assignAddress host.overflowChecks join.loaded join.ip = .ok join.address := by
  have own := join.isAddress
  rwa [ownAddress_eq join.isLoaded, unestablished] at own

end WolfNet
