import WolfNet.Commands.Allocation
import WolfNet.Config.Collapse

/-!
# A join, and the same join again

A join updates the one entry with its token's key, or adds it, and leaves the others. It works on
what the load makes of the file's entries, which keeps one of each key. The second join with the
token starts from the config that the first one saved, and keeps the address there, unless the
first one picked an address that is taken for unassigned. `joinsOnce_iff` says when the join merges
into the file's own entries and the second one changes nothing.
-/

namespace WolfNet

/-- The last octets that a search tries behind an inviter's, in their order. -/
def searched (overflowChecks : Bool) (inviter : UInt8) : List UInt8 :=
  if inviter ≤ 253 then octetsFrom (inviter + 1)
  else (if inviter = 254 then [255] else []) ++ if overflowChecks then [] else octetsFrom 0

section Search

variable {overflowChecks : Bool} {config : Config} {peerIp address : String} {peer : Ipv4Addr}

/-- A join is assigned the first free one of the addresses that its search tries. -/
theorem assignAddress_eq_first (parsed : Ipv4Addr.parse peerIp.toList = some peer) :
    assignAddress overflowChecks config peerIp = .ok address ↔
      (peer.texts (searched overflowChecks peer.d)).find?
        (fun candidate => !isTaken config peerIp candidate) = some address := by
  by_cases below : peer.d ≤ 253
  · rw [assignAddress_eq parsed below, firstFree_eq_ok, searched, if_pos below]
  rw [searched, if_neg below]
  rcases above_253 below with last | top
  · rw [if_pos last, List.singleton_append, assignAddress_254 parsed last]
    cases free : isTaken config peerIp { peer with d := 255 }.toText with
    | false =>
        rw [nextFree_free free, Ipv4Addr.texts_cons, List.find?_cons_of_pos (by simp [free])]
        simp
    | true =>
        rw [nextFree_255 free, Ipv4Addr.texts_cons, List.find?_cons_of_neg (by simp [free])]
        cases overflowChecks with
        | true => simp
        | false => exact firstFree_eq_ok
  · have notLast : peer.d ≠ 254 := by
      rw [top]
      decide
    rw [if_neg notLast, List.nil_append, assignAddress_255 parsed top]
    cases overflowChecks with
    | true => simp
    | false =>
        simp only [Bool.false_eq_true, if_false]
        rw [nextFree_eq (by decide), firstFree_eq_ok]

end Search

section Merge

variable {pubkey endpoint ip name : String} {peers : List PeerConfig}

/-- What a join does to the entries. A name that the key had is one that it keeps. -/
structure Merged (pubkey endpoint ip : String) (before after : List PeerConfig) : Prop where
  others : after.filter (fun peer => peer.publicKey ≠ pubkey) =
    before.filter fun peer => peer.publicKey ≠ pubkey
  one : ∃ entry, after.filter (fun peer => peer.publicKey = pubkey) = [entry] ∧
    entry.endpoint = some endpoint ∧ entry.allowedIp = ip ∧
    ∀ old ∈ before, old.publicKey = pubkey → old.name ≠ none →
      ∃ kept ∈ before, kept.publicKey = pubkey ∧ kept.name = entry.name

/-- No other key is listed twice, and the entry that stands for the key has a name if any of its
entries has one, or is given the name of one. -/
structure Mergeable (pubkey name : String) (entries : List PeerConfig) : Prop where
  distinct : (keysOf (entries.filter fun peer => peer.publicKey ≠ pubkey)).Nodup
  named : ∀ old ∈ entries, old.publicKey = pubkey → old.name ≠ none →
    (∃ first, chosen entries pubkey = some first ∧ first.name ≠ none) ∨
      ∃ kept ∈ entries, kept.publicKey = pubkey ∧ kept.name = some name

/-- What leaves the entries with other keys alone does so among the others. -/
theorem upsert_filter {key : String} {update : PeerConfig → PeerConfig} {fresh : PeerConfig}
    (keeps : ∀ first, first.publicKey = key → (update first).publicKey = key)
    (freshKey : fresh.publicKey = key) (other : key ≠ pubkey) :
    (upsert key update fresh peers).filter (fun peer => peer.publicKey ≠ pubkey) =
      upsert key update fresh (peers.filter fun peer => peer.publicKey ≠ pubkey) := by
  induction peers with
  | nil => simp [upsert, freshKey, other]
  | cons first peers ih =>
      by_cases same : first.publicKey = key
      · simp [upsert, same, keeps first same, other]
      · by_cases isKey : first.publicKey = pubkey
        · rw [upsert, if_neg same, List.filter_cons_of_neg (by simp [isKey]), ih,
            List.filter_cons_of_neg (by simp [isKey])]
        · rw [upsert, if_neg same, List.filter_cons_of_pos (by simp [isKey]), ih,
            List.filter_cons_of_pos (by simp [isKey]), upsert, if_neg same]

/-- The entries with other keys collapse among themselves. -/
theorem dedup_filter (pubkey : String) (peers : List PeerConfig) :
    (dedup peers).filter (fun peer => peer.publicKey ≠ pubkey) =
      dedup (peers.filter fun peer => peer.publicKey ≠ pubkey) := by
  induction peers using List.reverseRecOn with
  | nil => rfl
  | append_singleton peers peer ih =>
      rw [dedup_append, List.filter_append]
      by_cases isKey : peer.publicKey = pubkey
      · rw [List.filter_cons_of_neg (by simp [isKey]), List.filter_nil, List.append_nil, ← ih, keep,
          ← isKey, upsert_others keep_key rfl]
      · rw [List.filter_cons_of_pos (by simp [isKey]), List.filter_nil, dedup_append, ← ih, keep,
          upsert_filter keep_key rfl isKey, keep]

/-- The entry of the key in the collapse stands for the key. -/
theorem chosen_of_dedup {first : PeerConfig} (kept : first ∈ dedup peers)
    (isKey : first.publicKey = pubkey) : chosen peers pubkey = some first := by
  rw [← isKey]
  exact chosen_of_mem_dedup kept

/-- What a join makes of the collapsed entries it makes of the listed ones exactly when these can be
merged into. -/
theorem addPeer_merged_iff :
    Merged pubkey endpoint ip peers (addPeer pubkey endpoint ip name (dedup peers)) ↔
      Mergeable pubkey name peers := by
  have others : (addPeer pubkey endpoint ip name (dedup peers)).filter
      (fun peer => peer.publicKey ≠ pubkey) =
        dedup (peers.filter fun peer => peer.publicKey ≠ pubkey) := by
    rw [← dedup_filter]
    exact upsert_others (fun _ same => same) rfl
  obtain ⟨entry, one, standsFor⟩ := @upsert_one pubkey
    (fun peer =>
      { peer with endpoint := some endpoint, allowedIp := ip, name := peer.name.or (some name) })
    ⟨pubkey, some endpoint, ip, some name⟩ (dedup peers) (fun _ same => same) rfl
    (keysOf_dedup_nodup peers)
  constructor
  · intro merged
    constructor
    · rw [← merged.others, others]
      exact keysOf_dedup_nodup _
    · obtain ⟨entry', one', _, _, keeps⟩ := merged.one
      cases List.singleton_inj.mp (one.symm.trans one')
      intro old member isKey named
      obtain ⟨kept, keptMember, keptKey, same⟩ := keeps old member isKey named
      rcases standsFor with ⟨rfl, unlisted⟩ | ⟨first, firstMember, firstKey, rfl⟩
      · exact absurd (mem_keysOf_dedup.mpr (List.mem_map.mpr ⟨old, member, isKey⟩)) unlisted
      · have isChosen := chosen_of_dedup firstMember firstKey
        cases nameless : first.name with
        | none =>
            rw [nameless, Option.none_or] at same
            exact .inr ⟨kept, keptMember, keptKey, same⟩
        | some _ => exact .inl ⟨first, isChosen, by simp [nameless]⟩
  · intro mergeable
    refine ⟨others.trans (dedup_of_nodup mergeable.distinct), entry, one, ?_⟩
    rcases standsFor with ⟨rfl, unlisted⟩ | ⟨first, firstMember, firstKey, rfl⟩
    · refine ⟨rfl, rfl, fun old member isKey _ => ?_⟩
      exact absurd (mem_keysOf_dedup.mpr (List.mem_map.mpr ⟨old, member, isKey⟩)) unlisted
    · refine ⟨rfl, rfl, fun old member isKey named => ?_⟩
      have isChosen := chosen_of_dedup firstMember firstKey
      cases hasName : first.name with
      | some _ => exact ⟨first, (chosen_mem isChosen).1, firstKey, by simp [hasName]⟩
      | none =>
          rcases mergeable.named old member isKey named with ⟨counted, same, hasOne⟩ | given
          · cases isChosen.symm.trans same
            exact absurd hasName hasOne
          · obtain ⟨kept, keptMember, keptKey, same⟩ := given
            exact ⟨kept, keptMember, keptKey, by simpa [hasName] using same⟩

/-- Entries that list no key twice can be merged into. -/
theorem Mergeable.of_distinct (distinct : (keysOf peers).Nodup) :
    Mergeable pubkey name peers where
  distinct := distinct.sublist (List.filter_sublist.map _)
  named old member isKey named := by
    have kept : old ∈ dedup peers := by rwa [dedup_of_nodup distinct]
    exact .inl ⟨old, chosen_of_dedup kept isKey, named⟩

/-- A join merges the peer into entries with distinct keys. -/
theorem addPeer_merged (distinct : (keysOf peers).Nodup) :
    Merged pubkey endpoint ip peers (addPeer pubkey endpoint ip name peers) := by
  have merged := (@addPeer_merged_iff pubkey endpoint ip name peers).mpr (.of_distinct distinct)
  rwa [dedup_of_nodup distinct] at merged

/-- Joining twice adds nothing more. -/
theorem addPeer_addPeer :
    addPeer pubkey endpoint ip name (addPeer pubkey endpoint ip name peers) =
      addPeer pubkey endpoint ip name peers :=
  upsert_upsert (fun _ same => same) rfl (fun _ => by simp) rfl

/-- A join keeps the keys distinct. -/
theorem addPeer_distinct (distinct : (keysOf peers).Nodup) :
    (keysOf (addPeer pubkey endpoint ip name peers)).Nodup :=
  keysOf_upsert_nodup (fun _ same => same) rfl distinct

end Merge

/-- The entries that a config file lists, before twin entries collapse. -/
def ConfigFile.entries : ConfigFile → List PeerConfig
  | .parsed config => config.peers
  | _ => []

/-- The loaded peers are the collapse of the file's entries. -/
theorem ConfigFile.load_peers {file : ConfigFile} {config : Config}
    (loaded : file.load = .ok config) : config.peers = dedup file.entries := by
  cases file with
  | missing =>
      cases loaded
      rfl
  | unreadable error => cases loaded
  | parsed config =>
      cases loaded
      rfl

namespace Join

variable {host host' : Host} {file : ConfigFile} {token : Token}

/-- A joined config has distinct keys. -/
theorem config_distinct (join : Join host file token) : (keysOf join.config.peers).Nodup :=
  addPeer_distinct (ConfigFile.load_distinct join.isLoaded)

/-- A joined config loads as it is. -/
theorem config_loads (join : Join host file token) :
    (ConfigFile.parsed join.config).load = .ok join.config := by
  rw [ConfigFile.load, dedup_of_nodup join.config_distinct]

/-- The same join again starts from the same token and the config that was saved. -/
theorem again_same (join : Join host file token)
    (again : Join host' (.parsed join.config) token) :
    again.invite = join.invite ∧ again.pubkey = join.pubkey ∧ again.endpoint = join.endpoint ∧
      again.ip = join.ip ∧ again.loaded = join.config := by
  have invite : again.invite = join.invite := Token.json.inj (again.decoded.symm.trans join.decoded)
  refine ⟨invite, ?_, ?_, ?_, ?_⟩
  · exact Option.some.inj (again.hasPubkey.symm.trans (invite ▸ join.hasPubkey))
  · exact Option.some.inj (again.hasEndpoint.symm.trans (invite ▸ join.hasEndpoint))
  · exact Option.some.inj (again.hasIp.symm.trans (invite ▸ join.hasIp))
  · exact Except.ok.inj (again.isLoaded.symm.trans join.config_loads)

/-- It changes the own address at most. -/
theorem again_config (join : Join host file token)
    (again : Join host' (.parsed join.config) token) (unmoved : again.address = join.address) :
    again.config = join.config := by
  obtain ⟨invite, pubkey, endpoint, ip, loaded⟩ := join.again_same again
  rw [config, invite, pubkey, endpoint, ip, loaded, unmoved]
  simp only [config, Config.joined, addPeer_addPeer]

/-- A join merges the peer of its token into the loaded entries. -/
theorem merged (join : Join host file token) :
    Merged join.pubkey join.endpoint join.ip join.loaded.peers join.config.peers :=
  addPeer_merged (ConfigFile.load_distinct join.isLoaded)

/-- The join merges into the file's own entries exactly when these can be merged into. -/
theorem merged_iff (join : Join host file token) :
    Merged join.pubkey join.endpoint join.ip file.entries join.config.peers ↔
      Mergeable join.pubkey (derivePeerName join.invite.hn join.pubkey) file.entries := by
  have loaded := ConfigFile.load_peers join.isLoaded
  simp only [config, Config.joined, loaded]
  exact addPeer_merged_iff

end Join

/-- The address is free once the inviter is listed at `ip` and the node is at `own`. -/
structure FreeBeside (config : Config) (pubkey ip own address : String) : Prop where
  notInviter : address ≠ ip
  notOwn : address ≠ own
  unused : ∀ entry ∈ config.peers, entry.publicKey ≠ pubkey → entry.allowedIp ≠ address

/-- The entries with other keys are those from before. -/
theorem Merged.mem_others {pubkey endpoint ip : String} {before after : List PeerConfig}
    (merged : Merged pubkey endpoint ip before after) {entry : PeerConfig}
    (other : entry.publicKey ≠ pubkey) : entry ∈ after ↔ entry ∈ before := by
  have same := congrArg (fun entries => entry ∈ entries) merged.others
  simpa [List.mem_filter, other] using same

/-- The entry of the key is at the IP. -/
theorem Merged.allowedIp {pubkey endpoint ip : String} {before after : List PeerConfig}
    (merged : Merged pubkey endpoint ip before after) {entry : PeerConfig} (member : entry ∈ after)
    (isKey : entry.publicKey = pubkey) : entry.allowedIp = ip := by
  obtain ⟨found, one, _, address, _⟩ := merged.one
  have filtered : entry ∈ after.filter fun peer => peer.publicKey = pubkey :=
    List.mem_filter.mpr ⟨member, decide_eq_true isKey⟩
  rw [one, List.mem_singleton] at filtered
  rw [filtered, address]

/-- What is free for the same join again. -/
theorem Join.isTaken_again {host : Host} {file : ConfigFile} {token : Token}
    (join : Join host file token) {candidate : String} :
    isTaken join.config join.ip candidate = false ↔
      FreeBeside join.loaded join.pubkey join.ip join.address candidate := by
  rw [← Bool.not_eq_true, isTaken_iff, not_or, not_or]
  constructor
  · rintro ⟨notInviter, unused, notOwn⟩
    refine ⟨notInviter, notOwn, fun entry member other same => unused ⟨entry, ?_, same⟩⟩
    exact (join.merged.mem_others other).mpr member
  · rintro ⟨notInviter, notOwn, unused⟩
    refine ⟨notInviter, ?_, notOwn⟩
    rintro ⟨entry, member, same⟩
    by_cases isKey : entry.publicKey = join.pubkey
    · exact notInviter (same.symm.trans (join.merged.allowedIp member isKey))
    · exact unused entry ((join.merged.mem_others isKey).mp member) isKey same

/-- The join merges the peer of its token into the entries of the file, and the same join again
leaves the config as it saved it. -/
structure JoinsOnce {host : Host} {file : ConfigFile} {token : Token}
    (join : Join host file token) : Prop where
  merges : Merged join.pubkey join.endpoint join.ip file.entries join.config.peers
  settles : ∀ {host' : Host} {config : Config} {reverse : Invite},
    host'.overflowChecks = host.overflowChecks →
    cmdJoin host' (.parsed join.config) token = .ok (config, reverse) → config = join.config

/-- A node without an own address is assigned one that is taken for unassigned, as all in front of
it are taken, and there is another for the next search. -/
structure Wanders (overflowChecks : Bool) (file : ConfigFile) (config : Config)
    (pubkey ip : String) (peer : Ipv4Addr) (placeholder : String) : Prop where
  unestablished : file.established = none
  parsed : Ipv4Addr.parse ip.toList = some peer
  isPlaceholder : placeholder ∈ defaultAddresses
  free : isTaken config ip placeholder = false
  reached : ∃ front back,
    peer.texts (searched overflowChecks peer.d) = front ++ placeholder :: back ∧
    ∀ candidate ∈ front, isTaken config ip candidate = true
  another : ∃ other ∈ peer.texts (searched overflowChecks peer.d),
    FreeBeside config pubkey ip placeholder other

section Repeat

variable {host : Host} {file : ConfigFile} {token : Token} (join : Join host file token)

/-- The own address changes in the second join where the first one picked a placeholder and the
second search succeeds. -/
theorem Join.settles_iff :
    (∀ {host' : Host} {config : Config} {reverse : Invite},
      host'.overflowChecks = host.overflowChecks →
      cmdJoin host' (.parsed join.config) token = .ok (config, reverse) → config = join.config) ↔
    ¬ (join.address ∈ defaultAddresses ∧
      ∃ other, assignAddress host.overflowChecks join.config join.ip = .ok other) := by
  constructor
  · rintro settles ⟨isPlaceholder, other, assigned⟩
    have address : ownAddress host.overflowChecks (.parsed join.config) join.config join.ip =
        .ok other := by
      rw [ownAddress_assigned join.config_loads (if_pos isPlaceholder), assigned]
    let again : Join host (.parsed join.config) token :=
      { join with
        loaded := join.config
        isLoaded := join.config_loads
        address := other
        isAddress := address }
    have same : again.config = join.config :=
      settles rfl (cmdJoin_eq_ok.mpr ⟨again, rfl⟩)
    have moved := (assignAddress_ne assigned).2
    rw [← same] at moved
    exact moved rfl
  · intro stays host' config reverse checks ran
    obtain ⟨again, same⟩ := cmdJoin_eq_ok.mp ran
    obtain ⟨rfl, rfl⟩ := Prod.mk.inj same
    apply join.again_config again
    by_cases isPlaceholder : join.address ∈ defaultAddresses
    · have assigned := again.address_assigned (if_pos isPlaceholder)
      obtain ⟨_, _, _, ip, loaded⟩ := join.again_same again
      rw [checks, ip, loaded] at assigned
      exact absurd ⟨isPlaceholder, _, assigned⟩ stays
    · exact again.address_established (ConfigFile.established_parsed isPlaceholder)

/-- The second join picks another address exactly where the first one picked a placeholder and there
is another one left. -/
theorem Join.wanders_iff :
    (join.address ∈ defaultAddresses ∧
      ∃ other, assignAddress host.overflowChecks join.config join.ip = .ok other) ↔
    ∃ peer placeholder,
      Wanders host.overflowChecks file join.loaded join.pubkey join.ip peer placeholder := by
  constructor
  · rintro ⟨isPlaceholder, other, again⟩
    have unestablished : file.established = none := by
      cases kept : file.established with
      | none => rfl
      | some address =>
          obtain ⟨_, _, _, notPlaceholder⟩ := ConfigFile.established_eq_some kept
          exact absurd (join.address_established kept ▸ isPlaceholder) notPlaceholder
    have assigned := join.address_assigned unestablished
    obtain ⟨peer, _, parsed, _, _⟩ := assignAddress_eq_ok.mp assigned
    rw [assignAddress_eq_first parsed] at assigned again
    obtain ⟨free, front, back, candidates, occupied⟩ :=
      List.find?_eq_some_iff_append.mp assigned
    refine ⟨peer, join.address, unestablished, parsed, isPlaceholder, by simpa using free,
      ⟨front, back, candidates, by simpa using occupied⟩, other, ?_, ?_⟩
    · exact List.mem_of_find?_eq_some again
    · exact join.isTaken_again.mp (by simpa using List.find?_some again)
  · rintro ⟨peer, placeholder, wanders⟩
    obtain ⟨front, back, candidates, occupied⟩ := wanders.reached
    have assigned : assignAddress host.overflowChecks join.loaded join.ip = .ok placeholder := by
      rw [assignAddress_eq_first wanders.parsed, List.find?_eq_some_iff_append]
      exact ⟨by simp [wanders.free], front, back, candidates, by simpa using occupied⟩
    have address : join.address = placeholder :=
      Except.ok.inj ((join.address_assigned wanders.unestablished).symm.trans assigned)
    refine ⟨address ▸ wanders.isPlaceholder, ?_⟩
    obtain ⟨other, candidate, free⟩ := wanders.another
    rw [← address] at free
    cases found : (peer.texts (searched host.overflowChecks peer.d)).find?
        (fun candidate => !isTaken join.config join.ip candidate) with
    | none =>
        have occupied := List.find?_eq_none.mp found other candidate
        rw [join.isTaken_again.mpr free] at occupied
        exact absurd rfl occupied
    | some first => exact ⟨first, (assignAddress_eq_first wanders.parsed).mpr found⟩

end Repeat

namespace Sample

/-- A node that was never given an address. -/
def unassigned : Config := inviterAt "0.0.0.0"

/-- The node without an address is given the first one, which is a placeholder. -/
theorem unassigned_next : assignAddress gamma.overflowChecks unassigned "10.0.10.0" =
    .ok "10.0.10.1" :=
  @assignAddress_next _ _ ⟨10, 0, 10, 0⟩ (by decide) (by decide)

/-- The key of the third host. -/
theorem gamma_publicKey : gamma.publicKey = .ok "key-c" := rfl

/-- The third host saves its config. -/
theorem gamma_saves : gamma.saveError = none := rfl

/-- It joins an inviter at 10.0.10.0, and is assigned the address behind. -/
def deltaJoins : Join gamma (.parsed unassigned)
    (.json (alpha.token "key-a" (inviterAt "10.0.10.0").network)) :=
  @Join.byToken gamma alpha _ "key-a" "key-c" "10.0.10.1" _ unassigned rfl unassigned_next
    gamma_publicKey gamma_saves

/-- A node with an address that lists the inviter twice, once without a name, and another peer. -/
def listing : Config :=
  { inviterAt "10.10.10.7" with peers := [⟨"key-b", none, "10.10.10.2", some "beta"⟩,
      ⟨"key-a", none, "10.10.10.1", none⟩, ⟨"key-a", some "a:1", "10.10.10.1", some "old"⟩] }

/-- The config that it loads. -/
def listingLoaded : Config :=
  { listing with peers := [⟨"key-b", none, "10.10.10.2", some "beta"⟩,
      ⟨"key-a", some "a:1", "10.10.10.1", some "old"⟩] }

/-- It joins the inviter at 10.10.10.1. -/
def listingJoins : Join gamma (.parsed listing) (.json alphaToken) :=
  @Join.byToken gamma alpha _ "key-a" "key-c" "10.10.10.7" _ listingLoaded rfl rfl gamma_publicKey
    gamma_saves

end Sample

end WolfNet
