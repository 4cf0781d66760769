import WolfNet.Commands

/-!
# Two nodes that invite and join each other

A join records the peer of its token under the token's address, and may choose the own
address anew. The reverse join runs the same code at the inviter, so the link is
consistent exactly when that does not move the inviter: its address has to be none of
those taken for unassigned. The own address of a joiner that keeps it must be another.
-/

namespace WolfNet

/-- The key is listed, and with no other address. -/
structure Config.HasPeer (config : Config) (publicKey allowedIp : String) : Prop where
  listed : publicKey ∈ keysOf config.peers
  agreed : ∀ peer ∈ config.peers, peer.publicKey = publicKey → peer.allowedIp = allowedIp

/-- A config lists a peer once. -/
theorem Config.HasPeer.unique {config : Config} {publicKey allowedIp other : String}
    (first : config.HasPeer publicKey allowedIp) (second : config.HasPeer publicKey other) :
    allowedIp = other := by
  obtain ⟨peer, member, key⟩ := List.mem_map.mp first.listed
  rw [← first.agreed peer member key, second.agreed peer member key]

/-- A join lists the peer of its token with the token's address. -/
theorem Join.hasPeer {host : Host} {file : ConfigFile} {token : Token}
    (join : Join host file token) :
    join.config.HasPeer join.pubkey join.ip where
  listed := mem_keysOf_upsert (fun _ same => same) rfl
  agreed := by
    intro peer member key
    rcases eq_of_mem_upsert (ConfigFile.load_distinct join.isLoaded) member key with
      rfl | ⟨_, _, _, rfl⟩
    · rfl
    · rfl

/-- Both nodes list the other's key with the other's own address, and these differ. -/
structure Linked (inviterKey joinerKey : String) (inviter joiner : Config) : Prop where
  inviterLists : inviter.HasPeer joinerKey joiner.network.address
  joinerLists : joiner.HasPeer inviterKey inviter.network.address
  apart : inviter.network.address ≠ joiner.network.address

/-- A join by an inviter's token and a reverse join link the two when the inviter stays
where the token said and the joiner is elsewhere. -/
theorem linked_iff_unmoved {inviter inviter' joiner : Host} {config : Config} {file : ConfigFile}
    {inviterKey : String}
    (join : Join joiner file (.json (inviter.token inviterKey config.network)))
    (back : Join inviter' (.parsed config) (.json join.reverse)) :
    Linked inviterKey join.publicKey back.config join.config ↔
      back.address = config.network.address ∧ join.address ≠ config.network.address := by
  have recorded := join.hasPeer
  rw [join.of_token.1, join.of_token.2] at recorded
  have described : back.pubkey = join.publicKey ∧ back.ip = join.config.network.address :=
    back.of_token
  have recordedBack := back.hasPeer
  rw [described.1, described.2] at recordedBack
  constructor
  · intro linked
    have unmoved : config.network.address = back.address := recorded.unique linked.joinerLists
    refine ⟨unmoved.symm, fun same => linked.apart ?_⟩
    exact unmoved.symm.trans same.symm
  · rintro ⟨unmoved, elsewhere⟩
    have here : back.config.network.address = config.network.address := unmoved
    refine ⟨recordedBack, ?_, ?_⟩
    · rw [here]
      exact recorded
    · rw [here]
      exact elsewhere.symm

/-- After an invite, the join and the reverse join, the nodes are linked exactly when the
inviter's address is not taken for unassigned and the joiner does not keep the same one. -/
theorem linked_iff {inviter inviter' joiner : Host} {config joined : Config} {file : ConfigFile}
    {invite reverse : Invite} {inviterKey joinerKey : String}
    (inviterHas : inviter.publicKey = .ok inviterKey) (joinerHas : joiner.publicKey = .ok joinerKey)
    (invited : cmdInvite inviter (.parsed config) = .ok invite)
    (joins : cmdJoin joiner file (.json invite) = .ok (joined, reverse))
    (sameKey : inviter'.publicKey = inviter.publicKey) (saves : inviter'.saveError = none) :
    (∃ config' reverse',
      cmdJoin inviter' (.parsed config) (.json reverse) = .ok (config', reverse') ∧
      Linked inviterKey joinerKey config' joined) ↔
    config.network.address ∉ defaultAddresses ∧ file.established ≠ some config.network.address := by
  obtain ⟨loaded, publicKey, isLoaded, isKey, rfl⟩ := cmdInvite_eq_ok.mp invited
  obtain rfl : inviterKey = publicKey := Except.ok.inj (inviterHas.symm.trans isKey)
  cases isLoaded
  obtain ⟨join, ran⟩ := cmdJoin_eq_ok.mp joins
  obtain ⟨rfl, rfl⟩ := Prod.mk.inj ran
  obtain rfl : joinerKey = join.publicKey := Except.ok.inj (joinerHas.symm.trans join.hasKey)
  constructor
  · rintro ⟨config', reverse', reversed, linked⟩
    obtain ⟨back, ran⟩ := cmdJoin_eq_ok.mp reversed
    obtain ⟨rfl, _⟩ := Prod.mk.inj ran
    obtain ⟨unmoved, elsewhere⟩ :=
      (@linked_iff_unmoved inviter inviter' joiner config file inviterKey join back).mp linked
    constructor
    · intro unassigned
      have moved := (assignAddress_ne (back.address_assigned (if_pos unassigned))).2
      rw [unmoved, ← Except.ok.inj back.isLoaded] at moved
      exact moved rfl
    · intro same
      exact elsewhere (join.address_established same)
  · rintro ⟨assigned, other⟩
    have stays : ownAddress inviter'.overflowChecks (.parsed config)
        { config with peers := dedup config.peers } join.config.network.address =
          .ok config.network.address := by
      rw [ownAddress_eq rfl, ConfigFile.established_parsed assigned]
    let back : Join inviter' (.parsed config) (.json join.reverse) :=
      .byToken rfl stays (sameKey.trans isKey) saves
    refine ⟨back.config, back.reverse, cmdJoin_eq_ok.mpr ⟨back, rfl⟩, ?_⟩
    refine (@linked_iff_unmoved inviter inviter' joiner config file inviterKey join back).mpr
      ⟨rfl, fun same => ?_⟩
    cases kept : file.established with
    | some address =>
        rw [kept, ← join.address_established kept, same] at other
        exact other rfl
    | none =>
        have elsewhere := (assignAddress_ne (join.address_assigned kept)).1
        rw [join.of_token.2] at elsewhere
        exact elsewhere same

namespace Sample

def alpha : Host := ⟨.ok "key-a", some "203.0.113.5", "alpha", none, false⟩

def beta : Host := ⟨.ok "key-b", some "198.51.100.7", "beta", none, false⟩

/-- The config of an inviter at an address, as `wolfnet init` writes it. -/
def inviterAt (address : String) : Config :=
  { Config.default with network := { Config.default.network with address } }

/-- The join of a fresh node by the token of an inviter at 10.10.10.1. -/
def betaJoins : Join beta .missing (.json (alpha.token "key-a" (inviterAt "10.10.10.1").network)) :=
  @Join.byToken beta alpha .missing "key-a" "key-b" "10.10.10.2" _ Config.default rfl
    (@assignAddress_next _ _ ⟨10, 10, 10, 1⟩ (by decide) (by decide)) rfl rfl

/-- The same at the address that `wolfnet init` uses when it is given none. -/
def betaJoinsInitial : Join beta .missing
    (.json (alpha.token "key-a" (inviterAt "10.0.10.1").network)) :=
  @Join.byToken beta alpha .missing "key-a" "key-b" "10.0.10.2" _ Config.default rfl
    (@assignAddress_next _ _ ⟨10, 0, 10, 1⟩ (by decide) (by decide)) rfl rfl

/-- The reverse join of the inviter at that address. -/
def alphaJoinsBack : Join alpha (.parsed (inviterAt "10.0.10.1"))
    (.json betaJoinsInitial.reverse) :=
  @Join.byToken alpha beta _ "key-b" "key-a" "10.0.10.3" betaJoinsInitial.config.network
    (inviterAt "10.0.10.1") rfl
    (@assignAddress_next _ _ ⟨10, 0, 10, 2⟩ (by decide) (by decide)) rfl rfl

def gamma : Host := ⟨.ok "key-c", some "192.0.2.9", "gamma", none, false⟩

/-- The token of the inviter at 10.10.10.1. -/
def alphaToken : Invite := alpha.token "key-a" (inviterAt "10.10.10.1").network

/-- The reverse join of the first node's token. -/
def alphaKeeps : Join alpha (.parsed (inviterAt "10.10.10.1")) (.json betaJoins.reverse) :=
  @Join.byToken alpha beta _ "key-b" "key-a" "10.10.10.1" betaJoins.config.network
    (inviterAt "10.10.10.1") rfl rfl rfl rfl

/-- Another node without a config joins by the same token. -/
def gammaJoins : Join gamma .missing (.json alphaToken) :=
  @Join.byToken gamma alpha .missing "key-a" "key-c" "10.10.10.2" _ Config.default rfl
    (@assignAddress_next _ _ ⟨10, 10, 10, 1⟩ (by decide) (by decide)) rfl rfl

/-- The token of the inviter from `wolfnet init`, and the one of its new address. -/
def alphaInitialToken : Invite := alpha.token "key-a" (inviterAt "10.0.10.1").network

def alphaMovedToken : Invite := alpha.token "key-a" alphaJoinsBack.config.network

/-- The address after the inviter's new one is assigned. -/
theorem gamma_assigned : assignAddress gamma.overflowChecks Config.default "10.0.10.3" =
    .ok "10.0.10.4" :=
  @assignAddress_next _ _ ⟨10, 0, 10, 3⟩ (by decide) (by decide)

/-- The join of a second node by the later token. -/
def gammaJoinsMoved : Join gamma .missing (.json alphaMovedToken) :=
  @Join.byToken gamma alpha .missing "key-a" "key-c" "10.0.10.4" _ Config.default rfl
    gamma_assigned rfl rfl

end Sample

/-- An inviter at 10.10.10.1 and its joiner are linked. -/
theorem linked_iff_sample :
    (∃ config' reverse', cmdJoin Sample.alpha (.parsed (Sample.inviterAt "10.10.10.1"))
        (.json Sample.betaJoins.reverse) = .ok (config', reverse') ∧
      Linked "key-a" "key-b" config' Sample.betaJoins.config) ↔
    "10.10.10.1" ∉ defaultAddresses ∧ ConfigFile.missing.established ≠ some "10.10.10.1" :=
  @linked_iff Sample.alpha Sample.alpha Sample.beta
    (Sample.inviterAt "10.10.10.1") _ _ _ _ _ _ rfl rfl rfl
    (cmdJoin_eq_ok.mpr ⟨Sample.betaJoins, rfl⟩) rfl rfl

/-- An inviter from `wolfnet init` moves to 10.0.10.3 in its reverse join, while the
joiner lists it at 10.0.10.1. -/
theorem inviter_moved :
    cmdInit Sample.alpha "10.0.10.1" = .ok (Sample.inviterAt "10.0.10.1") ∧
    cmdInvite Sample.alpha (.parsed (Sample.inviterAt "10.0.10.1")) =
      .ok (Sample.alpha.token "key-a" (Sample.inviterAt "10.0.10.1").network) ∧
    cmdJoin Sample.beta .missing (.json (Sample.alpha.token "key-a"
      (Sample.inviterAt "10.0.10.1").network)) =
      .ok (Sample.betaJoinsInitial.config, Sample.betaJoinsInitial.reverse) ∧
    cmdJoin Sample.alpha (.parsed (Sample.inviterAt "10.0.10.1"))
      (.json Sample.betaJoinsInitial.reverse) =
      .ok (Sample.alphaJoinsBack.config, Sample.alphaJoinsBack.reverse) ∧
    Sample.alphaJoinsBack.config.network.address = "10.0.10.3" ∧
    Sample.betaJoinsInitial.config.HasPeer "key-a" "10.0.10.1" ∧
    ¬ Linked "key-a" "key-b" Sample.alphaJoinsBack.config Sample.betaJoinsInitial.config := by
  refine ⟨rfl, rfl, cmdJoin_eq_ok.mpr ⟨_, rfl⟩, cmdJoin_eq_ok.mpr ⟨_, rfl⟩, rfl,
    Sample.betaJoinsInitial.hasPeer, fun linked => ?_⟩
  have unmoved := Sample.betaJoinsInitial.hasPeer.unique linked.joinerLists
  exact absurd unmoved (by decide)

end WolfNet
