import WolfNet.Commands.Link
import WolfNet.Semantics.Run

/-!
# The addresses of the nodes that join one inviter

A node without a config derives its address from the inviter's address in its token, as
the token says nothing about the nodes that joined before. The inviter's own address
changes once at most, in the reverse join of the first node, and then to an address that
leads to another one. So the nodes have distinct addresses exactly as long as no two of
their tokens carry the same inviter address.
-/

namespace WolfNet

open WolfNet.Semantics

/-- A node without a config that joins an inviter at `ip` is assigned the address. -/
def Assigned (ip address : String) : Prop :=
  ∃ overflowChecks, assignAddress overflowChecks Config.default ip = .ok address

/-- One inviter address assigns one address. -/
theorem Assigned.unique {ip address other : String} (first : Assigned ip address)
    (second : Assigned ip other) : address = other := by
  obtain ⟨_, found⟩ := first
  obtain ⟨_, found'⟩ := second
  obtain ⟨peer, octet, parsed, incremented, found⟩ := assignAddress_eq_ok.mp found
  obtain ⟨peer', octet', parsed', incremented', found'⟩ := assignAddress_eq_ok.mp found'
  obtain rfl : peer = peer' := Option.some.inj (parsed.symm.trans parsed')
  obtain rfl : octet = octet' := (increment_ok incremented).trans (increment_ok incremented').symm
  exact nextFree_agree found found'

/-- An address is assigned above the peer's, unless the peer's is at the very end. -/
theorem assignAddress_upward {overflowChecks : Bool} {config : Config} {peerIp address : String}
    {peer : Ipv4Addr} (parsed : Ipv4Addr.parse peerIp.toList = some peer) (below : peer.d ≤ 253)
    (assigned : assignAddress overflowChecks config peerIp = .ok address) :
    ∃ last, peer.d < last ∧ last ≤ 254 ∧ address = { peer with d := last }.toText := by
  obtain ⟨peer', first, parsed', incremented, found⟩ := assignAddress_eq_ok.mp assigned
  obtain rfl : peer = peer' := Option.some.inj (parsed.symm.trans parsed')
  rw [UInt8.le_iff_toNat_le] at below
  have : (253 : UInt8).toNat = 253 := rfl
  have : (254 : UInt8).toNat = 254 := rfl
  have next : first.toNat = peer.d.toNat + 1 :=
    increment_toNat (UInt8.le_iff_toNat_le.mpr (by omega)) incremented
  obtain ⟨last, above, top, same⟩ := nextFree_upward (UInt8.le_iff_toNat_le.mpr (by omega)) found
  rw [UInt8.le_iff_toNat_le] at above
  exact ⟨last, UInt8.lt_iff_toNat_lt.mpr (by omega), top, same⟩

/-- The candidates of a fresh node are free but for the inviter's address and the default one. -/
theorem isTaken_default {ip : String} {peer candidate : Ipv4Addr}
    (parsed : Ipv4Addr.parse ip.toList = some peer) (notPeer : candidate ≠ peer)
    (notDefault : candidate ≠ ⟨10, 0, 10, 1⟩) :
    isTaken Config.default ip candidate.toText = false := by
  have default : Config.default.network.address = (⟨10, 0, 10, 1⟩ : Ipv4Addr).toText := rfl
  rw [isTaken, default, Ipv4Addr.eq_toText parsed]
  simp [Config.default, Ipv4Addr.toText_inj, notPeer, notDefault]

/-- A fresh node is assigned an address above the inviter's. -/
theorem Assigned.above {ip address : String} {peer : Ipv4Addr}
    (parsed : Ipv4Addr.parse ip.toList = some peer) (below : peer.d ≤ 254)
    (assigned : Assigned ip address) :
    ∃ last, peer.d < last ∧ address = { peer with d := last }.toText := by
  by_cases top : peer.d = 254
  · have next : peer.d + 1 = 255 := by
      rw [top]
      rfl
    refine ⟨peer.d + 1, ?_, assigned.unique ⟨false, ?_⟩⟩
    · rw [next, top]
      decide
    · rw [Ipv4Addr.eq_toText parsed]
      refine assignAddress_next ?_ (isTaken_default peer.parse_toText
        (fun same => ?_) fun same => ?_)
      · rw [top]
        decide
      · have wraps : peer.d + 1 = peer.d := congrArg Ipv4Addr.d same
        rw [next, top] at wraps
        exact absurd wraps (by decide)
      · have wraps : peer.d + 1 = 1 := congrArg Ipv4Addr.d same
        rw [next] at wraps
        exact absurd wraps (by decide)
  · obtain ⟨overflowChecks, assigned⟩ := assigned
    have lower : peer.d ≤ 253 := by
      rw [UInt8.le_iff_toNat_le] at below ⊢
      have different : peer.d.toNat ≠ (254 : UInt8).toNat :=
        fun same => top (UInt8.toNat_inj.mp same)
      have : (253 : UInt8).toNat = 253 := rfl
      have : (254 : UInt8).toNat = 254 := rfl
      omega
    obtain ⟨last, above, _, same⟩ := assignAddress_upward parsed lower assigned
    exact ⟨last, above, same⟩

/-- Two inviter addresses that lead fresh nodes to different addresses. -/
def Apart (ip other : String) : Prop :=
  ∀ {address otherAddress}, Assigned ip address → Assigned other otherAddress →
    address ≠ otherAddress

/-- The octets of an address that is taken for unassigned, and the address behind it. -/
theorem default_peer {ip : String} (unassigned : ip ∈ defaultAddresses) :
    ∃ peer, Ipv4Addr.parse ip.toList = some peer ∧ peer.d ≤ 1 ∧
      Assigned ip { peer with d := peer.d + 1 }.toText := by
  rcases List.mem_pair.mp unassigned with rfl | rfl
  · exact ⟨⟨10, 0, 10, 1⟩, by decide, by decide, false,
      @assignAddress_next _ _ ⟨10, 0, 10, 1⟩ (by decide) (by decide)⟩
  · exact ⟨⟨0, 0, 0, 0⟩, by decide, by decide, false,
      @assignAddress_next _ _ ⟨0, 0, 0, 0⟩ (by decide) (by decide)⟩

/-- Where the first node joined an inviter without an own address, the reverse join gives
the inviter an address that is not taken for unassigned, and that leads elsewhere. -/
theorem reverse_moves {overflowChecks : Bool} {config : Config} {ip joined moved : String}
    (unassigned : ip ∈ defaultAddresses) (first : Assigned ip joined)
    (assigned : assignAddress overflowChecks config joined = .ok moved) :
    moved ∉ defaultAddresses ∧ Apart ip moved := by
  obtain ⟨peer, parsed, low, next⟩ := default_peer unassigned
  obtain rfl := first.unique next
  have joinedParsed := Ipv4Addr.parse_toText { peer with d := peer.d + 1 }
  rw [UInt8.le_iff_toNat_le] at low
  have : (1 : UInt8).toNat = 1 := rfl
  have : (253 : UInt8).toNat = 253 := rfl
  have : (254 : UInt8).toNat = 254 := rfl
  have succ : (peer.d + 1).toNat = peer.d.toNat + 1 := by
    rw [UInt8.toNat_add]
    omega
  obtain ⟨octet, above, top, rfl⟩ :=
    assignAddress_upward joinedParsed (UInt8.le_iff_toNat_le.mpr (by dsimp only; omega)) assigned
  rw [UInt8.lt_iff_toNat_lt] at above
  dsimp only at above top
  constructor
  · intro isDefault
    obtain ⟨other, otherParsed, otherLow, _⟩ := default_peer isDefault
    rw [Ipv4Addr.parse_toText, Option.some.injEq] at otherParsed
    rw [← otherParsed, UInt8.le_iff_toNat_le] at otherLow
    dsimp only at otherLow
    omega
  · intro address otherAddress assigned otherAssigned same
    obtain rfl := assigned.unique next
    obtain ⟨last, later, rfl⟩ := otherAssigned.above (Ipv4Addr.parse_toText _) top
    rw [Ipv4Addr.toText_inj, Ipv4Addr.mk.injEq] at same
    rw [UInt8.lt_iff_toNat_lt, ← same.2.2.2] at later
    dsimp only at later
    omega

/-- A node that joined: the inviter's address in its token, and its own. -/
structure Joined where
  ip : String
  address : String
deriving DecidableEq, Repr

/-- An inviter, the tokens it issued, the nodes that joined, and the reverse token that
it has not taken yet. -/
structure Network where
  inviter : ConfigFile
  tokens : List Invite
  joined : List Joined
  pending : Option Invite
deriving Repr

inductive Command where
  | invite (host : Host)
  | join (token : Invite) (host : Host)
  | reverse (host : Host)

/-- A node without a config joins by a token that was issued, once the reverse join of
the node before it is done. -/
inductive Step : Transition Network Command where
  | invite {network : Network} {host : Host} {token : Invite}
      (ran : cmdInvite host network.inviter = .ok token) :
      Step network (.invite host) { network with tokens := network.tokens ++ [token] }
  | join {network : Network} {host : Host} {token reverse : Invite} {ip : String} {config : Config}
      (issued : token ∈ network.tokens) (carries : token.ip = some ip)
      (completed : network.pending = none)
      (ran : cmdJoin host .missing (.json token) = .ok (config, reverse)) :
      Step network (.join token host)
        { network with
          joined := network.joined ++ [⟨ip, config.network.address⟩]
          pending := some reverse }
  | reverse {network : Network} {host : Host} {token reverse : Invite} {config : Config}
      (pending : network.pending = some token)
      (ran : cmdJoin host network.inviter (.json token) = .ok (config, reverse)) :
      Step network (.reverse host) { network with inviter := .parsed config, pending := none }

/-- An inviter at the start. -/
def Network.start (inviter : ConfigFile) : Network := ⟨inviter, [], [], none⟩

/-- The joined nodes have pairwise distinct addresses. -/
abbrev Network.Distinct (network : Network) : Prop := (network.joined.map Joined.address).Nodup

/-- No earlier node joined by a token with the same inviter address. -/
def OwnInviterAddress (network : Network) : Command → Prop
  | .join token _ => ∀ node ∈ network.joined, token.ip ≠ some node.ip
  | _ => True

/-- Where the inviter is at `first` still and does not count it as its own, one node has
joined at most. -/
structure Unsettled (first : String) (network : Network) : Prop where
  unestablished : network.inviter.established = none
  unmoved : ∀ config, network.inviter.load = .ok config →
    config.network.address = first ∧ first ∈ defaultAddresses
  joined : (network.joined = [] ∧ network.pending = none) ∨
    ∃ address token, network.joined = [⟨first, address⟩] ∧ network.pending = some token ∧
      token.ip = some address

/-- The inviter has an address of its own, the first one or one that leads elsewhere. -/
structure Settled (first : String) (network : Network) : Prop where
  established : ∃ address, network.inviter.established = some address ∧
    (address = first ∨ Apart first address)

/-- What the commands keep of a network whose inviter was at `first`. -/
structure Consistent (first : String) (network : Network) : Prop where
  phase : Unsettled first network ∨ Settled first network
  tokens : ∀ token ∈ network.tokens, ∀ ip, token.ip = some ip →
    ip = first ∨ network.inviter.established = some ip
  joined : ∀ node ∈ network.joined, Assigned node.ip node.address ∧
    (node.ip = first ∨ network.inviter.established = some node.ip)

section Steps

variable {first : String} {network next : Network}

/-- A token that the inviter issues carries its first address or its established one. -/
theorem Consistent.issues (consistent : Consistent first network) {host : Host} {token : Invite}
    (ran : cmdInvite host network.inviter = .ok token) :
    ∀ ip, token.ip = some ip → ip = first ∨ network.inviter.established = some ip := by
  obtain ⟨config, publicKey, loaded, _, rfl⟩ := cmdInvite_eq_ok.mp ran
  rintro ip carries
  obtain rfl : config.network.address = ip := Option.some.inj carries
  rcases consistent.phase with unsettled | settled
  · exact .inl (unsettled.unmoved config loaded).1
  · obtain ⟨address, established, _⟩ := settled.established
    obtain ⟨config', isParsed, rfl, _⟩ := ConfigFile.established_eq_some established
    rw [isParsed] at loaded
    rw [← Except.ok.inj loaded]
    exact .inr established

/-- A node without a config is assigned its address from the token's, and its reverse
token carries it. -/
theorem join_fresh {host : Host} {token reverse : Invite} {ip : String} {config : Config}
    (carries : token.ip = some ip)
    (ran : cmdJoin host .missing (.json token) = .ok (config, reverse)) :
    Assigned ip config.network.address ∧ reverse.ip = some config.network.address := by
  obtain ⟨join, same⟩ := cmdJoin_eq_ok.mp ran
  obtain ⟨rfl, rfl⟩ := Prod.mk.inj same
  have given := join.hasIp
  rw [← Token.json.inj join.decoded, carries] at given
  obtain rfl := Option.some.inj given
  have assigned := join.address_assigned rfl
  rw [← Except.ok.inj join.isLoaded] at assigned
  exact ⟨⟨_, assigned⟩, rfl⟩

/-- The reverse join settles the inviter. -/
theorem Consistent.reverses (consistent : Consistent first network) {host : Host}
    {token reverse : Invite} {config : Config} (pending : network.pending = some token)
    (ran : cmdJoin host network.inviter (.json token) = .ok (config, reverse)) :
    ∃ address, (ConfigFile.parsed config).established = some address ∧
      (address = first ∨ Apart first address) ∧
      ∀ ip, network.inviter.established = some ip → ip = address := by
  obtain ⟨join, same⟩ := cmdJoin_eq_ok.mp ran
  obtain ⟨rfl, rfl⟩ := Prod.mk.inj same
  rcases consistent.phase with unsettled | settled
  · have own := join.address_assigned unsettled.unestablished
    rcases unsettled.joined with ⟨_, none⟩ | ⟨address, token', joined, pending', carries⟩
    · rw [none] at pending
      cases pending
    · obtain rfl : token' = token := Option.some.inj (pending'.symm.trans pending)
      have given := join.hasIp
      rw [← Token.json.inj join.decoded, carries] at given
      obtain rfl : address = join.ip := Option.some.inj given
      have node := (consistent.joined ⟨first, join.ip⟩
        (by rw [joined]; exact List.mem_singleton_self _)).1
      obtain ⟨assigned, apart⟩ := reverse_moves (unsettled.unmoved _ join.isLoaded).2 node own
      refine ⟨join.address, ConfigFile.established_parsed assigned, .inr apart, ?_⟩
      intro ip established
      rw [unsettled.unestablished] at established
      cases established
  · obtain ⟨address, established, leads⟩ := settled.established
    obtain ⟨_, _, _, assigned⟩ := ConfigFile.established_eq_some established
    obtain rfl := join.address_established established
    refine ⟨join.address, ConfigFile.established_parsed assigned, leads, ?_⟩
    intro ip established'
    exact Option.some.inj (established'.symm.trans established)

/-- The commands keep a network consistent. -/
theorem Consistent.step (consistent : Consistent first network) {command : Command}
    (step : Step network command next) : Consistent first next := by
  cases step with
  | invite ran =>
      refine ⟨?_, ?_, consistent.joined⟩
      · exact consistent.phase.imp (fun unsettled =>
          ⟨unsettled.1, unsettled.2, unsettled.3⟩) fun settled => ⟨settled.1⟩
      · intro token member
        rcases List.mem_append.mp member with earlier | new
        · exact consistent.tokens token earlier
        · rw [List.mem_singleton.mp new]
          exact consistent.issues ran
  | @join _ host token reverse ip config issued carries completed ran =>
      obtain ⟨assigned, reverseCarries⟩ := join_fresh carries ran
      have known := consistent.tokens token issued ip carries
      refine ⟨?_, consistent.tokens, ?_⟩
      · rcases consistent.phase with unsettled | settled
        · left
          have atFirst : ip = first := known.resolve_right
            (by rw [unsettled.unestablished]; exact nofun)
          refine ⟨unsettled.unestablished, unsettled.unmoved, .inr ?_⟩
          rcases unsettled.joined with ⟨none, _⟩ | ⟨_, token', _, pending, _⟩
          · exact ⟨_, reverse, by rw [none, atFirst]; rfl, rfl, reverseCarries⟩
          · rw [completed] at pending
            cases pending
        · exact .inr ⟨settled.established⟩
      · intro node member
        rcases List.mem_append.mp member with earlier | new
        · exact consistent.joined node earlier
        · rw [List.mem_singleton.mp new]
          exact ⟨assigned, known⟩
  | reverse pending ran =>
      obtain ⟨address, established, leads, same⟩ := consistent.reverses pending ran
      refine ⟨.inr ⟨address, established, leads⟩, ?_, ?_⟩
      · intro token member ip carries
        refine (consistent.tokens token member ip carries).imp_right fun before => ?_
        rw [same ip before]
        exact established
      · intro node member
        obtain ⟨assigned, known⟩ := consistent.joined node member
        refine ⟨assigned, known.imp_right fun before => ?_⟩
        rw [same _ before]
        exact established

/-- The address that an inviter gives in its first tokens. -/
def ConfigFile.address (file : ConfigFile) : String :=
  match file.load with
  | .ok config => config.network.address
  | .error _ => ""

/-- A network is consistent at the start. -/
theorem Consistent.start (inviter : ConfigFile) : Consistent inviter.address (.start inviter) := by
  refine ⟨?_, fun _ member => (nomatch member), fun _ member => (nomatch member)⟩
  cases kept : inviter.established with
  | none =>
      refine .inl ⟨kept, ?_, .inl ⟨rfl, rfl⟩⟩
      intro config loaded
      have same : inviter.address = config.network.address := by
        rw [ConfigFile.address, show inviter.load = .ok config from loaded]
      refine ⟨same.symm, ?_⟩
      rw [same]
      cases inviter with
      | missing =>
          cases loaded
          decide
      | unreadable error => cases loaded
      | parsed config =>
          cases loaded
          by_contra assigned
          rw [@ConfigFile.established_parsed config assigned] at kept
          cases kept
  | some address =>
      obtain ⟨config, rfl, same, _⟩ := ConfigFile.established_eq_some kept
      exact .inr ⟨address, kept, .inl same.symm⟩

/-- Nodes that joined at different inviter addresses have different addresses. -/
theorem Consistent.apart (consistent : Consistent first network) {node other : Joined}
    (member : node ∈ network.joined) (otherMember : other ∈ network.joined)
    (different : node.ip ≠ other.ip) :
    node.address ≠ other.address := by
  obtain ⟨assigned, known⟩ := consistent.joined node member
  obtain ⟨otherAssigned, otherKnown⟩ := consistent.joined other otherMember
  have leads : ∀ {ip}, network.inviter.established = some ip → ip ≠ first → Apart first ip := by
    intro ip established moved
    rcases consistent.phase with unsettled | settled
    · rw [unsettled.unestablished] at established
      cases established
    · obtain ⟨address, established', leads⟩ := settled.established
      obtain rfl : ip = address := Option.some.inj (established.symm.trans established')
      exact leads.resolve_left moved
  rcases known with atFirst | established
  · rcases otherKnown with otherFirst | otherEstablished
    · exact absurd (atFirst.trans otherFirst.symm) different
    · rw [atFirst] at assigned different
      exact leads otherEstablished different.symm assigned otherAssigned
  · rcases otherKnown with otherFirst | otherEstablished
    · rw [otherFirst] at otherAssigned different
      exact (leads established different otherAssigned assigned).symm
    · exact absurd (Option.some.inj (established.symm.trans otherEstablished)) different

/-- Different inviter addresses give distinct addresses. -/
theorem Consistent.distinct (consistent : Consistent first network)
    (ips : (network.joined.map Joined.ip).Nodup) : network.Distinct := by
  rw [List.Nodup, List.pairwise_map] at ips
  rw [Network.Distinct, List.Nodup, List.pairwise_map]
  exact ips.imp_of_mem fun member otherMember different =>
    consistent.apart member otherMember different

/-- What the runs that use every inviter address once keep. -/
structure Unrepeated (first : String) (network : Network) : Prop where
  consistent : Consistent first network
  ips : (network.joined.map Joined.ip).Nodup

/-- Unrepeated inviter addresses stay so while each joiner has its own. -/
theorem Unrepeated.step (unrepeated : Unrepeated first network) {command : Command}
    (own : OwnInviterAddress network command) (step : Step network command next) :
    Unrepeated first next := by
  refine ⟨unrepeated.consistent.step step, ?_⟩
  cases step with
  | invite ran => exact unrepeated.ips
  | reverse pending ran => exact unrepeated.ips
  | join issued carries completed ran =>
      rw [List.map_append]
      refine List.nodup_append.mpr ⟨unrepeated.ips, List.nodup_singleton _, ?_⟩
      intro ip earlier other added same
      obtain ⟨node, member, rfl⟩ := List.mem_map.mp earlier
      rw [List.mem_singleton.mp added] at same
      exact own node member (carries.trans (congrArg some same.symm))

/-- A second node at one inviter address is assigned the address of the first. -/
theorem Unrepeated.own (unrepeated : Unrepeated first network) {command : Command}
    (step : Step network command next) (distinct : next.Distinct) :
    OwnInviterAddress network command := by
  cases step with
  | invite ran => trivial
  | reverse pending ran => trivial
  | join issued carries completed ran =>
      intro node member same
      rw [carries] at same
      have assigned := (join_fresh carries ran).1
      rw [Option.some.inj same] at assigned
      have taken := assigned.unique (unrepeated.consistent.joined node member).1
      rw [Network.Distinct, List.map_append, List.nodup_append] at distinct
      exact distinct.2.2 _ (List.mem_map_of_mem member) _ (List.mem_singleton_self _) taken.symm

end Steps

/-- In a run of invites, joins and reverse joins, the nodes that joined always have
distinct addresses exactly when no two joined by tokens with one inviter address. -/
theorem addresses_distinct_iff {inviter : ConfigFile} {last : Network}
    {trace : List (Network × Command)} (run : Run Step (.start inviter) trace last) :
    Always Network.Distinct trace last ↔ Throughout OwnInviterAddress trace := by
  have initially : Unrepeated inviter.address (.start inviter) := ⟨.start inviter, List.nodup_nil⟩
  refine run.always_iff ?_ ?_ ?_ initially
  · exact fun unrepeated => unrepeated.consistent.distinct unrepeated.ips
  · exact fun unrepeated own step => unrepeated.step own step
  · exact fun unrepeated step distinct => unrepeated.own step distinct

namespace Sample

/-- One node has joined, and its reverse join is done. -/
def afterBeta : Network where
  inviter := .parsed alphaKeeps.config
  tokens := [alphaToken]
  joined := [⟨"10.10.10.1", "10.10.10.2"⟩]
  pending := none

/-- The inviter when it has issued its token. -/
def afterInvite : Network := ⟨.parsed (inviterAt "10.10.10.1"), [alphaToken], [], none⟩

/-- The first node has joined, and its reverse token is not taken yet. -/
def afterJoin : Network :=
  ⟨.parsed (inviterAt "10.10.10.1"), [alphaToken], [⟨"10.10.10.1", "10.10.10.2"⟩],
    some betaJoins.reverse⟩

def betaTrace : List (Network × Command) :=
  [(.start (.parsed (inviterAt "10.10.10.1")), .invite alpha), (afterInvite, .join alphaToken beta),
    (afterJoin, .reverse alpha)]

/-- The first node joins. -/
theorem betaRun : Run Step (.start (.parsed (inviterAt "10.10.10.1"))) betaTrace afterBeta := by
  have invited : Run Step (.start (.parsed (inviterAt "10.10.10.1")))
    (betaTrace.take 1) afterInvite :=
    Run.refl.step (.invite rfl)
  have joined : Run Step (.start (.parsed (inviterAt "10.10.10.1"))) (betaTrace.take 2) afterJoin :=
    invited.step (.join (List.mem_singleton_self _) rfl rfl (cmdJoin_eq_ok.mpr ⟨betaJoins, rfl⟩))
  exact joined.step (.reverse rfl (cmdJoin_eq_ok.mpr ⟨alphaKeeps, rfl⟩))

/-- Another node has joined by the same token. -/
def afterGamma : Network :=
  { afterBeta with
    joined := [⟨"10.10.10.1", "10.10.10.2"⟩, ⟨"10.10.10.1", "10.10.10.2"⟩]
    pending := some gammaJoins.reverse }

/-- The inviter has moved in its first reverse join. -/
def moved : Network :=
  ⟨.parsed alphaJoinsBack.config, [alphaInitialToken], [⟨"10.0.10.1", "10.0.10.2"⟩], none⟩

/-- It has issued another token. -/
def movedInvite : Network := { moved with tokens := [alphaInitialToken, alphaMovedToken] }

/-- Another node has joined by that token. -/
def movedGamma : Network :=
  { movedInvite with
    joined := [⟨"10.0.10.1", "10.0.10.2"⟩, ⟨"10.0.10.3", "10.0.10.4"⟩]
    pending := some gammaJoinsMoved.reverse }

/-- Two nodes join, one before and one after the inviter's address has changed. -/
def movedTrace : List (Network × Command) :=
  [(.start (.parsed (inviterAt "10.0.10.1")), .invite alpha),
    (⟨.parsed (inviterAt "10.0.10.1"), [alphaInitialToken], [], none⟩, .join alphaInitialToken beta),
    (⟨.parsed (inviterAt "10.0.10.1"), [alphaInitialToken], [⟨"10.0.10.1", "10.0.10.2"⟩],
      some betaJoinsInitial.reverse⟩, .reverse alpha),
    (moved, .invite alpha), (movedInvite, .join alphaMovedToken gamma)]

/-- Both nodes join. -/
theorem movedRun :
    Run Step (.start (.parsed (inviterAt "10.0.10.1"))) movedTrace movedGamma := by
  have invited : Run Step (.start (.parsed (inviterAt "10.0.10.1"))) (movedTrace.take 1) _ :=
    Run.refl.step (.invite rfl)
  have joined : Run Step (.start (.parsed (inviterAt "10.0.10.1"))) (movedTrace.take 2) _ :=
    invited.step (.join (List.mem_singleton_self _) rfl rfl (cmdJoin_eq_ok.mpr ⟨betaJoinsInitial, rfl⟩))
  have reversed : Run Step (.start (.parsed (inviterAt "10.0.10.1"))) (movedTrace.take 3) moved :=
    joined.step (.reverse rfl (cmdJoin_eq_ok.mpr ⟨alphaJoinsBack, rfl⟩))
  have invitedAgain : Run Step (.start (.parsed (inviterAt "10.0.10.1"))) (movedTrace.take 4)
    movedInvite := reversed.step (.invite rfl)
  apply invitedAgain.step
  exact .join (List.mem_cons_of_mem _ (List.mem_singleton_self _)) rfl rfl
    (cmdJoin_eq_ok.mpr ⟨gammaJoinsMoved, rfl⟩)

end Sample

/-- Two nodes that joined by tokens with different inviter addresses have different addresses. -/
theorem addresses_distinct_iff_sample :
    Sample.movedGamma.joined.map Joined.ip = ["10.0.10.1", "10.0.10.3"] ∧
    Throughout OwnInviterAddress Sample.movedTrace ∧
    Always Network.Distinct Sample.movedTrace Sample.movedGamma := by
  have moved : OwnInviterAddress Sample.movedInvite
      (.join Sample.alphaMovedToken Sample.gamma) := by
    intro node member same
    cases List.mem_singleton.mp member
    exact absurd same (by decide)
  have own : Throughout OwnInviterAddress Sample.movedTrace := by
    unfold Throughout Sample.movedTrace
    simp only [List.forall_mem_cons]
    refine ⟨trivial, ?_, trivial, trivial, moved, List.forall_mem_nil _⟩
    exact List.forall_mem_nil _
  exact ⟨rfl, own, (addresses_distinct_iff Sample.movedRun).mpr own⟩

/-- Two nodes without a config join by one token, the first one's reverse join being
done: both are 10.10.10.2. -/
theorem address_assigned_twice :
    Run Step (.start (.parsed (Sample.inviterAt "10.10.10.1")))
      (Sample.betaTrace ++ [(Sample.afterBeta,
        .join Sample.alphaToken Sample.gamma)]) Sample.afterGamma ∧
    ¬ Sample.afterGamma.Distinct := by
  refine ⟨Sample.betaRun.step ?_, by decide⟩
  exact .join (List.mem_singleton_self _) rfl rfl (cmdJoin_eq_ok.mpr ⟨Sample.gammaJoins, rfl⟩)

end WolfNet
