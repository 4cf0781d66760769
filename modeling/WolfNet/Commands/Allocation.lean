import WolfNet.Commands.Addresses

/-!
# The search for a free address

A join without an own address tries the addresses after the inviter's, up to 254. It never looks
below the inviter's address, and an inviter at 254 or 255 starts it beyond the last one:
`picksFree_iff` says for which inviters and configs the search picks a valid address whenever
there is one.
-/

namespace WolfNet

/-- The last octets that a search tries from `octet` on, where it does not start at 255. -/
def octetsFrom (octet : UInt8) : List UInt8 :=
  (List.range' octet.toNat (255 - octet.toNat)).map UInt8.ofNat

/-- From 255 on no octet is left. -/
theorem octetsFrom_top : octetsFrom 255 = [] := rfl

/-- From a lower octet on, it comes first and its successors after it. -/
theorem octetsFrom_cons {octet next : UInt8} (below : octet ≤ 254)
    (succ : next.toNat = octet.toNat + 1) : octetsFrom octet = octet :: octetsFrom next := by
  rw [UInt8.le_iff_toNat_le] at below
  have : (254 : UInt8).toNat = 254 := rfl
  have count : 255 - octet.toNat = (255 - next.toNat) + 1 := by omega
  rw [octetsFrom, octetsFrom, count, List.range'_succ, List.map_cons, UInt8.ofNat_toNat, succ]

/-- The octets that are searched are those from the first on, up to 254. -/
theorem mem_octetsFrom {octet last : UInt8} :
    last ∈ octetsFrom octet ↔ octet ≤ last ∧ last ≤ 254 := by
  have : (254 : UInt8).toNat = 254 := rfl
  rw [octetsFrom, List.mem_map, UInt8.le_iff_toNat_le, UInt8.le_iff_toNat_le]
  constructor
  · rintro ⟨value, member, rfl⟩
    rw [List.mem_range'_1] at member
    have small : value < UInt8.size := by
      rw [UInt8.size]
      omega
    rw [UInt8.toNat_ofNat_of_lt' small]
    omega
  · rintro ⟨above, top⟩
    exact ⟨last.toNat, List.mem_range'_1.mpr (by omega), UInt8.ofNat_toNat⟩

/-- The addresses of a peer's subnet with the last octets. -/
def Ipv4Addr.texts (peer : Ipv4Addr) (octets : List UInt8) : List String :=
  octets.map fun octet => { peer with d := octet }.toText

/-- No octets make no addresses. -/
@[simp] theorem Ipv4Addr.texts_nil (peer : Ipv4Addr) : peer.texts [] = [] := rfl

/-- Each octet makes an address of its own. -/
@[simp] theorem Ipv4Addr.texts_cons (peer : Ipv4Addr) (octet : UInt8) (octets : List UInt8) :
    peer.texts (octet :: octets) = { peer with d := octet }.toText :: peer.texts octets := rfl

/-- How a search ends that goes on to 254. -/
def firstFree (taken : String → Bool) (addresses : List String) : Except Exit String :=
  (addresses.find? fun address => !taken address).elim
    (.error (.error "No available IPs in the subnet")) .ok

section FirstFree

variable {taken : String → Bool} {address : String} {addresses : List String}

/-- The first address is found where it is free. -/
theorem firstFree_free (free : taken address = false) :
    firstFree taken (address :: addresses) = .ok address := by
  simp [firstFree, free]

/-- A taken address is passed over. -/
theorem firstFree_taken (occupied : taken address = true) :
    firstFree taken (address :: addresses) = firstFree taken addresses := by
  simp [firstFree, occupied]

/-- The search finds the first free address of the list. -/
theorem firstFree_eq_ok :
    firstFree taken addresses = .ok address ↔
      addresses.find? (fun address => !taken address) = some address := by
  cases found : addresses.find? fun address => !taken address with
  | none => simp [firstFree, found]
  | some first => simp [firstFree, found]

/-- Where all addresses are taken, the search says so. -/
theorem firstFree_exhausted (exhausted : ∀ address ∈ addresses, taken address = true) :
    firstFree taken addresses = .error (.error "No available IPs in the subnet") := by
  have none : addresses.find? (fun address => !taken address) = none := by
    simpa using exhausted
  rw [firstFree, none, Option.elim_none]

/-- The search fails only where all addresses are taken. -/
theorem firstFree_error {exit : Exit} (failed : firstFree taken addresses = .error exit) :
    exit = .error "No available IPs in the subnet" ∧
      ∀ address ∈ addresses, taken address = true := by
  rw [firstFree] at failed
  cases found : addresses.find? fun address => !taken address with
  | none =>
      rw [found] at failed
      exact ⟨(Except.error.inj failed).symm, by simpa using found⟩
  | some first =>
      rw [found] at failed
      cases failed

end FirstFree

/-- A search that does not start at 255 goes on to 254, and no addition overflows. -/
theorem nextFree_eq {overflowChecks : Bool} {taken : String → Bool} {peer : Ipv4Addr}
    {octet : UInt8} (below : octet ≤ 254) :
    nextFree overflowChecks taken peer octet = firstFree taken (peer.texts (octetsFrom octet)) := by
  have : (254 : UInt8).toNat = 254 := rfl
  have : (255 : UInt8).toNat = 255 := rfl
  have bound := UInt8.le_iff_toNat_le.mp below
  fun_induction nextFree overflowChecks taken peer octet with
  | case1 octet candidate free =>
      have succ : (octet + 1).toNat = octet.toNat + 1 :=
        increment_toNat below (increment_of_lt false (by omega))
      rw [octetsFrom_cons below succ]
      exact (firstFree_free (by simpa using free)).symm
  | case2 octet candidate occupied exit overflows =>
      rw [increment_of_lt overflowChecks (by omega)] at overflows
      cases overflows
  | case3 octet candidate occupied next incremented above =>
      have succ := increment_toNat below incremented
      have top : next = 255 := by
        rw [GT.gt, UInt8.lt_iff_toNat_lt] at above
        have := next.toNat_lt
        exact UInt8.toNat_inj.mp (by omega)
      rw [octetsFrom_cons below succ, top, octetsFrom_top]
      exact (firstFree_exhausted (by simpa using occupied)).symm
  | case4 octet candidate occupied next incremented bounded ih =>
      have succ := increment_toNat below incremented
      have inside : next ≤ 254 := UInt8.not_lt.mp bounded
      rw [ih inside (UInt8.le_iff_toNat_le.mp inside), octetsFrom_cons below succ]
      exact (firstFree_taken (by simpa using occupied)).symm

/-- What a join's search does when it starts below 255. -/
theorem assignAddress_eq {overflowChecks : Bool} {config : Config} {peerIp : String}
    {peer : Ipv4Addr} (parsed : Ipv4Addr.parse peerIp.toList = some peer) (below : peer.d ≤ 253) :
    assignAddress overflowChecks config peerIp =
      firstFree (isTaken config peerIp) (peer.texts (octetsFrom (peer.d + 1))) := by
  have : (253 : UInt8).toNat = 253 := rfl
  have : (254 : UInt8).toNat = 254 := rfl
  rw [UInt8.le_iff_toNat_le] at below
  have incremented := increment_of_lt overflowChecks (by omega : peer.d.toNat < 255)
  have succ := increment_toNat (UInt8.le_iff_toNat_le.mpr (by omega)) incremented
  rw [← @nextFree_eq overflowChecks _ _ _ (UInt8.le_iff_toNat_le.mpr (by omega))]
  simp only [assignAddress, parsed, required, incremented, bind, Except.bind]

/-- Above 253 there are two octets left. -/
theorem above_253 {octet : UInt8} (above : ¬ octet ≤ 253) : octet = 254 ∨ octet = 255 := by
  have : (253 : UInt8).toNat = 253 := rfl
  have : (254 : UInt8).toNat = 254 := rfl
  have : (255 : UInt8).toNat = 255 := rfl
  have small := octet.toNat_lt
  rw [UInt8.le_iff_toNat_le] at above
  rw [← UInt8.toNat_inj, ← UInt8.toNat_inj]
  omega

/-- An inviter at 254 starts the search at 255. -/
theorem assignAddress_254 {overflowChecks : Bool} {config : Config} {peerIp : String}
    {peer : Ipv4Addr} (parsed : Ipv4Addr.parse peerIp.toList = some peer) (last : peer.d = 254) :
    assignAddress overflowChecks config peerIp =
      nextFree overflowChecks (isTaken config peerIp) peer 255 := by
  simp [assignAddress, parsed, required, increment, last, bind, Except.bind]

/-- An inviter at 255 starts it at 0, or the addition overflows. -/
theorem assignAddress_255 {overflowChecks : Bool} {config : Config} {peerIp : String}
    {peer : Ipv4Addr} (parsed : Ipv4Addr.parse peerIp.toList = some peer) (top : peer.d = 255) :
    assignAddress overflowChecks config peerIp =
      if overflowChecks then .error .overflow
      else nextFree overflowChecks (isTaken config peerIp) peer 0 := by
  cases overflowChecks with
  | true => simp [assignAddress, parsed, required, increment, top, bind, Except.bind]
  | false => simp [assignAddress, parsed, required, increment, top, bind, Except.bind]

/-- A search from 255 goes on at 0 or overflows. -/
theorem nextFree_255 {overflowChecks : Bool} {taken : String → Bool} {peer : Ipv4Addr}
    (occupied : taken { peer with d := 255 }.toText = true) :
    nextFree overflowChecks taken peer 255 =
      if overflowChecks then .error .overflow
      else firstFree taken (peer.texts (octetsFrom 0)) := by
  rw [nextFree, occupied]
  cases overflowChecks with
  | true => simp [increment]
  | false => simp [increment, nextFree_eq]

/-- The addresses that are tried above a peer's. -/
theorem mem_texts_above {peer : Ipv4Addr} {address : String} (below : peer.d ≤ 253) :
    address ∈ peer.texts (octetsFrom (peer.d + 1)) ↔
      ∃ last, peer.d < last ∧ last ≤ 254 ∧ address = { peer with d := last }.toText := by
  have : (253 : UInt8).toNat = 253 := rfl
  have : (254 : UInt8).toNat = 254 := rfl
  rw [UInt8.le_iff_toNat_le] at below
  have succ := increment_toNat (UInt8.le_iff_toNat_le.mpr (by omega))
    (increment_of_lt false (by omega : peer.d.toNat < 255))
  rw [Ipv4Addr.texts, List.mem_map]
  constructor
  · rintro ⟨last, member, rfl⟩
    obtain ⟨above, top⟩ := mem_octetsFrom.mp member
    rw [UInt8.le_iff_toNat_le] at above
    exact ⟨last, UInt8.lt_iff_toNat_lt.mpr (by omega), top, rfl⟩
  · rintro ⟨last, above, top, rfl⟩
    rw [UInt8.lt_iff_toNat_lt] at above
    exact ⟨last, mem_octetsFrom.mpr ⟨UInt8.le_iff_toNat_le.mpr (by omega), top⟩, rfl⟩

/-- An address is taken by the inviting peer, another peer or the node itself. -/
theorem isTaken_iff {config : Config} {peerIp candidate : String} :
    isTaken config peerIp candidate = true ↔
      candidate = peerIp ∨ (∃ other ∈ config.peers, other.allowedIp = candidate) ∨
      candidate = config.network.address := by
  simp [isTaken, or_assoc]

/-- The inviting peer's own address is taken. -/
theorem isTaken_peer {config : Config} {peer : Ipv4Addr} {last : UInt8} (same : last = peer.d) :
    isTaken config peer.toText { peer with d := last }.toText = true := by
  rw [same]
  exact isTaken_iff.mpr (.inl rfl)

/-- A join of the config picks a valid free address whenever there is one, and no addition
overflows. -/
structure PicksFree (file : ConfigFile) (config : Config) (peerIp : String) (peer : Ipv4Addr) :
    Prop where
  noOverflow : ∀ overflowChecks, ownAddress overflowChecks file config peerIp ≠ .error .overflow
  valid : ∀ overflowChecks address,
    ownAddress overflowChecks file config peerIp = .ok address →
      (∃ last, 1 ≤ last ∧ last ≤ 254 ∧ address = { peer with d := last }.toText) ∧
      address ≠ peerIp ∧ ∀ other ∈ config.peers, other.allowedIp ≠ address
  exhausted : ∀ overflowChecks,
    ownAddress overflowChecks file config peerIp =
        .error (.error "No available IPs in the subnet") →
      ∀ last, 1 ≤ last → last ≤ 254 →
        { peer with d := last }.toText ≠ config.network.address →
        { peer with d := last }.toText = peerIp ∨
        ∃ other ∈ config.peers, other.allowedIp = { peer with d := last }.toText

/-- The inviter is below 254, and there is a free address above it or none below it. -/
structure FreeAbove (config : Config) (peerIp : String) (peer : Ipv4Addr) : Prop where
  below : peer.d ≤ 253
  reached : (∃ last, peer.d < last ∧ last ≤ 254 ∧
      isTaken config peerIp { peer with d := last }.toText = false) ∨
    ∀ last, 1 ≤ last → last < peer.d →
      isTaken config peerIp { peer with d := last }.toText = true

section Unestablished

variable {file : ConfigFile} {config : Config} {peerIp : String} {peer : Ipv4Addr}

/-- Without an established address, one is assigned. -/
theorem ownAddress_assigned (loaded : file.load = .ok config)
    (unestablished : file.established = none) (overflowChecks : Bool) :
    ownAddress overflowChecks file config peerIp = assignAddress overflowChecks config peerIp := by
  rw [ownAddress_eq loaded, unestablished]

/-- Where an address above the inviting peer's is free, the join picks a free one. -/
theorem FreeAbove.picksFree (free : FreeAbove config peerIp peer) (loaded : file.load = .ok config)
    (unestablished : file.established = none)
    (parsed : Ipv4Addr.parse peerIp.toList = some peer) :
    PicksFree file config peerIp peer := by
  have search : ∀ overflowChecks, ownAddress overflowChecks file config peerIp =
      firstFree (isTaken config peerIp) (peer.texts (octetsFrom (peer.d + 1))) := by
    intro overflowChecks
    rw [ownAddress_assigned loaded unestablished, assignAddress_eq parsed free.below]
  constructor
  · intro overflowChecks overflows
    rw [search] at overflows
    exact absurd (firstFree_error overflows).1 (by simp)
  · intro overflowChecks address picked
    rw [search, firstFree_eq_ok] at picked
    obtain ⟨last, above, top, same⟩ :=
      (mem_texts_above free.below).mp (List.mem_of_find?_eq_some picked)
    have untaken := List.find?_some picked
    rw [Bool.not_eq_true', ← Bool.not_eq_true, isTaken_iff, not_or, not_or] at untaken
    refine ⟨⟨last, ?_, top, same⟩, untaken.1, fun other member taken => ?_⟩
    · rw [UInt8.lt_iff_toNat_lt] at above
      rw [UInt8.le_iff_toNat_le]
      exact Nat.succ_le_of_lt (Nat.zero_lt_of_lt above)
    · exact untaken.2.1 ⟨other, member, taken⟩
  · intro overflowChecks failed last positive top notOwn
    rw [search] at failed
    have exhausted : ∀ last, peer.d < last → last ≤ 254 →
        isTaken config peerIp { peer with d := last }.toText = true := fun last above top =>
      (firstFree_error failed).2 _ ((mem_texts_above free.below).mpr ⟨last, above, top, rfl⟩)
    have taken : isTaken config peerIp { peer with d := last }.toText = true := by
      rcases Nat.lt_trichotomy last.toNat peer.d.toNat with lower | inviter | above
      · rcases free.reached with ⟨other, above, otherTop, untaken⟩ | complete
        · rw [exhausted other above otherTop] at untaken
          cases untaken
        · exact complete last positive (UInt8.lt_iff_toNat_lt.mpr lower)
      · rw [Ipv4Addr.eq_toText parsed]
        exact isTaken_peer (UInt8.toNat_inj.mp inviter)
      · exact exhausted last (UInt8.lt_iff_toNat_lt.mpr above) top
    rcases isTaken_iff.mp taken with inviter | used | own
    · exact .inl inviter
    · exact .inr used
    · exact absurd own notOwn

/-- An inviter at 254 or 255 leads to the address 255, or to an overflow. -/
theorem PicksFree.below (picks : PicksFree file config peerIp peer)
    (loaded : file.load = .ok config) (unestablished : file.established = none)
    (parsed : Ipv4Addr.parse peerIp.toList = some peer) : peer.d ≤ 253 := by
  by_contra above
  have overflow := picks.noOverflow true
  rw [ownAddress_assigned loaded unestablished] at overflow
  rcases above_253 above with last | top
  · have search := @assignAddress_254 true config _ _ parsed last
    cases free : isTaken config peerIp { peer with d := 255 }.toText with
    | true => exact overflow (search.trans (nextFree_255 free))
    | false =>
        have assigned := (ownAddress_assigned loaded unestablished true).trans
          (search.trans (nextFree_free free))
        obtain ⟨⟨last, _, low, same⟩, _⟩ := picks.valid true _ assigned
        rw [Ipv4Addr.toText_inj, Ipv4Addr.mk.injEq] at same
        rw [← same.2.2.2] at low
        exact absurd low (by decide)
  · exact overflow (assignAddress_255 parsed top)

/-- For a config without an own address, a join picks a valid free address whenever there is one
exactly when the inviter is below 254, and no free address is only below it. -/
theorem picksFree_iff (loaded : file.load = .ok config) (unestablished : file.established = none)
    (parsed : Ipv4Addr.parse peerIp.toList = some peer) :
    PicksFree file config peerIp peer ↔ FreeAbove config peerIp peer := by
  constructor
  · intro picks
    have below := picks.below loaded unestablished parsed
    refine ⟨below, ?_⟩
    by_cases exhausted : ∀ address ∈ peer.texts (octetsFrom (peer.d + 1)),
        isTaken config peerIp address = true
    · right
      intro last positive lower
      have failed : ownAddress true file config peerIp =
          .error (.error "No available IPs in the subnet") := by
        rw [ownAddress_assigned loaded unestablished, assignAddress_eq parsed below,
          firstFree_exhausted exhausted]
      have top : last ≤ 254 :=
        UInt8.le_trans (UInt8.le_of_lt lower) (UInt8.le_trans below (by decide))
      by_cases own : { peer with d := last }.toText = config.network.address
      · exact isTaken_iff.mpr (.inr (.inr own))
      · rcases picks.exhausted true failed last positive top own with inviter | used
        · exact isTaken_iff.mpr (.inl inviter)
        · exact isTaken_iff.mpr (.inr (.inl used))
    · left
      rw [not_forall₂] at exhausted
      obtain ⟨address, member, free⟩ := exhausted
      obtain ⟨last, above, top, rfl⟩ := (mem_texts_above below).mp member
      exact ⟨last, above, top, Bool.eq_false_iff.mpr free⟩
  · exact fun free => free.picksFree loaded unestablished parsed

end Unestablished

/-- A node without a config picks a free address from an inviter at 10.10.10.1. -/
theorem picksFree_iff_sample :
    PicksFree .missing Config.default "10.10.10.1" ⟨10, 10, 10, 1⟩ ↔
      FreeAbove Config.default "10.10.10.1" ⟨10, 10, 10, 1⟩ :=
  picksFree_iff rfl rfl (by decide)

/-- A config without an own address, and a peer at 10.10.10.254. -/
def Sample.lastTaken : Config :=
  { Config.default with peers := [⟨"key-a", none, "10.10.10.254", none⟩] }

/-- An inviter at 10.10.10.254 makes a fresh node take the broadcast address, one at 10.10.10.255
makes the addition overflow, and where 10.10.10.254 is taken, one at 10.10.10.253 leaves no
address though all below it are free. -/
theorem broadcast_picked :
    ownAddress true .missing Config.default "10.10.10.254" = .ok "10.10.10.255" ∧
    ownAddress true .missing Config.default "10.10.10.255" = .error .overflow ∧
    ownAddress true (.parsed Sample.lastTaken) Sample.lastTaken "10.10.10.253" =
      .error (.error "No available IPs in the subnet") ∧
    ¬ PicksFree .missing Config.default "10.10.10.254" ⟨10, 10, 10, 254⟩ := by
  refine ⟨?_, rfl, ?_, fun picks => ?_⟩
  · exact @assignAddress_next true Config.default ⟨10, 10, 10, 254⟩ (by decide) (by decide)
  · have search := @ownAddress_assigned (.parsed Sample.lastTaken) Sample.lastTaken
      "10.10.10.253" rfl rfl true
    rw [search, @assignAddress_eq _ _ _ ⟨10, 10, 10, 253⟩ (by decide) (by decide)]
    decide
  · exact absurd (picks.below rfl rfl (by decide)) (by decide)

end WolfNet
