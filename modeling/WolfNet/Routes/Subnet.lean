import WolfNet.Routes.Longest

/-!
# Subnets

The subnet of an address is what has the same leading bits, and its directed broadcast address
has ones behind them. Two prefix lengths give an address different subnets, as the bit between
them tells. A `/24` is told by three octets.
-/

namespace WolfNet

section Prefixes

variable {bits : Nat} {prefixLen : UInt8}

/-- The address with the bit at a position turned, counted from the front. -/
def turned (addr : BitVec bits) (position : Nat) : BitVec bits :=
  addr ^^^ BitVec.twoPow bits (bits - 1 - position)

/-- Turning a bit of an address turns no other. -/
theorem getMsbD_turned (addr : BitVec bits) {position i : Nat} (inside : position < bits)
    (bound : i < bits) : (turned addr position).getMsbD i =
      (addr.getMsbD i ^^ decide (i = position)) := by
  rw [turned, BitVec.getMsbD_xor]
  congr 1
  rw [BitVec.getMsbD_eq_getLsbD, BitVec.getLsbD_twoPow]
  simp only [bound, decide_true, Bool.true_and]
  rw [← Bool.decide_and]
  exact decide_eq_decide.mpr (by omega)

/-- Turning a bit leaves the subnets whose prefix ends in front of it. -/
theorem contains_turned {addr : BitVec bits} {position : Nat} (inside : position < bits) :
    Contains addr prefixLen (turned addr position) ↔ prefixLen.toNat ≤ position := by
  constructor
  · intro contained
    by_contra behind
    have same := contained position (by omega)
    rw [getMsbD_turned addr inside inside] at same
    simp at same
  · intro front i before
    rw [getMsbD_turned addr inside (by omega)]
    have apart : i ≠ position := by omega
    simp [apart]

end Prefixes

namespace Ipv4Addr

open PeerManager

/-- `Ipv4Addr::from_bits`. -/
def ofBits (bits : BitVec 32) : Ipv4Addr :=
  ⟨⟨bits.extractLsb' 24 8⟩, ⟨bits.extractLsb' 16 8⟩, ⟨bits.extractLsb' 8 8⟩,
    ⟨bits.extractLsb' 0 8⟩⟩

/-- The bits of an address are those of its octets. -/
theorem getMsbD_ipv4Bits (ip : Ipv4Addr) (i : Nat) : (ipv4Bits ip).getMsbD i =
    if 24 ≤ i then ip.d.toBitVec.getMsbD (i - 24)
    else if 16 ≤ i then ip.c.toBitVec.getMsbD (i - 16)
    else if 8 ≤ i then ip.b.toBitVec.getMsbD (i - 8)
    else ip.a.toBitVec.getMsbD i := by
  have joined : (ipv4Bits ip).getMsbD i =
      (ip.a.toBitVec ++ ip.b.toBitVec ++ ip.c.toBitVec ++ ip.d.toBitVec :
        BitVec (8 + 8 + 8 + 8)).getMsbD i := rfl
  rw [joined, BitVec.getMsbD_append, BitVec.getMsbD_append, BitVec.getMsbD_append]

/-- Octets with equal bits are equal. -/
theorem octet_eq_iff {octet other : UInt8} :
    octet = other ↔ ∀ i < 8, octet.toBitVec.getMsbD i = other.toBitVec.getMsbD i := by
  constructor
  · rintro rfl i _
    rfl
  · intro same
    exact UInt8.toBitVec_inj.mp (BitVec.eq_of_getMsbD_eq fun i inside => same i inside)

/-- An address is made from its bits. -/
theorem ipv4Bits_ofBits (bits : BitVec 32) : ipv4Bits (ofBits bits) = bits := by
  have octet : ∀ start i, start + 8 ≤ 32 → i < 8 →
      (bits.extractLsb' start 8).getMsbD i = bits.getMsbD (24 - start + i) := by
    intro start i bound inside
    have front : 24 - start + i < 32 := by omega
    have place : start + (7 - i) = 31 - (24 - start + i) := by omega
    simp [BitVec.getMsbD_eq_getLsbD, inside, front, place]
    omega
  refine BitVec.eq_of_getMsbD_eq fun i inside => ?_
  rw [getMsbD_ipv4Bits]
  simp only [ofBits]
  split_ifs with fourth third second
  · rw [octet 0 _ (by omega) (by omega)]
    congr 1
    omega
  · rw [octet 8 _ (by omega) (by omega)]
    congr 1
    omega
  · rw [octet 16 _ (by omega) (by omega)]
    congr 1
    omega
  · rw [octet 24 _ (by omega) (by omega)]
    congr 1
    omega

/-- The address lies in the subnet of another. -/
def InSubnet (address : Ipv4Addr) (prefixLen : UInt8) (ip : Ipv4Addr) : Prop :=
  Contains (ipv4Bits address) prefixLen (ipv4Bits ip)

/-- The directed broadcast address of a subnet: its leading bits, and ones behind them. -/
def IsDirectedBroadcast (address : Ipv4Addr) (prefixLen : UInt8) (ip : Ipv4Addr) : Prop :=
  address.InSubnet prefixLen ip ∧
    ∀ i < 32, prefixLen.toNat ≤ i → (ipv4Bits ip).getMsbD i = true

/-- The limited broadcast address, or the directed one of a subnet. -/
def IsBroadcast (address : Ipv4Addr) (prefixLen : UInt8) (ip : Ipv4Addr) : Prop :=
  ip = broadcast ∨ address.IsDirectedBroadcast prefixLen ip

variable {address ip : Ipv4Addr} {prefixLen : UInt8}

/-- The bits of a `/24` are those of three octets. -/
theorem inSubnet_24 : address.InSubnet 24 ip ↔
    ip.a = address.a ∧ ip.b = address.b ∧ ip.c = address.c := by
  have length : (24 : UInt8).toNat = 24 := rfl
  rw [InSubnet, Contains, length]
  simp only [getMsbD_ipv4Bits]
  constructor
  · intro contained
    refine ⟨octet_eq_iff.mpr fun i inside => ?_, octet_eq_iff.mpr fun i inside => ?_,
      octet_eq_iff.mpr fun i inside => ?_⟩
    · have bit := contained i (by omega)
      rwa [if_neg (by omega), if_neg (by omega), if_neg (by omega), if_neg (by omega),
        if_neg (by omega), if_neg (by omega)] at bit
    · have bit := contained (8 + i) (by omega)
      rwa [if_neg (by omega), if_neg (by omega), if_pos (by omega), if_neg (by omega),
        if_neg (by omega), if_pos (by omega), Nat.add_sub_cancel_left] at bit
    · have bit := contained (16 + i) (by omega)
      rwa [if_neg (by omega), if_pos (by omega), if_neg (by omega), if_pos (by omega),
        Nat.add_sub_cancel_left] at bit
  · rintro ⟨a, b, c⟩ i before
    have close : ¬24 ≤ i := by omega
    rw [a, b, c, if_neg close, if_neg close]

/-- The directed broadcast address of a `/24` ends with 255. -/
theorem isDirectedBroadcast_24 : address.IsDirectedBroadcast 24 ip ↔
    ip = ⟨address.a, address.b, address.c, 255⟩ := by
  have length : (24 : UInt8).toNat = 24 := rfl
  have one : ∀ i < 8, (255 : UInt8).toBitVec.getMsbD i = true := by decide
  have ones : ip.d = 255 ↔ ∀ i < 32, 24 ≤ i → (ipv4Bits ip).getMsbD i = true := by
    simp only [getMsbD_ipv4Bits]
    constructor
    · intro last i inside behind
      rw [if_pos behind, last, one _ (by omega)]
    · intro last
      refine octet_eq_iff.mpr fun i inside => ?_
      have bit := last (24 + i) (by omega) (by omega)
      rwa [if_pos (by omega), Nat.add_sub_cancel_left, ← one i inside] at bit
  rw [IsDirectedBroadcast, inSubnet_24, length, ← ones, and_assoc, and_assoc]
  constructor
  · rintro ⟨a, b, c, d⟩
    rw [← a, ← b, ← c, ← d]
  · rintro rfl
    exact ⟨rfl, rfl, rfl, rfl⟩

/-- An address that one prefix length has in the subnet of another address, and the other has
not: only the subnets of `/24` are those of three octets. -/
theorem exists_apart (address : Ipv4Addr) (other : prefixLen ≠ 24) :
    ∃ ip, ip ≠ address ∧ (address.InSubnet prefixLen ip ↔ ¬address.InSubnet 24 ip) := by
  have whole : (24 : UInt8).toNat = 24 := rfl
  have length : prefixLen.toNat ≠ 24 := fun same => other (UInt8.toNat_inj.mp same)
  have turns : ∀ position < 32, ofBits (turned (ipv4Bits address) position) ≠ address := by
    intro position inside same
    have bit := getMsbD_turned (ipv4Bits address) inside inside
    rw [← ipv4Bits_ofBits (turned _ _), same] at bit
    simp at bit
  rcases Nat.lt_or_gt_of_ne length with shorter | longer
  · refine ⟨ofBits (turned (ipv4Bits address) 23), turns 23 (by omega), ?_⟩
    rw [InSubnet, InSubnet, ipv4Bits_ofBits, contains_turned (by omega), contains_turned (by omega),
      whole]
    omega
  · refine ⟨ofBits (turned (ipv4Bits address) 24), turns 24 (by omega), ?_⟩
    rw [InSubnet, InSubnet, ipv4Bits_ofBits, contains_turned (by omega), contains_turned (by omega),
      whole]
    omega

end Ipv4Addr
end WolfNet
