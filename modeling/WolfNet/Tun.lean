import WolfNet.Net.Addr
import WolfNet.Std.Slice

/-!
# Raw IP packets

The destination addresses of the packets that cross the TUN device.
-/

namespace WolfNet

open WolfNet.Std

/-- Extract the destination IPv4 address from a raw IP packet. -/
def getDestIp (packet : List UInt8) : Rust (Option Ipv4Addr) := do
  if packet.length < 20 then return none
  if (← index packet 0) >>> 4 ≠ 4 then return none
  return some ⟨← index packet 16, ← index packet 17, ← index packet 18, ← index packet 19⟩

/-- Extract the destination IPv6 address from a raw IP packet. -/
def getDestIp6 (packet : List UInt8) : Rust (Option Ipv6Addr) := do
  if packet.length < 40 then return none
  if (← index packet 0) >>> 4 ≠ 6 then return none
  let octets ← slice packet 24 40
  return some (.ofOctets octets)

/-- The destination of a packet is read without a panic. -/
theorem getDestIp_ok (packet : List UInt8) : ∃ dest, getDestIp packet = .ok dest := by
  unfold getDestIp
  split
  · exact ⟨none, rfl⟩
  · next long =>
      rw [index_ok 0 (by omega), index_ok 16 (by omega),
        index_ok 17 (by omega), index_ok 18 (by omega),
        index_ok 19 (by omega)]
      simp only [Rust.ok_bind, Rust.pure_eq]
      split <;> exact ⟨_, rfl⟩

/-- A packet of another version has no IPv4 destination. -/
theorem getDestIp_eq_none {packet : List UInt8} {first : UInt8} (head : packet.head? = some first)
    (other : first >>> 4 ≠ 4) : getDestIp packet = .ok none := by
  obtain ⟨rest, rfl⟩ := List.head?_eq_some_iff.mp head
  unfold getDestIp
  split
  · rfl
  · simp [index, other]

/-- A packet of another version has no IPv6 destination. -/
theorem getDestIp6_eq_none {packet : List UInt8} {first : UInt8} (head : packet.head? = some first)
    (other : first >>> 4 ≠ 6) : getDestIp6 packet = .ok none := by
  obtain ⟨rest, rfl⟩ := List.head?_eq_some_iff.mp head
  unfold getDestIp6
  split
  · rfl
  · simp [index, other]

/-- Every packet is looked at in bounds. -/
theorem getDestIp6_ok (packet : List UInt8) : ∃ dest, getDestIp6 packet = .ok dest := by
  unfold getDestIp6
  split
  · exact ⟨none, rfl⟩
  · next long =>
      rw [index_ok 0 (by omega), @slice_ok packet 24 40 (by omega) (by omega)]
      simp only [Rust.ok_bind, Rust.pure_eq]
      split <;> exact ⟨_, rfl⟩

end WolfNet
