import WolfNet.Crates.Sample
import WolfNet.Routes.Load

/-!
# Longest-prefix match

What a lookup along the CIDR routes should give, by the texts of the route file and the bits
of the addresses: the gateway of a route that contains the address and is as long as any
other one that does. The loader's filter, its sort and the first hit together give that, and
the order of the file matters only where several such routes name different gateways.
-/

namespace WolfNet

open WolfNet.Std WolfNet.Semantics

section Specification

variable {Net : Type} {bits : Nat}

/-- The entry of a route file is a route of a family: a network and a prefix length between
a slash, and the address of a gateway. -/
structure IsRoute (parseNet : List Char → Option Net) (maxLen : UInt8) (entry : String × String)
    (net : Net) (prefixLen : UInt8) (gateway : Ipv4Addr) : Prop where
  key : ∃ netText lenText, entry.1.toList = netText ++ '/' :: lenText ∧ '/' ∉ netText ∧
    parseNet netText = some net ∧ parseU8 lenText = some prefixLen
  inRange : prefixLen ≤ maxLen
  gateway : Ipv4Addr.parse entry.2.toList = some gateway

abbrev IsV4Route : String × String → Ipv4Addr → UInt8 → Ipv4Addr → Prop := IsRoute Ipv4Addr.parse 32

abbrev IsV6Route : String × String → Ipv6Addr → UInt8 → Ipv4Addr → Prop :=
    IsRoute Ipv6Addr.parse 128

/-- The network contains the address: they have the same leading bits. -/
def Contains (net : BitVec bits) (prefixLen : UInt8) (addr : BitVec bits) : Prop :=
  ∀ i < prefixLen.toNat, addr.getMsbD i = net.getMsbD i

/-- The answer of a longest-prefix match: nothing where no route contains the address, else
the gateway of a route that does and that no other such route outranks. -/
inductive LongestMatch (routes : Net → UInt8 → Ipv4Addr → Prop) (contains : Net → UInt8 → Prop) :
    Option Ipv4Addr → Prop where
  | unrouted (uncovered : ∀ net prefixLen gateway,
      routes net prefixLen gateway → ¬contains net prefixLen) :
      LongestMatch routes contains none
  | routed {net : Net} {prefixLen : UInt8} {gateway : Ipv4Addr}
    (listed : routes net prefixLen gateway)
      (contained : contains net prefixLen)
      (longest : ∀ net' prefixLen' gateway', routes net' prefixLen' gateway' →
      contains net' prefixLen' →
        prefixLen' ≤ prefixLen) :
      LongestMatch routes contains (some gateway)

end Specification

namespace PeerManager

section Masks

variable {bits : Nat} {prefixLen : UInt8}

/-- A mask has its leading bits set and no other. -/
theorem getMsbD_prefixMask (i : Nat) :
    (prefixMask bits prefixLen).getMsbD i = decide (i < bits ∧ i < prefixLen.toNat) := by
  unfold prefixMask
  split
  · next zero => simp [zero]
  split
  · next full =>
      rw [BitVec.getMsbD_allOnes]
      exact decide_eq_decide.mpr ⟨fun inside => ⟨inside, by omega⟩, And.left⟩
  · next partly =>
      rw [BitVec.getMsbD_shiftLeft, BitVec.getMsbD_allOnes]
      exact decide_eq_decide.mpr (by omega)

/-- Two addresses agree under the mask of a prefix length exactly when they have the same
leading bits. -/
theorem mask_eq_iff (inRange : prefixLen.toNat ≤ bits) (net addr : BitVec bits) :
    addr &&& prefixMask bits prefixLen = net &&& prefixMask bits prefixLen ↔
      Contains net prefixLen addr := by
  constructor
  · intro same i inside
    have bit := congrArg (·.getMsbD i) same
    simpa [getMsbD_prefixMask, inside, Nat.lt_of_lt_of_le inside inRange] using bit
  · intro same
    refine BitVec.eq_of_getMsbD_eq fun i _ => ?_
    rw [BitVec.getMsbD_and, BitVec.getMsbD_and, getMsbD_prefixMask]
    by_cases inside : i < prefixLen.toNat
    · rw [same i inside]
    · simp [inside]

end Masks

section Parser

variable {entry : String × String} {prefixLen : UInt8} {gateway : Ipv4Addr}

/-- A text is split at its first separator. -/
theorem splitOnce_eq_some {separator : Char} {text front back : List Char} :
    splitOnce separator text = some (front, back) ↔
      text = front ++ separator :: back ∧ separator ∉ front := by
  have whole : text.takeWhile (· ≠ separator) ++ text.dropWhile (· ≠ separator) = text :=
    List.takeWhile_append_dropWhile
  have dropped : text.drop (text.takeWhile (· ≠ separator)).length =
      text.dropWhile (· ≠ separator) :=
    (congrArg (List.drop _) whole.symm).trans List.drop_left
  unfold splitOnce
  dsimp only
  rw [dropped]
  constructor
  · intro split
    cases rest : text.dropWhile (· ≠ separator) with
    | nil =>
        rw [rest] at split
        cases split
    | cons c after =>
        rw [rest] at split
        cases split
        have stops := List.head?_dropWhile_not (· ≠ separator) text
        rw [rest] at stops
        have same : c = separator := by simpa using stops
        refine ⟨?_, fun inside => ?_⟩
        · rw [← same, ← rest, same, whole]
        · simpa using List.all_eq_true.mp List.all_takeWhile separator inside
  · rintro ⟨rfl, outside⟩
    have passes : ∀ c ∈ front, decide (c ≠ separator) = true := by
      intro c member
      simpa using fun same : c = separator => outside (same ▸ member)
    rw [List.dropWhile_append_of_pos passes, List.takeWhile_append_of_pos passes]
    simp

/-- The key of an entry is a network of the family and a prefix length. -/
theorem key_iff {Net : Type} {parseNet : List Char → Option Net} {net : Net} :
    (∃ netText lenText, splitOnce '/' entry.1.toList = some (netText, lenText) ∧
      parseNet netText = some net ∧ parseU8 lenText = some prefixLen) ↔
    ∃ netText lenText, entry.1.toList = netText ++ '/' :: lenText ∧ '/' ∉ netText ∧
      parseNet netText = some net ∧ parseU8 lenText = some prefixLen := by
  simp only [splitOnce_eq_some, and_assoc]

/-- The loader takes an entry for an IPv4 route exactly when it is one. -/
theorem parseCidrEntry_eq_v4 {net : Ipv4Addr} :
    parseCidrEntry entry.1 entry.2 = some (.v4 net prefixLen gateway) ↔
      IsV4Route entry net prefixLen gateway := by
  constructor
  · intro parsed
    simp only [parseCidrEntry, Option.bind_eq_bind, Option.bind_eq_some_iff, Prod.exists] at parsed
    obtain ⟨netText, lenText, split, gw, gwParsed, parsed⟩ := parsed
    cases family : Ipv4Addr.parse netText with
    | none => simp [family, Option.bind_eq_some_iff] at parsed
    | some found =>
        simp only [family, Option.bind_eq_some_iff, Option.ite_none_right_eq_some, Option.pure_def,
          Option.some.injEq, CidrEntry.v4.injEq] at parsed
        obtain ⟨len, lenParsed, inRange, rfl, rfl, rfl⟩ := parsed
        exact ⟨key_iff.mp ⟨netText, lenText, split, family, lenParsed⟩, inRange, gwParsed⟩
  · rintro ⟨key, inRange, gwParsed⟩
    obtain ⟨netText, lenText, split, netParsed, lenParsed⟩ := key_iff.mpr key
    simp [parseCidrEntry, split, gwParsed, netParsed, lenParsed, inRange]

/-- The loader takes an entry for an IPv6 route exactly when it is one. -/
theorem parseCidrEntry_eq_v6 {net : Ipv6Addr} :
    parseCidrEntry entry.1 entry.2 = some (.v6 net prefixLen gateway) ↔
      IsV6Route entry net prefixLen gateway := by
  constructor
  · intro parsed
    simp only [parseCidrEntry, Option.bind_eq_bind, Option.bind_eq_some_iff, Prod.exists] at parsed
    obtain ⟨netText, lenText, split, gw, gwParsed, parsed⟩ := parsed
    cases family : Ipv4Addr.parse netText with
    | some found => simp [family, Option.bind_eq_some_iff] at parsed
    | none =>
        simp only [family, Option.bind_eq_some_iff, Option.ite_none_right_eq_some, Option.pure_def,
          Option.some.injEq, CidrEntry.v6.injEq] at parsed
        obtain ⟨found, netParsed, len, lenParsed, inRange, rfl, rfl, rfl⟩ := parsed
        exact ⟨key_iff.mp ⟨netText, lenText, split, netParsed, lenParsed⟩, inRange, gwParsed⟩
  · rintro ⟨key, inRange, gwParsed⟩
    obtain ⟨netText, lenText, split, netParsed, lenParsed⟩ := key_iff.mpr key
    have family : Ipv4Addr.parse netText = none := by
      cases v4 : Ipv4Addr.parse netText with
      | none => rfl
      | some ip =>
          rw [Ipv6Addr.parse_eq_none v4] at netParsed
          cases netParsed
    simp [parseCidrEntry, split, gwParsed, family, netParsed, lenParsed, inRange]

end Parser

/-- An address family of the CIDR routes: the bits of its addresses, and the entries that the
loader puts into its table. -/
structure Family (Net : Type) (bits : Nat) where
  toBits : Net → BitVec bits
  routeOf : CidrEntry → Option (Net × UInt8 × Ipv4Addr)
  isRoute : String × String → Net → UInt8 → Ipv4Addr → Prop
  reads : ∀ entry net prefixLen gateway,
    (parseCidrEntry entry.1 entry.2).bind routeOf = some (net, prefixLen, gateway) ↔
      isRoute entry net prefixLen gateway
  inRange : ∀ {entry net prefixLen gateway}, isRoute entry net prefixLen gateway →
    prefixLen.toNat ≤ bits

def v4Family : Family Ipv4Addr 32 where
  toBits := ipv4Bits
  routeOf := CidrEntry.v4Route
  isRoute := IsV4Route
  reads entry net prefixLen gateway := by
    rw [← parseCidrEntry_eq_v4, Option.bind_eq_some_iff]
    constructor
    · rintro ⟨parsed | parsed, member, route⟩ <;> cases route
      exact member
    · intro member
      exact ⟨_, member, rfl⟩
  inRange route := UInt8.le_iff_toNat_le.mp route.inRange

def v6Family : Family Ipv6Addr 128 where
  toBits := Ipv6Addr.bits
  routeOf := CidrEntry.v6Route
  isRoute := IsV6Route
  reads entry net prefixLen gateway := by
    rw [← parseCidrEntry_eq_v6, Option.bind_eq_some_iff]
    constructor
    · rintro ⟨parsed | parsed, member, route⟩ <;> cases route
      exact member
    · intro member
      exact ⟨_, member, rfl⟩
  inRange route := UInt8.le_iff_toNat_le.mp route.inRange

namespace Family

variable {Net : Type} {bits : Nat} (family : Family Net bits) {map other : List (String × String)}
  {dest : BitVec bits}

/-- The routes of the family that a file lists. -/
def Lists (map : List (String × String)) (net : Net) (prefixLen : UInt8) (gateway : Ipv4Addr) :
    Prop :=
  ∃ entry ∈ map, family.isRoute entry net prefixLen gateway

/-- The routes of the family, in the order of the file. -/
def routes (map : List (String × String)) : List (Net × UInt8 × Ipv4Addr) :=
  (cidrEntries map).filterMap family.routeOf

/-- The network contains the destination. -/
def Covers (dest : BitVec bits) (net : Net) (prefixLen : UInt8) : Prop :=
  Contains (family.toBits net) prefixLen dest

/-- The first route of the sorted table that covers the destination. -/
def lookup (map : List (String × String)) (dest : BitVec bits) : Option Ipv4Addr :=
  ((sortedRoutes (family.routes map)).find? (covers family.toBits dest)).map fun route => route.2.2

/-- The routes are those that the map lists. -/
theorem mem_routes {net : Net} {prefixLen : UInt8} {gateway : Ipv4Addr} :
    (net, prefixLen, gateway) ∈ family.routes map ↔ family.Lists map net prefixLen gateway := by
  simp only [routes, cidrEntries, List.mem_filterMap, Lists, ← family.reads,
    Option.bind_eq_some_iff]
  constructor
  · rintro ⟨route, ⟨entry, member, parsed⟩, read⟩
    exact ⟨entry, member, route, parsed, read⟩
  · rintro ⟨entry, member, route, parsed, read⟩
    exact ⟨route, ⟨entry, member, parsed⟩, read⟩

/-- The order of the map does not matter for what it lists. -/
theorem lists_perm (perm : map.Perm other) : family.Lists map = family.Lists other := by
  funext net prefixLen gateway
  exact propext ⟨fun ⟨entry, member, route⟩ => ⟨entry, perm.mem_iff.mp member, route⟩,
    fun ⟨entry, member, route⟩ => ⟨entry, perm.mem_iff.mpr member, route⟩⟩

/-- A listed route covers a destination by its mask exactly when its network contains it. -/
theorem covers_iff {net : Net} {prefixLen : UInt8} {gateway : Ipv4Addr}
    (listed : family.Lists map net prefixLen gateway) :
    covers family.toBits dest (net, prefixLen, gateway) = true ↔
      family.Covers dest net prefixLen := by
  obtain ⟨entry, _, route⟩ := listed
  rw [covers, beq_iff_eq]
  exact mask_eq_iff (family.inRange route) _ _

/-- The lookup is a longest-prefix match. -/
theorem lookup_longest (map : List (String × String)) (dest : BitVec bits) :
    LongestMatch (family.Lists map) (family.Covers dest) (family.lookup map dest) := by
  unfold lookup
  cases found : (sortedRoutes (family.routes map)).find? (covers family.toBits dest) with
  | none =>
      refine .unrouted fun net prefixLen gateway listed covered => ?_
      refine List.find?_eq_none.mp found _ ?_ ((family.covers_iff listed).mpr covered)
      exact (perm_sortedRoutes _).mem_iff.mpr (family.mem_routes.mpr listed)
  | some route =>
      obtain ⟨net, prefixLen, gateway⟩ := route
      obtain ⟨member, hit, best⟩ := (ranked_sortedRoutes (family.routes map)).bestMatch found
      have listed := family.mem_routes.mp ((perm_sortedRoutes _).mem_iff.mp member)
      refine .routed listed ((family.covers_iff listed).mp hit) ?_
      intro net' prefixLen' gateway' rival covered
      exact UInt8.le_iff_toNat_le.mpr (best (net', prefixLen', gateway')
        ((perm_sortedRoutes _).mem_iff.mpr (family.mem_routes.mpr rival))
          ((family.covers_iff rival).mpr covered))

/-- An entry that is no route of the family does not matter. -/
theorem lookup_skip {before after : List (String × String)} {entry : String × String}
    (noRoute : ∀ net prefixLen gateway, ¬family.isRoute entry net prefixLen gateway) :
    family.lookup (before ++ entry :: after) = family.lookup (before ++ after) := by
  have skipped : (parseCidrEntry entry.1 entry.2).bind family.routeOf = none := by
    refine Option.eq_none_iff_forall_ne_some.mpr fun route parsed => ?_
    exact noRoute _ _ _ ((family.reads entry route.1 route.2.1 route.2.2).mp parsed)
  have same : family.routes (before ++ entry :: after) = family.routes (before ++ after) := by
    simp only [routes, cidrEntries, List.filterMap_filterMap, List.filterMap_append]
    exact congrArg _ (List.filterMap_cons_none skipped)
  funext dest
  rw [lookup, same, lookup]

/-- A longest match is what the lookup gives when its entry comes first in the file. -/
theorem lookup_of_first {gateway : Ipv4Addr}
    (longest : LongestMatch (family.Lists map) (family.Covers dest) (some gateway)) :
    ∃ first, first.Perm map ∧ family.lookup first dest = some gateway := by
  cases longest with
  | @routed net prefixLen _ listed covered longest =>
      obtain ⟨entry, member, route⟩ := listed
      obtain ⟨before, after, rfl⟩ := List.append_of_mem member
      refine ⟨entry :: (before ++ after), List.perm_middle.symm, ?_⟩
      have head : family.routes (entry :: (before ++ after)) =
          (net, prefixLen, gateway) :: family.routes (before ++ after) := by
        simp only [routes, cidrEntries, List.filterMap_filterMap]
        exact List.filterMap_cons_some ((family.reads entry net prefixLen gateway).mpr route)
      rw [lookup, head, sortedRoutes]
      have hit : covers family.toBits dest (net, prefixLen, gateway) = true :=
        (family.covers_iff ⟨entry, member, route⟩).mpr covered
      rw [find_insertionSort_cons hit]
      · rfl
      · rintro ⟨net', prefixLen', gateway'⟩ rival rivalHit
        have rivalListed : family.Lists (before ++ entry :: after) net' prefixLen' gateway' := by
          obtain ⟨other, otherMember, otherRoute⟩ := family.mem_routes.mp rival
          exact ⟨other, List.perm_middle.mem_iff.mpr (List.mem_cons_of_mem _ otherMember),
            otherRoute⟩
        exact longest _ _ _ rivalListed ((family.covers_iff rivalListed).mp rivalHit)

/-- Every order of the file gives one answer exactly when its longest matches name one
gateway. -/
theorem lookup_order_free_iff :
    (∀ first second, first.Perm map → second.Perm map →
      family.lookup first dest = family.lookup second dest) ↔
      ∀ gateway gateway', LongestMatch (family.Lists map) (family.Covers dest) (some gateway) →
        LongestMatch (family.Lists map) (family.Covers dest) (some gateway') →
          gateway = gateway' := by
  constructor
  · intro orderFree gateway gateway' longest longest'
    obtain ⟨first, perm, found⟩ := family.lookup_of_first longest
    obtain ⟨second, perm', found'⟩ := family.lookup_of_first longest'
    rw [← Option.some_inj, ← found, ← found', orderFree first second perm perm']
  · intro unique first second perm perm'
    have longest := family.lookup_longest first dest
    have longest' := family.lookup_longest second dest
    rw [family.lists_perm perm] at longest
    rw [family.lists_perm perm'] at longest'
    generalize family.lookup first dest = answer at longest
    generalize family.lookup second dest = answer' at longest'
    cases longest with
    | unrouted uncovered =>
        cases longest' with
        | unrouted _ => rfl
        | routed listed covered _ => exact absurd covered (uncovered _ _ _ listed)
    | routed listed covered longest =>
        cases longest' with
        | unrouted uncovered => exact absurd covered (uncovered _ _ _ listed)
        | routed listed' covered' longest' =>
            exact congrArg some (unique _ _ (.routed listed covered longest)
              (.routed listed' covered' longest'))

end Family

section Loaded

variable [Crates]

/-- The search in the loaded IPv4 table is the family's lookup. -/
theorem findSubnetMatch_loaded (pm : PeerManager) (map : List (String × String)) (dest : Ipv4Addr) :
    (pm.loadSubnetRoutes (.parsed map)).findSubnetMatch dest =
      v4Family.lookup map (ipv4Bits dest) := by
  rw [loadSubnetRoutes_parsed]
  rfl

/-- The search in the loaded IPv6 table is the family's lookup. -/
theorem findSubnetMatchV6_loaded (pm : PeerManager) (map : List (String × String))
    (dest : Ipv6Addr) :
    (pm.loadSubnetRoutes (.parsed map)).findSubnetMatchV6 dest = v6Family.lookup map dest.bits := by
  rw [loadSubnetRoutes_parsed]
  rfl

/-- The IPv4 routes that a file lists. -/
def ListsV4 (map : List (String × String)) (net : Ipv4Addr) (prefixLen : UInt8)
    (gateway : Ipv4Addr) : Prop :=
  ∃ entry ∈ map, IsV4Route entry net prefixLen gateway

/-- The IPv6 routes that a file lists. -/
def ListsV6 (map : List (String × String)) (net : Ipv6Addr) (prefixLen : UInt8)
    (gateway : Ipv4Addr) : Prop :=
  ∃ entry ∈ map, IsV6Route entry net prefixLen gateway

/-- The IPv4 network contains the address. -/
def CoversV4 (dest net : Ipv4Addr) (prefixLen : UInt8) : Prop :=
  Contains (ipv4Bits net) prefixLen (ipv4Bits dest)

/-- The IPv6 network contains the address. -/
def CoversV6 (dest net : Ipv6Addr) (prefixLen : UInt8) : Prop :=
  Contains net.bits prefixLen dest.bits

/-- After a load of any string map the lookups are longest-prefix matches along its well-formed
entries of their family, and no other entry matters. -/
theorem longest_prefix_matched (pm : PeerManager) (map : List (String × String)) :
    (∀ dest, LongestMatch (ListsV4 map) (CoversV4 dest)
      ((pm.loadSubnetRoutes (.parsed map)).findSubnetMatch dest)) ∧
    (∀ dest, LongestMatch (ListsV6 map) (CoversV6 dest)
      ((pm.loadSubnetRoutes (.parsed map)).findSubnetMatchV6 dest)) ∧
    ∀ before entry after, map = before ++ entry :: after →
      ((∀ net prefixLen gateway, ¬IsV4Route entry net prefixLen gateway) →
        (pm.loadSubnetRoutes (.parsed map)).findSubnetMatch =
          (pm.loadSubnetRoutes (.parsed (before ++ after))).findSubnetMatch) ∧
      ((∀ net prefixLen gateway, ¬IsV6Route entry net prefixLen gateway) →
        (pm.loadSubnetRoutes (.parsed map)).findSubnetMatchV6 =
          (pm.loadSubnetRoutes (.parsed (before ++ after))).findSubnetMatchV6) := by
  refine ⟨fun dest => ?_, fun dest => ?_, ?_⟩
  · rw [findSubnetMatch_loaded]
    exact v4Family.lookup_longest map (ipv4Bits dest)
  · rw [findSubnetMatchV6_loaded]
    exact v6Family.lookup_longest map dest.bits
  · rintro before entry after rfl
    refine ⟨fun noRoute => ?_, fun noRoute => ?_⟩
    · funext dest
      rw [findSubnetMatch_loaded, findSubnetMatch_loaded, v4Family.lookup_skip noRoute]
    · funext dest
      rw [findSubnetMatchV6_loaded, findSubnetMatchV6_loaded, v6Family.lookup_skip noRoute]

/-- Every two loads of a file give a destination one gateway, in whatever order its map is
met, exactly when the longest of its routes that contain the destination name one gateway. -/
theorem order_free_iff (pm pm' : PeerManager) (map : List (String × String)) :
    (∀ dest, (∀ first second, first.Perm map → second.Perm map →
        (pm.loadSubnetRoutes (.parsed first)).findSubnetMatch dest =
          (pm'.loadSubnetRoutes (.parsed second)).findSubnetMatch dest) ↔
      ∀ gateway gateway', LongestMatch (ListsV4 map) (CoversV4 dest) (some gateway) →
        LongestMatch (ListsV4 map) (CoversV4 dest) (some gateway') → gateway = gateway') ∧
    ∀ dest, (∀ first second, first.Perm map → second.Perm map →
        (pm.loadSubnetRoutes (.parsed first)).findSubnetMatchV6 dest =
          (pm'.loadSubnetRoutes (.parsed second)).findSubnetMatchV6 dest) ↔
      ∀ gateway gateway', LongestMatch (ListsV6 map) (CoversV6 dest) (some gateway) →
        LongestMatch (ListsV6 map) (CoversV6 dest) (some gateway') → gateway = gateway' := by
  refine ⟨fun dest => ?_, fun dest => ?_⟩
  · simp only [findSubnetMatch_loaded]
    exact v4Family.lookup_order_free_iff
  · simp only [findSubnetMatchV6_loaded]
    exact v6Family.lookup_order_free_iff

end Loaded

section Sample

attribute [local instance] Sample.crates

/-- Two keys that denote one network with different gateways. -/
def ambiguousRoutes : List (String × String) :=
  [("10.0.0.0/8", "10.10.10.2"), ("10.1.0.0/8", "10.10.10.3")]

/-- Which of the two gateways a destination gets depends on the order of the map. -/
theorem gateway_by_order :
    ambiguousRoutes.reverse.Perm ambiguousRoutes ∧ (ambiguousRoutes.map Prod.fst).Nodup ∧
      (new.loadSubnetRoutes (.parsed ambiguousRoutes)).findSubnetMatch ⟨10, 9, 9, 9⟩ =
        some ⟨10, 10, 10, 2⟩ ∧
      (new.loadSubnetRoutes (.parsed ambiguousRoutes.reverse)).findSubnetMatch ⟨10, 9, 9, 9⟩ =
        some ⟨10, 10, 10, 3⟩ := by
  refine ⟨List.reverse_perm _, by decide, by decide, by decide⟩

end Sample
end PeerManager
end WolfNet
