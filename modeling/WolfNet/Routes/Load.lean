import WolfNet.Net.Canonical
import WolfNet.PeerManager
import WolfNet.Semantics.BestMatch

/-!
# What the route loaders hold

The parsed JSON map of a route file is iterated in an arbitrary order. A container address
has one text, so the container routes do not depend on that order. The CIDR routes are
sorted by prefix length, so they do not depend on it where no two entries denote the same
network.
-/

namespace WolfNet.PeerManager

open WolfNet.Std WolfNet.Semantics

section Containers

variable {map : List (String × String)} {destIp hostIp : Ipv4Addr}

/-- The container route that an entry of the file gives, if it parses. -/
def containerEntry (entry : String × String) : Option (Ipv4Addr × Ipv4Addr) := do
  let containerIp ← Ipv4Addr.parse entry.1.toList
  let hostIp ← Ipv4Addr.parse entry.2.toList
  return (containerIp, hostIp)

/-- Enter one entry of the file into the container routes. -/
def insertContainer (routes : HashMap Ipv4Addr Ipv4Addr) (entry : String × String) :
    HashMap Ipv4Addr Ipv4Addr :=
  match containerEntry entry with
  | some (containerIp, hostIp) => routes.insert containerIp hostIp
  | none => routes

/-- A container entry begins with an IP. -/
theorem containerEntry_eq_some {entry : String × String}
    (parsed : containerEntry entry = some (destIp, hostIp)) :
    Ipv4Addr.parse entry.1.toList = some destIp := by
  simp only [containerEntry, Option.bind_eq_bind, Option.bind_eq_some_iff, Option.pure_def,
    Option.some.injEq, Prod.mk.injEq] at parsed
  obtain ⟨ip, parsed, _, _, rfl, _⟩ := parsed
  exact parsed

/-- The container routes are those that an entry of the file gives. -/
theorem get_insertContainers (keys : (map.map Prod.fst).Nodup) :
    (map.foldl insertContainer .empty).get destIp = some hostIp ↔
      ∃ entry ∈ map, containerEntry entry = some (destIp, hostIp) := by
  induction map using List.reverseRecOn with
  | nil => simp
  | append_singleton map entry ih =>
      rw [List.map_append, List.nodup_append] at keys
      obtain ⟨keys, _, fresh⟩ := keys
      rw [List.foldl_append, List.foldl_cons, List.foldl_nil, insertContainer]
      simp only [List.mem_append, List.mem_singleton, or_and_right, exists_or, exists_eq_left]
      cases parsed : containerEntry entry with
      | none => simp [ih keys]
      | some route =>
          obtain ⟨containerIp, host⟩ := route
          dsimp only
          rw [HashMap.get_insert]
          split
          · next here =>
              subst here
              -- The address has one text, which no earlier entry has as its key.
              have unseen : ¬∃ other ∈ map, containerEntry other = some (destIp, hostIp) := by
                rintro ⟨other, member, otherParsed⟩
                have sameKey := Ipv4Addr.parse_inj (containerEntry_eq_some otherParsed)
                  (containerEntry_eq_some parsed)
                exact fresh other.1 (List.mem_map_of_mem member) entry.1 (by simp)
                  (String.toList_injective sameKey)
              simp [unseen]
          · next elsewhere => simp [ih keys, Ne.symm elsewhere]

end Containers

section Cidrs

variable {Net : Type} {bits : Nat} {map other : List (String × String)}

/-- The CIDR routes that a file gives, in the order of its map. -/
def cidrEntries (map : List (String × String)) : List CidrEntry :=
  map.filterMap fun (cidr, gateway) => parseCidrEntry cidr gateway

def CidrEntry.v4Route : CidrEntry → Option (Ipv4Addr × UInt8 × Ipv4Addr)
  | .v4 net prefixLen gateway => some (net, prefixLen, gateway)
  | .v6 .. => none

def CidrEntry.v6Route : CidrEntry → Option (Ipv6Addr × UInt8 × Ipv4Addr)
  | .v4 .. => none
  | .v6 net prefixLen gateway => some (net, prefixLen, gateway)

/-- Two CIDR keys that denote the same network and prefix length. -/
def CidrEntry.SameNetwork : CidrEntry → CidrEntry → Prop
  | .v4 net prefixLen _, .v4 other otherLen _ =>
    prefixLen = otherLen ∧
      ipv4Bits net &&& prefixMask 32 prefixLen = ipv4Bits other &&& prefixMask 32 prefixLen
  | .v6 net prefixLen _, .v6 other otherLen _ =>
    prefixLen = otherLen ∧
      net.bits &&& prefixMask 128 prefixLen = other.bits &&& prefixMask 128 prefixLen
  | _, _ => False

/-- No two entries of the file denote the same network and prefix length. -/
def NetworksDistinct (map : List (String × String)) : Prop :=
  ∀ first ∈ cidrEntries map, ∀ second ∈ cidrEntries map, first.SameNetwork second → first = second

/-- The route covers an address: they agree under the mask of its prefix length. -/
def covers (toBits : Net → BitVec bits) (destIp : BitVec bits) (route : Net × UInt8 × Ipv4Addr) :
    Bool :=
  destIp &&& prefixMask bits route.2.1 == toBits route.1 &&& prefixMask bits route.2.1

/-- The routes, longest prefix first. -/
def sortedRoutes (routes : List (Net × UInt8 × Ipv4Addr)) : List (Net × UInt8 × Ipv4Addr) :=
  routes.insertionSort fun first second => second.2.1 ≤ first.2.1

/-- Sorting loses no route and adds none. -/
theorem perm_sortedRoutes (routes : List (Net × UInt8 × Ipv4Addr)) :
    (sortedRoutes routes).Perm routes :=
  List.perm_insertionSort _ routes

/-- Sorted routes are ranked by their prefixes. -/
theorem ranked_sortedRoutes (routes : List (Net × UInt8 × Ipv4Addr)) :
    Ranked (fun route => route.2.1.toNat) (sortedRoutes routes) := by
  have total : Std.Total fun first second : Net × UInt8 × Ipv4Addr => second.2.1 ≤ first.2.1 :=
    ⟨fun first second => UInt8.le_total second.2.1 first.2.1⟩
  have transitive : IsTrans (Net × UInt8 × Ipv4Addr) fun first second => second.2.1 ≤ first.2.1 :=
    ⟨fun _ _ _ first second => UInt8.le_trans second first⟩
  exact List.pairwise_insertionSort (fun first second : Net × UInt8 × Ipv4Addr =>
    second.2.1 ≤ first.2.1) routes

/-- The entries of one family give the same first route for an address in every order of
the file, where no two of them denote the same network and prefix length. -/
theorem find_sortedRoutes_perm {routeOf : CidrEntry → Option (Net × UInt8 × Ipv4Addr)}
    {toBits : Net → BitVec bits} (perm : map.Perm other) (distinct : NetworksDistinct map)
    (sameNetwork : ∀ {first second route route'}, routeOf first = some route →
      routeOf second = some route' →
      route.2.1 = route'.2.1 →
      toBits route.1 &&& prefixMask bits route.2.1 = toBits route'.1 &&& prefixMask bits route.2.1 →
      first.SameNetwork second) (destIp : BitVec bits) :
    (sortedRoutes ((cidrEntries map).filterMap routeOf)).find? (covers toBits destIp) =
      (sortedRoutes ((cidrEntries other).filterMap routeOf)).find? (covers toBits destIp) := by
  have samePerm : ((cidrEntries map).filterMap routeOf).Perm
    ((cidrEntries other).filterMap routeOf) :=
    (perm.filterMap _).filterMap _
  refine (ranked_sortedRoutes _).find_perm (ranked_sortedRoutes _)
    ((perm_sortedRoutes _).trans (samePerm.trans (perm_sortedRoutes _).symm)) ?_
  intro first firstMember second secondMember firstHit secondHit sameRank
  have sameLen : first.2.1 = second.2.1 := UInt8.toNat_inj.mp sameRank
  rw [covers, beq_iff_eq] at firstHit secondHit
  rw [← sameLen] at secondHit
  obtain ⟨entry, member, route⟩ := List.mem_filterMap.mp
    ((perm_sortedRoutes _).mem_iff.mp firstMember)
  obtain ⟨entry', member', route'⟩ := List.mem_filterMap.mp
    ((perm_sortedRoutes _).mem_iff.mp secondMember)
  have same := distinct entry member entry' member'
    (sameNetwork route route' sameLen (firstHit.symm.trans secondHit))
  rw [same, route'] at route
  exact (Option.some.inj route).symm

/-- Two IPv4 routes to one network come from entries for one network. -/
theorem CidrEntry.sameNetwork_v4 {first second : CidrEntry}
    {route route' : Ipv4Addr × UInt8 × Ipv4Addr}
    (firstRoute : first.v4Route = some route) (secondRoute : second.v4Route = some route')
    (sameLen : route.2.1 = route'.2.1)
    (sameNet : ipv4Bits route.1 &&& prefixMask 32 route.2.1 =
      ipv4Bits route'.1 &&& prefixMask 32 route.2.1) : first.SameNetwork second := by
  cases first <;> cases firstRoute
  cases second <;> cases secondRoute
  exact ⟨sameLen, sameNet⟩

/-- Two IPv6 routes to one network come from entries for one network. -/
theorem CidrEntry.sameNetwork_v6 {first second : CidrEntry}
    {route route' : Ipv6Addr × UInt8 × Ipv4Addr}
    (firstRoute : first.v6Route = some route) (secondRoute : second.v6Route = some route')
    (sameLen : route.2.1 = route'.2.1)
    (sameNet : route.1.bits &&& prefixMask 128 route.2.1 =
      route'.1.bits &&& prefixMask 128 route.2.1) : first.SameNetwork second := by
  cases first <;> cases firstRoute
  cases second <;> cases secondRoute
  exact ⟨sameLen, sameNet⟩

end Cidrs

section Loads

variable [Crates] {pm pm' : PeerManager} {map other : List (String × String)}
  {file file' : RouteFile}

/-- A map that was read replaces the container routes. -/
theorem loadRoutes_parsed (pm : PeerManager) (map : List (String × String)) :
    pm.loadRoutes (.parsed map) = { pm with subnetRoutes := map.foldl insertContainer .empty } := by
  refine congrArg (fun (routes : HashMap Ipv4Addr Ipv4Addr) =>
    { pm with subnetRoutes := routes }) ?_
  refine congrArg (fun insert => map.foldl insert HashMap.empty) ?_
  funext routes entry
  obtain ⟨container, host⟩ := entry
  unfold insertContainer containerEntry
  dsimp only
  cases Ipv4Addr.parse container.toList <;> cases Ipv4Addr.parse host.toList <;> rfl

/-- A map that was read replaces both CIDR tables. -/
theorem loadSubnetRoutes_parsed (pm : PeerManager) (map : List (String × String)) :
    pm.loadSubnetRoutes (.parsed map) = { pm with
      subnetRoutesCidrs := sortedRoutes ((cidrEntries map).filterMap CidrEntry.v4Route)
      subnetRoutesCidrsV6 := sortedRoutes ((cidrEntries map).filterMap CidrEntry.v6Route) } := by
  have v4 : CidrEntry.v4Route = fun entry => match entry with
      | .v4 net prefixLen gateway => some (net, prefixLen, gateway)
      | .v6 .. => none := by
    funext entry
    cases entry <;> rfl
  have v6 : CidrEntry.v6Route = fun entry => match entry with
      | .v4 .. => none
      | .v6 net prefixLen gateway => some (net, prefixLen, gateway) := by
    funext entry
    cases entry <;> rfl
  rw [v4, v6]
  rfl

/-- Two tables that give the same routes. -/
structure SameLookups (pm pm' : PeerManager) : Prop where
  containers : pm.findRoute = pm'.findRoute
  cidrs : pm.findSubnetMatch = pm'.findSubnetMatch
  cidrsV6 : pm.findSubnetMatchV6 = pm'.findSubnetMatchV6

/-- What two reads of one file gave: a map is met in any order. -/
inductive SameFile : RouteFile → RouteFile → Prop where
  | missing : SameFile .missing .missing
  | unreadable : SameFile .unreadable .unreadable
  | unparsable : SameFile .unparsable .unparsable
  | parsed {map other : List (String × String)} (keys : (map.map Prod.fst).Nodup)
      (perm : map.Perm other) : SameFile (.parsed map) (.parsed other)

/-- The CIDR keys of a file denote distinct networks. -/
def CidrsDistinct : RouteFile → Prop
  | .parsed map => NetworksDistinct map
  | _ => True

/-- Two loads of one container file keep the routes the same. -/
theorem SameLookups.loadRoutes (same : SameLookups pm pm') (sameFile : SameFile file file') :
    SameLookups (pm.loadRoutes file) (pm'.loadRoutes file') := by
  cases sameFile with
  | missing | unreadable | unparsable => exact same
  | @parsed map other keys perm =>
      have otherKeys : (other.map Prod.fst).Nodup := (perm.map Prod.fst).nodup_iff.mp keys
      rw [loadRoutes_parsed, loadRoutes_parsed]
      refine ⟨?_, same.cidrs, same.cidrsV6⟩
      funext destIp
      refine Option.ext fun hostIp => ?_
      rw [findRoute, findRoute, get_insertContainers keys, get_insertContainers otherKeys]
      simp only [perm.mem_iff]

/-- Two loads of one CIDR file keep the routes the same, where its keys denote distinct
networks. -/
theorem SameLookups.loadSubnetRoutes (same : SameLookups pm pm') (sameFile : SameFile file file')
    (distinct : CidrsDistinct file) :
    SameLookups (pm.loadSubnetRoutes file) (pm'.loadSubnetRoutes file') := by
  cases sameFile with
  | missing | unreadable => exact ⟨same.containers, rfl, rfl⟩
  | unparsable => exact same
  | @parsed map other keys perm =>
      rw [loadSubnetRoutes_parsed, loadSubnetRoutes_parsed]
      refine ⟨same.containers, ?_, ?_⟩
      · funext destIp
        exact congrArg (Option.map _)
          (find_sortedRoutes_perm perm distinct CidrEntry.sameNetwork_v4 (ipv4Bits destIp))
      · funext destIp
        exact congrArg (Option.map _)
          (find_sortedRoutes_perm perm distinct CidrEntry.sameNetwork_v6 destIp.bits)

/-- Two tables that loaded the same contents of the two route files in the same order, since
they had the same routes; other operations leave the routes of each as they are. -/
inductive LoadedAlike : PeerManager → PeerManager → Prop where
  | empty : LoadedAlike .new .new
  | other {pm pm' next next' : PeerManager} (alike : LoadedAlike pm pm')
    (keeps : SameLookups pm next)
      (keeps' : SameLookups pm' next') : LoadedAlike next next'
  | routes {pm pm' : PeerManager} {file file' : RouteFile} (alike : LoadedAlike pm pm')
      (sameFile : SameFile file file') : LoadedAlike (pm.loadRoutes file) (pm'.loadRoutes file')
  | subnetRoutes {pm pm' : PeerManager} {file file' : RouteFile} (alike : LoadedAlike pm pm')
      (sameFile : SameFile file file') (distinct : CidrsDistinct file) :
      LoadedAlike (pm.loadSubnetRoutes file) (pm'.loadSubnetRoutes file')

/-- Tables that were loaded alike are looked up alike. -/
theorem LoadedAlike.sameLookups (alike : LoadedAlike pm pm') : SameLookups pm pm' := by
  induction alike with
  | empty => exact ⟨rfl, rfl, rfl⟩
  | other _ keeps keeps' ih =>
      exact ⟨keeps.containers.symm.trans (ih.containers.trans keeps'.containers),
        keeps.cidrs.symm.trans (ih.cidrs.trans keeps'.cidrs),
        keeps.cidrsV6.symm.trans (ih.cidrsV6.trans keeps'.cidrsV6)⟩
  | routes _ sameFile ih => exact ih.loadRoutes sameFile
  | subnetRoutes _ sameFile distinct ih => exact ih.loadSubnetRoutes sameFile distinct

end Loads
end WolfNet.PeerManager
