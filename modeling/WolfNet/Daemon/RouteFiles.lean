import WolfNet.Daemon.Events
import WolfNet.Routes.Longest
import WolfNet.Semantics.Writes

/-!
# Route tables and their files

The daemon reads both route files at startup, every 15 seconds and on every reload. Its tables
should hold what the latest version of their file that could be parsed lists, where a missing file
says nothing is routed. Two of the loaders' branches do not: the container table ignores that its
file is missing, and the CIDR tables are cleared by a file that is there but cannot be read.
`routes_follow_iff` says that these are all.
-/

namespace WolfNet

open WolfNet.Std WolfNet.Semantics

/-- What a version of a file says; a missing file is the empty map. -/
def RouteFile.version : RouteFile → Option (List (String × String))
  | .missing => some []
  | .unreadable => none
  | .unparsable => none
  | .parsed map => some map

/-- The map of a version that could be parsed. -/
def RouteFile.content : RouteFile → Option (List (String × String))
  | .parsed map => some map
  | _ => none

/-- What the CIDR tables take a version for: a file that cannot be read is the empty map. -/
def RouteFile.cidrContent : RouteFile → Option (List (String × String))
  | .missing => some []
  | .unreadable => some []
  | .unparsable => none
  | .parsed map => some map

/-- The map of a JSON file has one value for each key. -/
def RouteFile.WellFormed (file : RouteFile) : Prop :=
  ∀ map, file.content = some map → (map.map Prod.fst).Nodup

/-- The latest version of a file that could be parsed, a missing file being the empty map. -/
def latestVersion (files : List RouteFile) : List (String × String) :=
  written RouteFile.version [] files

/-- The latest map that was read. -/
def latestContent (files : List RouteFile) : List (String × String) :=
  written RouteFile.content [] files

/-- The map that the CIDR tables have taken last. -/
def latestCidrs (files : List RouteFile) : List (String × String) :=
  written RouteFile.cidrContent [] files

/-- The file was missing after its latest map was read. -/
def DeletedSince (files : List RouteFile) : Prop := MetSince .missing RouteFile.content files

/-- The file could not be read after its latest version. -/
def UnreadableSince (files : List RouteFile) : Prop := MetSince .unreadable RouteFile.version files

/-- The container routes that a map lists. -/
def ListsContainer (map : List (String × String)) (containerIp hostIp : Ipv4Addr) : Prop :=
  ∃ entry ∈ map, Ipv4Addr.parse entry.1.toList = some containerIp ∧
    Ipv4Addr.parse entry.2.toList = some hostIp

section Versions

variable {files : List RouteFile} {file : RouteFile} {map : List (String × String)}
  {containerIp hostIp : Ipv4Addr}

/-- A file that was deleted lists nothing, and else the latest version is the latest map. -/
theorem latestVersion_eq : (DeletedSince files → latestVersion files = []) ∧
    (¬DeletedSince files → latestVersion files = latestContent files) := by
  refine written_reset (by rfl) ?_
  intro file present
  cases file with
  | missing => exact absurd rfl present
  | unreadable | unparsable | parsed => rfl

/-- The CIDR tables take a file that cannot be read for the empty map, and else the latest
version. -/
theorem latestCidrs_eq : (UnreadableSince files → latestCidrs files = []) ∧
    (¬UnreadableSince files → latestCidrs files = latestVersion files) := by
  refine written_reset (by rfl) ?_
  intro file readable
  cases file with
  | unreadable => exact absurd rfl readable
  | missing | unparsable | parsed => rfl

/-- A map that is empty in one case, and else another map, lists the same routes as that exactly
when in that case the other one lists none. -/
theorem lists_same_iff {Route : Type} {f : List (String × String) → Route → Prop}
    (empty : ∀ route, ¬f [] route) {Reset : Prop} {reset kept : List (String × String)}
    (resets : (Reset → reset = []) ∧ (¬Reset → reset = kept)) :
    (∀ route, f reset route ↔ f kept route) ↔ (Reset → ∀ route, ¬f kept route) := by
  by_cases cleared : Reset
  · rw [resets.1 cleared]
    simp [cleared, empty]
  · rw [resets.2 cleared]
    simp [cleared]

/-- The latest content lists each key once. -/
theorem latestContent_keys (wellFormed : ∀ file ∈ files, file.WellFormed) :
    ((latestContent files).map Prod.fst).Nodup := by
  induction files using List.reverseRecOn with
  | nil => exact List.nodup_nil
  | append_singleton files file ih =>
      rw [List.forall_mem_append] at wellFormed
      rw [latestContent, written_append, written_cons, written_nil]
      cases read : file.content with
      | none => exact ih wellFormed.1
      | some map => exact wellFormed.2 file (List.mem_singleton_self file) map read

/-- A container entry is a pair of IPs in text. -/
theorem containerEntry_iff {entry : String × String} :
    PeerManager.containerEntry entry = some (containerIp, hostIp) ↔
      Ipv4Addr.parse entry.1.toList = some containerIp ∧
        Ipv4Addr.parse entry.2.toList = some hostIp := by
  simp [PeerManager.containerEntry, Option.bind_eq_some_iff]

end Versions

section Tables

variable [Crates] {pm pm' : PeerManager} {containerFiles cidrFiles : List RouteFile}

/-- The route tables after the files were read in order, from tables without routes. -/
structure PeerManager.HasRead (pm : PeerManager) (containerFiles cidrFiles : List RouteFile) :
    Prop where
  containers : pm.subnetRoutes = (latestContent containerFiles).foldl insertContainer .empty
  cidrs : pm.subnetRoutesCidrs = sortedRoutes (v4Family.routes (latestCidrs cidrFiles))
  cidrsV6 : pm.subnetRoutesCidrsV6 = sortedRoutes (v6Family.routes (latestCidrs cidrFiles))

/-- The route tables hold exactly what the latest versions of their files list. -/
structure PeerManager.FollowsFiles (pm : PeerManager) (containerFiles cidrFiles : List RouteFile) :
    Prop where
  containers : ∀ containerIp hostIp, pm.findRoute containerIp = some hostIp ↔
    ListsContainer (latestVersion containerFiles) containerIp hostIp
  cidrs : ∀ net prefixLen gateway, (net, prefixLen, gateway) ∈ pm.subnetRoutesCidrs ↔
    ListsV4 (latestVersion cidrFiles) net prefixLen gateway
  cidrsV6 : ∀ net prefixLen gateway, (net, prefixLen, gateway) ∈ pm.subnetRoutesCidrsV6 ↔
    ListsV6 (latestVersion cidrFiles) net prefixLen gateway

namespace PeerManager

/-- What keeps the routes keeps what was read. -/
theorem HasRead.keeps (read : pm.HasRead containerFiles cidrFiles) (keeps : pm.KeepsRoutes pm') :
    pm'.HasRead containerFiles cidrFiles :=
  ⟨keeps.containers.trans read.containers, keeps.cidrs.trans read.cidrs,
    keeps.cidrsV6.trans read.cidrsV6⟩

/-- The tables after the files were read once more. -/
theorem HasRead.load (read : pm.HasRead containerFiles cidrFiles)
    (routes subnetRoutes : RouteFile) :
    ((pm.loadRoutes routes).loadSubnetRoutes subnetRoutes).HasRead (containerFiles ++ [routes])
      (cidrFiles ++ [subnetRoutes]) := by
  have containers : (pm.loadRoutes routes).subnetRoutes =
      (latestContent (containerFiles ++ [routes])).foldl insertContainer .empty := by
    rw [latestContent, written_append]
    cases routes with
    | missing | unreadable | unparsable => exact read.containers
    | parsed map =>
        rw [loadRoutes_parsed]
        rfl
  have v4 (pm : PeerManager) (map : List (String × String)) :
      (pm.loadSubnetRoutes (.parsed map)).subnetRoutesCidrs =
        sortedRoutes (v4Family.routes map) := by
    rw [loadSubnetRoutes_parsed]
    rfl
  have v6 (pm : PeerManager) (map : List (String × String)) :
      (pm.loadSubnetRoutes (.parsed map)).subnetRoutesCidrsV6 =
        sortedRoutes (v6Family.routes map) := by
    rw [loadSubnetRoutes_parsed]
    rfl
  have kept : (pm.loadRoutes routes).subnetRoutesCidrs = pm.subnetRoutesCidrs ∧
      (pm.loadRoutes routes).subnetRoutesCidrsV6 = pm.subnetRoutesCidrsV6 := by
    cases routes <;> exact ⟨rfl, rfl⟩
  have latest : latestCidrs (cidrFiles ++ [subnetRoutes]) =
      subnetRoutes.cidrContent.getD (latestCidrs cidrFiles) := by
    rw [latestCidrs, written_append]
    rfl
  cases subnetRoutes with
  | missing | unreadable => exact ⟨containers, by rw [latest]; rfl, by rw [latest]; rfl⟩
  | unparsable =>
      exact ⟨containers, by rw [latest]; exact kept.1.trans read.cidrs,
        by rw [latest]; exact kept.2.trans read.cidrsV6⟩
  | parsed map =>
      exact ⟨containers, by rw [latest]; exact v4 _ map, by rw [latest]; exact v6 _ map⟩

/-- No container route outlived its file, and no listed CIDR route was cleared. -/
structure Unspoiled (containerFiles cidrFiles : List RouteFile) : Prop where
  containers : DeletedSince containerFiles →
    ∀ containerIp hostIp, ¬ListsContainer (latestContent containerFiles) containerIp hostIp
  cidrs : UnreadableSince cidrFiles → ∀ net prefixLen gateway,
    ¬ListsV4 (latestVersion cidrFiles) net prefixLen gateway
  cidrsV6 : UnreadableSince cidrFiles → ∀ net prefixLen gateway,
    ¬ListsV6 (latestVersion cidrFiles) net prefixLen gateway

/-- What the tables hold is what the maps list that they took last. -/
theorem HasRead.holds (read : pm.HasRead containerFiles cidrFiles)
    (wellFormed : ∀ file ∈ containerFiles, file.WellFormed) :
    (∀ containerIp hostIp, pm.findRoute containerIp = some hostIp ↔
      ListsContainer (latestContent containerFiles) containerIp hostIp) ∧
    (∀ net prefixLen gateway, (net, prefixLen, gateway) ∈ pm.subnetRoutesCidrs ↔
      ListsV4 (latestCidrs cidrFiles) net prefixLen gateway) ∧
    ∀ net prefixLen gateway, (net, prefixLen, gateway) ∈ pm.subnetRoutesCidrsV6 ↔
      ListsV6 (latestCidrs cidrFiles) net prefixLen gateway := by
  refine ⟨fun containerIp hostIp => ?_, fun net prefixLen gateway => ?_,
    fun net prefixLen gateway => ?_⟩
  · rw [findRoute, read.containers, get_insertContainers (latestContent_keys wellFormed)]
    simp only [containerEntry_iff, ListsContainer]
  · rw [read.cidrs, (perm_sortedRoutes _).mem_iff]
    exact v4Family.mem_routes
  · rw [read.cidrsV6, (perm_sortedRoutes _).mem_iff]
    exact v6Family.mem_routes

/-- The tables follow their files exactly when no container route outlived its file and no listed
CIDR route was cleared. -/
theorem HasRead.follows_iff (read : pm.HasRead containerFiles cidrFiles)
    (wellFormed : ∀ file ∈ containerFiles, file.WellFormed) :
    pm.FollowsFiles containerFiles cidrFiles ↔ Unspoiled containerFiles cidrFiles := by
  obtain ⟨heldContainers, heldCidrs, heldCidrsV6⟩ := read.holds wellFormed
  have containers := lists_same_iff (f := fun map (route : Ipv4Addr × Ipv4Addr) =>
    ListsContainer map route.1 route.2) (by simp [ListsContainer]) (@latestVersion_eq containerFiles)
  have cidrs := lists_same_iff (f := fun map (route : Ipv4Addr × UInt8 × Ipv4Addr) =>
    ListsV4 map route.1 route.2.1 route.2.2) (by simp [ListsV4]) (@latestCidrs_eq cidrFiles)
  have cidrsV6 := lists_same_iff (f := fun map (route : Ipv6Addr × UInt8 × Ipv4Addr) =>
    ListsV6 map route.1 route.2.1 route.2.2) (by simp [ListsV6]) (@latestCidrs_eq cidrFiles)
  simp only [Prod.forall] at containers cidrs cidrsV6
  constructor
  · intro follows
    constructor
    · apply containers.mp
      intro containerIp hostIp
      rw [← follows.containers, heldContainers]
    · apply cidrs.mp
      intro net prefixLen gateway
      rw [← heldCidrs, follows.cidrs]
    · apply cidrsV6.mp
      intro net prefixLen gateway
      rw [← heldCidrsV6, follows.cidrsV6]
  · intro unspoiled
    constructor
    · intro containerIp hostIp
      rw [heldContainers, containers.mpr unspoiled.containers]
    · intro net prefixLen gateway
      rw [heldCidrs, cidrs.mpr unspoiled.cidrs]
    · intro net prefixLen gateway
      rw [heldCidrsV6, cidrsV6.mpr unspoiled.cidrsV6]

/-- Startup has read each file once. -/
theorem hasRead_startup (dns : String → Option (List SocketAddr)) (keypair : KeyPair)
    (now : Instant) (config : Config) (routes subnetRoutes : RouteFile) :
    (startupManager dns keypair now config routes subnetRoutes).HasRead [routes] [subnetRoutes] := by
  have none : new.HasRead [] [] := ⟨rfl, rfl, rfl⟩
  have step (pm : PeerManager) (pc : PeerConfig) :
      pm.Blocks (startupPeer dns keypair now pm pc) := by
    unfold startupPeer
    split
    · exact (addPeer_sameRest _).blocks
    · exact (SameRest.refl pm).blocks
  exact (none.keeps (foldl_blocks step new config.peers).toKeepsRoutes).load routes subnetRoutes

end PeerManager

namespace Node

/-- The route files that the events of a run read. -/
def filesRead (trace : List (Node × Event)) : List (RouteFile × RouteFile) :=
  trace.filterMap fun entry => entry.2.files

/-- An event has read the files that it names, and no other. -/
theorem Step.hasRead {node node' : Node} {event : Event} (step : Step node event node')
    (read : node.peerManager.HasRead containerFiles cidrFiles) :
    node'.peerManager.HasRead (containerFiles ++ event.files.toList.map Prod.fst)
      (cidrFiles ++ event.files.toList.map Prod.snd) := by
  cases files : event.files with
  | none => simpa using read.keeps (step.keepsRest files).rest.toKeepsRoutes
  | some pair =>
      obtain ⟨pm, blocks, rfl⟩ := step.reads files
      exact (read.keeps blocks.toKeepsRoutes).load pair.1 pair.2

/-- What the route tables hold at the end of a run. -/
theorem run_hasRead {start last : Node} {trace : List (Node × Event)}
    (run : Run Step start trace last) (read : start.peerManager.HasRead containerFiles cidrFiles) :
    last.peerManager.HasRead (containerFiles ++ (filesRead trace).map Prod.fst)
      (cidrFiles ++ (filesRead trace).map Prod.snd) := by
  induction run with
  | refl => simpa [filesRead] using read
  | @step trace state event next prior transition ih =>
      have after := transition.hasRead ih
      have files : filesRead (trace ++ [(state, event)]) =
          filesRead trace ++ event.files.toList := by
        rw [filesRead, List.filterMap_append]
        cases read : event.files <;> simp [filesRead, read]
      rw [files, List.map_append, List.map_append, ← List.append_assoc, ← List.append_assoc]
      exact after

/-- In every run from startup, the route tables hold what the latest versions of their files list,
exactly when routes.json was not missing after its latest map was read, or that map lists no
container route, and subnet-routes.json was not unreadable after its latest version, or that
version lists no CIDR route. -/
theorem routes_follow_iff {start last : Node} {trace : List (Node × Event)}
    (run : Run Step start trace last) {dns : String → Option (List SocketAddr)} {keypair : KeyPair}
    {now : Instant} {config : Config} {routes subnetRoutes : RouteFile}
    (started : start.peerManager = startupManager dns keypair now config routes subnetRoutes)
    (wellFormed : ∀ file ∈ routes :: (filesRead trace).map Prod.fst, file.WellFormed) :
    last.peerManager.FollowsFiles (routes :: (filesRead trace).map Prod.fst)
        (subnetRoutes :: (filesRead trace).map Prod.snd) ↔
      PeerManager.Unspoiled (routes :: (filesRead trace).map Prod.fst)
        (subnetRoutes :: (filesRead trace).map Prod.snd) :=
  (run_hasRead run (started ▸ PeerManager.hasRead_startup dns keypair now config routes
    subnetRoutes)).follows_iff wellFormed

end Node
end Tables

namespace Node

section Sample

attribute [local instance] Sample.crates

/-- The route file of one container on the host 10.10.10.2, and of one network behind it. -/
def containerFile : RouteFile := .parsed [("10.0.0.5", "10.10.10.2")]

def cidrFile : RouteFile := .parsed [("172.17.0.0/16", "10.10.10.2")]

/-- A node that read the two files at startup. -/
def containerNode : Node :=
  Sample.node 1 false (startupManager (fun _ => none) (Sample.keypair 1) 0
    (Sample.node 1 false .new).config containerFile cidrFile)

/-- A SIGHUP with the config unchanged and the given route files. -/
def sighup (routes subnetRoutes : RouteFile) : Event :=
  .reload (fun _ => none) 5 containerNode.config routes subnetRoutes

/-- The node after that. -/
def afterSighup (routes subnetRoutes : RouteFile) : Node :=
  containerNode.withManager (reloadPeers (fun _ => none) containerNode.keypair 5
    containerNode.peerManager containerNode.config routes subnetRoutes)

/-- A hangup is a run of one event. -/
theorem run_sighup (routes subnetRoutes : RouteFile) :
    Run Step containerNode [(containerNode, sighup routes subnetRoutes)]
      (afterSighup routes subnetRoutes) :=
  Run.refl.step ⟨[], rfl⟩

/-- A file that lists no container leaves none in the table, and one that does not parse leaves the
CIDR routes. -/
theorem routes_follow_iff_sample :
    (afterSighup (.parsed []) .unparsable).peerManager.FollowsFiles [containerFile, .parsed []]
      [cidrFile, .unparsable] := by
  refine (routes_follow_iff (run_sighup (.parsed []) .unparsable) rfl ?_).mpr ?_
  · intro file member map content
    rcases List.mem_pair.mp member with rfl | rfl <;> cases content <;> decide
  · have readable : ¬UnreadableSince [cidrFile, .unparsable] := by
      rintro ⟨before, after, whole, _⟩
      have member : RouteFile.unreadable ∈ [cidrFile, .unparsable] := by simp [whole]
      exact absurd member (by decide)
    refine ⟨?_, fun unreadable => absurd unreadable readable,
      fun unreadable => absurd unreadable readable⟩
    rintro - containerIp hostIp ⟨_, member, _⟩
    cases member

/-- After routes.json was deleted, a reload keeps the routes that it had listed; and one that finds
subnet-routes.json unreadable clears the routes that its latest version lists. -/
theorem routes_outlive_file :
    (Run Step containerNode [(containerNode, sighup .missing cidrFile)]
        (afterSighup .missing cidrFile) ∧
      (afterSighup .missing cidrFile).peerManager.findRoute ⟨10, 0, 0, 5⟩ =
        some ⟨10, 10, 10, 2⟩ ∧
      ¬(afterSighup .missing cidrFile).peerManager.FollowsFiles [containerFile, .missing]
        [cidrFile, cidrFile]) ∧
    Run Step containerNode [(containerNode, sighup containerFile .unreadable)]
        (afterSighup containerFile .unreadable) ∧
      (afterSighup containerFile .unreadable).peerManager.subnetRoutesCidrs = [] ∧
      ¬(afterSighup containerFile .unreadable).peerManager.FollowsFiles
        [containerFile, containerFile] [cidrFile, .unreadable] := by
  have kept : (afterSighup .missing cidrFile).peerManager.findRoute ⟨10, 0, 0, 5⟩ =
      some ⟨10, 10, 10, 2⟩ := rfl
  have cleared : (afterSighup containerFile .unreadable).peerManager.subnetRoutesCidrs = [] := rfl
  refine ⟨⟨run_sighup _ _, kept, fun follows => ?_⟩, run_sighup _ _, cleared, fun follows => ?_⟩
  · obtain ⟨_, member, _⟩ := (follows.containers _ _).mp kept
    cases member
  · have listed : PeerManager.ListsV4 (latestVersion [cidrFile, .unreadable]) ⟨172, 17, 0, 0⟩ 16
        ⟨10, 10, 10, 2⟩ :=
      PeerManager.v4Family.mem_routes.mp (by decide)
    have held := (follows.cidrs _ _ _).mpr listed
    rw [cleared] at held
    cases held

end Sample
end Node
end WolfNet
