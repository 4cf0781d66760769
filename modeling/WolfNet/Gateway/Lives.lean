import WolfNet.Gateway
import WolfNet.Std.Lines

/-!
# The gateway over the lives of a daemon

A daemon that is started and stopped leaves the packet filter as it found it, and one that crashes
leaves one more copy of each of its rules. Other rules are never touched, and keep their order. What a
start assigns to the kernel stays: no shutdown takes it back.
-/

namespace WolfNet.Gateway

open WolfNet.Std WolfNet.Semantics

variable {Rule : Type} [DecidableEq Rule]

section Foreign

variable {read : List String → Rule} {wolfnetInterface subnet : String}
  {foreign : Chain × Rule → Bool} {before host next : Host Rule} {entry : Chain × Rule}

/-- The rules of a host that are foreign to the gateway are those of another, in the same order. -/
def KeepsForeign (foreign : Chain × Rule → Bool) (before host : Host Rule) : Prop :=
  ∀ chain, (host.chains chain).filter (fun rule => foreign (chain, rule)) =
    (before.chains chain).filter fun rule => foreign (chain, rule)

omit [DecidableEq Rule] in
/-- Appending a rule of the gateway's leaves foreign rules. -/
theorem KeepsForeign.append (keeps : KeepsForeign foreign before host)
    (native : foreign entry = false) : KeepsForeign foreign before (host.append entry) := by
  intro chain
  rw [← keeps chain]
  by_cases here : chain = entry.1
  · subst here
    simp [Host.append, native]
  · simp [Host.append, Function.update_of_ne here]

/-- Deleting a rule of the gateway's leaves foreign rules. -/
theorem KeepsForeign.delete (keeps : KeepsForeign foreign before host)
    (native : foreign entry = false) (deleted : host.delete entry = some next) :
    KeepsForeign foreign before next := by
  obtain ⟨there, made⟩ := Option.ite_none_right_eq_some.mp deleted
  cases made
  intro chain
  rw [← keeps chain]
  by_cases here : chain = entry.1
  · subst here
    obtain ⟨front, back, _, split, erased⟩ := List.exists_erase_eq there
    simp only [Function.update_self, erased]
    rw [split]
    simp [native]
  · simp [Function.update_of_ne here]

/-- No rule of the gateway's is among them. -/
def IsForeign (read : List String → Rule) (wolfnetInterface subnet : String)
    (foreign : Chain × Rule → Bool) : Prop :=
  ∀ extIface, ∀ entry ∈ own read wolfnetInterface subnet extIface ++ [legacy read subnet extIface],
    foreign entry = false

/-- Dropping the legacy rule leaves foreign rules. -/
theorem dropLegacy_keepsForeign (apart : IsForeign read wolfnetInterface subnet foreign)
    (extIface : String) (count : Nat) :
    Commands.Preserves (KeepsForeign foreign before) (dropLegacy read subnet extIface count) := by
  induction count with
  | zero => exact Commands.preserves_pure _
  | succ count ih =>
      refine Commands.preserves_bind (Commands.preserves_invoke fun host next keeps deleted =>
        keeps.delete (apart extIface _ (by simp [legacy])) deleted) fun answer => ?_
      split
      · exact ih
      · exact Commands.preserves_pure _

/-- Enabling the gateway leaves foreign rules. -/
theorem enableGateway_keepsForeign (apart : IsForeign read wolfnetInterface subnet foreign)
    (route : Option (List UInt8)) : Commands.Preserves (KeepsForeign foreign before)
      (enableGateway read wolfnetInterface subnet route) := by
  have assigns (assignment : String) : Commands.Preserves (KeepsForeign foreign before)
      (Commands.invoke (sysctl ["-w", assignment])) := by
    refine Commands.preserves_invoke fun host next keeps assigned => ?_
    cases assigned
    exact keeps
  have appends (extIface : String) (entry : Chain × Rule)
      (owned : entry ∈ own read wolfnetInterface subnet extIface) :
      Commands.Preserves (KeepsForeign foreign before)
        (Commands.invoke fun host => some (host.append entry)) := by
    refine Commands.preserves_invoke fun host next keeps appended => ?_
    cases appended
    exact keeps.append (apart extIface entry (List.mem_append_left _ owned))
  unfold enableGateway
  split
  · exact Commands.preserves_pure _
  next extIface _ =>
  refine Commands.preserves_bind (assigns _) fun _ => Commands.preserves_bind (assigns _) fun _ =>
    Commands.preserves_bind (assigns _) fun _ => Commands.preserves_bind (assigns _) fun _ => ?_
  refine Commands.preserves_bind (appends extIface _ (by simp [own])) fun answer => ?_
  split
  · exact Commands.preserves_pure _
  refine Commands.preserves_bind (appends extIface _ (by simp [own])) fun answer => ?_
  split
  · exact Commands.preserves_pure _
  refine Commands.preserves_bind (appends extIface _ (by simp [own])) fun answer => ?_
  split
  · exact Commands.preserves_pure _
  exact Commands.preserves_bind (dropLegacy_keepsForeign apart extIface 4) fun _ =>
    Commands.preserves_pure _

/-- Disabling the gateway leaves foreign rules. -/
theorem disableGateway_keepsForeign (apart : IsForeign read wolfnetInterface subnet foreign)
    (route : Option (List UInt8)) : Commands.Preserves (KeepsForeign foreign before)
      (disableGateway read wolfnetInterface subnet route) := by
  have deletes (extIface : String) (entry : Chain × Rule)
      (native : entry ∈ own read wolfnetInterface subnet extIface ++ [legacy read subnet extIface]) :
      Commands.Preserves (KeepsForeign foreign before) (Commands.invoke (Host.delete · entry)) :=
    Commands.preserves_invoke fun host next keeps deleted =>
      keeps.delete (apart extIface entry native) deleted
  unfold disableGateway
  generalize (detectExternalInterface route).getD "" = extIface
  dsimp only
  split
  · exact Commands.preserves_pure _
  · refine Commands.preserves_bind (deletes extIface _ (by simp [own])) fun _ => ?_
    refine Commands.preserves_bind (deletes extIface _ (by simp [own])) fun _ => ?_
    refine Commands.preserves_bind (deletes extIface _ (by simp [own])) fun _ => ?_
    exact Commands.preserves_bind (deletes extIface _ (by simp [legacy])) fun _ =>
      Commands.preserves_pure _

end Foreign

/-- The host, and the external interface that the running daemon found when it started. -/
structure Machine (Rule : Type) where
  host : Host Rule
  serving : Option (Option String)

/-- What becomes of a daemon: it starts and ends with what `ip` prints, or it crashes. -/
inductive Life where
  | start (route : Option (List UInt8)) (fates : List Invocation)
  | stop (route : Option (List UInt8)) (fates : List Invocation)
  | crash

section Lives

variable (read : List String → Rule) (wolfnetInterface subnet : String)

/-- The machine after a turn in the daemon's life. A start that is killed leaves no daemon. -/
def Machine.after (machine : Machine Rule) : Life → Machine Rule
  | .start route fates =>
    match enableGateway read wolfnetInterface subnet route ⟨machine.host, fates⟩ with
    | (some _, session) => ⟨session.host, some (detectExternalInterface route)⟩
    | (none, session) => ⟨session.host, none⟩
  | .stop route fates =>
    ⟨(disableGateway read wolfnetInterface subnet route ⟨machine.host, fates⟩).2.host, none⟩
  | .crash => ⟨machine.host, none⟩

/-- One turn: only a machine without a daemon starts one. -/
def Machine.Step : Transition (Machine Rule) Life
  | machine, .start route fates, next =>
    machine.serving = none ∧ next = machine.after read wolfnetInterface subnet (.start route fates)
  | machine, life, next =>
    machine.serving.isSome = true ∧ next = machine.after read wolfnetInterface subnet life

/-- All commands of the turn run, and a shutdown finds the interface that the start found. -/
def Undisturbed (machine : Machine Rule) : Life → Prop
  | .start _ fates => fates = []
  | .stop route fates => fates = [] ∧ machine.serving = some (detectExternalInterface route)
  | .crash => True

/-- The interface that the running daemon serves. -/
def Machine.served (machine : Machine Rule) : List String := (machine.serving.getD none).toList

/-- The interfaces that daemons were started for. -/
def started (trace : List (Machine Rule × Life)) : List String :=
  trace.flatMap fun
    | (_, .start route _) => (detectExternalInterface route).toList
    | _ => []

/-- The interfaces that daemons crashed on. -/
def crashed (trace : List (Machine Rule × Life)) : List String :=
  trace.flatMap fun
    | (machine, .crash) => machine.served
    | _ => []

/-- The interfaces that shutdowns cleaned up. -/
def stopped (trace : List (Machine Rule × Life)) : List String :=
  trace.flatMap fun
    | (machine, .stop ..) => machine.served
    | _ => []

variable {read wolfnetInterface subnet} {start last machine next : Machine Rule}
  {trace : List (Machine Rule × Life)} {life : Life}

/-- Whatever a daemon's life comes to, foreign rules are left. -/
theorem Machine.Step.keepsForeign {foreign : Chain × Rule → Bool}
    (apart : IsForeign read wolfnetInterface subnet foreign) {before : Host Rule}
    (step : Machine.Step read wolfnetInterface subnet machine life next)
    (keeps : KeepsForeign foreign before machine.host) : KeepsForeign foreign before next.host := by
  cases life with
  | start route fates =>
      have kept := enableGateway_keepsForeign apart route ⟨machine.host, fates⟩ keeps
      rw [step.2, Machine.after]
      split
      · next run => rwa [run] at kept
      · next run => rwa [run] at kept
  | stop route fates =>
      rw [step.2]
      exact disableGateway_keepsForeign apart route ⟨machine.host, fates⟩ keeps
  | crash =>
      rw [step.2]
      exact keeps

/-- A daemon whose start nothing disturbs serves what it found. -/
theorem Machine.serving_after_start (machine : Machine Rule) (route : Option (List UInt8)) :
    (machine.after read wolfnetInterface subnet (.start route [])).serving =
      some (detectExternalInterface route) := by
  cases detected : detectExternalInterface route with
  | none =>
      have refused : enableGateway read wolfnetInterface subnet route ⟨machine.host, []⟩ =
          (some (.error "Could not detect external network interface"), ⟨machine.host, []⟩) := by
        unfold enableGateway
        rw [detected]
        rfl
      simp [Machine.after, refused, detected]
  | some extIface =>
      obtain ⟨host, run, _⟩ := enableGateway_undisturbed read wolfnetInterface subnet detected
        machine.host
      simp [Machine.after, run, detected]

/-- A turn that nothing disturbs: what it does to the settings, and to the copies of any rule. -/
theorem Machine.Step.calm_turn (step : Machine.Step read wolfnetInterface subnet machine life next)
    (calm : Undisturbed machine life) (entry : Chain × Rule) :
    match life with
    | .start route _ => machine.served = [] ∧ next.served = (detectExternalInterface route).toList ∧
      next.host.settings = machine.host.settings ++ next.served.flatMap (assignments wolfnetInterface) ∧
      next.host.copies entry = machine.host.copies entry +
        (next.served.flatMap (own read wolfnetInterface subnet)).count entry -
          4 * (next.served.map (legacy read subnet)).count entry
    | .stop .. => next.served = [] ∧ next.host.settings = machine.host.settings ∧
      next.host.copies entry = machine.host.copies entry -
        ((machine.served.flatMap (own read wolfnetInterface subnet)).count entry +
          (machine.served.map (legacy read subnet)).count entry)
    | .crash => next.served = [] ∧ next.host = machine.host := by
  cases life with
  | start route fates =>
      obtain ⟨down, rfl⟩ := step
      cases calm
      refine ⟨by simp [Machine.served, down], ?_⟩
      cases detected : detectExternalInterface route with
      | none =>
          have refused : enableGateway read wolfnetInterface subnet route ⟨machine.host, []⟩ =
              (some (.error "Could not detect external network interface"), ⟨machine.host, []⟩) := by
            unfold enableGateway
            rw [detected]
            rfl
          simp [Machine.after, refused, Machine.served, detected]
      | some extIface =>
          obtain ⟨host, run, settings, copies⟩ := enableGateway_undisturbed read wolfnetInterface subnet
            detected machine.host
          simp [Machine.after, run, Machine.served, detected, settings, copies]
  | stop route fates =>
      obtain ⟨_, rfl⟩ := step
      obtain ⟨rfl, found⟩ := calm
      refine ⟨rfl, ?_⟩
      cases detected : detectExternalInterface route with
      | none =>
          have idle : disableGateway read wolfnetInterface subnet route ⟨machine.host, []⟩ =
              (some (), ⟨machine.host, []⟩) := by
            unfold disableGateway
            rw [detected]
            rfl
          simp [Machine.after, idle, Machine.served, found, detected]
      | some extIface =>
          obtain ⟨host, run, settings, copies⟩ := disableGateway_undisturbed read wolfnetInterface
            subnet detected (detectExternalInterface_ne detected) machine.host
          simp [Machine.after, run, Machine.served, found, detected, settings, copies]
  | crash =>
      obtain ⟨_, rfl⟩ := step
      exact ⟨rfl, rfl⟩

/-- A rule of today's is none of the legacy ones. -/
theorem count_legacy_of_own {extIface : String} {entry : Chain × Rule}
    (owned : entry ∈ own read wolfnetInterface subnet extIface) (extIfaces : List String) :
    (extIfaces.map (legacy read subnet)).count entry = 0 := by
  refine List.count_eq_zero_of_not_mem fun member => ?_
  obtain ⟨other, _, rfl⟩ := List.mem_map.mp member
  simp [own, legacy] at owned

/-- The legacy rule is none of today's. -/
theorem count_own_of_legacy (extIface : String) (extIfaces : List String) :
    (extIfaces.flatMap (own read wolfnetInterface subnet)).count (legacy read subnet extIface) = 0 := by
  refine List.count_eq_zero_of_not_mem fun member => ?_
  obtain ⟨other, _, owned⟩ := List.mem_flatMap.mp member
  simp [own, legacy] at owned

/-- What undisturbed lives make of the host. -/
structure Balanced (read : List String → Rule) (wolfnetInterface subnet : String) (before : Host Rule)
    (trace : List (Machine Rule × Life)) (machine : Machine Rule) : Prop where
  assigned : machine.host.settings =
    before.settings ++ (started trace).flatMap (assignments wolfnetInterface)
  added : ∀ extIface, ∀ entry ∈ own read wolfnetInterface subnet extIface,
    machine.host.copies entry = before.copies entry +
      ((crashed trace ++ machine.served).flatMap (own read wolfnetInterface subnet)).count entry
  cleared : ∀ extIface, machine.host.copies (legacy read subnet extIface) =
    before.copies (legacy read subnet extIface) -
      (4 * ((started trace).map (legacy read subnet)).count (legacy read subnet extIface) +
        ((stopped trace).map (legacy read subnet)).count (legacy read subnet extIface))

/-- An undisturbed start, stop or crash keeps the account of the rules. -/
theorem Balanced.step {before : Host Rule}
    (balanced : Balanced read wolfnetInterface subnet before trace machine)
    (step : Machine.Step read wolfnetInterface subnet machine life next)
    (calm : Undisturbed machine life) :
    Balanced read wolfnetInterface subnet before (trace ++ [(machine, life)]) next := by
  have turn := step.calm_turn calm
  cases life with
  | start route fates =>
      obtain ⟨idle, served, settings, _⟩ := turn (legacy read subnet "")
      refine ⟨?_, fun extIface entry owned => ?_, fun extIface => ?_⟩
      · simp [settings, balanced.assigned, started, served]
      · have copies := (turn entry).2.2.2
        have before := balanced.added extIface entry owned
        rw [count_legacy_of_own owned] at copies
        simp only [idle, crashed, List.flatMap_append, List.flatMap_singleton, List.count_append,
          List.append_nil] at before ⊢
        omega
      · have copies := (turn (legacy read subnet extIface)).2.2.2
        have before := balanced.cleared extIface
        rw [count_own_of_legacy, served] at copies
        simp only [started, stopped, List.flatMap_append, List.flatMap_singleton, List.map_append,
          List.count_append, List.append_nil] at before ⊢
        omega
  | stop route fates =>
      obtain ⟨idle, settings, _⟩ := turn (legacy read subnet "")
      refine ⟨?_, fun extIface entry owned => ?_, fun extIface => ?_⟩
      · simpa [settings, started] using balanced.assigned
      · have copies := (turn entry).2.2
        have before := balanced.added extIface entry owned
        rw [count_legacy_of_own owned] at copies
        simp only [idle, crashed, List.flatMap_append, List.flatMap_singleton, List.count_append,
          List.append_nil] at before ⊢
        omega
      · have copies := (turn (legacy read subnet extIface)).2.2
        have before := balanced.cleared extIface
        rw [count_own_of_legacy] at copies
        simp only [started, stopped, List.flatMap_append, List.flatMap_singleton, List.map_append,
          List.count_append, List.append_nil] at before ⊢
        omega
  | crash =>
      obtain ⟨idle, same⟩ := turn (legacy read subnet "")
      refine ⟨?_, fun extIface entry owned => ?_, fun extIface => ?_⟩
      · simpa [same, started] using balanced.assigned
      · simpa [same, idle, crashed] using balanced.added extIface entry owned
      · simpa [same, started, stopped] using balanced.cleared extIface

/-- Whatever is invoked, fails or is killed over the lives of a daemon, the rules of others stay as they
are. Where nothing is disturbed, there are as many more copies of the gateway's rules as daemons crashed
or run, the rule of earlier versions is deleted four times a start and once a stop, and all kernel
settings that a start assigned are left assigned. -/
theorem lives_balanced (run : Run (Machine.Step read wolfnetInterface subnet) start trace last)
    (down : start.serving = none) :
    (∀ foreign, IsForeign read wolfnetInterface subnet foreign →
      KeepsForeign foreign start.host last.host) ∧
    (Throughout Undisturbed trace →
      Balanced read wolfnetInterface subnet start.host trace last) := by
  constructor
  · intro foreign apart
    have kept : Always (fun machine => KeepsForeign foreign start.host machine.host) trace last :=
      run.always (fun keeps (_ : True) step => step.keepsForeign apart keeps) (fun _ => rfl)
        fun _ _ => trivial
    exact kept.2
  · intro calm
    induction run with
    | refl => exact ⟨by simp [started], by simp [crashed, Machine.served, down],
        by simp [started, stopped]⟩
    | step prior transition ih =>
        obtain ⟨before, here⟩ := throughout_snoc.mp calm
        exact (ih before).step transition here

end Lives

section Sample

/-- A daemon that crashes, and one that is started and stopped after it. -/
def crashAndRestart (route : Option (List UInt8)) : List Life :=
  [.start route [], .crash, .start route [], .stop route []]

variable (read : List String → Rule) (wolfnetInterface subnet : String) (host : Host Rule)
  (route : Option (List UInt8))

/-- The run of these lives on a host. -/
def livesOn : List (Machine Rule × Life) :=
  traceOf (Machine.after read wolfnetInterface subnet) ⟨host, none⟩ (crashAndRestart route)

/-- The lives are a run of the machine. -/
theorem livesOn_run : Run (Machine.Step read wolfnetInterface subnet) ⟨host, none⟩
    (livesOn read wolfnetInterface subnet host route)
    ((crashAndRestart route).foldl (Machine.after read wolfnetInterface subnet) ⟨host, none⟩) := by
  have up (machine : Machine Rule) :
      (machine.after read wolfnetInterface subnet (.start route [])).serving.isSome = true := by
    rw [Machine.serving_after_start]
    rfl
  refine Run.of_traceOf fun entry member => ?_
  simp only [crashAndRestart, traceOf, List.mem_cons, List.not_mem_nil, or_false] at member
  rcases member with rfl | rfl | rfl | rfl
  · exact ⟨rfl, rfl⟩
  · exact ⟨up _, rfl⟩
  · exact ⟨rfl, rfl⟩
  · exact ⟨up _, rfl⟩

/-- Nothing disturbs them. -/
theorem livesOn_undisturbed :
    Throughout Undisturbed (livesOn read wolfnetInterface subnet host route) := by
  intro entry member
  simp only [livesOn, crashAndRestart, traceOf, List.mem_cons, List.not_mem_nil, or_false] at member
  rcases member with rfl | rfl | rfl | rfl
  · exact rfl
  · trivial
  · exact rfl
  · exact ⟨rfl, Machine.serving_after_start _ _⟩

/-- What `ip route show default` prints on a sample host. -/
def sampleRoute : Option (List UInt8) := some (utf8 "default via 192.0.2.1 dev eth0 proto static")

example : detectExternalInterface sampleRoute = some "eth0" := by decide

/-- A crash leaves one copy of each rule behind, which the daemon after it does not clear. -/
theorem lives_balanced_sample : Balanced id "wolfnet0" "10.10.10.1/24" ⟨fun _ => [], []⟩
    (livesOn id "wolfnet0" "10.10.10.1/24" ⟨fun _ => [], []⟩ sampleRoute)
    ((crashAndRestart sampleRoute).foldl (Machine.after id "wolfnet0" "10.10.10.1/24")
      ⟨⟨fun _ => [], []⟩, none⟩) :=
  (lives_balanced (livesOn_run id _ _ _ sampleRoute) rfl).2 (livesOn_undisturbed id _ _ _ sampleRoute)

end Sample
end WolfNet.Gateway
