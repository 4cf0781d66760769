import WolfNet.Daemon.Emissions
import WolfNet.Semantics.Polling
import WolfNet.Semantics.Projection

/-!
# The main loop

The daemon looks whether it is to run on, waits until a packet or a datagram is there, takes all that
are, and then comes by each of its periodic jobs and by the reload request that SIGHUP leaves. Signals
and the discovery listener may step in anywhere. `MainLoop.Step` is one turn of this, with the clock it is taken at.
-/

namespace WolfNet

open WolfNet.Std WolfNet.Semantics

section Daemon

variable [Crates]

/-- The periodic jobs, in the order in which the loop comes by. -/
inductive Job where
  | handshakes
  | keepalives
  | peerExchange
  | resolve
  | readRoutes
deriving DecidableEq

/-- What the daemon finds outside: the DNS, and the two route files. -/
structure Outside where
  dns : String → Option (List SocketAddr)
  routes : RouteFile
  subnetRoutes : RouteFile

/-- Where the loop is in an iteration. -/
inductive Phase where
  | top
  | polling
  | outbound (inboundReady : Bool)
  | inbound
  | check (job : Job)
  | reset (job : Job)
  | reload
  | load
  | stopped
deriving DecidableEq

namespace Job

/-- The time between two turns of a job, in nanoseconds. -/
def period : Job → Nat
  | .handshakes => 10 * 1000000000
  | .keepalives => 25 * 1000000000
  | .peerExchange => 30 * 1000000000
  | .resolve => 60 * 1000000000
  | .readRoutes => 15 * 1000000000

/-- What the node does in a job. -/
def event (outside : Outside) (now : Instant) : Job → Node.Event
  | .handshakes => .handshakes now
  | .keepalives => .keepalives now
  | .peerExchange => .peerExchange now
  | .resolve => .resolve outside.dns
  | .readRoutes => .readRoutes outside.routes outside.subnetRoutes

/-- Where the loop goes after a job. -/
def next : Job → Phase
  | .handshakes => .check .keepalives
  | .keepalives => .check .peerExchange
  | .peerExchange => .check .resolve
  | .resolve => .check .readRoutes
  | .readRoutes => .reload

omit [Crates] in
/-- After a job no timer is reset. -/
theorem next_ne_reset (job other : Job) : job.next ≠ .reset other := by
  cases job <;> simp [next]

omit [Crates] in
/-- After a job no config is loaded. -/
theorem next_ne_load (job : Job) : job.next ≠ .load := by
  cases job <;> simp [next]

end Job

/-- Where the loop goes after it waited. Nothing is read where the wait timed out or was interrupted;
where neither descriptor is readable the loop sleeps and begins again. -/
def Phase.afterPoll : Option (Bool × Bool) → Phase
  | none => .check .handshakes
  | some (false, false) => .top
  | some (true, inboundReady) => .outbound inboundReady
  | some (false, true) => .inbound

/-- Where the loop goes when a descriptor has no more to read. -/
def Phase.drained (inboundReady : Bool) : Phase :=
  if inboundReady then .inbound else .check .handshakes

omit [Crates] in
/-- After the polling no timer is reset. -/
theorem Phase.afterPoll_ne_reset (ready : Option (Bool × Bool)) (job : Job) :
    Phase.afterPoll ready ≠ .reset job := by
  unfold Phase.afterPoll
  split <;> simp

omit [Crates] in
/-- After the polling no config is loaded. -/
theorem Phase.afterPoll_ne_load (ready : Option (Bool × Bool)) : Phase.afterPoll ready ≠ .load := by
  unfold Phase.afterPoll
  split <;> simp

omit [Crates] in
/-- After the reading no timer is reset. -/
theorem Phase.drained_ne_reset (inboundReady : Bool) (job : Job) :
    Phase.drained inboundReady ≠ .reset job := by
  unfold Phase.drained
  split_ifs <;> simp

omit [Crates] in
/-- After the reading no config is loaded. -/
theorem Phase.drained_ne_load (inboundReady : Bool) : Phase.drained inboundReady ≠ .load := by
  unfold Phase.drained
  split_ifs <;> simp

/-- A turn of the loop, or of what runs beside it. -/
inductive Turn where
  | elapse (now : Instant)
  | interrupt
  | hangup
  | beside (event : Node.Event)
  | stop
  | enter
  | poll (ready : Option (Bool × Bool))
  | packet (bytes : List UInt8) (effects : List Effect)
  | datagram (src : SocketAddr) (bytes : List UInt8) (effects : List Effect)
  | drained
  | skip (job : Job)
  | work (job : Job) (outside : Outside) (effects : List Effect)
  | reset (job : Job)
  | asked (reload : Bool)
  | refuse
  | load (newConfig : Config) (outside : Outside)

/-- The daemon with its main loop. -/
structure MainLoop where
  node : Node
  clock : Instant
  phase : Phase
  last : Job → Instant
  running : Bool
  reloadFlag : Bool

/-- What a turn at a time is to the node. -/
def Turn.event (now : Instant) : Turn → Option Node.Event
  | .beside event => some event
  | .packet bytes _ => some (.tun now bytes)
  | .datagram src bytes _ => some (.tunnel now src bytes)
  | .work job outside _ => some (job.event outside now)
  | .load newConfig outside =>
    some (.reload outside.dns now newConfig outside.routes outside.subnetRoutes)
  | _ => none

/-- What a turn lets out. -/
def Turn.effects : Turn → List Effect
  | .packet _ effects => effects
  | .datagram _ _ effects => effects
  | .work _ _ effects => effects
  | _ => []

/-- What a turn is to the timer of a job. -/
def Turn.tick (job : Job) : Turn → Option Timer.Tick
  | .elapse now => some (.elapse now)
  | .skip other => if other = job then some .skip else none
  | .work other .. => if other = job then some .fire else none
  | .reset other => if other = job then some .arm else none
  | _ => none

omit [Crates] in
/-- A turn that the job's timer does not see is another job's. -/
theorem Turn.ne_of_tick {job other : Job} {tick : Timer.Tick}
    (unseen : (if other = job then some tick else none) = none) : other ≠ job := by
  simpa using unseen

/-- What happens to a node beside the loop: the discovery listener takes a datagram, or a table is
met in another order. -/
inductive Node.Event.Beside : Node.Event → Prop where
  | reorder : Beside .reorder
  | discovery (src : SocketAddr) (bytes : List UInt8) : Beside (.discovery src bytes)

namespace MainLoop

/-- More than the period has passed since the job's last turn. -/
def due (loop : MainLoop) (job : Job) : Bool := job.period < loop.clock - loop.last job

/-- One turn. The buffers hold 65536 bytes, and an empty read ends the reading. -/
inductive Step : MainLoop → Turn → MainLoop → Prop where
  | elapse {loop : MainLoop} {now : Instant} (later : loop.clock ≤ now) :
      Step loop (.elapse now) { loop with clock := now }
  | interrupt {loop : MainLoop} : Step loop .interrupt { loop with running := false }
  | hangup {loop : MainLoop} : Step loop .hangup { loop with reloadFlag := true }
  | beside {loop : MainLoop} {event : Node.Event} {node : Node} {effects : List Effect}
      (beside : event.Beside) (does : loop.node.Does event node effects) :
      Step loop (.beside event) { loop with node := node }
  | stop {loop : MainLoop} (here : loop.phase = .top) (ended : loop.running = false) :
      Step loop .stop { loop with phase := .stopped }
  | enter {loop : MainLoop} (here : loop.phase = .top) (running : loop.running = true) :
      Step loop .enter { loop with phase := .polling }
  | poll {loop : MainLoop} {ready : Option (Bool × Bool)} (here : loop.phase = .polling) :
      Step loop (.poll ready) { loop with phase := .afterPoll ready }
  | packet {loop : MainLoop} {inboundReady : Bool} {bytes : List UInt8} {node : Node}
      {effects : List Effect} (here : loop.phase = .outbound inboundReady)
      (size : 0 < bytes.length ∧ bytes.length ≤ 65536)
      (does : loop.node.Does (.tun loop.clock bytes) node effects) :
      Step loop (.packet bytes effects) { loop with node := node }
  | outboundDrained {loop : MainLoop} {inboundReady : Bool}
      (here : loop.phase = .outbound inboundReady) :
      Step loop .drained { loop with phase := .drained inboundReady }
  | datagram {loop : MainLoop} {src : SocketAddr} {bytes : List UInt8} {node : Node}
      {effects : List Effect} (here : loop.phase = .inbound)
      (size : 0 < bytes.length ∧ bytes.length ≤ 65536)
      (does : loop.node.Does (.tunnel loop.clock src bytes) node effects) :
      Step loop (.datagram src bytes effects) { loop with node := node }
  | inboundDrained {loop : MainLoop} (here : loop.phase = .inbound) :
      Step loop .drained { loop with phase := .check .handshakes }
  | skip {loop : MainLoop} {job : Job} (here : loop.phase = .check job)
      (early : loop.due job = false) :
      Step loop (.skip job) { loop with phase := job.next }
  | work {loop : MainLoop} {job : Job} {outside : Outside} {node : Node} {effects : List Effect}
      (here : loop.phase = .check job) (due : loop.due job = true)
      (does : loop.node.Does (job.event outside loop.clock) node effects) :
      Step loop (.work job outside effects) { loop with node := node, phase := .reset job }
  | reset {loop : MainLoop} {job : Job} (here : loop.phase = .reset job) :
      Step loop (.reset job)
        { loop with last := Function.update loop.last job loop.clock, phase := job.next }
  | asked {loop : MainLoop} (here : loop.phase = .reload) :
      Step loop (.asked loop.reloadFlag)
        { loop with reloadFlag := false, phase := if loop.reloadFlag then .load else .top }
  | refuse {loop : MainLoop} (here : loop.phase = .load) :
      Step loop .refuse { loop with phase := .top }
  | load {loop : MainLoop} {newConfig : Config} {outside : Outside} {node : Node}
      {effects : List Effect} (here : loop.phase = .load)
      (does : loop.node.Does (.reload outside.dns loop.clock newConfig outside.routes
        outside.subnetRoutes) node effects) :
      Step loop (.load newConfig outside) { loop with node := node, phase := .top }

/-- The loop after a turn, where it can take this turn and meets the tables in their present order. -/
def take (loop : MainLoop) : Turn → Option MainLoop
  | .elapse now => if loop.clock ≤ now then some { loop with clock := now } else none
  | .interrupt => some { loop with running := false }
  | .hangup => some { loop with reloadFlag := true }
  | .beside event =>
    match event with
    | .reorder => some loop
    | .discovery src bytes => some { loop with node := loop.node.receiveDiscovery src bytes }
    | _ => none
  | .stop =>
    if loop.phase = .top ∧ loop.running = false then some { loop with phase := .stopped } else none
  | .enter =>
    if loop.phase = .top ∧ loop.running = true then some { loop with phase := .polling } else none
  | .poll ready =>
    if loop.phase = .polling then some { loop with phase := .afterPoll ready } else none
  | .packet bytes effects =>
    match loop.phase, loop.node.handle (.tun loop.clock bytes) with
    | .outbound _, .ok (node, sent) =>
      if (0 < bytes.length ∧ bytes.length ≤ 65536) ∧ sent = effects then
        some { loop with node := node }
      else none
    | _, _ => none
  | .datagram src bytes effects =>
    match loop.phase, loop.node.handle (.tunnel loop.clock src bytes) with
    | .inbound, .ok (node, sent) =>
      if (0 < bytes.length ∧ bytes.length ≤ 65536) ∧ sent = effects then
        some { loop with node := node }
      else none
    | _, _ => none
  | .drained =>
    match loop.phase with
    | .outbound inboundReady => some { loop with phase := .drained inboundReady }
    | .inbound => some { loop with phase := .check .handshakes }
    | _ => none
  | .skip job =>
    if loop.phase = .check job ∧ loop.due job = false then some { loop with phase := job.next }
    else none
  | .work job outside effects =>
    match loop.node.handle (job.event outside loop.clock) with
    | .ok (node, sent) =>
      if (loop.phase = .check job ∧ loop.due job = true) ∧ sent = effects then
        some { loop with node := node, phase := .reset job }
      else none
    | .error _ => none
  | .reset job =>
    if loop.phase = .reset job then
      some { loop with last := Function.update loop.last job loop.clock, phase := job.next }
    else none
  | .asked reload =>
    if loop.phase = .reload ∧ loop.reloadFlag = reload then
      some { loop with reloadFlag := false, phase := if reload then .load else .top }
    else none
  | .refuse => if loop.phase = .load then some { loop with phase := .top } else none
  | .load newConfig outside =>
    match loop.phase, loop.node.handle (.reload outside.dns loop.clock newConfig outside.routes
      outside.subnetRoutes) with
    | .load, .ok (node, _) => some { loop with node := node, phase := .top }
    | _, _ => none

/-- The loop is about to begin: each job had its first turn put off at or before this time. -/
structure Begins (loop : MainLoop) : Prop where
  top : loop.phase = .top
  armed : ∀ job, loop.last job ≤ loop.clock

/-- The events that the loop's turns are to the node. -/
def events : View Step Node.Step where
  state := MainLoop.node
  label loop turn := turn.event loop.clock
  moves := by
    intro loop turn next event step same
    cases step with
    | beside _ does => cases same; exact does.step
    | packet _ _ does => cases same; exact does.step
    | datagram _ _ does => cases same; exact does.step
    | work _ _ does => cases same; exact does.step
    | load _ does => cases same; exact does.step
    | _ => cases same
  rests := by
    intro loop turn next step none
    cases step with
    | beside | packet | datagram | work | load => cases none
    | _ => rfl

variable {loop next : MainLoop} {turn : Turn} {job : Job}

/-- What the function computes is a step of the loop. -/
theorem step_of_take (taken : loop.take turn = some next) : Step loop turn next := by
  cases turn with
  | elapse now =>
      obtain ⟨later, reached⟩ := Option.ite_none_right_eq_some.mp taken
      cases reached
      exact .elapse later
  | interrupt =>
      cases taken
      exact .interrupt
  | hangup =>
      cases taken
      exact .hangup
  | beside event =>
      cases event with
      | reorder =>
          cases taken
          exact .beside .reorder (.handled rfl)
      | discovery src bytes =>
          cases taken
          exact .beside (.discovery src bytes) (.handled rfl)
      | _ => cases taken
  | stop =>
      obtain ⟨⟨here, ended⟩, reached⟩ := Option.ite_none_right_eq_some.mp taken
      cases reached
      exact .stop here ended
  | enter =>
      obtain ⟨⟨here, running⟩, reached⟩ := Option.ite_none_right_eq_some.mp taken
      cases reached
      exact .enter here running
  | poll ready =>
      obtain ⟨here, reached⟩ := Option.ite_none_right_eq_some.mp taken
      cases reached
      exact .poll here
  | packet bytes effects =>
      simp only [take] at taken
      split at taken
      · next here run =>
          obtain ⟨⟨size, rfl⟩, reached⟩ := Option.ite_none_right_eq_some.mp taken
          cases reached
          exact .packet here size (.handled run)
      · cases taken
  | datagram src bytes effects =>
      simp only [take] at taken
      split at taken
      · next here run =>
          obtain ⟨⟨size, rfl⟩, reached⟩ := Option.ite_none_right_eq_some.mp taken
          cases reached
          exact .datagram here size (.handled run)
      · cases taken
  | drained =>
      simp only [take] at taken
      split at taken
      · next here =>
          cases taken
          exact .outboundDrained here
      · next here =>
          cases taken
          exact .inboundDrained here
      · cases taken
  | skip job =>
      obtain ⟨⟨here, early⟩, reached⟩ := Option.ite_none_right_eq_some.mp taken
      cases reached
      exact .skip here early
  | work job outside effects =>
      simp only [take] at taken
      split at taken
      · next run =>
          obtain ⟨⟨⟨here, due⟩, rfl⟩, reached⟩ := Option.ite_none_right_eq_some.mp taken
          cases reached
          exact .work here due (.handled run)
      · cases taken
  | reset job =>
      obtain ⟨here, reached⟩ := Option.ite_none_right_eq_some.mp taken
      cases reached
      exact .reset here
  | asked reload =>
      obtain ⟨⟨here, rfl⟩, reached⟩ := Option.ite_none_right_eq_some.mp taken
      cases reached
      exact .asked here
  | refuse =>
      obtain ⟨here, reached⟩ := Option.ite_none_right_eq_some.mp taken
      cases reached
      exact .refuse here
  | load newConfig outside =>
      simp only [take] at taken
      split at taken
      · next here run =>
          cases taken
          exact .load here (.handled run)
      · cases taken

/-- The loop after a turn, or the same loop where it cannot take the turn. -/
def advance (loop : MainLoop) (turn : Turn) : MainLoop := (loop.take turn).getD loop

/-- Turns that the loop can take are a run. -/
theorem run_of_taken {start : MainLoop} {turns : List Turn}
    (taken : (traceOf advance start turns).all (fun entry => (entry.1.take entry.2).isSome) = true) :
    Run Step start (traceOf advance start turns) (turns.foldl advance start) := by
  refine .of_traceOf fun entry member => step_of_take ?_
  obtain ⟨next, takes⟩ := Option.isSome_iff_exists.mp (List.all_eq_true.mp taken entry member)
  rw [advance, takes, Option.getD_some]

/-- A job's timer. It has fired where its work is done and its time not yet taken. -/
def timerOf (job : Job) (loop : MainLoop) : Timer :=
  ⟨loop.clock, loop.last job, decide (loop.phase = .reset job)⟩

/-- A job is due when more than its period has passed. -/
theorem due_iff : loop.due job = true ↔ loop.last job + job.period < loop.clock := by
  rw [due, decide_eq_true_iff]
  exact Nat.lt_sub_iff_add_lt'

/-- A job is not due up to then. -/
theorem due_eq_false_iff : loop.due job = false ↔ loop.clock ≤ loop.last job + job.period := by
  rw [due, decide_eq_false_iff_not, Nat.not_lt]
  exact Nat.sub_le_iff_le_add'

/-- A turn outside of a job does not show in its timer. -/
theorem timerOf_eq (clock : next.clock = loop.clock) (last : next.last job = loop.last job)
    (before : loop.phase ≠ .reset job) (after : next.phase ≠ .reset job) :
    timerOf job next = timerOf job loop := by
  simp [timerOf, clock, last, before, after]

/-- A turn that a timer sees is a step of the timer. -/
theorem Step.tick {tick : Timer.Tick} (step : Step loop turn next)
    (seen : turn.tick job = some tick) :
    Timer.Step job.period (timerOf job loop) tick (timerOf job next) := by
  cases step with
  | elapse later =>
      cases seen
      exact ⟨later, rfl⟩
  | skip here early =>
      obtain ⟨rfl, fired⟩ := Option.ite_none_right_eq_some.mp seen
      cases fired
      exact ⟨by simp [timerOf, here], due_eq_false_iff.mp early,
        timerOf_eq rfl rfl (by simp [here]) (Job.next_ne_reset _ _)⟩
  | work here due =>
      obtain ⟨rfl, fired⟩ := Option.ite_none_right_eq_some.mp seen
      cases fired
      exact ⟨by simp [timerOf, here], due_iff.mp due, by simp [timerOf]⟩
  | reset here =>
      obtain ⟨rfl, fired⟩ := Option.ite_none_right_eq_some.mp seen
      cases fired
      exact ⟨by simp [timerOf, here], by simp [timerOf, Job.next_ne_reset]⟩
  | _ => cases seen

/-- Other turns leave the timer. -/
theorem Step.timerOf_eq (step : Step loop turn next) (unseen : turn.tick job = none) :
    timerOf job next = timerOf job loop := by
  cases step with
  | elapse => cases unseen
  | interrupt | hangup | beside | packet | datagram => rfl
  | stop here | enter here => exact MainLoop.timerOf_eq rfl rfl (by simp [here]) (by simp)
  | poll here =>
      exact MainLoop.timerOf_eq rfl rfl (by simp [here]) (Phase.afterPoll_ne_reset _ _)
  | outboundDrained here =>
      exact MainLoop.timerOf_eq rfl rfl (by simp [here]) (Phase.drained_ne_reset _ _)
  | inboundDrained here => exact MainLoop.timerOf_eq rfl rfl (by simp [here]) (by simp)
  | skip here => exact MainLoop.timerOf_eq rfl rfl (by simp [here]) (Job.next_ne_reset _ _)
  | work here =>
      have another := Turn.ne_of_tick unseen
      exact MainLoop.timerOf_eq rfl rfl (by simp [here]) (by simp [another])
  | reset here =>
      have another := Turn.ne_of_tick unseen
      exact MainLoop.timerOf_eq rfl (Function.update_of_ne another.symm _ _)
        (by simp [here, another]) (Job.next_ne_reset _ _)
  | asked here =>
      refine MainLoop.timerOf_eq rfl rfl (by simp [here]) ?_
      dsimp only
      split_ifs <;> simp
  | refuse here => exact MainLoop.timerOf_eq rfl rfl (by simp [here]) (by simp)
  | load here => exact MainLoop.timerOf_eq rfl rfl (by simp [here]) (by simp)

/-- The turns of a job, as its timer sees them. -/
def timer (job : Job) : View Step (Timer.Step job.period) where
  state := timerOf job
  label _ turn := turn.tick job
  moves step seen := step.tick seen
  rests step unseen := step.timerOf_eq unseen

end MainLoop
end Daemon

namespace Sample

attribute [local instance] crates

/-- A loop about to begin, on a node that just heard of a peer. -/
def mainLoop : MainLoop where
  node := node 1 false (connectedTable 1 2)
  clock := 0
  phase := .top
  last := fun _ => 0
  running := true
  reloadFlag := false

/-- No DNS, and no route files. -/
def nowhere : Outside := ⟨fun _ => none, .missing, .missing⟩

/-- The sample loop is at its beginning. -/
theorem mainLoop_begins : mainLoop.Begins := ⟨rfl, fun _ => le_rfl⟩

end Sample
end WolfNet
