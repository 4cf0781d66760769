import WolfNet.Daemon.MainLoop

/-!
# What the main loop keeps up

Each periodic job keeps to its period, however long the loop takes with packets: two turns of it are
more than the period apart, and no rarer than the period and twice what the loop takes to come by.
A SIGHUP is answered at the next reload check, and nothing else is. An interrupt ends the loop within
one iteration.
-/

namespace WolfNet

open WolfNet.Std WolfNet.Semantics

/-- The place of a job among the jobs. -/
def Job.rank : Job → Nat
  | .handshakes => 0
  | .keepalives => 1
  | .peerExchange => 2
  | .resolve => 3
  | .readRoutes => 4

/-- How far an iteration has come. -/
def Phase.rank : Phase → Nat
  | .polling => 0
  | .outbound _ => 1
  | .inbound => 2
  | .check job => 3 + 2 * job.rank
  | .reset job => 4 + 2 * job.rank
  | .reload => 13
  | .load => 14
  | .top => 15
  | .stopped => 16

/-- The place of a check, after the polling and the reading. -/
@[simp] theorem Phase.rank_check (job : Job) : (Phase.check job).rank = 3 + 2 * job.rank := rfl

/-- The place of a reset, right behind its check. -/
@[simp] theorem Phase.rank_reset (job : Job) : (Phase.reset job).rank = 4 + 2 * job.rank := rfl

/-- The place of what comes after a job. -/
theorem Job.rank_next (job : Job) : job.next.rank = 5 + 2 * job.rank := by
  cases job <;> rfl

/-- No place is behind the last one. -/
theorem Phase.rank_le (phase : Phase) : phase.rank ≤ 16 := by
  have few (job : Job) : job.rank ≤ 4 := by cases job <;> simp [Job.rank]
  cases phase with
  | check job | reset job =>
      have := few job
      simp only [Phase.rank]
      omega
  | _ => simp [Phase.rank]

/-- Only a stopped loop is at the last place. -/
theorem Phase.rank_eq_sixteen {phase : Phase} (last : phase.rank = 16) : phase = .stopped := by
  have few (job : Job) : job.rank ≤ 4 := by cases job <;> simp [Job.rank]
  cases phase with
  | check job | reset job =>
      have := few job
      simp only [Phase.rank] at last
      omega
  | stopped => rfl
  | _ => simp [Phase.rank] at last

namespace Turn

/-- The turn does the job. -/
def works (job : Job) : Turn → Bool
  | .work other .. => other = job
  | _ => false

/-- The loop comes by the job. -/
def checks (job : Job) : Turn → Bool
  | .skip other => other = job
  | .work other .. => other = job
  | _ => false

/-- The turn takes the loop on in its iteration: it is no packet, and is not from beside the loop. -/
def advances : Turn → Bool
  | .elapse _ | .interrupt | .hangup | .beside _ | .packet .. | .datagram .. => false
  | _ => true

/-- The turn waits for packets. -/
def polls : Turn → Bool
  | .poll _ => true
  | _ => false

/-- The turn ends a reload that was asked for. -/
def Reloads (turn : Turn) : Prop :=
  turn = .refuse ∨ ∃ newConfig outside, turn = .load newConfig outside

/-- A turn does a job exactly where the job's timer fires. -/
theorem works_eq (job : Job) (turn : Turn) :
    turn.works job = (turn.tick job).any fun tick => tick = .fire := by
  cases turn with
  | skip other | work other | reset other => by_cases same : other = job <;> simp [works, tick, same]
  | _ => rfl

/-- A turn comes by a job exactly where it asks the job's timer. -/
theorem checks_eq (job : Job) (turn : Turn) :
    turn.checks job = (turn.tick job).any fun tick => tick = .skip ∨ tick = .fire := by
  cases turn with
  | skip other | work other | reset other => by_cases same : other = job <;> simp [checks, tick, same]
  | _ => rfl

end Turn

namespace Node

variable [Crates] {node node' : Node} {now : Instant} {effects : List Effect} {ip : Ipv4Addr}
  {peer : Peer} {endpoint : SocketAddr}

/-- The keepalive job sends a keepalive to each connected peer with an endpoint. -/
theorem Does.sends_keepalive (does : node.Does (.keepalives now) node' effects)
    (held : node.peerManager.peersByIp.get ip = some peer) (connected : peer.isConnected now = true)
    (placed : peer.endpoint = some endpoint) :
    Effect.sendTo endpoint (buildKeepalive node.keypair.myPeerId) ∈ effects := by
  cases does with
  | handled run =>
      cases run
      refine List.mem_filterMap.mpr ⟨peer, Std.HashMap.mem_values_iff.mpr ⟨ip, held⟩, ?_⟩
      rw [if_pos connected, placed, Option.map_some]

/-- The handshake job greets each address at which a peer is to be greeted. -/
theorem Does.sends_greeting (does : node.Does (.handshakes now) node' effects)
    (held : node.peerManager.peersByIp.get ip = some peer)
    (target : endpoint ∈ peer.handshakeTargets now) :
    Effect.sendTo endpoint node.greeting ∈ effects := by
  cases does with
  | handled run =>
      cases run
      exact List.mem_flatMap.mpr ⟨peer, Std.HashMap.mem_values_iff.mpr ⟨ip, held⟩,
        List.mem_map.mpr ⟨endpoint, target, rfl⟩⟩

end Node

namespace MainLoop

variable [Crates] {start last loop next : MainLoop} {trace : List (MainLoop × Turn)} {job : Job}
  {turn : Turn} {bound opening closing : Nat}

/-- The times at which the loop did a job. -/
def worked (job : Job) (trace : List (MainLoop × Turn)) : List Instant :=
  (trace.filter fun entry => entry.2.works job).map fun entry => entry.1.clock

/-- The times at which the loop came by a job. -/
def checked (job : Job) (trace : List (MainLoop × Turn)) : List Instant :=
  (trace.filter fun entry => entry.2.checks job).map fun entry => entry.1.clock

/-- A turn that does the job adds its time to the others. -/
theorem worked_snoc : worked job (trace ++ [(loop, turn)]) =
    if turn.works job then worked job trace ++ [loop.clock] else worked job trace := by
  by_cases works : turn.works job = true <;> simp [worked, works]

/-- The timer of a job fires where the job is done. -/
theorem fires_trace (job : Job) (trace : List (MainLoop × Turn)) :
    Timer.fires ((timer job).trace trace) = worked job trace :=
  (timer job).trace_filter trace (fun _ turn => turn.works_eq job) fun _ => rfl

/-- The timer of a job is asked where the loop comes by the job. -/
theorem polls_trace (job : Job) (trace : List (MainLoop × Turn)) :
    Timer.polls ((timer job).trace trace) = checked job trace :=
  (timer job).trace_filter trace (fun _ turn => turn.checks_eq job) fun _ => rfl

/-- A job's turns are more than its period apart, and about its period apart at most where the loop
comes by often. -/
theorem keeps_time (run : Run Step start trace last) (begins : start.Begins) (job : Job) :
    (start.last job :: worked job trace).Pairwise
        (fun earlier later => earlier + job.period < later) ∧
      ∀ bound, Frequent bound start.clock (checked job trace) last.clock →
        Frequent (job.period + 2 * bound) start.clock (worked job trace) last.clock := by
  have shown := (timer job).run run
  have waiting : ((timer job).state start).fired = false := by
    simp [timer, timerOf, begins.top]
  rw [← fires_trace, ← polls_trace]
  exact ⟨Timer.fires_spaced shown waiting (begins.armed job),
    fun bound polled => Timer.fires_frequent shown waiting (begins.armed job) polled⟩

end MainLoop

namespace Sample

attribute [local instance] crates

/-- The keepalive of the sample node for its peer. -/
def keepalive : Effect := .sendTo endpoint (buildKeepalive (keypair 1).myPeerId)

/-- Two iterations, each 26 seconds after what was before it. -/
def turns : List Turn := [
  .elapse 26000000000, .enter, .poll none, .work .handshakes nowhere [], .reset .handshakes,
  .work .keepalives nowhere [keepalive], .reset .keepalives, .skip .peerExchange, .skip .resolve,
  .work .readRoutes nowhere [], .reset .readRoutes, .asked false,
  .elapse 52000000000, .enter, .poll none, .work .handshakes nowhere [], .reset .handshakes,
  .work .keepalives nowhere [keepalive], .reset .keepalives, .work .peerExchange nowhere [],
  .reset .peerExchange, .skip .resolve, .work .readRoutes nowhere [], .reset .readRoutes,
  .asked false, .elapse 78000000000]

/-- The run of the two iterations. -/
def iterations : List (MainLoop × Turn) := traceOf MainLoop.advance mainLoop turns

/-- The loop can take these turns. -/
theorem iterations_run :
    Run MainLoop.Step mainLoop iterations (turns.foldl MainLoop.advance mainLoop) :=
  MainLoop.run_of_taken (by decide +kernel)

/-- They take 78 seconds. -/
theorem iterations_end : (turns.foldl MainLoop.advance mainLoop).clock = 78000000000 := by
  decide +kernel

end Sample

namespace MainLoop

attribute [local instance] Sample.crates

/-- The job is done more than its period apart, and about its period apart at most. -/
theorem keeps_time_sample :
    (0 :: worked .keepalives Sample.iterations).Pairwise
        (fun earlier later => earlier + Job.keepalives.period < later) ∧
      (Frequent 26000000000 0 (checked .keepalives Sample.iterations) 78000000000 →
        Frequent (Job.keepalives.period + 2 * 26000000000) 0 (worked .keepalives Sample.iterations)
          78000000000) := by
  have kept := keeps_time Sample.iterations_run Sample.mainLoop_begins .keepalives
  rw [Sample.iterations_end] at kept
  exact ⟨kept.1, kept.2 26000000000⟩

end MainLoop

namespace MainLoop

variable [Crates] {start last loop next : MainLoop} {trace : List (MainLoop × Turn)} {job : Job}
  {turn : Turn} {bound opening closing : Nat}

/-- Where the loop comes by often, it does a job in every window that is long enough. -/
theorem works_in_window (run : Run Step start trace last) (begins : start.Begins)
    (often : Frequent bound start.clock (checked job trace) last.clock)
    (inside : start.clock ≤ opening) (wide : opening + (job.period + 2 * bound) < closing)
    (ends : closing ≤ last.clock) : ∃ entry ∈ trace, entry.2.works job = true ∧
      opening ≤ entry.1.clock ∧ entry.1.clock ≤ closing := by
  have frequent := (keeps_time run begins job).2 bound often
  obtain ⟨time, member, between⟩ := frequent.exists_between inside wide ends
  obtain ⟨entry, did, rfl⟩ := List.mem_map.mp member
  obtain ⟨there, works⟩ := List.mem_filter.mp did
  exact ⟨entry, there, works, between⟩

/-- What the loop does in a job, it does with the node of that time. -/
theorem Step.does (step : Step loop turn next) (works : turn.works job = true) :
    ∃ outside, loop.node.Does (job.event outside loop.clock) next.node turn.effects := by
  cases step with
  | work here due does =>
      obtain rfl := of_decide_eq_true works
      exact ⟨_, does⟩
  | _ => cases works

/-- No turn changes the node's identity. -/
theorem Step.sameSelf (step : Step loop turn next) : Node.SameSelf loop.node next.node := by
  cases seen : turn.event loop.clock with
  | none =>
      have same : next.node = loop.node := events.rests step seen
      rw [same]
      exact .refl _
  | some event =>
      have taken : Node.Step loop.node event next.node := events.moves step seen
      exact taken.sameSelf

/-- No turn changes who the node is. -/
theorem sameSelf (run : Run Step start trace last) :
    Always (fun loop => Node.SameSelf start.node loop.node) trace last :=
  run.always (fun {_ _ _} same (_ : True) step => same.trans step.sameSelf)
    (.refl _) fun _ _ => trivial

/-- The peer at the IP is connected and has the endpoint. -/
def Online (loop : MainLoop) (ip : Ipv4Addr) (endpoint : SocketAddr) : Prop :=
  ∃ peer, loop.node.peerManager.peersByIp.get ip = some peer ∧
    peer.isConnected loop.clock = true ∧ peer.endpoint = some endpoint

/-- The peer at the IP is not connected, and is to be greeted at the endpoint. -/
def Offline (loop : MainLoop) (ip : Ipv4Addr) (endpoint : SocketAddr) : Prop :=
  ∃ peer, loop.node.peerManager.peersByIp.get ip = some peer ∧
    endpoint ∈ peer.handshakeTargets loop.clock

/-- In a window of a run, a turn sends the datagram. -/
def SendsWithin (trace : List (MainLoop × Turn)) (opening closing : Instant)
    (endpoint : SocketAddr) (datagram : List UInt8) : Prop :=
  ∃ entry ∈ trace, opening ≤ entry.1.clock ∧ entry.1.clock ≤ closing ∧
    Effect.sendTo endpoint datagram ∈ entry.2.effects

/-- The condition holds of the loop all through a window of a run. -/
def Within (trace : List (MainLoop × Turn)) (opening closing : Instant) (Holds : MainLoop → Prop) :
    Prop :=
  ∀ entry ∈ trace, opening ≤ entry.1.clock → entry.1.clock ≤ closing → Holds entry.1

/-- A peer that stays connected gets a keepalive, and one that stays unconnected a handshake, in
every window that exceeds the job's period by twice the time the loop takes to come by, where it
keeps one endpoint all the while. -/
theorem contacted (run : Run Step start trace last) (begins : start.Begins)
    (inside : start.clock ≤ opening) (ends : closing ≤ last.clock) (ip : Ipv4Addr)
    (endpoint : SocketAddr) :
    (Frequent bound start.clock (checked .keepalives trace) last.clock →
      opening + (Job.keepalives.period + 2 * bound) < closing →
      Within trace opening closing (fun loop => loop.Online ip endpoint) →
      SendsWithin trace opening closing endpoint (buildKeepalive start.node.keypair.myPeerId)) ∧
    (Frequent bound start.clock (checked .handshakes trace) last.clock →
      opening + (Job.handshakes.period + 2 * bound) < closing →
      Within trace opening closing (fun loop => loop.Offline ip endpoint) →
      SendsWithin trace opening closing endpoint start.node.greeting) := by
  refine ⟨fun often wide online => ?_, fun often wide offline => ?_⟩
  · obtain ⟨entry, there, works, after, before⟩ := works_in_window run begins often inside wide ends
    obtain ⟨next, step⟩ := run.taken entry there
    obtain ⟨outside, does⟩ := step.does works
    obtain ⟨peer, held, connected, placed⟩ := online entry there after before
    have self := (sameSelf run).1 entry there
    refine ⟨entry, there, after, before, ?_⟩
    rw [← self.keypair]
    exact does.sends_keepalive held connected placed
  · obtain ⟨entry, there, works, after, before⟩ := works_in_window run begins often inside wide ends
    obtain ⟨next, step⟩ := run.taken entry there
    obtain ⟨outside, does⟩ := step.does works
    obtain ⟨peer, held, target⟩ := offline entry there after before
    have self := (sameSelf run).1 entry there
    refine ⟨entry, there, after, before, ?_⟩
    rw [← self.greeting]
    exact does.sends_greeting held target

end MainLoop

namespace MainLoop

attribute [local instance] Sample.crates

/-- The sample peer is online all through the two iterations. -/
theorem iterations_online :
    Within Sample.iterations 0 78000000000 (fun loop => loop.Online ⟨10, 10, 10, 2⟩ Sample.endpoint) := by
  have all : Sample.iterations.all (fun entry =>
      (entry.1.node.peerManager.peersByIp.get ⟨10, 10, 10, 2⟩).any fun peer =>
        peer.isConnected entry.1.clock && decide (peer.endpoint = some Sample.endpoint)) = true := by
    decide +kernel
  intro entry member _ _
  obtain ⟨peer, held, online⟩ := (Option.any_eq_true _ _).mp (List.all_eq_true.mp all entry member)
  obtain ⟨connected, placed⟩ := Bool.and_eq_true_iff.mp online
  exact ⟨peer, held, connected, of_decide_eq_true placed⟩

/-- The peer of the sample node is sent a keepalive in these 78 seconds. -/
theorem contacted_sample : SendsWithin Sample.iterations 0 78000000000 Sample.endpoint
    (buildKeepalive (Sample.keypair 1).myPeerId) := by
  have ends : 78000000000 ≤ (Sample.turns.foldl advance Sample.mainLoop).clock :=
    Sample.iterations_end.ge
  have often : Frequent 26000000000 Sample.mainLoop.clock (checked .keepalives Sample.iterations)
      (Sample.turns.foldl advance Sample.mainLoop).clock := by
    have times : checked .keepalives Sample.iterations = [26000000000, 52000000000] := by
      decide +kernel
    rw [times, Sample.iterations_end]
    simp [Frequent, Sample.mainLoop]
  exact (contacted Sample.iterations_run Sample.mainLoop_begins le_rfl ends _ _).1 often
    (by decide) iterations_online

end MainLoop

namespace MainLoop

variable [Crates] {start last loop next : MainLoop} {trace : List (MainLoop × Turn)} {job : Job}
  {turn : Turn}

/-- A SIGHUP sets the flag, and the loop clears it where it asks. -/
theorem latch_hangup : Latch Step MainLoop.reloadFlag (· = .hangup) (∃ reload, · = .asked reload) where
  made step makes := by
    subst makes
    cases step
    rfl
  taken step takes := by
    obtain ⟨reload, rfl⟩ := takes
    cases step
    rfl
  kept step makes takes := by
    cases step with
    | hangup => exact absurd rfl makes
    | asked => exact absurd ⟨_, rfl⟩ takes
    | _ => rfl

/-- The loop asks for a reload in its place, and goes on to it where one was asked for. -/
theorem Step.asked_inv {reload : Bool} (step : Step loop (.asked reload) next) :
    loop.phase = .reload ∧ loop.reloadFlag = reload ∧
      next.phase = if reload then .load else .top := by
  generalize same : Turn.asked reload = turn at step
  cases step with
  | asked here =>
      cases same
      exact ⟨here, rfl, rfl⟩
  | _ => cases same

/-- The loop is to read its config from where it asked to, until it did or could not. -/
theorem latch_load :
    Latch Step (fun loop => decide (loop.phase = .load)) (· = .asked true) Turn.Reloads where
  made step makes := by
    subst makes
    rw [step.asked_inv.2.2]
    rfl
  taken step takes := by
    rcases takes with rfl | ⟨newConfig, outside, rfl⟩ <;> cases step <;> rfl
  kept step makes takes := by
    cases step with
    | elapse | interrupt | hangup | beside | packet | datagram => rfl
    | refuse => exact absurd (Or.inl rfl) takes
    | load => exact absurd (Or.inr ⟨_, _, rfl⟩) takes
    | poll here => simp [here, Phase.afterPoll_ne_load]
    | skip here => simp [here, Job.next_ne_load]
    | reset here => simp [here, Job.next_ne_load]
    | outboundDrained here => simp [here, Phase.drained_ne_load]
    | asked here =>
        have unasked := Bool.eq_false_iff.mpr fun asked => makes (congrArg Turn.asked asked)
        simp [here, unasked]
    | stop here | enter here | inboundDrained here | work here => simp [here]

/-- From where it is to read its config, the loop goes on by that only. -/
theorem Step.reloads (step : Step loop turn next) (here : loop.phase = .load)
    (advances : turn.advances = true) : turn.Reloads := by
  cases step with
  | refuse => exact Or.inl rfl
  | load => exact Or.inr ⟨_, _, rfl⟩
  | elapse | interrupt | hangup | beside | packet | datagram => cases advances
  | skip there | work there | reset there | asked there | stop there | enter there | poll there
  | outboundDrained there | inboundDrained there => cases here.symm.trans there

/-- The next turn of the loop itself, if there is one yet, ends a reload. -/
def ReloadsNext (behind : List (MainLoop × Turn)) : Prop :=
  (∀ entry ∈ behind, entry.2.advances = false) ∨
    ∃ between served rest, behind = between ++ served :: rest ∧
      (∀ entry ∈ between, entry.2.advances = false) ∧ served.2.Reloads

omit [Crates] in
/-- A reload is a turn of the loop's own. -/
theorem Turn.Reloads.advances (reloads : turn.Reloads) : turn.advances = true := by
  rcases reloads with rfl | ⟨_, _, rfl⟩ <;> rfl

/-- The loop asks for a reload exactly where a SIGHUP came since it last asked. It reads the config
again, or is refused it, exactly where it asked for that and has not done so since; and where it
asked, that is its next turn. -/
theorem reload_answers (run : Run Step start trace last) (begins : start.Begins)
    (quiet : start.reloadFlag = false) {before behind : List (MainLoop × Turn)} {loop : MainLoop} :
    (∀ reload, trace = before ++ (loop, .asked reload) :: behind →
      (reload = true ↔ Pending (· = .hangup) (∃ reload, · = .asked reload) before)) ∧
    (∀ turn, turn.advances = true → trace = before ++ (loop, turn) :: behind →
      (turn.Reloads ↔ Pending (· = .asked true) Turn.Reloads before)) ∧
    (trace = before ++ (loop, .asked true) :: behind → ReloadsNext behind) := by
  have shows {early late : List (MainLoop × Turn)} {entry : MainLoop × Turn}
      (split : trace = early ++ entry :: late) :
      entry.1.phase = .load ↔ Pending (· = .asked true) Turn.Reloads early := by
    rw [← latch_load.shows_iff (run.before split) (by simp [begins.top]), decide_eq_true_iff]
  refine ⟨fun reload split => ?_, fun turn advances split => ?_, fun split => ?_⟩
  · obtain ⟨next, step⟩ := run.taken (loop, .asked reload) (by simp [split])
    rw [← latch_hangup.shows_iff (run.before split) quiet, step.asked_inv.2.1]
  · obtain ⟨next, step⟩ := run.taken (loop, turn) (by simp [split])
    rw [← shows split]
    constructor
    · rintro (rfl | ⟨newConfig, outside, rfl⟩)
      · cases step with
        | refuse here => exact here
      · cases step with
        | load here => exact here
    · exact fun here => step.reloads here advances
  · cases found : behind.find? fun entry => entry.2.advances with
    | none => exact Or.inl fun entry member => by simpa using List.find?_eq_none.mp found entry member
    | some served =>
        obtain ⟨advances, between, rest, rfl, passed⟩ := List.find?_eq_some_iff_append.mp found
        have idle : ∀ entry ∈ between, entry.2.advances = false := by simpa using passed
        refine Or.inr ⟨between, served, rest, rfl, idle, ?_⟩
        have later : trace = (before ++ (loop, .asked true) :: between) ++ served :: rest := by
          rw [split, List.append_assoc, List.cons_append]
        obtain ⟨next, step⟩ := run.taken served (by simp [later])
        refine step.reloads ((shows later).mpr ?_) advances
        refine ⟨before, between, loop, .asked true, rfl, rfl, fun entry member reloads => ?_⟩
        exact absurd (Turn.Reloads.advances reloads) (by simp [idle entry member])

end MainLoop

namespace Sample

attribute [local instance] crates

/-- An iteration that a SIGHUP precedes: the config is read again. -/
def reloadTurns : List Turn := [
  .hangup, .enter, .poll none, .skip .handshakes, .skip .keepalives, .skip .peerExchange, .skip .resolve,
  .skip .readRoutes, .asked true, .load mainLoop.node.config nowhere]

/-- The loop after the first of these turns. -/
def reloadingAfter (count : Nat) : MainLoop := (reloadTurns.take count).foldl MainLoop.advance mainLoop

/-- The run of these turns. -/
def reloading : List (MainLoop × Turn) := traceOf MainLoop.advance mainLoop reloadTurns

end Sample

namespace MainLoop

attribute [local instance] Sample.crates

/-- A SIGHUP is found by the next check, and the config is read right after it. -/
theorem reload_answers_sample : Pending (· = .hangup) (∃ reload, · = .asked reload)
      (Sample.reloading.take 8) ∧
    Pending (· = .asked true) Turn.Reloads (Sample.reloading.take 9) ∧
    ReloadsNext (Sample.reloading.drop 9) := by
  have run : Run Step Sample.mainLoop Sample.reloading (Sample.reloadTurns.foldl advance _) :=
    run_of_taken (by decide +kernel)
  have asks : Sample.reloading = Sample.reloading.take 8 ++
      (Sample.reloadingAfter 8, .asked true) :: Sample.reloading.drop 9 := rfl
  have loads : Sample.reloading = Sample.reloading.take 9 ++
      (Sample.reloadingAfter 9, .load Sample.mainLoop.node.config Sample.nowhere) :: [] := rfl
  exact ⟨((reload_answers run Sample.mainLoop_begins rfl).1 true asks).mp rfl,
    ((reload_answers run Sample.mainLoop_begins rfl).2.1 _ rfl loads).mp (Or.inr ⟨_, _, rfl⟩),
    (reload_answers run Sample.mainLoop_begins rfl).2.2 asks⟩

end MainLoop

namespace MainLoop

variable [Crates] {start last loop next : MainLoop} {trace : List (MainLoop × Turn)} {job : Job}
  {turn : Turn}

/-- A turn that does a job passes the job's place. -/
theorem Step.works_rank (step : Step loop turn next) (works : turn.works job = true) :
    loop.phase.rank = (Phase.check job).rank ∧ (Phase.check job).rank < next.phase.rank := by
  cases step with
  | work here =>
      obtain rfl := of_decide_eq_true works
      simp [here, Phase.rank]
  | _ => cases works

/-- A loop that is to end waits only where it has looked before, and each turn of its own takes it
on. -/
theorem Step.winds (step : Step loop turn next) (ended : loop.running = false) :
    next.running = false ∧
      (if turn.polls then 1 else 0) + (if next.phase = .polling then 1 else 0) ≤
        (if loop.phase = .polling then 1 else 0) ∧
      loop.phase.rank + (if turn.advances then 1 else 0) ≤ next.phase.rank := by
  cases step with
  | elapse | interrupt | hangup | beside | packet | datagram =>
      simp [ended, Turn.advances, Turn.polls]
  | stop here => simp [ended, here, Turn.advances, Turn.polls, Phase.rank]
  | enter here running => exact absurd (ended.symm.trans running) Bool.false_ne_true
  | @poll ready here =>
      have leaves : Phase.afterPoll ready ≠ .polling := by
        unfold Phase.afterPoll
        split <;> simp
      have onward : 1 ≤ (Phase.afterPoll ready).rank := by
        unfold Phase.afterPoll
        split <;> simp [Phase.rank, Job.rank]
      simpa [ended, here, Turn.advances, Turn.polls, leaves, Phase.rank] using onward
  | @outboundDrained inboundReady here =>
      cases inboundReady <;>
        simp [ended, here, Turn.advances, Turn.polls, Phase.drained, Phase.rank, Job.rank]
  | inboundDrained here => simp [ended, here, Turn.advances, Turn.polls, Phase.rank]
  | @skip job here | @reset job here =>
      have leaves : job.next ≠ .polling := by cases job <;> simp [Job.next]
      refine ⟨ended, by simp [Turn.polls, leaves], ?_⟩
      simp only [here, Turn.advances, if_true, Phase.rank_check, Phase.rank_reset, Job.rank_next]
      omega
  | work here =>
      refine ⟨ended, by simp [Turn.polls], ?_⟩
      simp only [here, Turn.advances, if_true, Phase.rank_check, Phase.rank_reset]
      omega
  | asked here =>
      cases loop.reloadFlag <;> simp [ended, here, Turn.advances, Turn.polls, Phase.rank]
  | refuse here | load here => simp [ended, here, Turn.advances, Turn.polls, Phase.rank]

/-- A loop that has not stopped can take a turn of its own. -/
theorem exists_advance (going : loop.phase ≠ .stopped) :
    ∃ turn next, turn.advances = true ∧ Step loop turn next := by
  cases here : loop.phase with
  | top =>
      cases running : loop.running with
      | true => exact ⟨_, _, rfl, .enter here running⟩
      | false => exact ⟨_, _, rfl, .stop here running⟩
  | polling => exact ⟨.poll none, _, rfl, .poll here⟩
  | outbound inboundReady => exact ⟨_, _, rfl, .outboundDrained here⟩
  | inbound => exact ⟨_, _, rfl, .inboundDrained here⟩
  | check job =>
      cases due : loop.due job with
      | false => exact ⟨_, _, rfl, .skip here due⟩
      | true =>
          obtain ⟨node, effects, does⟩ : ∃ node effects,
              loop.node.Does (job.event ⟨fun _ => none, .missing, .missing⟩ loop.clock) node
                effects := by
            cases job <;> exact ⟨_, _, .handled rfl⟩
          exact ⟨_, _, rfl, .work here due does⟩
  | reset job => exact ⟨_, _, rfl, .reset here⟩
  | reload => exact ⟨_, _, rfl, .asked here⟩
  | load => exact ⟨_, _, rfl, .refuse here⟩
  | stopped => exact absurd here going

/-- How often a run waits, and how many of its turns are the loop's own. -/
def polls (trace : List (MainLoop × Turn)) : Nat :=
  (trace.filter fun entry => entry.2.polls).length

def advances (trace : List (MainLoop × Turn)) : Nat :=
  (trace.filter fun entry => entry.2.advances).length

/-- How a loop ends that an interrupt came to. -/
structure Winds (start : MainLoop) (trace : List (MainLoop × Turn)) (last : MainLoop) : Prop where
  /-- It waits at most where it has looked before the interrupt. -/
  polled : polls trace ≤ if start.phase = .polling then 1 else 0
  worked : ∀ job, (worked job trace).length ≤ 1
  few : advances trace ≤ 16
  /-- When it can take no further turn of its own, or has taken all these, it has stopped. -/
  stopped : (∀ turn next, turn.advances = true → ¬ Step last turn next) ∨ advances trace = 16 →
    last.phase = .stopped

/-- After an interrupt the loop waits no more, but for a wait that it was about to begin, does each
job at most once, and stops after sixteen turns of its own at most, unless what there is to read does
not end. -/
theorem winds_down (run : Run Step start trace last) (ended : start.running = false) :
    Winds start trace last := by
  suffices wound : last.running = false ∧
      polls trace + (if last.phase = .polling then 1 else 0) ≤
        (if start.phase = .polling then 1 else 0) ∧
      (∀ job, (worked job trace).length ≤ if (Phase.check job).rank < last.phase.rank then 1 else 0) ∧
      advances trace ≤ last.phase.rank by
    obtain ⟨_, polled, once, few⟩ := wound
    have top := last.phase.rank_le
    refine ⟨(Nat.le_add_right _ _).trans polled, fun job => (once job).trans ?_, few.trans top, ?_⟩
    · split_ifs <;> simp
    · rintro (stuck | all)
      · by_contra going
        obtain ⟨turn, next, own, step⟩ := exists_advance going
        exact stuck turn next own step
      · exact Phase.rank_eq_sixteen (by omega)
  induction run with
  | refl => simp [ended, worked, polls, advances]
  | @step trace loop turn next prior transition ih =>
      obtain ⟨ended, polled, once, few⟩ := ih
      obtain ⟨endedNext, unpolled, onward⟩ := transition.winds ended
      refine ⟨endedNext, ?_, fun job => ?_, ?_⟩
      · have more : polls (trace ++ [(loop, turn)]) = polls trace + if turn.polls then 1 else 0 := by
          cases waits : turn.polls <;> simp [polls, waits]
        omega
      · have before := once job
        by_cases works : turn.works job = true
        · have passes := transition.works_rank works
          rw [if_neg (by omega)] at before
          rw [if_pos (by omega), worked_snoc, if_pos works, List.length_append, List.length_singleton]
          omega
        · rw [worked_snoc, if_neg works]
          refine before.trans ?_
          split_ifs <;> omega
      · have more : advances (trace ++ [(loop, turn)]) =
            advances trace + if turn.advances then 1 else 0 := by
          cases own : turn.advances <;> simp [advances, own]
        omega

end MainLoop

namespace Sample

attribute [local instance] crates

/-- The end of an iteration that an interrupt came into behind the check. -/
def endingTurns : List Turn := [
  .poll (some (false, true)), .drained, .skip .handshakes, .skip .keepalives, .skip .peerExchange,
  .skip .resolve, .skip .readRoutes, .asked false, .stop]

/-- The loop where the interrupt has come. -/
def interrupted : MainLoop := { mainLoop with phase := .polling, running := false }

end Sample

namespace MainLoop

attribute [local instance] Sample.crates

/-- A loop that was interrupted goes through its jobs and stops. -/
theorem winds_down_sample :
    Winds Sample.interrupted (traceOf advance Sample.interrupted Sample.endingTurns)
      (Sample.endingTurns.foldl advance Sample.interrupted) :=
  winds_down (run_of_taken (by decide +kernel)) rfl

end MainLoop
end WolfNet
