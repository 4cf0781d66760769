import WolfNet.Daemon.Followed
import WolfNet.Daemon.Handshakes
import WolfNet.Daemon.Schedule
import WolfNet.Semantics.Presence

/-!
# A link stays up

A daemon shows itself to a peer by handshakes where it does not hold it for connected and by keepalives
where it does, and its own view of the peer may change at any time. As long as the network carries
these in time, the peer still holds it for connected from its timeout on: `stays_connected`.
-/

namespace WolfNet

open WolfNet.Std WolfNet.Semantics

section Daemon

variable [Crates]

/-- The time for which a peer that was heard is held for connected, in nanoseconds. -/
def sessionTimeout : Nat := 120 * 1000000000

/-- A peer with a session is connected as long as its presence lasts. -/
theorem Peer.isConnected_eq_alive {peer : Peer} (now : Instant)
    (established : peer.cipher.isSome = true) :
    peer.isConnected now = (Presence.mk now peer.lastSeen).alive sessionTimeout := by
  rw [Peer.isConnected, established, Bool.true_and, Presence.alive]
  congr 1
  funext time
  exact decide_eq_decide.mpr (Nat.div_lt_iff_lt_mul (by omega))

omit [Crates] in
/-- A job reads the clock of its turn. -/
theorem Job.reads {job : Job} {outside : Outside} {now reading : Instant}
    (reads : (job.event outside now).now = some reading) : reading = now := by
  cases job <;> cases reads <;> rfl

/-- The datagrams by which a node shows itself to its peers. -/
def Node.Signs (node : Node) (datagram : List UInt8) : Prop :=
  datagram = node.greeting ∨ datagram = buildKeepalive node.keypair.myPeerId

/-- The signs of a node are known by its identity. -/
theorem Node.Signs.of_same {node node' : Node} {datagram : List UInt8} (same : Node.SameSelf node node')
    (signs : node'.Signs datagram) : node.Signs datagram := by
  unfold Node.Signs at *
  rwa [same.greeting, same.keypair] at signs

namespace Node

variable {node node' home : Node} {now : Instant} {src : SocketAddr} {datagram : List UInt8}
  {effects : List Effect}

/-- A greeting begins as a handshake does. -/
theorem head_greeting (home : Node) : home.greeting.head? = some pktHandshake := rfl

/-- No sign of a node is a data packet. -/
theorem Signs.head_ne (signs : home.Signs datagram) : datagram.head? ≠ some pktData := by
  rcases signs with rfl | rfl
  · rw [head_greeting]
    decide
  · simp [buildKeepalive, pktKeepalive, pktData]

/-- A node that holds another one, and takes a sign of it, has heard it. -/
theorem inbound_signs {peer : Peer} (run : node.inbound now src datagram = .ok (node', effects))
    (signs : home.Signs datagram)
    (found : datagram = buildKeepalive home.keypair.myPeerId →
      node.peerManager.findIpByEndpointOrId src home.keypair.myPeerId = some home.wolfnetIp)
    (held : node.peerManager.peersByIp.get home.wolfnetIp = some peer) :
    ∃ peer', node'.peerManager.peersByIp.get home.wolfnetIp = some peer' ∧
      peer'.lastSeen = some now := by
  rcases signs with rfl | rfl
  · obtain ⟨_, _, run', _, _, ⟨peer', held', _, _, seen⟩, _⟩ :=
      inbound_handshake node ⟨_, _, _, rfl⟩ now src
    cases run'.symm.trans run
    exact ⟨peer', held', seen⟩
  · have sized := home.keypair.myPeerId.2
    have long : (buildKeepalive home.keypair.myPeerId).length = 5 := by
      simp [buildKeepalive, sized]
    have header : array (buildKeepalive home.keypair.myPeerId) 1 4 = .ok home.keypair.myPeerId := by
      rw [array, dif_pos long.ge]
      exact congrArg _ (Subtype.ext (List.take_of_length_le sized.le))
    have dispatch : node.inbound now src (buildKeepalive home.keypair.myPeerId) =
        node.handleKeepalive now src (buildKeepalive home.keypair.myPeerId) := by
      have type : (buildKeepalive home.keypair.myPeerId).head? = some pktKeepalive := rfl
      rw [inbound, type]
      dsimp only
      rw [if_neg (by decide), if_neg (fun data => absurd data.1 (by decide)), if_pos ⟨rfl, long.ge⟩]
    rw [dispatch, handleKeepalive, header, Rust.ok_bind] at run
    simp only [found rfl, Rust.pure_eq, Except.ok.injEq, Prod.mk.injEq] at run
    obtain ⟨rfl, -⟩ := run
    have roamed : Follows now peer.publicKey home.wolfnetIp node.peerManager
        (if (node.peerManager.findIpByEndpoint src).isNone then
          (node.peerManager.updateEndpointIfRoaming home.wolfnetIp src).1 else node.peerManager) := by
      split_ifs
      · exact .updateEndpointIfRoaming
      · exact .refl _
    obtain ⟨peer', held', -⟩ := roamed peer held rfl
    refine ⟨{ peer' with lastSeen := some now }, ?_, rfl⟩
    rw [withManager_peerManager, PeerManager.withPeerByIp, held']
    exact HashMap.get_insert_self ..

end Node

namespace MainLoop

variable {start last loop next : MainLoop} {trace : List (MainLoop × Turn)} {turn : Turn}
  {publicKey : PublicKey} {ip : Ipv4Addr} {bound : Nat}

/-- The loop holds the peer of the key at the IP, with a session. -/
def Holds (loop : MainLoop) (publicKey : PublicKey) (ip : Ipv4Addr) : Prop :=
  ∃ peer, loop.node.peerManager.peersByIp.get ip = some peer ∧ peer.publicKey = publicKey ∧
    peer.cipher.isSome = true

/-- The loop also knows an endpoint of the peer. -/
def Places (loop : MainLoop) (publicKey : PublicKey) (ip : Ipv4Addr) : Prop :=
  ∃ peer, loop.node.peerManager.peersByIp.get ip = some peer ∧ peer.publicKey = publicKey ∧
    peer.endpoint.isSome = true

/-- The turn brings no reload, and nothing that names the key with another IP or the IP with another
key. -/
def Respects (publicKey : PublicKey) (ip : Ipv4Addr) (loop : MainLoop) (turn : Turn) : Prop :=
  ∀ event, turn.event loop.clock = some event → event.Respects publicKey ip

/-- When the peer at the IP was last heard. -/
def presenceOf (ip : Ipv4Addr) (loop : MainLoop) : Presence :=
  ⟨loop.clock, (loop.node.peerManager.peersByIp.get ip).bind Peer.lastSeen⟩

/-- An event reads the clock of its turn. -/
theorem Step.reads {event : Node.Event} (step : Step loop turn next)
    (seen : turn.event loop.clock = some event) {reading : Instant}
    (reads : event.now = some reading) : reading = loop.clock := by
  cases step with
  | beside beside =>
      cases seen
      cases beside <;> cases reads
  | packet | datagram | load =>
      cases seen
      cases reads
      rfl
  | work =>
      cases seen
      exact Job.reads reads
  | _ => cases seen

/-- The clock of the loop does not go back. -/
theorem Step.clock_le (step : Step loop turn next) : loop.clock ≤ next.clock := by
  cases step with
  | elapse later => exact later
  | _ => exact le_rfl

/-- A turn that names nothing otherwise changes the record of the key only as the key's packets do.
-/
theorem Step.follows (step : Step loop turn next) (respects : Respects publicKey ip loop turn) :
    Follows loop.clock publicKey ip loop.node.peerManager next.node.peerManager := by
  cases seen : turn.event loop.clock with
  | none =>
      have rests : next.node = loop.node := events.rests step seen
      rw [rests]
      exact .refl _
  | some event =>
      have moves : Node.Step loop.node event next.node := events.moves step seen
      exact moves.follows (respects event seen) fun _ => step.reads seen

/-- Such a turn leaves the peer held. -/
theorem Step.holds (step : Step loop turn next) (respects : Respects publicKey ip loop turn)
    (holds : loop.Holds publicKey ip) : next.Holds publicKey ip := by
  obtain ⟨peer, held, keyed, established⟩ := holds
  obtain ⟨peer', held', ages⟩ := step.follows respects peer held keyed
  exact ⟨peer', held', ages.publicKey.trans keyed, ages.cipher established⟩

/-- Such a turn leaves the peer's endpoint known. -/
theorem Step.places (step : Step loop turn next) (respects : Respects publicKey ip loop turn)
    (places : loop.Places publicKey ip) : next.Places publicKey ip := by
  obtain ⟨peer, held, keyed, placed⟩ := places
  obtain ⟨peer', held', ages⟩ := step.follows respects peer held keyed
  exact ⟨peer', held', ages.publicKey.trans keyed, ages.endpoint placed⟩

/-- To the peer's presence, such a turn is a step of the clock, a sign of it, or nothing. -/
theorem Step.presence (step : Step loop turn next) (respects : Respects publicKey ip loop turn)
    (holds : loop.Holds publicKey ip) (round : Option Presence.Round) :
    Presence.Step (presenceOf ip loop) round (presenceOf ip next) := by
  obtain ⟨peer, held, keyed, -⟩ := holds
  obtain ⟨peer', held', ages⟩ := step.follows respects peer held keyed
  refine ⟨step.clock_le, ?_⟩
  simpa [presenceOf, held, held'] using ages.lastSeen

/-- The job in which the loop comes by a round. -/
def roundJob : Presence.Round → Job
  | .present => .keepalives
  | .absent => .handshakes

/-- The round that a turn comes by. -/
def round : Turn → Option Presence.Round
  | .work .keepalives .. => some .present
  | .work .handshakes .. => some .absent
  | _ => none

omit [Crates] in
/-- A turn does the job of a round exactly where it is a turn of that round. -/
theorem works_roundJob (turn : Turn) (kind : Presence.Round) :
    turn.works (roundJob kind) = decide (round turn = some kind) := by
  cases turn with
  | work job => cases job <;> cases kind <;> rfl
  | _ => cases kind <;> rfl

/-- A turn of a loop that holds the peer, by nothing that names it otherwise. -/
def Tending (publicKey : PublicKey) (ip : Ipv4Addr) : Transition MainLoop Turn :=
  fun loop turn next => (loop.Holds publicKey ip ∧ Respects publicKey ip loop turn) ∧
    Step loop turn next

/-- What the turns are to the presence of the peer. -/
def presence (publicKey : PublicKey) (ip : Ipv4Addr) :
    View (Tending publicKey ip) Presence.Step where
  state := presenceOf ip
  label _ turn := some (round turn)
  moves := by
    rintro loop turn next seen ⟨⟨holds, respects⟩, step⟩ _
    exact step.presence respects holds seen
  rests _ none := by cases none

/-- All through a run of such turns the peer is held. -/
theorem holds_of_run (run : Run Step start trace last)
    (respects : Throughout (Respects publicKey ip) trace) (holds : start.Holds publicKey ip) :
    Always (fun loop => loop.Holds publicKey ip) trace last :=
  run.always (fun holds respects step => step.holds respects holds) holds respects

/-- All through a run of such turns the peer's endpoint is known. -/
theorem places_of_run (run : Run Step start trace last)
    (respects : Throughout (Respects publicKey ip) trace) (places : start.Places publicKey ip) :
    Always (fun loop => loop.Places publicKey ip) trace last :=
  run.always (fun places respects step => step.places respects places) places respects

/-- A run of such turns is one that tends the peer. -/
theorem tending_of_run (run : Run Step start trace last)
    (respects : Throughout (Respects publicKey ip) trace) (holds : start.Holds publicKey ip) :
    Run (Tending publicKey ip) start trace last :=
  run.confined fun entry member =>
    ⟨(holds_of_run run respects holds).1 entry member, respects entry member⟩

/-- The rounds of a peer's presence are the times at which the jobs are done. -/
theorem rounds_trace (kind : Presence.Round) (trace : List (MainLoop × Turn)) :
    Presence.rounds kind ((presence publicKey ip).trace trace) = worked (roundJob kind) trace := by
  have sees (loop : MainLoop) (turn : Turn) : turn.works (roundJob kind) =
      (((presence publicKey ip).label loop turn).any fun seen => seen = some kind) :=
    works_roundJob turn kind
  exact (presence publicKey ip).trace_filter trace sees fun _ => rfl

/-- In the round that a peer is in, the loop shows itself to where it holds the peer. -/
theorem Step.signs {peer : Peer} {endpoint : SocketAddr} (step : Step loop turn next)
    (held : loop.node.peerManager.peersByIp.get ip = some peer) (placed : peer.endpoint = some endpoint)
    (came : round turn = some (if peer.isConnected loop.clock then .present else .absent)) :
    ∃ datagram, loop.node.Signs datagram ∧ Effect.sendTo endpoint datagram ∈ turn.effects := by
  cases connected : peer.isConnected loop.clock with
  | true =>
      rw [connected, if_pos rfl] at came
      obtain ⟨outside, does⟩ :=
        step.does ((works_roundJob turn .present).trans (decide_eq_true came))
      exact ⟨_, Or.inr rfl, Node.Does.sends_keepalive does held connected placed⟩
  | false =>
      rw [connected, if_neg Bool.false_ne_true] at came
      obtain ⟨outside, does⟩ :=
        step.does ((works_roundJob turn .absent).trans (decide_eq_true came))
      refine ⟨_, Or.inl rfl, Node.Does.sends_greeting does held ?_⟩
      simp [Peer.handshakeTargets, connected, placed]

/-- In every window that is long enough for the jobs, and whatever becomes of the peer meanwhile, the
loop shows itself to where it holds the peer. -/
theorem shows_itself (opening closing : Nat) (run : Run Step start trace last)
    (begins : start.Begins) (respects : Throughout (Respects publicKey ip) trace)
    (holds : start.Holds publicKey ip) (places : start.Places publicKey ip)
    (polled : ∀ kind, Frequent bound start.clock (checked (roundJob kind) trace) last.clock)
    (short : 4 * bound ≤ 80 * 1000000000) (inside : start.clock ≤ opening)
    (wide : opening + (60 * 1000000000 + 6 * bound + 5) ≤ closing) (ends : closing ≤ last.clock) :
    ∃ entry ∈ trace, opening ≤ entry.1.clock ∧ entry.1.clock ≤ closing ∧
      ∃ peer endpoint datagram, entry.1.node.peerManager.peersByIp.get ip = some peer ∧
        peer.endpoint = some endpoint ∧ start.node.Signs datagram ∧
        Effect.sendTo endpoint datagram ∈ entry.2.effects := by
  have shown := (presence publicKey ip).run (tending_of_run run respects holds)
  have frequent (kind : Presence.Round) : Frequent ((roundJob kind).period + 2 * bound) start.clock
      (Presence.rounds kind ((presence publicKey ip).trace trace)) last.clock := by
    rw [rounds_trace]
    exact (keeps_time run begins (roundJob kind)).2 bound (polled kind)
  have fits : (roundJob .present).period + 2 * bound + ((roundJob .absent).period + 2 * bound) + 4 <
      sessionTimeout := by
    simp only [roundJob, Job.period, sessionTimeout]
    omega
  have room : opening + (2 * ((roundJob .present).period + 2 * bound) +
      ((roundJob .absent).period + 2 * bound) + 5) ≤ closing := by
    simp only [roundJob, Job.period]
    omega
  obtain ⟨seen, there, contact, after, before⟩ := Presence.exists_contact shown (frequent .present)
    (frequent .absent) fits inside room ends
  obtain ⟨entry, member, same⟩ := List.mem_filterMap.mp there
  cases same
  have self := (sameSelf run).1 entry member
  obtain ⟨peer, held, -, established⟩ := (holds_of_run run respects holds).1 entry member
  obtain ⟨_, found, -, placed⟩ := (places_of_run run respects places).1 entry member
  cases held.symm.trans found
  obtain ⟨endpoint, placed⟩ := Option.isSome_iff_exists.mp placed
  obtain ⟨next, step⟩ := run.taken entry member
  have came : round entry.2 =
      some (if peer.isConnected entry.1.clock then .present else .absent) := by
    rw [peer.isConnected_eq_alive entry.1.clock established]
    have view : presenceOf ip entry.1 = ⟨entry.1.clock, peer.lastSeen⟩ := by
      rw [presenceOf, held, Option.bind_some]
    rw [← view]
    exact contact
  obtain ⟨datagram, signs, sent⟩ := step.signs held placed came
  exact ⟨entry, member, after, before, peer, endpoint, datagram, held, placed, signs.of_same self, sent⟩

/-- A loop that takes a sign of a node has heard it. -/
theorem Step.hears {home : Node} {src : SocketAddr} {datagram : List UInt8} {effects : List Effect}
    (step : Step loop (.datagram src datagram effects) next) (signs : home.Signs datagram)
    (found : datagram = buildKeepalive home.keypair.myPeerId →
      loop.node.peerManager.findIpByEndpointOrId src home.keypair.myPeerId = some home.wolfnetIp)
    (holds : loop.Holds publicKey home.wolfnetIp) :
    (presenceOf home.wolfnetIp next).HeardSince loop.clock := by
  obtain ⟨peer, held, -⟩ := holds
  cases step with
  | datagram here size does =>
      cases does with
      | handled run =>
          obtain ⟨peer', held', seen⟩ := Node.inbound_signs run signs found held
          exact ⟨loop.clock, by simp [presenceOf, held', seen], le_rfl⟩
      | exchanged takes =>
          obtain ⟨_, _, _, _, _, type, _⟩ := takes
          exact absurd type signs.head_ne

/-- A peer that was heard is still connected at a later turn before the timeout. -/
theorem connected_after (run : Run (Tending publicKey ip) start trace last)
    (holds : last.Holds publicKey ip) {time : Instant} (heard : (presenceOf ip start).HeardSince time)
    (past : time ≤ start.clock) (soon : last.clock < time + sessionTimeout) :
    ∃ peer, last.node.peerManager.peersByIp.get ip = some peer ∧ peer.publicKey = publicKey ∧
      peer.isConnected last.clock = true := by
  obtain ⟨peer, held, keyed, established⟩ := holds
  have shown := (presence publicKey ip).run run
  have passed : time ≤ last.clock :=
    past.trans (run.clock_le MainLoop.clock fun _ _ _ tending => tending.2.clock_le)
  have alive := (heard.run past shown).alive passed soon
  have view : presenceOf ip last = ⟨last.clock, peer.lastSeen⟩ := by
    rw [presenceOf, held, Option.bind_some]
  refine ⟨peer, held, keyed, ?_⟩
  rw [peer.isConnected_eq_alive last.clock established, ← view]
  exact alive

/-- The life of a daemon's main loop, from where it begins. -/
structure Life where
  start : MainLoop
  trace : List (MainLoop × Turn)
  last : MainLoop
  run : Run Step start trace last
  begins : start.Begins

namespace Life

/-- What the home node sends to show itself to where it holds the other node, the other takes within
the latency, and looks up as the home node's. -/
def Carries (home away : Life) (latency : Nat) : Prop :=
  ∀ entry ∈ home.trace, ∀ peer endpoint datagram,
    entry.1.node.peerManager.peersByIp.get away.start.node.wolfnetIp = some peer →
    peer.endpoint = some endpoint → home.start.node.Signs datagram →
    Effect.sendTo endpoint datagram ∈ entry.2.effects →
    entry.1.clock + latency < away.last.clock →
    ∃ arrival ∈ away.trace, ∃ src effects, arrival.2 = .datagram src datagram effects ∧
      entry.1.clock ≤ arrival.1.clock ∧ arrival.1.clock ≤ entry.1.clock + latency ∧
      (datagram = buildKeepalive home.start.node.keypair.myPeerId →
        arrival.1.node.peerManager.findIpByEndpointOrId src home.start.node.keypair.myPeerId =
          some home.start.node.wolfnetIp)

/-- The node holds the other's node, and nothing that it takes names that otherwise. -/
structure Tends (home away : Life) : Prop where
  holds : home.start.Holds away.start.node.keypair.publicKey away.start.node.wolfnetIp
  respects : Throughout
    (Respects away.start.node.keypair.publicKey away.start.node.wolfnetIp) home.trace

/-- Two nodes hold each other, the home node's loop knows where the other one is and comes by often, and
the network carries what it sends to show itself. -/
structure Linked (home away : Life) (bound latency : Nat) : Prop where
  tends : home.Tends away
  places : home.start.Places away.start.node.keypair.publicKey away.start.node.wolfnetIp
  tended : away.Tends home
  polled : ∀ kind, Frequent bound home.start.clock (checked (roundJob kind) home.trace) home.last.clock
  carries : home.Carries away latency
  timely : 6 * bound + latency ≤ 59 * 1000000000

/-- A node that the network carries the signs of is held for connected at every turn from the timeout
on, whatever it itself takes the other one for. -/
theorem stays_connected {home away : Life} {latency : Nat} (linked : home.Linked away bound latency) :
    ∀ entry ∈ away.trace, home.start.clock + sessionTimeout ≤ entry.1.clock →
      entry.1.clock ≤ home.last.clock →
      ∃ peer, entry.1.node.peerManager.peersByIp.get home.start.node.wolfnetIp = some peer ∧
        peer.publicKey = home.start.node.keypair.publicKey ∧
        peer.isConnected entry.1.clock = true := by
  intro entry member late within
  have timely := linked.timely
  have late : @LE.le Nat _ (home.start.clock + 120 * 1000000000) entry.1.clock := late
  have within : @LE.le Nat _ entry.1.clock home.last.clock := within
  -- the home node showed itself, early enough for this to have arrived
  obtain ⟨closing, closes⟩ := Nat.exists_eq_add_of_le' (by omega : latency + 1 ≤ entry.1.clock)
  obtain ⟨opening, opens⟩ :=
    Nat.exists_eq_add_of_le' (by omega : 60 * 1000000000 + 6 * bound + 5 ≤ closing)
  obtain ⟨shown, there, after, before, peer, endpoint, datagram, held, placed, signs, sent⟩ :=
    shows_itself opening closing home.run home.begins linked.tends.respects linked.tends.holds
      linked.places linked.polled (by omega) (show (_ : Nat) ≤ _ by omega) opens.ge (by omega)
  have before : @LE.le Nat _ shown.1.clock closing := before
  -- the other one took it, before this turn
  have reached : @LE.le Nat _ entry.1.clock away.last.clock := by
    obtain ⟨early, behind, split⟩ := List.append_of_mem member
    exact (away.run.after split).clock_le MainLoop.clock fun _ _ _ => Step.clock_le
  obtain ⟨arrival, arrived, src, effects, took, since, soon, found⟩ :=
    linked.carries shown there peer endpoint datagram held placed signs sent
      (show (_ : Nat) < _ by omega)
  have since : @LE.le Nat _ shown.1.clock arrival.1.clock := since
  have soon : @LE.le Nat _ arrival.1.clock (shown.1.clock + latency) := soon
  have sooner : arrival.1.clock < entry.1.clock := show (_ : Nat) < _ by omega
  have holds := (holds_of_run away.run linked.tended.respects linked.tended.holds).1 entry member
  have tending := tending_of_run away.run linked.tended.respects linked.tended.holds
  obtain ⟨between, led⟩ :=
    tending.leads MainLoop.clock (fun _ _ _ tending => tending.2.clock_le) arrived member sooner
  obtain ⟨next, ⟨⟨holding, _⟩, step⟩, onward⟩ := led.head rfl
  rw [took] at step
  -- and from then on it is connected, until after this turn
  refine connected_after onward holds (step.hears signs found holding) step.clock_le ?_
  have close : @LT.lt Nat _ entry.1.clock (arrival.1.clock + 120 * 1000000000) := by omega
  exact close

end Life
end MainLoop
end Daemon

namespace Sample

attribute [local instance] crates

/-- The turns by which a loop comes by a job. -/
def visit (job : Job) (loop : MainLoop) : List Turn :=
  match loop.due job, loop.node.handle (job.event nowhere loop.clock) with
  | true, .ok (_, effects) => [.work job nowhere effects, .reset job]
  | _, _ => [.skip job]

/-- The turns that a loop takes, each some after the others. -/
def perform : MainLoop → List (MainLoop → List Turn) → List Turn
  | _, [] => []
  | loop, next :: rest => next loop ++ perform ((next loop).foldl MainLoop.advance loop) rest

/-- Nothing comes in for nine seconds. -/
def iteration : List (MainLoop → List Turn) := [
  fun loop => [.elapse (loop.clock + 9000000000), .enter, .poll none], visit .handshakes, visit .keepalives,
  visit .peerExchange, visit .resolve, visit .readRoutes, fun _ => [.asked false]]

def homeTurns : List Turn := perform mainLoop (List.replicate 14 iteration).flatten

/-- A node that holds the first sample node for connected, about to begin. -/
def awayLoop : MainLoop := { mainLoop with node := node 2 false (connectedTable 2 1) }

/-- The keepalives of the first sample node come in as they are sent. -/
def awayTurns : List Turn :=
  [.enter, .poll (some (false, true))] ++ ([27, 54, 81, 108].flatMap fun seconds => [
    .elapse (seconds * 1000000000), .datagram endpoint (buildKeepalive (keypair 1).myPeerId) []]) ++
  [.elapse 121000000000]

def home : MainLoop.Life where
  start := mainLoop
  trace := traceOf MainLoop.advance mainLoop homeTurns
  last := homeTurns.foldl MainLoop.advance mainLoop
  run := MainLoop.run_of_taken (by decide +kernel)
  begins := mainLoop_begins

def away : MainLoop.Life where
  start := awayLoop
  trace := traceOf MainLoop.advance awayLoop (awayTurns ++ [Turn.drained])
  last := (awayTurns ++ [Turn.drained]).foldl MainLoop.advance awayLoop
  run := MainLoop.run_of_taken (by decide +kernel)
  begins := ⟨rfl, fun _ => le_rfl⟩

/-- The entry takes a keepalive of the first sample node within a second of the time. -/
def takesKeepalive (time : Instant) (arrival : MainLoop × Turn) : Bool :=
  match arrival.2 with
  | .datagram src bytes _ => bytes = buildKeepalive (keypair 1).myPeerId ∧ time ≤ arrival.1.clock ∧
      arrival.1.clock ≤ time + 1000000000 ∧
      arrival.1.node.peerManager.findIpByEndpointOrId src (keypair 1).myPeerId = some ⟨10, 10, 10, 1⟩
  | _ => false

/-- The home node's keepalives arrive within a second. -/
theorem home_carries : home.Carries away 1000000000 := by
  have taken : home.trace.all (fun entry => entry.2.effects.all fun effect =>
      entry.1.clock + 1000000000 < away.last.clock → effect = keepalive ∧
        away.trace.any (takesKeepalive entry.1.clock) = true) = true := by
    decide +kernel
  intro entry member peer target datagram _ _ _ sent timely
  have each := List.all_eq_true.mp (List.all_eq_true.mp taken entry member) _ sent
  obtain ⟨same, some⟩ := of_decide_eq_true each timely
  cases same
  obtain ⟨⟨loop, turn⟩, arrived, takes⟩ := List.any_eq_true.mp some
  cases turn with
  | datagram src bytes effects =>
      obtain ⟨rfl, since, soon, found⟩ := of_decide_eq_true takes
      exact ⟨_, arrived, src, effects, rfl, since, soon, fun _ => found⟩
  | _ => cases takes

/-- The event names nobody, and is no reload. -/
def isQuiet : Node.Event → Bool
  | .tunnel _ _ bytes => bytes.length < 40
  | .discovery _ _ => false
  | .reload .. => false
  | _ => true

/-- A quiet event names no key and no IP. -/
theorem respects_of_isQuiet {event : Node.Event} {publicKey : PublicKey} {ip : Ipv4Addr}
    (quiet : isQuiet event = true) : event.Respects publicKey ip where
  names key other names := by
    cases names with
    | handshake parsed =>
        rw [HandshakeFrame.parse_short (of_decide_eq_true quiet)] at parsed
        cases parsed
    | broadcast => cases quiet
  noReload dns now newConfig routes subnetRoutes reload := by
    subst reload
    cases quiet

/-- Turns without such events name none either. -/
theorem respects_of_trace {trace : List (MainLoop × Turn)} {publicKey : PublicKey} {ip : Ipv4Addr}
    (quiet : trace.all (fun entry => (entry.2.event entry.1.clock).all isQuiet) = true) :
    Throughout (MainLoop.Respects publicKey ip) trace := by
  intro entry member event happens
  have here := List.all_eq_true.mp quiet entry member
  rw [happens, Option.all_some] at here
  exact respects_of_isQuiet here

/-- The two sample nodes are linked. -/
theorem home_linked : home.Linked away 9000000000 1000000000 where
  tends := ⟨⟨_, rfl, rfl, rfl⟩, respects_of_trace (by decide +kernel)⟩
  places := ⟨_, rfl, rfl, rfl⟩
  tended := ⟨⟨_, rfl, rfl, rfl⟩, respects_of_trace (by decide +kernel)⟩
  polled kind := by
    have times : MainLoop.checked (MainLoop.roundJob kind) home.trace =
        (List.range 14).map fun count => (count + 1) * 9000000000 := by
      cases kind <;> decide +kernel
    have ended : home.last.clock = 126000000000 := by decide +kernel
    rw [times, ended]
    unfold Frequent
    decide
  carries := home_carries
  timely := by decide

/-- Two minutes after the start the other node holds the first one for connected. -/
theorem stays_connected_sample : ∃ peer,
    (awayTurns.foldl MainLoop.advance awayLoop).node.peerManager.peersByIp.get ⟨10, 10, 10, 1⟩ =
        some peer ∧ peer.publicKey = (keypair 1).publicKey ∧
      peer.isConnected 121000000000 = true := by
  have clock : (awayTurns.foldl MainLoop.advance awayLoop).clock = 121000000000 := by
    decide +kernel
  have member : (awayTurns.foldl MainLoop.advance awayLoop, Turn.drained) ∈ away.trace := by
    have snoc := traceOf_snoc MainLoop.advance awayLoop awayTurns .drained
    change _ ∈ traceOf MainLoop.advance awayLoop (awayTurns ++ [Turn.drained])
    rw [snoc]
    exact List.mem_append_right _ (List.mem_singleton_self _)
  have ended : home.last.clock = 126000000000 := by decide +kernel
  have connected := MainLoop.Life.stays_connected home_linked _ member
  rw [clock, ended] at connected
  exact connected (by decide) (by decide)

end Sample
end WolfNet
