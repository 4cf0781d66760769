import Mathlib.Logic.Function.Basic
import WolfNet.Daemon.Inbound
import WolfNet.Semantics.Run
import WolfNet.Session.Nonce
import WolfNet.Table.Effects
import WolfNet.Transport.Handshake

/-!
# Crossing handshakes

A node answers a handshake of a peer that it does not hold for connected. The handshake
itself makes the peer connected, so until the timeout expires a node answers the other
one at most once, whatever its table held: `handshakes_settle`.
-/

namespace WolfNet

open WolfNet.Std WolfNet.Semantics NonceUse

section Exchanges

variable [Crates]

/-- Two nodes, the handshakes on their way to each of them, the replies that each of them
sent, the time at which each of them last took a handshake, and how many were delivered. -/
structure Crossing where
  node : Side → Node
  flight : Side → List (List UInt8)
  replies : Side → Nat
  heard : Side → Option Instant
  delivered : Nat

/-- The network delivers a handshake to a side, from some source, or drops it. -/
inductive CrossingEvent where
  | deliver (side : Side) (now : Instant) (src : SocketAddr) (datagram : List UInt8)
  | drop (side : Side) (datagram : List UInt8)

/-- A handshake is delivered at most once, and what it is answered with goes to the other side. -/
inductive CrossingStep : Transition Crossing CrossingEvent where
  | deliver {crossing : Crossing} {side : Side} {now : Instant} {src : SocketAddr}
      {datagram : List UInt8} {front back : List (List UInt8)} {node' : Node}
      {effects : List Effect} (inFlight : crossing.flight side = front ++ datagram :: back)
      (run : (crossing.node side).inbound now src datagram = .ok (node', effects)) :
      CrossingStep crossing (.deliver side now src datagram) {
        node := Function.update crossing.node side node'
        flight := Function.update (Function.update crossing.flight side (front ++ back)) side.other
          (crossing.flight side.other ++ datagramsOf effects)
        replies := Function.update crossing.replies side
          (crossing.replies side + (datagramsOf effects).length)
        heard := Function.update crossing.heard side (some now)
        delivered := crossing.delivered + 1 }
  | drop {crossing : Crossing} {side : Side} {datagram : List UInt8}
      {front back : List (List UInt8)}
      (inFlight : crossing.flight side = front ++ datagram :: back) :
      CrossingStep crossing (.drop side datagram) { crossing with
        flight := Function.update crossing.flight side (front ++ back) }

/-- The datagram is a handshake of a node. -/
def Announces (datagram : List UInt8) (node : Node) : Prop :=
  ∃ port hostname isGateway,
    datagram = buildHandshake node.keypair node.wolfnetIp port hostname isGateway

namespace Crossing

/-- A handshake is delivered before the timeout of the last one at its side expires. -/
def InTime (crossing : Crossing) : CrossingEvent → Prop
  | .deliver side now _ _ => ∀ last, crossing.heard side = some last → elapsedSecs now last < 120
  | .drop _ _ => True

/-- The handshakes in flight. -/
def inFlight (crossing : Crossing) : Nat :=
  (crossing.flight .first).length + (crossing.flight .second).length

/-- Nothing was delivered yet, and what is in flight are handshakes of the other side. -/
structure Initial (crossing : Crossing) : Prop where
  flight : ∀ side, ∀ datagram ∈ crossing.flight side, Announces datagram (crossing.node side.other)
  replies : ∀ side, crossing.replies side = 0
  heard : ∀ side, crossing.heard side = none
  delivered : crossing.delivered = 0

/-- The node holds the other one, from which it last heard at the time, with a session. -/
def Knows (node other : Node) (last : Instant) : Prop :=
  ∃ peer, node.peerManager.peersByIp.get other.wolfnetIp = some peer ∧
    peer.publicKey.Same other.keypair.publicKey ∧ peer.cipher.isSome = true ∧
      peer.lastSeen = some last

/-- A side that heard from the other knows it, and one that did not has sent no reply. -/
structure Settling (crossing : Crossing) : Prop where
  flight : ∀ side, ∀ datagram ∈ crossing.flight side, Announces datagram (crossing.node side.other)
  knows : ∀ side last, crossing.heard side = some last →
    Knows (crossing.node side) (crossing.node side.other) last
  replies : ∀ side, crossing.replies side ≤ if (crossing.heard side).isSome then 1 else 0

end Crossing

open Crossing

variable {node node' other : Node} {now last : Instant} {src : SocketAddr} {datagram : List UInt8}
  {effects : List Effect}

/-- A discovery leaves the key at its IP, and keeps the record of a key that was there. -/
theorem updateFromDiscovery_held (pm : PeerManager) (publicKey : PublicKey) (endpoint : SocketAddr)
    (ip : Ipv4Addr) (hostname : String) (isGateway : Bool) :
    ∃ peer, (pm.updateFromDiscovery publicKey endpoint ip hostname isGateway).peersByIp.get ip =
        some peer ∧ peer.publicKey.Same publicKey ∧
      ∀ old, pm.peersByIp.get ip = some old → old.publicKey.Same publicKey →
        peer.cipher = old.cipher ∧ peer.lastSeen = old.lastSeen := by
  cases pm.updateFromDiscovery_discovers publicKey endpoint ip hostname isGateway with
  | refreshed peer keyed unpinned moves =>
      refine ⟨_, (moves.peers ip).trans (if_pos rfl), keyed, fun old held _ => ?_⟩
      cases held.symm.trans moves.held
      exact ⟨rfl, rfl⟩
  | pinned peer keyed pinned touches =>
      refine ⟨_, (touches.peers ip).trans (if_pos rfl), keyed, fun old held _ => ?_⟩
      cases held.symm.trans touches.held
      exact ⟨rfl, rfl⟩
  | migrated oldIp peer elsewhere held keyed search foreign replaces =>
      exact ⟨_, (replaces.peers ip).trans (if_pos rfl), keyed,
        fun old there same => absurd same (foreign old there)⟩
  | inserted unknown replaces =>
      exact ⟨_, (replaces.peers ip).trans (if_pos rfl), rfl,
        fun old there same => absurd same (unknown ip old there)⟩

/-- The tables that a handshake makes, up to the edit of its peer's session. -/
theorem Node.handleHandshake_eq (node : Node) (now : Instant) (src : SocketAddr) {hs : Handshake}
    (parsed : parseHandshake datagram = .ok (some hs)) : ∃ effects,
      node.handleHandshake now src datagram = .ok (node.withManager
        ((node.peerManager.updateFromDiscovery hs.publicKey src hs.wolfnetIp hs.hostname
          hs.isGateway).withPeerByIp hs.wolfnetIp fun peer =>
            { peer.establishSession node.keypair.secret node.keypair.publicKey now with
              lastSeen := some now }), effects) := by
  simp only [Node.handleHandshake, parsed, Rust.ok_bind]
  exact ⟨_, rfl⟩

/-- A handshake gives the peer that its discovery leaves a session. -/
theorem Node.handleHandshake_held (now : Instant) {hs : Handshake} {peer : Peer}
    (parsed : parseHandshake datagram = .ok (some hs))
    (found : (node.peerManager.updateFromDiscovery hs.publicKey src hs.wolfnetIp hs.hostname
      hs.isGateway).peersByIp.get hs.wolfnetIp = some peer) :
    ∃ node' effects, node.handleHandshake now src datagram = .ok (node', effects) ∧
      node'.peerManager.peersByIp.get hs.wolfnetIp =
        some { peer.establishSession node.keypair.secret node.keypair.publicKey now with
          lastSeen := some now } := by
  obtain ⟨effects, run⟩ := node.handleHandshake_eq now src parsed
  refine ⟨_, effects, run, ?_⟩
  simp only [Node.withManager_peerManager, PeerManager.withPeerByIp, found]
  exact HashMap.get_insert_self ..

/-- A handshake announces every node with the same keys and address. -/
theorem Announces.of_identity (announces : Announces datagram node)
    (keypair : node'.keypair = node.keypair) (wolfnetIp : node'.wolfnetIp = node.wolfnetIp) :
    Announces datagram node' := by
  obtain ⟨port, hostname, isGateway, rfl⟩ := announces
  refine ⟨port, hostname, isGateway, ?_⟩
  rw [keypair, wolfnetIp]

/-- What a node knows of the other depends on the other's identity only. -/
theorem Crossing.Knows.of_identity (knows : Knows other node last)
    (keypair : node'.keypair = node.keypair) (wolfnetIp : node'.wolfnetIp = node.wolfnetIp) :
    Knows other node' last := by
  obtain ⟨peer, held, keyed, rest⟩ := knows
  refine ⟨peer, ?_, ?_, rest⟩
  · rw [wolfnetIp]
    exact held
  · rw [keypair]
    exact keyed

/-- What is sent in answer announces the node that answers. -/
theorem announces_of_answer {reply : List UInt8}
    (answers : effects = [] ∨ ∃ reply, effects = [.sendTo src reply] ∧ Announces reply node)
    (member : reply ∈ datagramsOf effects) : Announces reply node := by
  rcases answers with rfl | ⟨answer, rfl, announces⟩
  · simp [datagramsOf] at member
  · simp only [datagramsOf, List.filterMap_cons, List.filterMap_nil, List.mem_singleton] at member
    rwa [member]

/-- What a node does with a handshake of another one: it knows the other one afterwards, and
it answers unless it holds it for connected. -/
theorem inbound_handshake (node : Node) (announces : Announces datagram other) (now : Instant)
    (src : SocketAddr) :
    ∃ node' effects, node.inbound now src datagram = .ok (node', effects) ∧
      node'.keypair = node.keypair ∧ node'.wolfnetIp = node.wolfnetIp ∧ Knows node' other now ∧
      (effects = [] ∨ ∃ reply, effects = [.sendTo src reply] ∧ Announces reply node) ∧
      ∀ last, Knows node other last → elapsedSecs now last < 120 → effects = [] := by
  obtain ⟨port, hostname, isGateway, rfl⟩ := announces
  have dispatch : node.inbound now src
      (buildHandshake other.keypair other.wolfnetIp port hostname isGateway) =
        node.handleHandshake now src
          (buildHandshake other.keypair other.wolfnetIp port hostname isGateway) := rfl
  rw [dispatch, Node.handleHandshake, Handshake.parseHandshake_build]
  obtain ⟨peer, held, keyed, kept⟩ := updateFromDiscovery_held node.peerManager
    other.keypair.publicKey src other.wolfnetIp hostname isGateway
  refine ⟨_, _, rfl, rfl, rfl, ?_, ?_, fun last knows recent => ?_⟩
  · refine ⟨{ peer.establishSession node.keypair.secret node.keypair.publicKey now with
      lastSeen := some now }, ?_, keyed, rfl, rfl⟩
    simp only [Node.withManager_peerManager, PeerManager.withPeerByIp, held]
    exact HashMap.get_insert_self ..
  · dsimp only
    split
    · exact Or.inl rfl
    · exact Or.inr ⟨_, rfl, _, _, _, rfl⟩
  · obtain ⟨old, there, oldKey, established, seen⟩ := knows
    obtain ⟨sameCipher, sameSeen⟩ := kept old there oldKey
    have connected : peer.isConnected now = true := by
      rw [Peer.isConnected, sameCipher, established, sameSeen, seen, Option.any_some, Bool.true_and]
      exact decide_eq_true recent
    simp [held, connected]

namespace Crossing

variable {crossing next : Crossing} {event : CrossingEvent}

/-- A crossing settles from its beginning. -/
theorem Initial.settling (initial : crossing.Initial) : crossing.Settling where
  flight := initial.flight
  knows := by simp [initial.heard]
  replies := by simp [initial.replies]

/-- The handshakes delivered and in flight are those of the start and the replies. -/
def Balanced (crossing : Crossing) (count : Nat) : Prop :=
  crossing.delivered + crossing.inFlight ≤ count + crossing.replies .first + crossing.replies .second

/-- Handling a handshake keeps the identities of both nodes. -/
theorem sameIdentity {side : Side} (keypair : node'.keypair = (crossing.node side).keypair)
    (wolfnetIp : node'.wolfnetIp = (crossing.node side).wolfnetIp) (another : Side) :
    (Function.update crossing.node side node' another).keypair = (crossing.node another).keypair ∧
      (Function.update crossing.node side node' another).wolfnetIp =
        (crossing.node another).wolfnetIp := by
  by_cases here : another = side
  · subst here
    rw [Function.update_self]
    exact ⟨keypair, wolfnetIp⟩
  · rw [Function.update_of_ne here]
    exact ⟨rfl, rfl⟩

/-- At most one reply is sent, and none to a side that was heard. -/
theorem Settling.reply_count (settling : crossing.Settling) {side : Side}
    (answers : effects = [] ∨ ∃ reply, effects = [.sendTo src reply] ∧
      Announces reply (crossing.node side))
    (silent : ∀ last, crossing.heard side = some last → effects = []) :
    crossing.replies side + (datagramsOf effects).length ≤ 1 := by
  have before := settling.replies side
  cases heard : crossing.heard side with
  | some last =>
      rw [silent last heard]
      simpa [heard, datagramsOf] using before
  | none =>
      rw [heard, Option.isSome_none, if_neg Bool.false_ne_true] at before
      rcases answers with rfl | ⟨reply, rfl, _⟩
      · simp only [datagramsOf, List.filterMap_nil, List.length_nil]
        omega
      · simp only [datagramsOf, List.filterMap_cons, List.filterMap_nil, List.length_singleton]
        omega

/-- Taking a handshake out of flight leaves only such as were in flight. -/
theorem mem_of_taken {side another : Side} {front back : List (List UInt8)} {taken : List UInt8}
    (inFlight : crossing.flight side = front ++ taken :: back)
    (member : datagram ∈ Function.update crossing.flight side (front ++ back) another) :
    datagram ∈ crossing.flight another := by
  by_cases here : another = side
  · subst here
    rw [Function.update_self] at member
    rw [inFlight]
    simp only [List.mem_append, List.mem_cons] at member ⊢
    tauto
  · rwa [Function.update_of_ne here] at member

/-- A delivered handshake makes its receiver know the sender, and is answered once. -/
theorem Settling.step (settling : crossing.Settling) (inTime : crossing.InTime event)
    (transition : CrossingStep crossing event next) : next.Settling := by
  cases transition with
  | @drop _ side datagram front back inFlight =>
      exact { settling with
        flight := fun another other member =>
          settling.flight another other (mem_of_taken inFlight member) }
  | @deliver _ side now src datagram front back node' effects inFlight run =>
      have announced := settling.flight side datagram (by simp [inFlight])
      obtain ⟨node'', effects', run', keypair, wolfnetIp, knows, answers, silent⟩ :=
        inbound_handshake (crossing.node side) announced now src
      cases run'.symm.trans run
      have same := crossing.sameIdentity keypair wolfnetIp
      have quiet : ∀ last, crossing.heard side = some last → effects = [] := fun last heard =>
        silent last (settling.knows side last heard) (inTime last heard)
      refine ⟨fun another other member => ?_, fun another last heard => ?_, fun another => ?_⟩ <;>
        dsimp only at *
      · have source : Announces other (crossing.node another.other) := by
          by_cases opposite : another = side.other
          · subst opposite
            rw [Function.update_self] at member
            rcases List.mem_append.mp member with before | reply
            · exact settling.flight side.other other before
            · rw [Side.other_other]
              exact announces_of_answer answers reply
          · rw [Function.update_of_ne opposite] at member
            exact settling.flight another other (mem_of_taken inFlight member)
        exact source.of_identity (same another.other).1 (same another.other).2
      · have known : Knows (Function.update crossing.node side node' another)
            (crossing.node another.other) last := by
          by_cases here : another = side
          · subst here
            rw [Function.update_self] at heard ⊢
            cases heard
            exact knows
          · rw [Function.update_of_ne here] at heard ⊢
            exact settling.knows another last heard
        exact known.of_identity (same another.other).1 (same another.other).2
      · by_cases here : another = side
        · subst here
          simp only [Function.update_self, Option.isSome_some, if_true]
          exact settling.reply_count answers quiet
        · simp only [Function.update_of_ne here]
          exact settling.replies another

/-- A delivery takes one handshake and puts its replies in flight. -/
theorem Balanced.step {count : Nat} (balanced : crossing.Balanced count)
    (transition : CrossingStep crossing event next) : next.Balanced count := by
  unfold Crossing.Balanced inFlight at balanced ⊢
  cases transition with
  | @drop _ side datagram front back inFlight =>
      cases side <;> simp [inFlight] at balanced ⊢ <;> omega
  | @deliver _ side now src datagram front back node' effects inFlight run =>
      cases side <;> simp [inFlight, Side.other] at balanced ⊢ <;> omega

end Crossing

/-- In every run in which no timeout expires between two handshakes that a side takes, each
side sends one reply at most, so of the handshakes in flight at the start and their replies
at most two more are delivered than there were. -/
theorem handshakes_settle {start last : Crossing} {trace : List (Crossing × CrossingEvent)}
    (initial : start.Initial) (run : Run CrossingStep start trace last)
    (inTime : Throughout InTime trace) :
    (∀ side, last.replies side ≤ 1) ∧ last.delivered ≤ start.inFlight + 2 := by
  have settling := run.invariant Settling.step initial.settling inTime
  have balanced : last.Balanced start.inFlight := run.invariant
    (fun balanced _ transition => Crossing.Balanced.step balanced transition)
    (by simp [Crossing.Balanced, initial.replies, initial.delivered]) inTime
  have once : ∀ side, last.replies side ≤ 1 := by
    intro side
    have bound := settling.replies side
    split at bound <;> omega
  refine ⟨once, ?_⟩
  have first := once .first
  have second := once .second
  unfold Crossing.Balanced at balanced
  omega

end Exchanges

section Sample

attribute [local instance] Sample.crates

/-- A handshake of a sample node. -/
def sampleHandshake (byte : UInt8) : List UInt8 :=
  buildHandshake (Sample.keypair byte) ⟨10, 10, 10, byte⟩ 9600 "sample" false

/-- Two sample nodes that do not know each other and sent a handshake each. -/
def sampleCrossing : Crossing where
  node
    | .first => Sample.node 1 false .new
    | .second => Sample.node 2 false .new
  flight
    | .first => [sampleHandshake 2]
    | .second => [sampleHandshake 1]
  replies := fun _ => 0
  heard := fun _ => none
  delivered := 0

/-- A side takes the handshake that is first on its way. -/
def arrive (crossing : Crossing) (side : Side) (now : Instant) : Crossing :=
  match crossing.flight side with
  | [] => crossing
  | datagram :: back =>
    match (crossing.node side).inbound now Sample.endpoint datagram with
    | .error _ => crossing
    | .ok (node', effects) => {
        node := Function.update crossing.node side node'
        flight := Function.update (Function.update crossing.flight side back) side.other
          (crossing.flight side.other ++ datagramsOf effects)
        replies := Function.update crossing.replies side
          (crossing.replies side + (datagramsOf effects).length)
        heard := Function.update crossing.heard side (some now)
        delivered := crossing.delivered + 1 }

/-- The arrival of the oldest datagram is a step. -/
theorem step_of_arrive {crossing : Crossing} {side : Side} {now : Instant} {datagram : List UInt8}
    {back : List (List UInt8)} {node' : Node} {effects : List Effect}
    (inFlight : crossing.flight side = datagram :: back)
    (run : (crossing.node side).inbound now Sample.endpoint datagram = .ok (node', effects)) :
    CrossingStep crossing (.deliver side now Sample.endpoint datagram)
      (arrive crossing side now) := by
  simp only [arrive, inFlight, run]
  exact .deliver (show crossing.flight side = [] ++ datagram :: back from inFlight) run

/-- Each node takes the handshake of the other one, and then the answer to its own. -/
def sampleSettling : List (Crossing × CrossingEvent) :=
  let answered := arrive sampleCrossing .first 0
  let crossed := arrive answered .second 1
  [(sampleCrossing, .deliver .first 0 Sample.endpoint (sampleHandshake 2)),
    (answered, .deliver .second 1 Sample.endpoint (sampleHandshake 1)),
    (crossed, .deliver .first 2 Sample.endpoint (sampleHandshake 2)),
    (arrive crossed .first 2, .deliver .second 3 Sample.endpoint (sampleHandshake 1))]

/-- The crossing when the handshakes and their answers were taken. -/
def sampleSettled : Crossing :=
  arrive (arrive (arrive (arrive sampleCrossing .first 0) .second 1) .first 2) .second 3

/-- The four arrivals are a run. -/
theorem sampleSettling_run : Run CrossingStep sampleCrossing sampleSettling sampleSettled :=
  (((Run.refl.step (step_of_arrive rfl rfl)).step (step_of_arrive rfl rfl)).step
    (step_of_arrive rfl rfl)).step (step_of_arrive rfl rfl)

/-- Two crossing handshakes are answered once each, and the answers are not. -/
theorem handshakes_settle_sample :
    sampleSettled.delivered = 4 ∧ (∀ side, sampleSettled.flight side = []) ∧
      (∀ side, sampleSettled.replies side ≤ 1) ∧
      sampleSettled.delivered ≤ sampleCrossing.inFlight + 2 := by
  have initial : sampleCrossing.Initial := by
    refine ⟨?_, fun _ => rfl, fun _ => rfl, rfl⟩
    rintro (_ | _) datagram member
    · exact ⟨9600, "sample", false, List.mem_singleton.mp member⟩
    · exact ⟨9600, "sample", false, List.mem_singleton.mp member⟩
  have inTime : Throughout Crossing.InTime sampleSettling := by
    rintro entry (_ | ⟨_, _ | ⟨_, _ | ⟨_, _ | ⟨_, ⟨⟩⟩⟩⟩⟩) last heard <;> cases heard <;> decide
  have quiet : ∀ side, sampleSettled.flight side = [] := by
    rintro (_ | _) <;> rfl
  exact ⟨rfl, quiet, handshakes_settle initial sampleSettling_run inTime⟩

end Sample
end WolfNet
