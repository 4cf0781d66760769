import WolfNet.Daemon.Emissions
import WolfNet.Semantics.Provenance

/-!
# A mesh under attack

The members of a mesh run daemons, and what reaches their sockets is up to an attacker: any
datagram may arrive anywhere, at any time, again, or never. Nothing but the AEAD and the secrecy of
the members' keys limits the attacker: `Unforged` is the assumption that what opens under the secret
of two members was sealed under it by one of them.
-/

namespace WolfNet

open WolfNet.Std WolfNet.Semantics

variable [Crates]

namespace Node

/-- The event is a datagram that opens to the packet, in the session under the secret with a peer of
the key. -/
def Opens (node : Node) (event : Event) (publicKey : PublicKey) (secret : SharedSecret)
    (nonce : Nonce) (packet : List UInt8) : Prop :=
  ∃ now src peerId counter ciphertext mid sender peer session,
    event = .tunnel now src (buildDataPacket peerId counter ciphertext) ∧
    node.receiveData now src (buildDataPacket peerId counter ciphertext) =
      .ok (mid, some (sender, packet)) ∧
    node.peerManager.peersByIp.get sender = some peer ∧ peer.publicKey = publicKey ∧
    peer.cipher = some session ∧ session.cipher = secret ∧ session.recvNonce counter = nonce

end Node

/-- What a member did: the event it took, its node before and after, and what it let out. -/
structure Act (Member : Type) where
  member : Member
  before : Node
  event : Node.Event
  after : Node
  effects : List Effect

namespace Act

variable {Member : Type} (act : Act Member)

/-- The act let out a packet of its source, sealed under the secret for a peer of the key. -/
def Seals (publicKey : PublicKey) (secret : SharedSecret) (nonce : Nonce) (packet : List UInt8) :
    Prop :=
  ∃ (now : Instant) (session : SessionCipher) (endpoint : SocketAddr),
    act.before.Source act.event now packet ∧ session.IsFor act.before.keypair publicKey ∧
    session.cipher = secret ∧ session.sendNonce = nonce ∧
    Effect.sendTo endpoint (buildDataPacket act.before.keypair.myPeerId session.sendCounter
      (session.sealed packet)) ∈ act.effects

/-- The act took a datagram that opened to the packet. -/
def Opens (publicKey : PublicKey) (secret : SharedSecret) (nonce : Nonce) (packet : List UInt8) :
    Prop :=
  act.before.Opens act.event publicKey secret nonce packet

/-- The member read the packet from its TUN device. -/
def Reads (packet : List UInt8) : Prop := ∃ now, act.event = .tun now packet

/-- The member wrote the packet to its TUN device. -/
def Writes (packet : List UInt8) : Prop := Effect.writeTun packet ∈ act.effects

/-- The member made the packet, read it or opened it. -/
def Has (packet : List UInt8) : Prop := ∃ now, act.before.Source act.event now packet

end Act

/-- The nodes of the members, and what the members did so far. -/
structure Mesh (Member : Type) where
  nodes : Member → Node
  history : List (Act Member)

namespace Mesh

variable {Member : Type} [DecidableEq Member]

/-- One member takes an event. -/
def Step : Transition (Mesh Member) (Member × Node.Event)
  | mesh, (member, event), next => ∃ node' effects,
    (mesh.nodes member).Does event node' effects ∧
      next = ⟨Function.update mesh.nodes member node',
        mesh.history ++ [⟨member, mesh.nodes member, event, node', effects⟩]⟩

/-- The key of a member. -/
def key (mesh : Mesh Member) (member : Member) : PublicKey :=
  (mesh.nodes member).keypair.publicKey

/-- What opens at the member under a secret that it shares with a member was sealed under it by one
of the two. -/
def Unforged (mesh : Mesh Member) : Member × Node.Event → Prop
  | (member, event) => ∀ other publicKey secret nonce packet,
    (mesh.nodes member).Opens event publicKey secret nonce packet →
    secret = Crates.diffieHellman (mesh.nodes member).keypair.secret (mesh.key other) →
    ∃ act ∈ mesh.history, (act.member = member ∨ act.member = other) ∧
      ∃ sealedFor, act.Seals sealedFor secret nonce packet

/-- Each member's daemon started from its config, and nothing has happened yet. -/
structure Initial (mesh : Mesh Member) : Prop where
  started : ∀ member, ∃ dns now config routes subnetRoutes, (mesh.nodes member).peerManager =
    startupManager dns (mesh.nodes member).keypair now config routes subnetRoutes
  idle : mesh.history = []

/-- An act as the history records it: one of a member with its key pair, on sound records. -/
structure Recorded (mesh : Mesh Member) (act : Act Member) : Prop where
  keypair : act.before.keypair = (mesh.nodes act.member).keypair
  sound : act.before.Sound
  does : act.before.Does act.event act.after act.effects

/-- Every node's records are sound, and so they were when the acts of the history were done. -/
structure Sound (mesh : Mesh Member) : Prop where
  nodes : ∀ member, (mesh.nodes member).Sound
  recorded : ∀ act ∈ mesh.history, mesh.Recorded act

variable {mesh next start last : Mesh Member} {member : Member} {event : Node.Event}
  {trace : List (Mesh Member × Member × Node.Event)}

omit [DecidableEq Member] in
/-- A mesh is sound at its beginning. -/
theorem Initial.sound (initial : mesh.Initial) : mesh.Sound where
  nodes member := by
    obtain ⟨dns, now, config, routes, subnetRoutes, started⟩ := initial.started member
    exact Node.sound_startup started
  recorded act there := by
    rw [initial.idle] at there
    cases there

/-- No step changes a member's key pair. -/
theorem Step.keypair (step : Step mesh (member, event) next) (other : Member) :
    (next.nodes other).keypair = (mesh.nodes other).keypair := by
  obtain ⟨node', effects, does, rfl⟩ := step
  by_cases same : other = member
  · subst same
    simpa using does.step.sameSelf.keypair
  · simp [Function.update_of_ne same]

/-- Every step keeps the mesh sound. -/
theorem Step.sound (step : Step mesh (member, event) next) (sound : mesh.Sound) :
    next.Sound := by
  have keypair := step.keypair
  obtain ⟨node', effects, does, rfl⟩ := step
  constructor
  · intro other
    by_cases same : other = member
    · subst same
      simpa using does.step.sound (sound.nodes other)
    · simpa [Function.update_of_ne same] using sound.nodes other
  · intro act there
    rcases List.mem_append.mp there with before | here
    · have recorded := sound.recorded act before
      exact ⟨recorded.keypair.trans (keypair act.member).symm, recorded.sound, recorded.does⟩
    · obtain rfl := List.mem_singleton.mp here
      exact ⟨(keypair member).symm, sound.nodes member, does⟩

/-- Every run reaches sound meshes. -/
theorem sound (run : Run Step start trace last) (initial : start.Initial) : last.Sound :=
  run.invariant (fun sound (_ : True) step => Step.sound step sound) initial.sound
    fun _ _ => trivial

end Mesh
end WolfNet
