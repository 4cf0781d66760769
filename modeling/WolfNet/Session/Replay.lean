import WolfNet.Crates.Sample
import WolfNet.Semantics.Run
import WolfNet.Session.Cipher

/-!
# Replay within a session

A receiver is a session together with the packets it has accepted so far. It
remembers one number, so a packet that comes again while the window admits its
counter is accepted again: `accepted_once_iff` is the exact condition under which
no packet of a run is accepted twice.
-/

namespace WolfNet.Replay

open WolfNet.Std WolfNet.Semantics

/-- A datagram handed to one of the two decryption functions. -/
structure Delivery where
  path : PacketPath
  counter : UInt64
  ciphertext : List UInt8

/-- What identifies a packet: its counter and its ciphertext. -/
def Delivery.packet (delivery : Delivery) : UInt64 × List UInt8 :=
  (delivery.counter, delivery.ciphertext)

/-- A session and the packets it accepted, in order. -/
structure Receiver where
  session : SessionCipher
  accepted : List (UInt64 × List UInt8)

section Receivers

variable [Crates]

/-- Hand one datagram to the session. -/
def Receiver.deliver (receiver : Receiver) (delivery : Delivery) : Rust Receiver := do
  match ← receiver.session.receive delivery.path delivery.counter delivery.ciphertext with
  | (session, some _) => return ⟨session, receiver.accepted ++ [delivery.packet]⟩
  | (session, none) => return ⟨session, receiver.accepted⟩

/-- Deliveries within a session, in any order and with any repetition. -/
def Step : Transition Receiver Delivery := fun receiver delivery next =>
  receiver.deliver delivery = .ok next

/-- A packet accepted before comes again only when its counter is more than 32 below
the highest one accepted, and is not taken for a restart. -/
def RefusesRepeat (receiver : Receiver) (delivery : Delivery) : Prop :=
  delivery.packet ∈ receiver.accepted →
    delivery.counter.toNat + 32 < receiver.session.highest ∧
      (100 ≤ delivery.counter.toNat ∨ receiver.session.highest ≤ 100)

instance (receiver : Receiver) (delivery : Delivery) :
    Decidable (RefusesRepeat receiver delivery) := by
  unfold RefusesRepeat
  infer_instance

/-- No packet was accepted twice, and the session still opens all it accepted. -/
structure Consistent (receiver : Receiver) : Prop where
  nodup : receiver.accepted.Nodup
  opens : ∀ packet ∈ receiver.accepted, (receiver.session.opens packet.1 packet.2).isSome = true

/-- A delivery is accepted, or leaves the receiver as it was. -/
theorem step_cases {receiver next : Receiver} {delivery : Delivery}
    (transition : Step receiver delivery next) :
    (replayWindow.Admits receiver.session.highest delivery.counter.toNat ∧
      (receiver.session.opens delivery.counter delivery.ciphertext).isSome = true ∧
      next = ⟨receiver.session.accepted delivery.counter,
        receiver.accepted ++ [delivery.packet]⟩) ∨
    ((replayWindow.Admits receiver.session.highest delivery.counter.toNat →
        receiver.session.opens delivery.counter delivery.ciphertext = none) ∧
      next = receiver) := by
  rcases receiver.session.outcome_cases delivery.counter delivery.ciphertext with
    ⟨admitted, plaintext, opened, outcome⟩ | ⟨refused, outcome⟩
  · left
    simp only [Step, Receiver.deliver, SessionCipher.receive_eq, outcome, Rust.ok_bind,
      Rust.pure_eq, Except.ok.injEq] at transition
    exact ⟨admitted, by simp [opened], transition.symm⟩
  · right
    simp only [Step, Receiver.deliver, SessionCipher.receive_eq, outcome, Rust.ok_bind,
      Rust.pure_eq, Except.ok.injEq] at transition
    exact ⟨refused, transition.symm⟩

/-- A step that refuses repeats keeps the receiver consistent. -/
theorem Consistent.step {receiver next : Receiver} {delivery : Delivery}
    (consistent : Consistent receiver) (refuses : RefusesRepeat receiver delivery)
    (transition : Step receiver delivery next) : Consistent next := by
  rcases step_cases transition with ⟨admitted, opened, rfl⟩ | ⟨_, rfl⟩
  · have fresh : delivery.packet ∉ receiver.accepted := fun repeated =>
      not_admits_iff.mpr (refuses repeated) admitted
    refine ⟨?_, ?_⟩
    · rw [List.nodup_append]
      exact ⟨consistent.nodup, by simp, fun earlier member last lastMember same =>
        fresh (List.mem_singleton.mp lastMember ▸ same ▸ member)⟩
    · intro packet member
      rw [SessionCipher.opens_accepted]
      rcases List.mem_append.mp member with earlier | last
      · exact consistent.opens packet earlier
      · rw [List.mem_singleton.mp last]
        exact opened
  · exact consistent

/-- Where no counter was accepted twice, the repeat was refused. -/
theorem refusesRepeat_of_nodup {receiver next : Receiver} {delivery : Delivery}
    (consistent : Consistent receiver) (transition : Step receiver delivery next)
    (nodup : next.accepted.Nodup) : RefusesRepeat receiver delivery := by
  intro repeated
  rw [← not_admits_iff]
  intro admitted
  have opened := consistent.opens delivery.packet repeated
  rcases step_cases transition with ⟨_, _, rfl⟩ | ⟨refused, _⟩
  · have apart := (List.nodup_append.mp nodup).2.2
    exact absurd rfl (apart _ repeated _ (List.mem_singleton_self _))
  · simp [Delivery.packet, refused admitted] at opened

/-- In every run of deliveries within a session, no packet is ever accepted twice
exactly when every repetition of an accepted packet falls outside the window. -/
theorem accepted_once_iff {session : SessionCipher} {trace : List (Receiver × Delivery)}
    {last : Receiver} (run : Run Step ⟨session, []⟩ trace last) :
    Always (fun receiver => receiver.accepted.Nodup) trace last ↔
      Throughout RefusesRepeat trace :=
  run.always_iff (fun consistent => consistent.nodup) Consistent.step refusesRepeat_of_nodup
    ⟨List.nodup_nil, by simp⟩

end Receivers

section Sample

attribute [local instance] Sample.crates

/-- The receiving side of a fresh session between two sample nodes. -/
def sampleReceiver : Receiver where
  session := .new (Crates.diffieHellman (Sample.keypair 1).secret (Sample.keypair 2).publicKey)
    (Sample.keypair 1).publicKey (Sample.keypair 2).publicKey
  accepted := []

/-- The packet that the other sample node seals under a counter. -/
def samplePacket (counter : UInt64) : Delivery where
  path := .inPlace
  counter := counter
  ciphertext := SessionCipher.sealed
    { SessionCipher.new
        (Crates.diffieHellman (Sample.keypair 2).secret (Sample.keypair 1).publicKey)
        (Sample.keypair 2).publicKey (Sample.keypair 1).publicKey with sendCounter := counter }
    [0x45, 0x00]

/-- The sample receiver after it accepted some of these packets, with the highest
counter given. -/
def sampleAfter (highest : UInt64) (counters : List UInt64) : Receiver where
  session := { sampleReceiver.session with recvCounter := highest }
  accepted := counters.map fun counter => (samplePacket counter).packet

/-- A packet that comes again once the session is 33 ahead is refused. -/
theorem accepted_once_iff_sample :
    ∃ trace last, Run Step sampleReceiver trace last ∧
      trace.map Prod.snd = [samplePacket 5, samplePacket 38, samplePacket 5] ∧
      Always (fun receiver => receiver.accepted.Nodup) trace last := by
  have first : Step sampleReceiver (samplePacket 5) (sampleAfter 5 [5]) := rfl
  have second : Step (sampleAfter 5 [5]) (samplePacket 38) (sampleAfter 38 [5, 38]) := rfl
  have third : Step (sampleAfter 38 [5, 38]) (samplePacket 5) (sampleAfter 38 [5, 38]) := rfl
  have run := ((Run.refl.step first).step second).step third
  exact ⟨_, _, run, rfl, (accepted_once_iff run).mpr (by decide)⟩

/-- A packet delivered twice in a row is accepted twice. -/
theorem packet_accepted_twice :
    ∃ trace last, Run Step sampleReceiver trace last ∧
      trace.map Prod.snd = [samplePacket 5, samplePacket 5] ∧
      ¬Always (fun receiver => receiver.accepted.Nodup) trace last := by
  have first : Step sampleReceiver (samplePacket 5) (sampleAfter 5 [5]) := rfl
  have second : Step (sampleAfter 5 [5]) (samplePacket 5) (sampleAfter 5 [5, 5]) := rfl
  exact ⟨_, _, (Run.refl.step first).step second, rfl,
    fun always => absurd always.2 (by decide)⟩

end Sample
end WolfNet.Replay
