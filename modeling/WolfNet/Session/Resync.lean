import WolfNet.Crates.Sample
import WolfNet.Session.Link

/-!
# Resynchronisation after a one-sided reset

One side of a link re-establishes its session and sends from counter 0 on; the
other side keeps its session. The kept session follows the new counters when its
highest counter is within the reorder window of 0, or high enough for a restart;
between the two it refuses the first packet. `resynchronises_iff` is the boundary.
-/

namespace WolfNet.Resync

open WolfNet.Std WolfNet.Semantics

/-- A packet of an in-order, lossless delivery. -/
structure Message where
  sendPath : PacketPath
  receivePath : PacketPath
  plaintext : List UInt8
  arrival : Instant

/-- A receiver that accepted the sender's next counter follows the one after it, also
when the counter wraps around. -/
theorem follows_sent {sending receiving : SessionCipher}
    (follows : replayWindow.Follows receiving.highest sending.sendCounter.toNat) :
    replayWindow.Follows (receiving.accepted sending.sendCounter).highest
      sending.sent.sendCounter.toNat := by
  have next := follows.advance (by decide) (by decide)
  rw [SessionCipher.highest_accepted]
  have bound := sending.sendCounter.toNat_lt
  by_cases wraps : sending.sendCounter.toNat + 1 = 2 ^ 64
  · have zero : sending.sent.sendCounter.toNat = 0 := by
      simp [SessionCipher.sent, UInt64.toNat_add, wraps]
    rw [zero]
    have width : replayWindow.width = 32 := rfl
    have below : replayWindow.restartBelow = 100 := rfl
    refine Or.inr (Or.inr ⟨rfl, ?_⟩)
    rcases next with ⟨behind, low⟩ | continued | ⟨restarted, _⟩
    · omega
    · omega
    · omega
  · have succ : sending.sent.sendCounter.toNat = sending.sendCounter.toNat + 1 := by
      simp only [SessionCipher.sent, UInt64.toNat_add]
      exact Nat.mod_eq_of_lt (by simp; omega)
    rw [succ]
    exact next

section Links

variable [Crates]

/-- Send messages from one record to the other, each delivered before the next is sent:
what the receiver makes of each. -/
def transfer (sender receiver : Peer) : List Message → Rust (List (Option (List UInt8)))
  | [] => return []
  | message :: messages => do
    match ← sender.send message.sendPath message.plaintext with
    | (sender, none) => return none :: (← transfer sender receiver messages)
    | (sender, some (counter, ciphertext)) =>
      let (receiver, plaintext) ←
        receiver.receive message.receivePath counter ciphertext message.arrival
      return plaintext :: (← transfer sender receiver messages)

/-- The messages that the encryption functions can take. -/
def Fits (messages : List Message) : Prop :=
  ∀ message ∈ messages, message.plaintext.length ≤ Crates.plaintextLimit

/-- The receiver gets every message as it was sent. -/
def Accepted (sender receiver : Peer) (messages : List Message) : Prop :=
  transfer sender receiver messages = .ok (messages.map fun message => some message.plaintext)

/-- The receiver of a link follows the sender. -/
structure Following (sender receiver : Peer) : Prop where
  sessions : ∃ sending receiving, sender.cipher = some sending ∧
    receiver.cipher = some receiving ∧ sending.Paired receiving ∧
    replayWindow.Follows receiving.highest sending.sendCounter.toNat

/-- What was sealed opens exactly where the window admits its counter. -/
theorem outcome_sealed {sending receiving : SessionCipher} (ideal : AeadIdeal)
    (paired : sending.Paired receiving) (plaintext : List UInt8) :
    receiving.outcome sending.sendCounter (sending.sealed plaintext) =
      if replayWindow.Admits receiving.highest sending.sendCounter.toNat then
        (receiving.accepted sending.sendCounter, some plaintext)
      else (receiving, none) := by
  simp [SessionCipher.outcome, paired.opens_sealed ideal]

/-- A receiver that follows gets the next message and still follows. -/
theorem Following.step {sender receiver : Peer} (ideal : AeadIdeal)
    (following : Following sender receiver) (message : Message)
    (fits : message.plaintext.length ≤ Crates.plaintextLimit) :
    ∃ counter ciphertext sender' receiver',
      sender.send message.sendPath message.plaintext = .ok (sender', some (counter, ciphertext)) ∧
      receiver.receive message.receivePath counter ciphertext message.arrival =
        .ok (receiver', some message.plaintext) ∧
      Following sender' receiver' := by
  obtain ⟨sending, receiving, sends, receives, paired, follows⟩ := following.sessions
  have outcome := outcome_sealed ideal paired message.plaintext
  rw [if_pos (follows.admits (by decide))] at outcome
  have received := Peer.receive_eq receives message.receivePath sending.sendCounter
    (sending.sealed message.plaintext) message.arrival
  rw [outcome] at received
  refine ⟨_, _, _, _, Peer.send_eq sends message.sendPath fits, received, ?_⟩
  exact ⟨sending.sent, receiving.accepted sending.sendCounter, rfl, rfl,
    paired.sent.accepted _, follows_sent follows⟩

/-- All messages of a sender that is followed are accepted. -/
theorem Following.accepted {sender receiver : Peer} (ideal : AeadIdeal)
    (following : Following sender receiver) {messages : List Message} (fits : Fits messages) :
    Accepted sender receiver messages := by
  induction messages generalizing sender receiver with
  | nil => rfl
  | cons message messages ih =>
      obtain ⟨counter, ciphertext, sender', receiver', sent, received, follows⟩ :=
        following.step ideal message (fits message List.mem_cons_self)
      have rest := ih follows fun other member => fits other (List.mem_cons_of_mem _ member)
      simp only [Accepted] at rest
      simp [Accepted, transfer, sent, received, rest]

/-- After one side re-established its session and the other kept its own, all that the
reset side sends is accepted exactly when the kept session is at most 32 or more than
100 packets in. -/
theorem resynchronises_iff (agrees : DiffieHellmanAgrees) (ideal : AeadIdeal)
    {resetter keeper : KeyPair} (distinct : resetter.publicKey ≠ keeper.publicKey)
    {toKeeper toResetter : Peer} (keyed : toKeeper.publicKey = keeper.publicKey)
    {kept : SessionCipher} (keeps : toResetter.cipher = some kept)
    (keptFor : kept.IsFor keeper resetter.publicKey) (now : Instant) :
    (∀ messages, Fits messages →
      Accepted (toKeeper.establishSession resetter.secret resetter.publicKey now) toResetter
        messages) ↔
    kept.highest ≤ 32 ∨ 100 < kept.highest := by
  let fresh := SessionCipher.new (Crates.diffieHellman resetter.secret keeper.publicKey)
    resetter.publicKey keeper.publicKey
  have established :
      (toKeeper.establishSession resetter.secret resetter.publicKey now).cipher = some fresh := by
    simp [Peer.establishSession, keyed, fresh]
  have paired : fresh.Paired kept :=
    SessionCipher.IsFor.paired agrees distinct (SessionCipher.isFor_new _ _) keptFor
  have zero : fresh.sendCounter.toNat = 0 := rfl
  have boundary : replayWindow.Admits kept.highest 0 ↔ kept.highest ≤ 32 ∨ 100 < kept.highest := by
    simp [ReplayWindow.Admits, ReplayWindow.Restarts, replayWindow]
  rw [← boundary]
  constructor
  · intro accepted
    by_contra refused
    -- An empty packet is the first that the kept session refuses.
    have first := accepted [⟨.inPlace, .inPlace, [], now⟩] (by simp [Fits])
    have sent := @Peer.send_eq _ _ _ established .inPlace [] (Nat.zero_le _)
    have outcome := outcome_sealed ideal paired []
    rw [zero, if_neg refused] at outcome
    have received := Peer.receive_eq keeps .inPlace fresh.sendCounter (fresh.sealed []) now
    rw [outcome] at received
    simp [Accepted, transfer, sent, received] at first
  · intro admitted messages fits
    refine Following.accepted ideal ⟨fresh, kept, established, keeps, paired, ?_⟩ fits
    rw [zero]
    exact (ReplayWindow.admits_zero_iff (by decide)).mp admitted

end Links

section Sample

attribute [local instance] Sample.crates

/-- The record that one sample node keeps of another, with a session of the given
receive counter. -/
def sampleRecord (mine theirs : KeyPair) (recvCounter : UInt64) : Peer :=
  { Peer.new theirs.publicKey ⟨10, 10, 10, 2⟩ with
    cipher := some { SessionCipher.new (Crates.diffieHellman mine.secret theirs.publicKey)
      mine.publicKey theirs.publicKey with recvCounter := recvCounter } }

/-- A node that restarts reaches a peer that had received 101 packets from it. -/
theorem resynchronises_iff_sample :
    Accepted
      ((sampleRecord (Sample.keypair 1) (Sample.keypair 2) 0).establishSession
        (Sample.keypair 1).secret (Sample.keypair 1).publicKey 0)
      (sampleRecord (Sample.keypair 2) (Sample.keypair 1) 101)
      [⟨.inPlace, .allocating, [0x45, 0x00], 0⟩, ⟨.allocating, .inPlace, [0x60], 1⟩] :=
  (resynchronises_iff Sample.diffieHellman_agrees Sample.aead_ideal (by decide) rfl rfl
    ⟨rfl, rfl⟩ 0).mpr (Or.inr (by decide)) _ (by simp [Fits, Crates.plaintextLimit])

/-- A node that restarts cannot reach a peer that had received 50 packets from it. -/
theorem first_packet_refused :
    ¬Accepted
      ((sampleRecord (Sample.keypair 1) (Sample.keypair 2) 0).establishSession
        (Sample.keypair 1).secret (Sample.keypair 1).publicKey 0)
      (sampleRecord (Sample.keypair 2) (Sample.keypair 1) 50)
      [⟨.inPlace, .inPlace, [0x45, 0x00], 0⟩] := by
  have refused : transfer
      ((sampleRecord (Sample.keypair 1) (Sample.keypair 2) 0).establishSession
        (Sample.keypair 1).secret (Sample.keypair 1).publicKey 0)
      (sampleRecord (Sample.keypair 2) (Sample.keypair 1) 50)
      [⟨.inPlace, .inPlace, [0x45, 0x00], 0⟩] = .ok [none] := rfl
  simp [Accepted, refused]

end Sample
end WolfNet.Resync
