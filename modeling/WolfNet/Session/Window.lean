import WolfNet.Session.Replay

/-!
# The reorder window over whole histories

A packet below 100 that arrives when the session is above 100 is taken for the first one of
a restarted sender, and lowers the counter that later packets are compared with. Without
such a packet the window of 32 bounds every history: `window_bounds_iff`.
-/

namespace WolfNet.Replay

open WolfNet.Std WolfNet.Semantics

section Histories

variable [Crates]

/-- The later packet is at most 32 below the earlier one. -/
def InWindow (earlier later : UInt64 × List UInt8) : Prop := earlier.1.toNat ≤ later.1.toNat + 32

/-- The receive counters of a session, in the order of a run. -/
def countersAlong (trace : List (Receiver × Delivery)) (last : Receiver) : List Nat :=
  trace.map (fun entry => entry.1.session.highest) ++ [last.session.highest]

/-- No accepted packet was more than 32 below one accepted before it, and the receive counter
never decreased. -/
structure WindowBounds (trace : List (Receiver × Delivery)) (last : Receiver) : Prop where
  window : last.accepted.Pairwise InWindow
  rising : (countersAlong trace last).Pairwise (· ≤ ·)

/-- The packet opens and is taken for one of a restarted sender. -/
def TakenForRestart (receiver : Receiver) (delivery : Delivery) : Prop :=
  replayWindow.Restarts receiver.session.highest delivery.counter.toNat ∧
    (receiver.session.opens delivery.counter delivery.ciphertext).isSome = true

instance (receiver : Receiver) (delivery : Delivery) :
    Decidable (TakenForRestart receiver delivery) := by
  unfold TakenForRestart
  infer_instance

/-- The receive counter is as high as every accepted packet. -/
def Tops (receiver : Receiver) : Prop :=
  ∀ packet ∈ receiver.accepted, packet.1.toNat ≤ receiver.session.highest

variable {receiver next last : Receiver} {delivery : Delivery} {trace : List (Receiver × Delivery)}

/-- A step lowers the receive counter exactly when its packet is taken for a restart. -/
theorem highest_le_iff (transition : Step receiver delivery next) :
    receiver.session.highest ≤ next.session.highest ↔ ¬TakenForRestart receiver delivery := by
  rcases step_cases transition with ⟨_, opened, rfl⟩ | ⟨refused, rfl⟩
  · rw [SessionCipher.highest_accepted, ReplayWindow.le_advance_iff, TakenForRestart, opened]
    simp
  · refine ⟨fun _ taken => ?_, fun _ => le_rfl⟩
    rw [TakenForRestart, refused (Or.inr taken.1)] at taken
    exact absurd taken.2 (by simp)

/-- A step in order leaves the highest counter on top. -/
theorem Tops.step (tops : Tops receiver) (inOrder : ¬TakenForRestart receiver delivery)
    (transition : Step receiver delivery next) : Tops next := by
  have rises := (highest_le_iff transition).mpr inOrder
  rcases step_cases transition with ⟨_, _, rfl⟩ | ⟨_, rfl⟩
  · intro packet member
    rcases List.mem_append.mp member with earlier | new
    · exact (tops packet earlier).trans rises
    · rw [List.mem_singleton.mp new, SessionCipher.highest_accepted]
      exact ReplayWindow.le_advance
  · exact tops

/-- A session above every packet accepted so far takes the next one within the window. -/
theorem Tops.window (tops : Tops receiver) (window : receiver.accepted.Pairwise InWindow)
    (inOrder : ¬TakenForRestart receiver delivery) (transition : Step receiver delivery next) :
    next.accepted.Pairwise InWindow := by
  rcases step_cases transition with ⟨admitted, opened, rfl⟩ | ⟨_, rfl⟩
  · have near : receiver.session.highest ≤ delivery.counter.toNat + 32 :=
      admitted.resolve_right fun restarts => inOrder ⟨restarts, opened⟩
    refine List.pairwise_append.mpr ⟨window, List.pairwise_singleton .., ?_⟩
    intro earlier member later new
    rw [List.mem_singleton.mp new]
    exact (tops earlier member).trans near
  · exact window

omit [Crates] in
/-- Counters that rise in a longer run. -/
theorem rising_snoc :
    (countersAlong (trace ++ [(receiver, delivery)]) next).Pairwise (· ≤ ·) ↔
      (countersAlong trace receiver).Pairwise (· ≤ ·) ∧
        receiver.session.highest ≤ next.session.highest := by
  have split : countersAlong (trace ++ [(receiver, delivery)]) next =
      countersAlong trace receiver ++ [next.session.highest] := by
    simp [countersAlong]
  rw [split, List.pairwise_append]
  refine and_congr_right fun before => ?_
  simp only [List.pairwise_singleton, List.mem_singleton, forall_eq, true_and]
  constructor
  · intro above
    exact above _ (by simp [countersAlong])
  · intro step counter member
    rw [countersAlong, List.mem_append, List.mem_singleton] at member
    rcases member with earlier | rfl
    · exact ((List.pairwise_append.mp before).2.2 _ earlier _
        (List.mem_singleton_self _)).trans step
    · exact step

/-- In every run of deliveries to a new session, no packet more than 32 below one accepted
before it is accepted and the receive counter never decreases, exactly when no packet below
100 that opens is delivered while the receive counter is above 100. -/
theorem window_bounds_iff {sharedSecret : SharedSecret} {myPublic peerPublic : PublicKey}
    (run : Run Step ⟨.new sharedSecret myPublic peerPublic, []⟩ trace last) :
    WindowBounds trace last ↔
      Throughout (fun receiver delivery => ¬TakenForRestart receiver delivery) trace := by
  induction run with
  | refl => exact ⟨fun _ => .nil, fun _ => ⟨by simp, by simp [countersAlong]⟩⟩
  | step prior transition ih =>
      rw [throughout_snoc, ← ih]
      constructor
      · rintro ⟨window, rising⟩
        obtain ⟨before, step⟩ := rising_snoc.mp rising
        refine ⟨⟨?_, before⟩, (highest_le_iff transition).mp step⟩
        rcases step_cases transition with ⟨_, _, rfl⟩ | ⟨_, rfl⟩
        · exact (List.pairwise_append.mp window).1
        · exact window
      · rintro ⟨bounds, inOrder⟩
        have tops := prior.invariant Tops.step (by simp [Tops]) (ih.mp bounds)
        exact ⟨tops.window bounds.window inOrder transition,
          rising_snoc.mpr ⟨bounds.rising, (highest_le_iff transition).mpr inOrder⟩⟩

end Histories

section Sample

attribute [local instance] Sample.crates

/-- Packets of one session that arrive out of order below 100 stay within the window. -/
theorem window_bounds_iff_sample :
    ∃ trace last, Run Step sampleReceiver trace last ∧
      trace.map Prod.snd = [samplePacket 5, samplePacket 38, samplePacket 5, samplePacket 7] ∧
      last.accepted = [(samplePacket 5).packet, (samplePacket 38).packet, (samplePacket 7).packet] ∧
      WindowBounds trace last := by
  have first : Step sampleReceiver (samplePacket 5) (sampleAfter 5 [5]) := rfl
  have second : Step (sampleAfter 5 [5]) (samplePacket 38) (sampleAfter 38 [5, 38]) := rfl
  have third : Step (sampleAfter 38 [5, 38]) (samplePacket 5) (sampleAfter 38 [5, 38]) := rfl
  have fourth : Step (sampleAfter 38 [5, 38]) (samplePacket 7) (sampleAfter 38 [5, 38, 7]) := rfl
  have run := (((Run.refl.step first).step second).step third).step fourth
  exact ⟨_, _, run, rfl, rfl, (window_bounds_iff run).mpr (by decide)⟩

/-- A packet that a sender sealed early and the network delivers late is accepted 196 below
the highest one, and the receive counter falls to its own. -/
theorem late_packet_accepted :
    ∃ trace last, Run Step sampleReceiver trace last ∧
      trace.map Prod.snd = [samplePacket 201, samplePacket 5] ∧
      last.accepted = [(samplePacket 201).packet, (samplePacket 5).packet] ∧
      countersAlong trace last = [0, 201, 5] ∧ ¬WindowBounds trace last := by
  have first : Step sampleReceiver (samplePacket 201) (sampleAfter 201 [201]) := rfl
  have second : Step (sampleAfter 201 [201]) (samplePacket 5) (sampleAfter 5 [201, 5]) := rfl
  exact ⟨_, _, (Run.refl.step first).step second, rfl, rfl, rfl,
    fun bounds => absurd bounds.rising (by decide)⟩

end Sample
end WolfNet.Replay
