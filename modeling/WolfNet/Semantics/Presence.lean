import WolfNet.Semantics.Polling

/-!
# Presence

A peer is present until a timeout after it was last heard. To be heard in turn, one comes by two
rounds, each at its own rate: one contacts peers that are present, the other those that are not.
Whatever a peer's presence does meanwhile, every window that is long enough has a contact in it.
-/

namespace WolfNet.Semantics

/-- The time, and the time at which a peer was last heard. -/
structure Presence where
  clock : Nat
  heard : Option Nat

namespace Presence

/-- The peer was heard within the timeout. -/
def alive (timeout : Nat) (presence : Presence) : Bool :=
  presence.heard.any fun time => presence.clock - time < timeout

/-- The round that one comes by. -/
inductive Round where
  | present
  | absent
deriving DecidableEq

/-- Time passes, and the peer may be heard at any time. -/
def Step : Transition Presence (Option Round)
  | presence, _, next => presence.clock ≤ next.clock ∧
    (next.heard = presence.heard ∨ next.heard = some presence.clock)

/-- The peer was heard at the time or after. -/
def HeardSince (time : Nat) (presence : Presence) : Prop :=
  ∃ heard, presence.heard = some heard ∧ time ≤ heard

/-- The times at which one came by a round. -/
def rounds (round : Round) (trace : List (Presence × Option Round)) : List Nat :=
  (trace.filter fun entry => entry.2 = some round).map fun entry => entry.1.clock

/-- One comes by the round that the peer is in. -/
def Contacts (timeout : Nat) (entry : Presence × Option Round) : Prop :=
  entry.2 = some (if entry.1.alive timeout then .present else .absent)

variable {timeout time : Nat} {presence next start last : Presence} {round : Round}
  {label : Option Round} {trace : List (Presence × Option Round)}

/-- The clock does not go back. -/
theorem Step.clock_le (presence : Presence) (label : Option Round) (next : Presence)
    (step : Step presence label next) : presence.clock ≤ next.clock := step.1

/-- A peer that was heard is alive until the timeout. -/
theorem HeardSince.alive (since : presence.HeardSince time) (past : time ≤ presence.clock)
    (soon : presence.clock < time + timeout) : presence.alive timeout = true := by
  obtain ⟨heard, last, after⟩ := since
  rw [Presence.alive, last, Option.any_some]
  exact decide_eq_true (by omega)

/-- A step does not undo that it was heard. -/
theorem HeardSince.step (since : presence.HeardSince time) (past : time ≤ presence.clock)
    (step : Step presence label next) : next.HeardSince time := by
  rcases step.2 with same | now
  · obtain ⟨heard, last, after⟩ := since
    exact ⟨heard, same.trans last, after⟩
  · exact ⟨presence.clock, now, past⟩

/-- Nor does a run. -/
theorem HeardSince.run (since : start.HeardSince time) (past : time ≤ start.clock)
    (run : Run Step start trace last) : last.HeardSince time := by
  suffices kept : last.HeardSince time ∧ time ≤ last.clock from kept.1
  induction run with
  | refl => exact ⟨since, past⟩
  | step _ step ih => exact ⟨ih.1.step ih.2 step, ih.2.trans step.1⟩

/-- After any run the peer was last heard when it was before, or since. -/
theorem heard_or_since (run : Run Step start trace last) :
    last.heard = start.heard ∨ last.HeardSince start.clock := by
  induction run with
  | refl => exact Or.inl rfl
  | @step _ presence _ next prior step ih =>
      have later := prior.clock_le Presence.clock Step.clock_le
      rcases step.2 with same | now
      · rcases ih with before | ⟨heard, last, after⟩
        · exact Or.inl (same.trans before)
        · exact Or.inr ⟨heard, same.trans last, after⟩
      · exact Or.inr ⟨presence.clock, now, later⟩

/-- A peer that comes back was heard meanwhile. -/
theorem since_of_returned (run : Run Step start trace last) (before : start.alive timeout = false)
    (after : last.alive timeout = true) : last.HeardSince start.clock := by
  refine (heard_or_since run).resolve_left fun same => ?_
  have later := run.clock_le Presence.clock Step.clock_le
  unfold alive at before after
  rw [same] at after
  cases heard : start.heard with
  | none => simp [heard] at after
  | some time =>
      simp only [heard, Option.any_some, decide_eq_false_iff_not, decide_eq_true_eq] at before after
      omega

/-- A round in a window of a run. -/
theorem exists_round {bound opening closing : Nat}
    (frequent : Frequent bound start.clock (rounds round trace) last.clock)
    (inside : start.clock ≤ opening) (wide : opening + bound < closing)
    (ends : closing ≤ last.clock) : ∃ entry ∈ trace, entry.2 = some round ∧
      opening ≤ entry.1.clock ∧ entry.1.clock ≤ closing := by
  obtain ⟨_, member, between⟩ := frequent.exists_between inside wide ends
  obtain ⟨entry, listed, rfl⟩ := List.mem_map.mp member
  obtain ⟨there, came⟩ := List.mem_filter.mp listed
  exact ⟨entry, there, of_decide_eq_true came, between⟩

/-- Where both rounds come often enough for the timeout, a window that is long enough for the rounds
has a contact in it. -/
theorem exists_contact {often seldom opening closing : Nat} (run : Run Step start trace last)
    (present : Frequent seldom start.clock (rounds .present trace) last.clock)
    (absent : Frequent often start.clock (rounds .absent trace) last.clock)
    (short : seldom + often + 4 < timeout) (inside : start.clock ≤ opening)
    (wide : opening + (2 * seldom + often + 5) ≤ closing) (ends : closing ≤ last.clock) :
    ∃ entry ∈ trace, Contacts timeout entry ∧
      opening ≤ entry.1.clock ∧ entry.1.clock ≤ closing := by
  by_contra never
  push Not at never
  -- the first round for present peers finds the peer absent
  obtain ⟨first, there, came, after, before⟩ :=
    exists_round present inside (Nat.lt_succ_self _) (by omega)
  have gone : first.1.alive timeout = false := by
    by_contra alive
    rw [Bool.not_eq_false] at alive
    have := never first there (by rw [Contacts, came, if_pos alive]) after
    omega
  -- the next round for absent peers finds it back
  obtain ⟨second, there', came', after', before'⟩ :=
    exists_round absent (by omega : start.clock ≤ first.1.clock + 1) (Nat.lt_succ_self _) (by omega)
  have back : second.1.alive timeout = true := by
    by_contra absent
    have := never second there' (by rw [Contacts, came', if_neg absent]) (by omega)
    omega
  -- it was heard between them, and so the next round for present peers finds it present
  obtain ⟨between, led⟩ := run.leads Presence.clock Step.clock_le there there' (by omega)
  have since := since_of_returned led gone back
  obtain ⟨third, there'', came'', after'', before''⟩ :=
    exists_round present (by omega : start.clock ≤ second.1.clock + 1) (Nat.lt_succ_self _) (by omega)
  obtain ⟨_, onward⟩ := run.leads Presence.clock Step.clock_le there' there'' (by omega)
  have still := (since.run (led.clock_le Presence.clock Step.clock_le) onward).alive (by omega)
    (by omega : third.1.clock < first.1.clock + timeout)
  have := never third there'' (by rw [Contacts, came'', if_pos still]) (by omega)
  omega

end Presence
end WolfNet.Semantics
