import Mathlib.Order.Basic
import Mathlib.Tactic.Common

/-!
# Anti-replay windows with a restart exception

A receiver that remembers only the highest counter it accepted admits a counter
that is at most `width` below it. A counter below `restartBelow` that arrives
when the highest one is above is taken for a restart of the sender, admitted, and
lowers the memory to itself.
-/

namespace WolfNet.Semantics

structure ReplayWindow where
  width : Nat
  restartBelow : Nat

namespace ReplayWindow

variable (window : ReplayWindow) {highest counter : Nat}

/-- The counter is taken for the first ones of a restarted sender. -/
def Restarts (highest counter : Nat) : Prop :=
  counter < window.restartBelow ∧ window.restartBelow < highest

/-- The counter passes the replay check. -/
def Admits (highest counter : Nat) : Prop :=
  highest ≤ counter + window.width ∨ window.Restarts highest counter

instance : Decidable (window.Restarts highest counter) := by
  unfold Restarts
  infer_instance

instance : Decidable (window.Admits highest counter) := by
  unfold Admits
  infer_instance

/-- The memory after a counter was accepted. -/
def advance (highest counter : Nat) : Nat :=
  if highest < counter ∨ window.Restarts highest counter then counter else highest

/-- The next counter of a sender in order is one the receiver follows: it catches up
with a low memory, continues it, or restarts a high one. -/
def Follows (highest next : Nat) : Prop :=
  (next ≤ highest ∧ highest ≤ window.width) ∨ next = highest + 1 ∨
    (next = 0 ∧ window.restartBelow < highest)

variable {window}

/-- An accepted counter lowers the memory exactly when it is taken for a restart. -/
theorem le_advance_iff :
    highest ≤ window.advance highest counter ↔ ¬window.Restarts highest counter := by
  unfold advance
  constructor
  · intro kept restarts
    rw [if_pos (Or.inr restarts)] at kept
    have low := restarts.1
    have high := restarts.2
    omega
  · intro noRestart
    split
    · next moved => exact Nat.le_of_lt (moved.resolve_right noRestart)
    · exact Nat.le_refl _

/-- An accepted counter is no higher than the memory it leaves. -/
theorem le_advance : counter ≤ window.advance highest counter := by
  unfold advance
  split
  · exact Nat.le_refl _
  · next kept => exact Nat.le_of_not_lt fun above => kept (Or.inl above)

/-- A receiver that follows admits the next counter. -/
theorem Follows.admits (follows : window.Follows highest counter)
    (positive : 0 < window.restartBelow) : window.Admits highest counter := by
  rcases follows with ⟨_, low⟩ | rfl | ⟨rfl, high⟩
  · exact Or.inl (by omega)
  · exact Or.inl (by omega)
  · exact Or.inr ⟨positive, high⟩

/-- Having accepted the next counter, the receiver follows the one after it. -/
theorem Follows.advance (follows : window.Follows highest counter)
    (narrow : window.width ≤ window.restartBelow) (positive : 0 < window.restartBelow) :
    window.Follows (window.advance highest counter) (counter + 1) := by
  unfold ReplayWindow.advance Restarts
  rcases follows with ⟨behind, low⟩ | rfl | ⟨rfl, high⟩
  · have noRestart : ¬(highest < counter ∨
        counter < window.restartBelow ∧ window.restartBelow < highest) := by omega
    rw [if_neg noRestart]
    rcases Nat.lt_or_eq_of_le behind with before | rfl
    · exact Or.inl ⟨before, low⟩
    · exact Or.inr (Or.inl rfl)
  · rw [if_pos (Or.inl (Nat.lt_succ_self _))]
    exact Or.inr (Or.inl rfl)
  · rw [if_pos (Or.inr ⟨positive, high⟩)]
    exact Or.inr (Or.inl rfl)

/-- The first counter of a sender is admitted exactly by the memories from which the
receiver follows it. -/
theorem admits_zero_iff (positive : 0 < window.restartBelow) :
    window.Admits highest 0 ↔ window.Follows highest 0 := by
  unfold Admits Restarts Follows
  constructor
  · rintro (low | ⟨_, high⟩)
    · exact Or.inl ⟨Nat.zero_le _, by omega⟩
    · exact Or.inr (Or.inr ⟨rfl, high⟩)
  · rintro (⟨_, low⟩ | next | ⟨_, high⟩)
    · exact Or.inl (by omega)
    · omega
    · exact Or.inr ⟨positive, high⟩

end ReplayWindow
end WolfNet.Semantics
