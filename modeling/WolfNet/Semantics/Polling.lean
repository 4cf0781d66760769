import Mathlib.Data.List.Chain
import WolfNet.Semantics.Run

/-!
# Timers and requests that a loop polls

A polled timer fires where the loop comes by and finds that more than a period has passed since it
was last armed; it is armed again after the work. Its fires are then more than a period apart, and
they are no rarer than the period and twice the time between two polls. A polled request is taken
where the loop comes by and finds it made, so that none is lost and none is taken twice.
-/

namespace WolfNet.Semantics

/-- No two neighbours of the times, from the start to the end, are more than the bound apart. -/
def Frequent (bound start : Nat) (times : List Nat) (last : Nat) : Prop :=
  (start :: (times ++ [last])).IsChain fun earlier later => later ≤ earlier + bound

/-- Times come by often when all of them do, up to the last. -/
theorem frequent_snoc {bound start mid last : Nat} {times : List Nat} :
    Frequent bound start (times ++ [mid]) last ↔ Frequent bound start times mid ∧ last ≤ mid + bound := by
  unfold Frequent
  rw [List.append_assoc, ← List.cons_append, ← List.cons_append, List.singleton_append,
    List.isChain_append_cons_cons]
  simp

/-- They do so up to an earlier moment. -/
theorem Frequent.earlier {bound start mid last : Nat} {times : List Nat}
    (frequent : Frequent bound start times last) (sooner : mid ≤ last) : Frequent bound start times mid := by
  rcases List.eq_nil_or_concat times with rfl | ⟨times, newest, rfl⟩
  · have first : last ≤ start + bound := by simpa [Frequent] using frequent
    simpa [Frequent] using sooner.trans first
  · rw [List.concat_eq_append, frequent_snoc] at frequent ⊢
    exact ⟨frequent.1, sooner.trans frequent.2⟩

/-- The last time is not long ago. -/
theorem Frequent.last_le {bound start last : Nat} {times : List Nat}
    (frequent : Frequent bound start times last) : last ≤ times.getLastD start + bound := by
  rcases List.eq_nil_or_concat times with rfl | ⟨times, newest, rfl⟩
  · simpa [Frequent] using frequent
  · rw [List.concat_eq_append, frequent_snoc] at frequent
    simpa using frequent.2

/-- They do so up to a moment that is not long after the last time. -/
theorem Frequent.extend {bound start mid last : Nat} {times : List Nat}
    (frequent : Frequent bound start times mid) (within : last ≤ times.getLastD start + bound) :
    Frequent bound start times last := by
  rcases List.eq_nil_or_concat times with rfl | ⟨times, newest, rfl⟩
  · simpa [Frequent] using within
  · rw [List.concat_eq_append, frequent_snoc] at frequent ⊢
    rw [List.concat_eq_append, List.getLastD_concat] at within
    exact ⟨frequent.1, within⟩

/-- A window longer than the bound has one of the times in it. -/
theorem Frequent.exists_between {bound start last opening closing : Nat} {times : List Nat}
    (frequent : Frequent bound start times last) (inside : start ≤ opening)
    (wide : opening + bound < closing) (ends : closing ≤ last) :
    ∃ time ∈ times, opening ≤ time ∧ time ≤ closing := by
  induction times generalizing start with
  | nil =>
      have := frequent.last_le
      simp only [List.getLastD_nil] at this
      omega
  | cons time times ih =>
      have near : time ≤ start + bound := by simpa [Frequent] using frequent.rel
      by_cases early : time < opening
      · have rest : Frequent bound time times last := List.IsChain.tail frequent
        obtain ⟨found, member, between⟩ := ih rest early.le
        exact ⟨found, List.mem_cons_of_mem _ member, between⟩
      · exact ⟨time, List.mem_cons_self, by omega, by omega⟩

/-- A timer that a loop polls. It has fired where the work is done and the timer not yet armed. -/
structure Timer where
  clock : Nat
  armed : Nat
  fired : Bool

namespace Timer

/-- What happens to a timer. -/
inductive Tick where
  | elapse (clock : Nat)
  | skip
  | fire
  | arm
deriving DecidableEq

/-- A timer with the given period. -/
def Step (period : Nat) : Transition Timer Tick
  | timer, .elapse clock, next => timer.clock ≤ clock ∧ next = { timer with clock := clock }
  | timer, .skip, next => timer.fired = false ∧ timer.clock ≤ timer.armed + period ∧ next = timer
  | timer, .fire, next => timer.fired = false ∧ timer.armed + period < timer.clock ∧
      next = { timer with fired := true }
  | timer, .arm, next => timer.fired = true ∧ next = ⟨timer.clock, timer.clock, false⟩

/-- The times at which a timer fired. -/
def fires (trace : List (Timer × Tick)) : List Nat :=
  (trace.filter fun entry => entry.2 = .fire).map fun entry => entry.1.clock

/-- The times at which the loop polled a timer. -/
def polls (trace : List (Timer × Tick)) : List Nat :=
  (trace.filter fun entry => entry.2 = .skip ∨ entry.2 = .fire).map fun entry => entry.1.clock

variable {period bound : Nat} {start last : Timer} {trace : List (Timer × Tick)}

/-- A tick that fires adds its time. -/
@[simp] theorem fires_snoc {timer : Timer} {tick : Tick} : fires (trace ++ [(timer, tick)]) =
    if tick = .fire then fires trace ++ [timer.clock] else fires trace := by
  by_cases fire : tick = .fire <;> simp [fires, fire]

/-- A tick that asks adds its time. -/
@[simp] theorem polls_snoc {timer : Timer} {tick : Tick} : polls (trace ++ [(timer, tick)]) =
    if tick = .skip ∨ tick = .fire then polls trace ++ [timer.clock] else polls trace := by
  by_cases poll : tick = .skip ∨ tick = .fire <;> simp [polls, poll]

/-- A timer fires more than a period after this time. -/
def since (timer : Timer) : Nat := if timer.fired then timer.clock else timer.armed

/-- A timer is armed no later than now. -/
theorem Step.clock_le {timer next : Timer} {tick : Tick} (step : Step period timer tick next)
    (armed : timer.armed ≤ timer.clock) : next.armed ≤ next.clock ∧ timer.since ≤ next.since := by
  cases tick with
  | elapse clock =>
      obtain ⟨later, rfl⟩ := step
      refine ⟨armed.trans later, ?_⟩
      unfold since
      split_ifs
      · exact later
      · exact le_rfl
  | skip =>
      obtain ⟨_, _, rfl⟩ := step
      exact ⟨armed, le_rfl⟩
  | fire =>
      obtain ⟨idle, _, rfl⟩ := step
      refine ⟨armed, ?_⟩
      simpa [since, idle] using armed
  | arm =>
      obtain ⟨fired, rfl⟩ := step
      simp [since, fired]

/-- A timer's clock does not go back. -/
theorem Step.clock_mono {timer next : Timer} {tick : Tick} (step : Step period timer tick next) :
    timer.clock ≤ next.clock := by
  cases tick with
  | elapse clock =>
      obtain ⟨later, rfl⟩ := step
      exact later
  | skip => rw [step.2.2]
  | fire => rw [step.2.2]
  | arm => rw [step.2]

/-- Two fires are more than a period apart, and the first is so after the start. -/
theorem fires_spaced (run : Run (Step period) start trace last) (waiting : start.fired = false)
    (before : start.armed ≤ start.clock) :
    (start.armed :: fires trace).Pairwise fun earlier later => earlier + period < later := by
  suffices spaced : (start.armed :: fires trace).Pairwise (fun earlier later =>
      earlier + period < later) ∧ (∀ time ∈ start.armed :: fires trace, time ≤ last.since) ∧
      last.armed ≤ last.clock from spaced.1
  induction run with
  | refl => simp [fires, since, waiting, before]
  | @step trace timer tick next prior transition ih =>
      obtain ⟨spaced, reached, armed⟩ := ih
      obtain ⟨armedNext, sinceNext⟩ := transition.clock_le armed
      have reachedNext time (member : time ∈ start.armed :: fires trace) : time ≤ next.since :=
        (reached time member).trans sinceNext
      by_cases fire : tick = .fire
      · subst fire
        obtain ⟨idle, due, rfl⟩ := transition
        have later time (member : time ∈ start.armed :: fires trace) :
            time + period < timer.clock := by
          have within := reached time member
          simp only [since, idle, Bool.false_eq_true, if_false] at within
          omega
        rw [fires_snoc, if_pos rfl, ← List.cons_append]
        refine ⟨List.pairwise_append.mpr ⟨spaced, List.pairwise_singleton .., ?_⟩, ?_, armedNext⟩
        · simpa using later
        · intro time member
          rcases List.mem_append.mp member with earlier | here
          · exact reachedNext time earlier
          · obtain rfl := List.mem_singleton.mp here
            simp [since]
      · rw [fires_snoc, if_neg fire]
        exact ⟨spaced, reachedNext, armedNext⟩

/-- What a loop that polls a timer often keeps of it: the last poll is not long after the last fire,
and the timer was armed soon after the fire. -/
structure Prompt (period bound start : Nat) (trace : List (Timer × Tick)) (timer : Timer) :
    Prop where
  frequent : Frequent (period + 2 * bound) start (fires trace) timer.clock
  polled : (polls trace).getLastD start ≤ (fires trace).getLastD start + (period + bound)
  fired : timer.fired = true → (polls trace).getLastD start = (fires trace).getLastD start
  armed : timer.fired = false → timer.armed ≤ (fires trace).getLastD start + bound ∨
    (polls trace).getLastD start = (fires trace).getLastD start

/-- A tick keeps the timer prompt, if it is asked often. -/
theorem Prompt.step {origin : Nat} {timer next : Timer} {tick : Tick}
    (prompt : Prompt period bound origin trace timer) (transition : Step period timer tick next)
    (armed : timer.armed ≤ timer.clock)
    (polled : Frequent bound origin (polls (trace ++ [(timer, tick)])) next.clock) :
    Prompt period bound origin (trace ++ [(timer, tick)]) next := by
  cases tick with
  | elapse clock =>
      obtain ⟨_, rfl⟩ := transition
      have soon := polled.last_le
      simp only [polls_snoc, reduceCtorEq, or_self, if_false] at soon
      have earlier := prompt.polled
      refine ⟨?_, by simpa using prompt.polled, by simpa using prompt.fired,
        by simpa using prompt.armed⟩
      rw [fires_snoc, if_neg (by simp)]
      exact prompt.frequent.extend (by dsimp only; omega)
  | skip =>
      obtain ⟨idle, early, rfl⟩ := transition
      rw [polls_snoc, if_pos (by simp), frequent_snoc] at polled
      have soon := polled.1.last_le
      have caught : next.armed ≤ (fires trace).getLastD origin + bound := by
        rcases prompt.armed idle with caught | same <;> omega
      refine ⟨by simpa using prompt.frequent, ?_, fun fired => ?_, fun _ => ?_⟩
      · rw [polls_snoc, if_pos (by simp), fires_snoc, if_neg (by simp), List.getLastD_concat]
        omega
      · cases idle.symm.trans fired
      · rw [fires_snoc, if_neg (by simp)]
        exact Or.inl caught
  | fire =>
      obtain ⟨_, _, rfl⟩ := transition
      refine ⟨?_, by simp, by simp, by simp⟩
      rw [fires_snoc, if_pos rfl, frequent_snoc]
      exact ⟨prompt.frequent, Nat.le_add_right ..⟩
  | arm =>
      obtain ⟨fired, rfl⟩ := transition
      exact ⟨by simpa using prompt.frequent, by simpa using prompt.polled, by simp,
        fun _ => Or.inr (by simpa using prompt.fired fired)⟩

/-- Where the loop polls a timer often, the timer fires often. -/
theorem fires_frequent (run : Run (Step period) start trace last) (waiting : start.fired = false)
    (before : start.armed ≤ start.clock) (polled : Frequent bound start.clock (polls trace) last.clock) :
    Frequent (period + 2 * bound) start.clock (fires trace) last.clock := by
  suffices prompt : Prompt period bound start.clock trace last ∧ last.armed ≤ last.clock from
    prompt.1.frequent
  induction run with
  | refl =>
      refine ⟨⟨?_, ?_, ?_, ?_⟩, before⟩
      · simp [Frequent, fires]
      · simp [polls, fires]
      · simp [waiting]
      · simp [polls, fires]
  | @step trace timer tick next prior transition ih =>
      have polledBefore : Frequent bound start.clock (polls trace) timer.clock := by
        rw [polls_snoc] at polled
        split_ifs at polled
        · exact (frequent_snoc.mp polled).1
        · exact polled.earlier transition.clock_mono
      obtain ⟨prompt, armed⟩ := ih polledBefore
      exact ⟨prompt.step transition armed polled, (transition.clock_le armed).1⟩

end Timer

section Requests

variable {State Label : Type}

/-- A step of the first kind has been taken, and none of the second kind after it. -/
def Pending (Makes Takes : Label → Prop) (trace : List (State × Label)) : Prop :=
  ∃ early late state label, trace = early ++ (state, label) :: late ∧ Makes label ∧
    ∀ entry ∈ late, ¬ Takes entry.2

/-- A flag shows a request, which steps of one kind make and those of another kind take. -/
structure Latch (step : Transition State Label) (flag : State → Bool) (Makes Takes : Label → Prop) :
    Prop where
  made : ∀ {state : State} {label : Label} {next : State}, step state label next → Makes label →
    flag next = true
  taken : ∀ {state : State} {label : Label} {next : State}, step state label next → Takes label →
    flag next = false
  kept : ∀ {state : State} {label : Label} {next : State}, step state label next →
    ¬ Makes label → ¬ Takes label → flag next = flag state

variable {step : Transition State Label} {flag : State → Bool} {Makes Takes : Label → Prop}
  {start last : State} {trace : List (State × Label)} {state : State} {label : Label}

/-- What is pending after one more label. -/
theorem pending_snoc : Pending Makes Takes (trace ++ [(state, label)]) ↔
    Makes label ∨ (Pending Makes Takes trace ∧ ¬ Takes label) := by
  constructor
  · rintro ⟨early, late, other, made, split, makes, untaken⟩
    rcases List.eq_nil_or_concat late with rfl | ⟨late, newest, rfl⟩
    · cases (List.append_inj' split rfl).2
      exact Or.inl makes
    · rw [List.concat_eq_append] at split untaken
      rw [← List.cons_append, ← List.append_assoc] at split
      obtain ⟨rfl, same⟩ := List.append_inj' split rfl
      cases same
      exact Or.inr ⟨⟨early, late, other, made, rfl, makes,
        fun entry member => untaken entry (List.mem_append_left _ member)⟩,
        untaken _ (List.mem_append_right _ (List.mem_singleton_self _))⟩
  · rintro (makes | ⟨⟨early, late, other, made, rfl, makes, untaken⟩, kept⟩)
    · exact ⟨trace, [], state, label, rfl, makes, by simp⟩
    · refine ⟨early, late ++ [(state, label)], other, made, by simp, makes, ?_⟩
      simp only [List.mem_append, List.mem_singleton]
      rintro entry (earlier | rfl)
      · exact untaken entry earlier
      · exact kept

/-- The flag shows exactly the requests that are pending. -/
theorem Latch.shows_iff (latch : Latch step flag Makes Takes) (run : Run step start trace last)
    (initially : flag start = false) : flag last = true ↔ Pending Makes Takes trace := by
  induction run with
  | refl => simp [initially, Pending]
  | @step trace state label next prior transition ih =>
      rw [pending_snoc]
      by_cases makes : Makes label
      · simp [latch.made transition makes, makes]
      · by_cases takes : Takes label
        · simp [latch.taken transition takes, makes, takes]
        · rw [latch.kept transition makes takes, ih]
          simp [makes, takes]

end Requests
end WolfNet.Semantics
