import Mathlib.Data.List.Induction

/-!
# Runs of a labelled transition relation

A run keeps, for every step, the state it was taken in and its label, so a
condition on steps can speak about both. The rules below turn facts about one
step into facts about every state a run reaches:

- `Run.always` lifts a property that every admitted step preserves,
- `Run.relates` lifts a relation between the first state and the present one, and
- `Run.always_iff` characterises the runs along which a property holds throughout.

`traceOf` is the run of a system whose steps a function computes.
-/

namespace WolfNet.Semantics

/-- A labelled transition relation. -/
abbrev Transition (State Label : Type) := State → Label → State → Prop

variable {State Label : Type}

/-- A finite run from `start`, with the state and the label of each of its steps. -/
inductive Run (step : Transition State Label) (start : State) :
    List (State × Label) → State → Prop where
  | refl : Run step start [] start
  | step {trace : List (State × Label)} {state : State} {label : Label} {next : State}
      (prior : Run step start trace state) (transition : step state label next) :
      Run step start (trace ++ [(state, label)]) next

/-- The property holds in every state of a run: those its steps left and the last one. -/
def Always (Holds : State → Prop) (trace : List (State × Label)) (last : State) : Prop :=
  (∀ entry ∈ trace, Holds entry.1) ∧ Holds last

/-- Every step of a run was taken where the condition on state and label held. -/
def Throughout (Guard : State → Label → Prop) (trace : List (State × Label)) : Prop :=
  ∀ entry ∈ trace, Guard entry.1 entry.2

instance {Guard : State → Label → Prop} [∀ state label, Decidable (Guard state label)]
    {trace : List (State × Label)} : Decidable (Throughout Guard trace) := by
  unfold Throughout
  infer_instance

section Lists

variable {Holds : State → Prop} {Guard : State → Label → Prop}
  {trace : List (State × Label)} {state next : State} {label : Label}

/-- No steps meet every condition. -/
theorem Throughout.nil : Throughout Guard [] := by
  simp [Throughout]

/-- The steps of a longer run meet a condition. -/
theorem throughout_snoc :
    Throughout Guard (trace ++ [(state, label)]) ↔ Throughout Guard trace ∧ Guard state label := by
  simp [Throughout, or_imp, forall_and]

/-- Two conditioned stretches are a conditioned one. -/
theorem throughout_append {later : List (State × Label)} :
    Throughout Guard (trace ++ later) ↔ Throughout Guard trace ∧ Throughout Guard later := by
  simp [Throughout, or_imp, forall_and]

/-- A property holds throughout a longer run. -/
theorem always_snoc :
    Always Holds (trace ++ [(state, label)]) next ↔ Always Holds trace state ∧ Holds next := by
  simp [Always, or_imp, forall_and]

end Lists

namespace Run

variable {step : Transition State Label} {start last : State} {trace : List (State × Label)}
  {Holds Strong : State → Prop} {Guard : State → Label → Prop}

/-- What holds in every state of a run holds in the first. -/
theorem holds_start (run : Run step start trace last) (always : Always Holds trace last) :
    Holds start := by
  induction run with
  | refl => exact always.2
  | step _ _ ih => exact ih (always_snoc.mp always).1

/-- Each entry of a run is a step that was taken. -/
theorem taken (run : Run step start trace last) :
    ∀ entry ∈ trace, ∃ next, step entry.1 entry.2 next := by
  induction run with
  | refl => simp
  | step _ transition ih =>
      simp only [List.mem_append, List.mem_singleton]
      rintro entry (earlier | rfl)
      · exact ih entry earlier
      · exact ⟨_, transition⟩

/-- Runs compose. -/
theorem trans {middle : State} {later : List (State × Label)} (first : Run step start trace middle)
    (second : Run step middle later last) : Run step start (trace ++ later) last := by
  induction second with
  | refl =>
      rw [List.append_nil]
      exact first
  | step _ transition ih =>
      rw [← List.append_assoc]
      exact ih.step transition

/-- Up to any of its steps, a run is a run. -/
theorem before (run : Run step start trace last) {early late : List (State × Label)}
    {entry : State × Label} (split : trace = early ++ entry :: late) :
    Run step start early entry.1 := by
  induction run generalizing late with
  | refl => cases early <;> cases split
  | step prior _ ih =>
      rcases List.eq_nil_or_concat late with rfl | ⟨late, newest, rfl⟩
      · obtain ⟨rfl, same⟩ := List.append_inj' split rfl
        cases same
        exact prior
      · rw [List.concat_eq_append, ← List.cons_append, ← List.append_assoc] at split
        exact ih (List.append_inj' split rfl).1

/-- From any of its steps on, a run is a run. -/
theorem after (run : Run step start trace last) {early late : List (State × Label)}
    {entry : State × Label} (split : trace = early ++ entry :: late) :
    Run step entry.1 (entry :: late) last := by
  induction run generalizing late with
  | refl => cases early <;> cases split
  | step prior transition ih =>
      rcases List.eq_nil_or_concat late with rfl | ⟨late, newest, rfl⟩
      · obtain ⟨rfl, same⟩ := List.append_inj' split rfl
        cases same
        exact Run.refl.step transition
      · rw [List.concat_eq_append, ← List.cons_append, ← List.append_assoc] at split
        obtain ⟨prefixes, same⟩ := List.append_inj' split rfl
        cases same
        rw [List.concat_eq_append, ← List.cons_append]
        exact (ih prefixes).step transition

/-- A run begins with the step of its first entry. -/
theorem head (run : Run step start trace last) {late : List (State × Label)}
    {entry : State × Label} (split : trace = entry :: late) :
    ∃ next, step entry.1 entry.2 next ∧ Run step next late last := by
  induction run generalizing late with
  | refl => cases split
  | @step trace state label next prior transition ih =>
      cases trace with
      | nil =>
          cases split
          exact ⟨next, transition, .refl⟩
      | cons first trace =>
          cases split
          obtain ⟨second, begins, rest⟩ := ih rfl
          exact ⟨second, begins, rest.step transition⟩

section Clocks

variable (clock : State → Nat)
  (advances : ∀ state label next, step state label next → clock state ≤ clock next)

include advances

/-- The clock does not go back in a run. -/
theorem clock_le (run : Run step start trace last) : clock start ≤ clock last := by
  induction run with
  | refl => exact Nat.le_refl _
  | step _ transition ih => exact Nat.le_trans ih (advances _ _ _ transition)

/-- The earlier of two steps, by a clock that does not go back, leads to the later one. -/
theorem leads (run : Run step start trace last) {first second : State × Label}
    (one : first ∈ trace) (two : second ∈ trace) (sooner : clock first.1 < clock second.1) :
    ∃ between, Run step first.1 (first :: between) second.1 := by
  obtain ⟨early, late, rfl⟩ := List.append_of_mem one
  rcases List.mem_append.mp two with before | behind
  · obtain ⟨_, _, rfl⟩ := List.append_of_mem before
    have back := ((run.before rfl).after rfl).clock_le clock advances
    exact absurd sooner (Nat.not_lt_of_le back)
  · rcases List.mem_cons.mp behind with rfl | later
    · exact absurd sooner (Nat.lt_irrefl _)
    · obtain ⟨between, rest, rfl⟩ := List.append_of_mem later
      exact ⟨between, (run.after rfl).before rfl⟩

end Clocks

/-- A run whose steps are admitted is a run of the admitted steps. -/
theorem confined (run : Run step start trace last) (admitted : Throughout Guard trace) :
    Run (fun state label next => Guard state label ∧ step state label next) start trace last := by
  induction run with
  | refl => exact .refl
  | step _ transition ih =>
      obtain ⟨before, here⟩ := throughout_snoc.mp admitted
      exact (ih before).step ⟨here, transition⟩

/-- A property preserved by the admitted steps holds at the end of every admitted run. -/
theorem invariant (run : Run step start trace last)
    (preserved : ∀ {state label next}, Holds state → Guard state label →
      step state label next → Holds next)
    (initially : Holds start) (admitted : Throughout Guard trace) : Holds last := by
  induction run with
  | refl => exact initially
  | step _ transition ih =>
      obtain ⟨before, here⟩ := throughout_snoc.mp admitted
      exact preserved (ih before) here transition

/-- A property preserved by the admitted steps holds in every state of every admitted run. -/
theorem always (run : Run step start trace last)
    (preserved : ∀ {state label next}, Holds state → Guard state label →
      step state label next → Holds next)
    (initially : Holds start) (admitted : Throughout Guard trace) : Always Holds trace last := by
  induction run with
  | refl => exact ⟨by simp, initially⟩
  | step _ transition ih =>
      obtain ⟨before, here⟩ := throughout_snoc.mp admitted
      have priorAlways := ih before
      exact always_snoc.mpr ⟨priorAlways, preserved priorAlways.2 here transition⟩

/-- A reflexive and transitive relation respected by the admitted steps relates the
first state of an admitted run to every state the run reaches. -/
theorem relates {Related : State → State → Prop} (run : Run step start trace last)
    (refl : ∀ state, Related state state)
    (trans : ∀ {first second third}, Related first second → Related second third →
      Related first third)
    (respected : ∀ {state label next}, Guard state label → step state label next →
      Related state next)
    (admitted : Throughout Guard trace) : Always (Related start) trace last :=
  run.always (fun related guard transition => trans related (respected guard transition))
    (refl start) admitted

/-- Where a property survives a step exactly when the step is admitted, it holds
throughout a run exactly when every step of the run is admitted. `Strong` is what
admitted steps preserve besides. -/
theorem always_iff (run : Run step start trace last)
    (strong : ∀ {state}, Strong state → Holds state)
    (forward : ∀ {state label next}, Strong state → Guard state label →
      step state label next → Strong next)
    (backward : ∀ {state label next}, Strong state → step state label next →
      Holds next → Guard state label)
    (initially : Strong start) : Always Holds trace last ↔ Throughout Guard trace := by
  induction run with
  | refl => exact ⟨fun _ => .nil, fun _ => ⟨by simp, strong initially⟩⟩
  | step prior transition ih =>
      rw [always_snoc, throughout_snoc, ih]
      constructor
      · rintro ⟨before, holds⟩
        exact ⟨before, backward (prior.invariant forward initially before) transition holds⟩
      · rintro ⟨before, here⟩
        exact ⟨before,
          strong (forward (prior.invariant forward initially before) here transition)⟩

end Run

section Functions

variable {step : Transition State Label} (next : State → Label → State)

/-- The states and labels met when a function performs labels in order. -/
def traceOf : State → List Label → List (State × Label)
  | _, [] => []
  | state, label :: labels => (state, label) :: traceOf (next state label) labels

/-- The trace of one more label. -/
theorem traceOf_snoc (start : State) (labels : List Label) (label : Label) :
    traceOf next start (labels ++ [label]) =
      traceOf next start labels ++ [(labels.foldl next start, label)] := by
  induction labels generalizing start with
  | nil => rfl
  | cons first labels ih => simp [traceOf, ih]

/-- A trace has the labels that were performed. -/
@[simp] theorem labels_traceOf (start : State) (labels : List Label) :
    (traceOf next start labels).map Prod.snd = labels := by
  induction labels generalizing start with
  | nil => rfl
  | cons first labels ih => simp [traceOf, ih]

variable {next}

/-- Performing labels is a run when each of its steps is one. -/
theorem Run.of_traceOf {start : State} {labels : List Label}
    (steps : ∀ entry ∈ traceOf next start labels, step entry.1 entry.2 (next entry.1 entry.2)) :
    Run step start (traceOf next start labels) (labels.foldl next start) := by
  induction labels using List.reverseRecOn with
  | nil => exact .refl
  | append_singleton labels label ih =>
      rw [traceOf_snoc, List.forall_mem_append] at steps
      rw [traceOf_snoc, List.foldl_append]
      exact (ih steps.1).step (steps.2 _ (List.mem_singleton_self _))

end Functions
end WolfNet.Semantics
