import WolfNet.Semantics.Run

/-!
# Views of a system

A view shows of a system another one: each step of the system is a step of the other, or is not
seen. What a run does is then a run of what the view shows, whatever else goes on beside it.
-/

namespace WolfNet.Semantics

variable {State Label Shown Seen : Type}

/-- A view of one transition relation as another. -/
structure View (step : Transition State Label) (shownStep : Transition Shown Seen) where
  state : State → Shown
  label : State → Label → Option Seen
  moves : ∀ {before : State} {taken : Label} {after : State} {seen : Seen},
    step before taken after → label before taken = some seen →
      shownStep (state before) seen (state after)
  rests : ∀ {before : State} {taken : Label} {after : State},
    step before taken after → label before taken = none → state after = state before

namespace View

variable {step : Transition State Label} {shownStep : Transition Shown Seen}
  {start last : State}

/-- What the view shows of a step. -/
def entry (view : View step shownStep) (entry : State × Label) : Option (Shown × Seen) :=
  (view.label entry.1 entry.2).map fun seen => (view.state entry.1, seen)

/-- What the view shows of a run. -/
def trace (view : View step shownStep) (trace : List (State × Label)) : List (Shown × Seen) :=
  trace.filterMap view.entry

/-- A run shows as a run. -/
theorem run (view : View step shownStep) {trace : List (State × Label)}
    (run : Run step start trace last) :
    Run shownStep (view.state start) (view.trace trace) (view.state last) := by
  induction run with
  | refl => exact .refl
  | @step trace state label next prior transition ih =>
      rw [View.trace, List.filterMap_append]
      cases seen : view.label state label with
      | none =>
          have unseen : [(state, label)].filterMap view.entry = [] := by
            simp [View.entry, seen]
          rw [unseen, List.append_nil, view.rests transition seen]
          exact ih
      | some seenLabel =>
          have shown : [(state, label)].filterMap view.entry = [(view.state state, seenLabel)] := by
            simp [View.entry, seen]
          rw [shown]
          exact ih.step (view.moves transition seen)

/-- What a run shows of some steps is read off its own steps. -/
theorem trace_filter {Reading : Type} (view : View step shownStep) (trace : List (State × Label))
    {did : Label → Bool} {saw : Seen → Bool} {read : State → Reading} {shownRead : Shown → Reading}
    (sees : ∀ state label, did label = (view.label state label).any saw)
    (reads : ∀ state, shownRead (view.state state) = read state) :
    (((view.trace trace).filter fun entry => saw entry.2).map fun entry => shownRead entry.1) =
      (trace.filter fun entry => did entry.2).map fun entry => read entry.1 := by
  induction trace with
  | nil => rfl
  | cons entry trace ih =>
      obtain ⟨state, label⟩ := entry
      have same := sees state label
      cases seen : view.label state label with
      | none =>
          rw [seen, Option.any_none] at same
          have shown : view.trace ((state, label) :: trace) = view.trace trace := by
            simp [View.trace, View.entry, seen]
          rw [shown, ih, List.filter_cons_of_neg (by simp [same])]
      | some seenLabel =>
          rw [seen, Option.any_some] at same
          have shown : view.trace ((state, label) :: trace) =
              (view.state state, seenLabel) :: view.trace trace := by
            simp [View.trace, View.entry, seen]
          rw [shown, List.filter_cons, List.filter_cons, same]
          split_ifs
          · rw [List.map_cons, List.map_cons, ih, reads]
          · exact ih

end View
end WolfNet.Semantics
