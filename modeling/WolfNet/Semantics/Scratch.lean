/-!
# Programs with scratch state

A program that works in buffers of its own computes what a program without them does, as long as
it stays in their bounds. `RunsTo` says so of one run, from given scratch state, and `Simulates`
of every run. Both compose along the steps of the program:

- `Simulates.bind` and `RunsTo.bind` for a step and its continuation, which may use what the
  program without scratch state computes in that step, and
- `Simulates.ite` for a branch.
-/

namespace WolfNet.Semantics

variable {Scratch Failure Value Result : Type}

/-- Started in the scratch state, the program succeeds, and so does the program without scratch
state, with the same value. -/
def RunsTo (program : StateT Scratch (Except Failure) Value) (scratch : Scratch)
    (outcome : Except Failure Value) : Prop :=
  ∃ value scratch', program scratch = .ok (value, scratch') ∧ outcome = .ok value

/-- The program succeeds from every scratch state, as the program without one does. -/
def Simulates (program : StateT Scratch (Except Failure) Value)
    (outcome : Except Failure Value) : Prop :=
  ∀ scratch, RunsTo program scratch outcome

variable {program : StateT Scratch (Except Failure) Value}
  {rest : Value → StateT Scratch (Except Failure) Result} {scratch scratch' : Scratch}
  {value : Value} {outcome : Except Failure Value} {outcomes : Value → Except Failure Result}

/-- A step whose run is known is followed by its continuation. -/
theorem RunsTo.after {result : Except Failure Result}
    (run : program scratch = .ok (value, scratch'))
    (continues : RunsTo (rest value) scratch' result) :
    RunsTo (program >>= rest) scratch result := by
  obtain ⟨final, last, finishes, same⟩ := continues
  refine ⟨final, last, ?_, same⟩
  change (program scratch >>= fun step => rest step.1 step.2) = _
  rw [run]
  exact finishes

/-- A computation that does not use the scratch state leaves it. -/
theorem liftM_run (succeeds : outcome = .ok value) :
    (liftM outcome : StateT Scratch (Except Failure) Value) scratch = .ok (value, scratch) := by
  subst succeeds
  rfl

/-- Programs one after the other run to their outcomes one after the other. -/
theorem RunsTo.bind (runs : RunsTo program scratch outcome)
    (continues : ∀ value scratch', outcome = .ok value →
      RunsTo (rest value) scratch' (outcomes value)) :
    RunsTo (program >>= rest) scratch (outcome >>= outcomes) := by
  obtain ⟨value, scratch', run, same⟩ := runs
  subst same
  exact .after run (continues value scratch' rfl)

/-- A program of two branches runs to the outcome of the branch taken. -/
theorem RunsTo.ite {condition : Prop} [Decidable condition]
    {program' : StateT Scratch (Except Failure) Value} {outcome' : Except Failure Value}
    (whenTrue : condition → RunsTo program scratch outcome)
    (whenFalse : ¬condition → RunsTo program' scratch outcome') :
    RunsTo (if condition then program else program') scratch
      (if condition then outcome else outcome') := by
  split
  · next holds => exact whenTrue holds
  · next fails => exact whenFalse fails

namespace Simulates

/-- A value is its own outcome. -/
theorem pure (value : Value) :
    Simulates (Pure.pure value : StateT Scratch (Except Failure) Value) (Pure.pure value) :=
  fun scratch => ⟨value, scratch, rfl, rfl⟩

/-- A computation that does not use the scratch state is its own simulation. -/
theorem lift (succeeds : ∃ value, outcome = .ok value) :
    Simulates (liftM outcome : StateT Scratch (Except Failure) Value) outcome := by
  obtain ⟨value, rfl⟩ := succeeds
  exact fun scratch => ⟨value, scratch, rfl, rfl⟩

/-- Programs one after the other simulate their outcomes one after the other. -/
theorem bind (simulates : Simulates program outcome)
    (continues : ∀ value, outcome = .ok value → Simulates (rest value) (outcomes value)) :
    Simulates (program >>= rest) (outcome >>= outcomes) :=
  fun scratch => (simulates scratch).bind fun value scratch' same => continues value same scratch'

/-- A program of two branches simulates the branch taken. -/
theorem ite {condition : Prop} [Decidable condition]
    {program' : StateT Scratch (Except Failure) Value} {outcome' : Except Failure Value}
    (whenTrue : condition → Simulates program outcome)
    (whenFalse : ¬condition → Simulates program' outcome') :
    Simulates (if condition then program else program')
      (if condition then outcome else outcome') :=
  fun scratch => .ite (fun holds => whenTrue holds scratch) fun fails => whenFalse fails scratch

/-- A step that succeeds without the scratch state is followed by its continuation. -/
theorem after_lift {step : Except Failure Value} {result : Except Failure Result}
    (succeeds : step = .ok value) (continues : Simulates (rest value) result) :
    Simulates ((liftM step : StateT Scratch (Except Failure) Value) >>= rest) result :=
  fun scratch => .after (liftM_run succeeds) (continues scratch)

end Simulates
end WolfNet.Semantics
