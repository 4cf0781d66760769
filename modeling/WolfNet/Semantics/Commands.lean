import Mathlib.Data.List.Basic

/-!
# Programs that invoke commands

A program invokes commands that change the host it runs on, one after the other. Every invocation has
a fate: the command runs, it fails without effect, it cannot be invoked, or the program is killed
before it. `Commands.Preserves` says what holds of the host through all of that; where nothing
disturbs the program, it computes.
-/

namespace WolfNet.Semantics

/-- What becomes of an invocation. -/
inductive Invocation where
  | runs
  | fails
  | missing (error : String)
  | killed
deriving DecidableEq, Repr

/-- The host, and the fates of the invocations to come. The ones beyond the list run. -/
structure Session (Host : Type) where
  host : Host
  fates : List Invocation

/-- A program: its value, unless it was killed, and the session after it. -/
def Commands (Host α : Type) := Session Host → Option α × Session Host

namespace Commands

variable {Host α β : Type}

instance : Monad (Commands Host) where
  pure value := fun session => (some value, session)
  bind first rest := fun session =>
    match first session with
    | (some value, next) => rest value next
    | (none, next) => (none, next)

/-- What a command reports that runs, and the host after it. It gives the host that it makes, or
nothing where it fails. -/
def report (command : Host → Option Host) (host : Host) : Bool × Host :=
  match command host with
  | some next => (true, next)
  | none => (false, host)

/-- Invoke a command. The answer is whether it reported success, or the error for a command that
could not be invoked. -/
def invoke (command : Host → Option Host) : Commands Host (Except String Bool) := fun session =>
  let reported := report command session.host
  match session.fates with
  | [] => (some (.ok reported.1), ⟨reported.2, []⟩)
  | .runs :: fates => (some (.ok reported.1), ⟨reported.2, fates⟩)
  | .fails :: fates => (some (.ok false), ⟨session.host, fates⟩)
  | .missing error :: fates => (some (.error error), ⟨session.host, fates⟩)
  | .killed :: fates => (none, ⟨session.host, fates⟩)

/-- A value needs no command. -/
theorem pure_apply (value : α) (session : Session Host) :
    (pure value : Commands Host α) session = (some value, session) := rfl

/-- A program goes on where its first part was not killed. -/
theorem bind_apply (first : Commands Host α) (rest : α → Commands Host β) (session : Session Host) :
    (first >>= rest) session =
      match first session with
      | (some value, next) => rest value next
      | (none, next) => (none, next) := rfl

/-- An invocation that nothing disturbs. -/
theorem bind_invoke (command : Host → Option Host) (rest : Except String Bool → Commands Host β)
    (host : Host) : (invoke command >>= rest) ⟨host, []⟩ =
      rest (.ok (report command host).1) ⟨(report command host).2, []⟩ := rfl

/-- However far the program gets, the property of the host is kept. -/
def Preserves (Holds : Host → Prop) (program : Commands Host α) : Prop :=
  ∀ session, Holds session.host → Holds (program session).2.host

variable {Holds : Host → Prop}

/-- A value preserves everything. -/
theorem preserves_pure (value : α) : Preserves Holds (pure value : Commands Host α) :=
  fun _ holds => holds

/-- A program preserves what its parts preserve. -/
theorem preserves_bind {program : Commands Host α} {rest : α → Commands Host β}
    (first : Preserves Holds program) (onward : ∀ value, Preserves Holds (rest value)) :
    Preserves Holds (program >>= rest) := by
  intro session holds
  have reached := first session holds
  rw [bind_apply]
  match ran : program session with
  | (some value, next) =>
      rw [ran] at reached
      exact onward value next reached
  | (none, next) =>
      rw [ran] at reached
      exact reached

/-- A command preserves what holds after it. -/
theorem preserves_invoke {command : Host → Option Host}
    (kept : ∀ host next, Holds host → command host = some next → Holds next) :
    Preserves Holds (invoke command) := by
  intro session holds
  have reported : Holds (report command session.host).2 := by
    unfold report
    cases made : command session.host with
    | some next => exact kept session.host next holds made
    | none => exact holds
  unfold invoke
  split <;> assumption

end Commands
end WolfNet.Semantics
