import Mathlib.Data.List.Basic
import Mathlib.Logic.Function.Basic

/-!
# Programs of file operations that can be cut short

A program performs file operations one after the other, and every operation has a fate:
it is done, it fails, or the process is killed in it. Writing is not atomic, so a file
that was being written then holds a front of its new contents; a rename is.

`Files.Ensures` is the program logic: a postcondition for the programs that return, and
a crash condition for the disk that a killed one leaves. It has one rule for each
operation and one for sequencing.
-/

namespace WolfNet.Semantics

/-- The contents of the files that exist. -/
abbrev Disk (Path : Type) := Path → Option (List UInt8)

/-- What becomes of an operation. `reached` counts the bytes it had written, with `none`
for an operation that had not opened its file. -/
inductive Fate where
  | done
  | failed (error : String) (reached : Option Nat)
  | killed (reached : Option Nat)
deriving DecidableEq, Repr

/-- The disk, and the fates of the operations to come. The ones beyond the list are done. -/
structure Process (Path : Type) where
  disk : Disk Path
  fates : List Fate

/-- A program: its value, unless its process was killed, and the process after it. -/
def Files (Path α : Type) := Process Path → Option α × Process Path

namespace Files

variable {Path α β : Type}

instance : Monad (Files Path) where
  pure value := fun process => (some value, process)
  bind first rest := fun process =>
    match first process with
    | (some value, next) => rest value next
    | (none, next) => (none, next)

/-- A value needs no operation. -/
theorem pure_apply (value : α) (process : Process Path) :
    (pure value : Files Path α) process = (some value, process) := rfl

/-- A program goes on where its first part was not killed. -/
theorem bind_apply (first : Files Path α) (rest : α → Files Path β) (process : Process Path) :
    (first >>= rest) process =
      match first process with
      | (some value, next) => rest value next
      | (none, next) => (none, next) := rfl

/-- One operation: `effect` is what it does, `cut` the disk when it reached so far only. -/
def operation (effect : Disk Path → α × Disk Path) (failure : String → α)
    (cut : Option Nat → Disk Path → Disk Path) : Files Path α := fun process =>
  match process.fates with
  | [] => (some (effect process.disk).1, ⟨(effect process.disk).2, []⟩)
  | .done :: fates => (some (effect process.disk).1, ⟨(effect process.disk).2, fates⟩)
  | .failed error reached :: fates => (some (failure error), ⟨cut reached process.disk, fates⟩)
  | .killed reached :: fates => (none, ⟨cut reached process.disk, fates⟩)

/-- An operation that leaves the files alone. -/
def query (answer : Disk Path → α) (failure : String → α) : Files Path α :=
  operation (fun disk => (answer disk, disk)) failure fun _ disk => disk

/-- The `?` operator: an error is returned at once. -/
def attempt (first : Files Path (Except String α)) (rest : α → Files Path (Except String β)) :
    Files Path (Except String β) := do
  match ← first with
  | .ok value => rest value
  | .error error => pure (.error error)

variable [DecidableEq Path]

/-- The text of the error for a file that is not there. -/
def notFound : String := "No such file or directory (os error 2)"

/-- `Path::exists`. -/
def «exists» (path : Path) : Files Path Bool :=
  query (fun disk => (disk path).isSome) fun _ => false

/-- `fs::metadata`, of which the length is used. -/
def metadataLen (path : Path) : Files Path (Except String Nat) :=
  query (fun disk => match disk path with
    | some bytes => .ok bytes.length
    | none => .error notFound) .error

/-- The bytes of a file. -/
def read (path : Path) : Files Path (Except String (List UInt8)) :=
  query (fun disk => match disk path with
    | some bytes => .ok bytes
    | none => .error notFound) .error

/-- `fs::create_dir_all`; directories are not part of a disk. -/
def createDirAll : Files Path (Except String Unit) := query (fun _ => .ok ()) .error

/-- The disk when so much of a file's new contents was written. -/
def written (path : Path) (bytes : List UInt8) : Option Nat → Disk Path → Disk Path
  | none, disk => disk
  | some reached, disk => Function.update disk path (some (bytes.take reached))

/-- `fs::write`. -/
def write (path : Path) (bytes : List UInt8) : Files Path (Except String Unit) :=
  operation (fun disk => (.ok (), Function.update disk path (some bytes))) .error
    (written path bytes)

/-- `fs::copy`, which opens the target after the source. -/
def copy (source target : Path) : Files Path (Except String Unit) :=
  operation (fun disk => match disk source with
      | some bytes => (.ok (), Function.update disk target (some bytes))
      | none => (.error notFound, disk))
    .error fun reached disk => match disk source with
      | some bytes => written target bytes reached disk
      | none => disk

/-- `fs::rename`: a kill finds it before or after. -/
def rename (source target : Path) : Files Path (Except String Unit) :=
  operation (fun disk => match disk source with
      | some bytes => (.ok (), Function.update (Function.update disk source none) target
        (some bytes))
      | none => (.error notFound, disk))
    .error fun _ disk => disk

section Logic

variable {allowed : Fate → Prop} {program : Files Path α} {post : α → Disk Path → Prop}
  {crash : Disk Path → Prop} {disk : Disk Path}

omit [DecidableEq Path]

/-- From the given disk and with allowed fates only, the program ends in `post` where it
returns and in `crash` where it was killed. -/
def Ensures (allowed : Fate → Prop) (program : Files Path α) (post : α → Disk Path → Prop)
    (crash : Disk Path → Prop) (disk : Disk Path) : Prop :=
  ∀ fates : List Fate, (∀ fate ∈ fates, allowed fate) →
    match program ⟨disk, fates⟩ with
    | (some value, next) => post value next.disk ∧ ∀ fate ∈ next.fates, allowed fate
    | (none, next) => crash next.disk

/-- A value ensures what holds of it. -/
theorem ensures_pure {value : α} (holds : post value disk) :
    Ensures allowed (pure value : Files Path α) post crash disk :=
  fun _ admitted => ⟨holds, admitted⟩

/-- A program ensures what its parts ensure, one after the other. -/
theorem ensures_bind {rest : α → Files Path β} {post : β → Disk Path → Prop}
    (first : Ensures allowed program
      (fun value => Ensures allowed (rest value) post crash) crash disk) :
    Ensures allowed (program >>= rest) post crash disk := by
  intro fates admitted
  have ended := first fates admitted
  rw [bind_apply]
  match ran : program ⟨disk, fates⟩ with
  | (some value, next) =>
      rw [ran] at ended
      exact ended.1 next.fates ended.2
  | (none, next) =>
      rw [ran] at ended
      exact ended

/-- What is ensured may be weakened. -/
theorem Ensures.mono {post' : α → Disk Path → Prop} {crash' : Disk Path → Prop}
    (ensured : Ensures allowed program post crash disk)
    (weaker : ∀ value disk, post value disk → post' value disk)
    (weakerCrash : ∀ disk, crash disk → crash' disk) :
    Ensures allowed program post' crash' disk := by
  intro fates admitted
  have ended := ensured fates admitted
  split at ended
  · exact ⟨weaker _ _ ended.1, ended.2⟩
  · exact weakerCrash _ ended

/-- An attempt ensures what its first part does, and stops at its error. -/
theorem ensures_attempt {first : Files Path (Except String α)}
    {rest : α → Files Path (Except String β)} {post : Except String β → Disk Path → Prop}
    (ensured : Ensures allowed first (fun
      | .ok value => Ensures allowed (rest value) post crash
      | .error error => post (.error error)) crash disk) :
    Ensures allowed (attempt first rest) post crash disk := by
  refine ensures_bind (ensured.mono ?_ fun _ crashed => crashed)
  rintro (error | value) disk holds
  · exact ensures_pure holds
  · exact holds

/-- An operation ensures what holds after it was done, where it may fail, and where it may be
killed. -/
theorem ensures_operation {effect : Disk Path → α × Disk Path} {failure : String → α}
    {cut : Option Nat → Disk Path → Disk Path}
    (done : post (effect disk).1 (effect disk).2)
    (failed : ∀ error reached, allowed (.failed error reached) →
      post (failure error) (cut reached disk))
    (killed : ∀ reached, allowed (.killed reached) → crash (cut reached disk)) :
    Ensures allowed (operation effect failure cut) post crash disk := by
  intro fates admitted
  match fates with
  | [] => exact ⟨done, admitted⟩
  | .done :: _ => exact ⟨done, fun fate member => admitted fate (.tail _ member)⟩
  | .failed error reached :: _ =>
      exact ⟨failed error reached (admitted _ (.head _)), fun fate member =>
        admitted fate (.tail _ member)⟩
  | .killed reached :: _ => exact killed reached (admitted _ (.head _))

/-- A query leaves the disk, whatever becomes of it. -/
theorem ensures_query {answer : Disk Path → α} {failure : String → α}
    (done : post (answer disk) disk)
    (failed : ∀ error reached, allowed (.failed error reached) → post (failure error) disk)
    (killed : ∀ reached, allowed (.killed reached) → crash disk) :
    Ensures allowed (query answer failure) post crash disk :=
  ensures_operation done failed killed

end Logic

section Frame

variable {allowed : Fate → Prop} {path source target : Path} {disk : Disk Path}

/-- The disks differ at the path at most. -/
def Touches (path : Path) (before after : Disk Path) : Prop :=
  ∀ other, other ≠ path → after other = before other

/-- An update touches its path only. -/
theorem touches_update (bytes : Option (List UInt8)) :
    Touches path disk (Function.update disk path bytes) :=
  fun _ different => Function.update_of_ne different _ _

/-- Writing touches its path only, wherever it is cut. -/
theorem touches_written (bytes : List UInt8) (reached : Option Nat) :
    Touches path disk (written path bytes reached disk) := by
  cases reached with
  | none => exact fun _ _ => rfl
  | some count => exact touches_update _

/-- A copy touches its target, whatever becomes of it. -/
theorem ensures_copy : Ensures allowed (copy source target)
    (fun _ after => Touches target disk after) (fun after => Touches target disk after) disk := by
  refine ensures_operation ?_ (fun _ reached _ => ?_) fun reached _ => ?_
  · split
    · exact touches_update _
    · exact fun _ _ => rfl
  · split
    · exact touches_written _ reached
    · exact fun _ _ => rfl
  · split
    · exact touches_written _ reached
    · exact fun _ _ => rfl

/-- A rename touches its source and its target, whatever becomes of it. -/
theorem rename_frame {other : Path} (process : Process Path) (notSource : other ≠ source)
    (notTarget : other ≠ target) :
    (rename source target process).2.disk other = process.disk other := by
  have moved (disk : Disk Path) (bytes : List UInt8) : Function.update
      (Function.update disk source none) target (some bytes) other = disk other := by
    rw [Function.update_of_ne notTarget, Function.update_of_ne notSource]
  obtain ⟨disk, fates⟩ := process
  rcases fates with _ | ⟨_ | ⟨error, reached⟩ | reached, fates⟩
  · cases held : disk source <;> simp [rename, operation, held, moved]
  · cases held : disk source <;> simp [rename, operation, held, moved]
  · rfl
  · rfl

end Frame

section Outcomes

variable {effect : Disk Path → α × Disk Path} {failure : String → α}
  {cut : Option Nat → Disk Path → Disk Path} {process next : Process Path}

omit [DecidableEq Path]

/-- The fate of the operation at a position of a program. -/
def fateAt (fates : List Fate) (position : Nat) : Fate := (fates[position]?).getD .done

/-- The fates of the rest are those from the next position on. -/
theorem fateAt_tail (fates : List Fate) (position : Nat) :
    fateAt fates.tail position = fateAt fates (position + 1) := by
  rw [fateAt, fateAt, List.getElem?_tail]

/-- An operation that is done has its effect. -/
theorem operation_done (done : fateAt process.fates 0 = .done) :
    operation effect failure cut process =
      (some (effect process.disk).1, ⟨(effect process.disk).2, process.fates.tail⟩) := by
  obtain ⟨disk, fates⟩ := process
  cases fates with
  | nil => rfl
  | cons fate fates =>
      cases (show fate = .done from done)
      rfl

/-- An operation that reports its failures and gives a value was done. -/
theorem operation_ok {effect : Disk Path → Except String α × Disk Path} {value : α}
    (ran : operation effect .error cut process = (some (.ok value), next)) :
    (effect process.disk).1 = .ok value ∧
      next = ⟨(effect process.disk).2, process.fates.tail⟩ := by
  obtain ⟨disk, fates⟩ := process
  rcases fates with _ | ⟨_ | ⟨error, reached⟩ | reached, fates⟩
  · simp only [operation, Prod.mk.injEq, Option.some.injEq] at ran
    exact ⟨ran.1, ran.2.symm⟩
  · simp only [operation, Prod.mk.injEq, Option.some.injEq] at ran
    exact ⟨ran.1, ran.2.symm⟩
  · simp [operation] at ran
  · simp [operation] at ran

/-- A value behind `?` came through a value in front of it. -/
theorem attempt_ok {first : Files Path (Except String α)} {rest : α → Files Path (Except String β)}
    {value : β} (ran : (attempt first rest process).1 = some (.ok value)) :
    ∃ middle next, first process = (some (.ok middle), next) ∧
      attempt first rest process = rest middle next := by
  simp only [attempt, bind_apply] at ran ⊢
  rcases made : first process with ⟨_ | _ | middle, next⟩
  · simp [made] at ran
  · simp [made, pure_apply] at ran
  · exact ⟨middle, next, rfl, by simp⟩

end Outcomes

section Undisturbed

variable {program : Files Path α} {post : α → Disk Path → Prop} {disk : Disk Path}

omit [DecidableEq Path]

/-- The program returns where none of its operations fails or is killed. -/
abbrev Returns (program : Files Path α) (post : α → Disk Path → Prop) (disk : Disk Path) : Prop :=
  Ensures (fun _ => False) program post (fun _ => False) disk

/-- Undisturbed, an operation returns what holds after it was done. -/
theorem returns_operation {effect : Disk Path → α × Disk Path} {failure : String → α}
    {cut : Option Nat → Disk Path → Disk Path} (done : post (effect disk).1 (effect disk).2) :
    Ensures (fun _ => False) (operation effect failure cut) post (fun _ => False) disk :=
  ensures_operation done (fun _ _ never => never.elim) fun _ never => never.elim

/-- Undisturbed, a query returns its answer. -/
theorem returns_query {answer : Disk Path → α} {failure : String → α}
    (done : post (answer disk) disk) :
    Ensures (fun _ => False) (query answer failure) post (fun _ => False) disk :=
  returns_operation done

/-- A program that returns ends with a value. -/
theorem Ensures.returned (returns : Ensures (fun _ => False) program post (fun _ => False) disk) :
    ∃ value next, program ⟨disk, []⟩ = (some value, next) ∧ post value next.disk := by
  have ended := returns [] (by simp)
  split at ended
  · next value next ran => exact ⟨value, next, ran, ended.1⟩
  · exact ended.elim

end Undisturbed
end Files
end WolfNet.Semantics
