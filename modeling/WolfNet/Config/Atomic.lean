import WolfNet.Config.File

/-!
# Saving is atomic

Up to the rename a save works on the siblings of the config file, whatever becomes of its
operations, and the rename puts the whole new text in place: `save_atomic`.
-/

namespace WolfNet

open WolfNet.Std WolfNet.Semantics

variable [Toml]

/-- The file holds the complete new text of the config. -/
def Config.Written (config : Config) (path : FilePath) (disk : Disk FilePath) : Prop :=
  ∃ content, Toml.toStringPretty config = .ok content ∧ isComplete content = true ∧
    disk path = some (utf8 content)

/-- What a save that returns makes of the file, by its result. -/
structure Config.Saves (config : Config) (path : FilePath) (before : Disk FilePath)
    (result : Except String Unit) (after : Disk FilePath) : Prop where
  failed : ∀ error, result = .error error → after path = before path
  saved : result = .ok () → config.Written path after

namespace Config

open Files

variable {config : Config} {path : FilePath} {before disk : Disk FilePath} {content : String}

/-- A save that fails keeps its promise where it left the file as it was. -/
theorem saves_error (error : String) (same : disk path = before path) :
    config.Saves path before (.error error) disk :=
  ⟨fun _ _ => same, nofun⟩

/-- The rename puts the staged text in place, or leaves the file. -/
theorem ensures_rename (printed : Toml.toStringPretty config = .ok content)
    (complete : isComplete content = true) (staged : disk path.tmp = some (utf8 content))
    (same : disk path = before path) :
    Ensures (fun _ => True) (rename path.tmp path) (config.Saves path before)
      (fun after => after path = before path) disk := by
  refine ensures_operation ?_ (fun error _ _ => saves_error error same) fun _ _ => same
  simp only [staged]
  exact ⟨nofun, fun _ => ⟨content, printed, complete, Function.update_self ..⟩⟩

/-- Whatever becomes of its operations, a save leaves the file or completes it. -/
theorem ensures_save (config : Config) (path : FilePath) (disk : Disk FilePath) :
    Ensures (fun _ => True) (config.save path) (config.Saves path disk)
      (fun after => after path = disk path) disk := by
  refine ensures_attempt (ensures_query ?_ (fun error _ _ => saves_error error rfl) fun _ _ => rfl)
  cases printed : Toml.toStringPretty config with
  | error error => exact ensures_pure (saves_error error rfl)
  | ok content =>
      cases complete : isComplete content with
      | false =>
          simp only [complete, Bool.not_false, if_true]
          exact ensures_pure (saves_error _ rfl)
      | true =>
          simp only [complete, Bool.not_true, Bool.false_eq_true, if_false]
          have kept (reached : Option Nat) :
              written path.tmp (utf8 content) reached disk path = disk path :=
            touches_written _ reached _ path.tmp_ne.symm
          refine ensures_attempt (ensures_operation ?_
            (fun error reached _ => saves_error error (kept reached)) fun reached _ => kept reached)
          have staged := Function.update_self path.tmp (some (utf8 content)) disk
          have same : Function.update disk path.tmp (some (utf8 content)) path = disk path :=
            touches_update _ _ path.tmp_ne.symm
          refine ensures_bind (ensures_query ?_ (fun _ _ _ => ?_) fun _ _ => same)
          · split
            · refine ensures_bind (ensures_copy.mono ?_ fun after touched =>
                (touched _ path.bak_ne.symm).trans same)
              intro _ after touched
              exact ensures_rename printed complete ((touched _ path.tmp_ne_bak).trans staged)
                ((touched _ path.bak_ne.symm).trans same)
            · exact ensures_rename printed complete staged same
          · exact ensures_rename printed complete staged same

/-- A save that succeeds, and whose snapshot was taken, keeps the previous file in `.bak`. -/
theorem save_snapshot {fates : List Fate} {previous : List UInt8}
    (saved : (config.save path ⟨disk, fates⟩).1 = some (.ok ()))
    (held : disk path = some previous) (asked : fateAt fates 2 = .done)
    (copied : fateAt fates 3 = .done) :
    (config.save path ⟨disk, fates⟩).2.disk path.bak = some previous := by
  unfold save at saved ⊢
  obtain ⟨_, _, made, rest⟩ := attempt_ok saved
  rw [createDirAll, query] at made
  obtain ⟨-, rfl⟩ := operation_ok made
  rw [rest] at saved ⊢
  cases printed : Toml.toStringPretty config with
  | error error => simp [printed, pure_apply] at saved
  | ok content =>
      cases complete : isComplete content with
      | false => simp [printed, complete, pure_apply] at saved
      | true =>
          simp only [printed, complete, Bool.not_true, Bool.false_eq_true, if_false] at saved ⊢
          obtain ⟨_, _, staged, rest⟩ := attempt_ok saved
          rw [write] at staged
          obtain ⟨-, rfl⟩ := operation_ok staged
          rw [rest]
          have primary : Function.update disk path.tmp (some (utf8 content)) path = some previous :=
            (touches_update _ _ path.tmp_ne.symm).trans held
          have asks : fateAt fates.tail.tail 0 = .done := by rwa [fateAt_tail, fateAt_tail]
          have copies : fateAt fates.tail.tail.tail 0 = .done := by
            rwa [fateAt_tail, fateAt_tail, fateAt_tail]
          rw [bind_apply, «exists», query, operation_done asks]
          simp only [primary, Option.isSome_some, if_true]
          rw [bind_apply, copy, operation_done copies]
          simp only [primary]
          rw [rename_frame _ path.tmp_ne_bak.symm path.bak_ne]
          exact Function.update_self ..

/-- Whatever becomes of the operations of a save, the file holds its old bytes or the complete new
text after it: the old bytes if the save reports an error or is killed in an operation, and the new
text if it succeeds, with the previous file in `.bak` if its snapshot was taken, which is what its
third and fourth operations do. -/
theorem save_atomic (config : Config) (path : FilePath) (disk : Disk FilePath) (fates : List Fate) :
    ((config.save path ⟨disk, fates⟩).2.disk path = disk path ∨
      config.Written path (config.save path ⟨disk, fates⟩).2.disk) ∧
    (∀ error, (config.save path ⟨disk, fates⟩).1 = some (.error error) →
      (config.save path ⟨disk, fates⟩).2.disk path = disk path) ∧
    ((config.save path ⟨disk, fates⟩).1 = some (.ok ()) →
      config.Written path (config.save path ⟨disk, fates⟩).2.disk ∧
      ∀ previous, disk path = some previous → fateAt fates 2 = .done → fateAt fates 3 = .done →
        (config.save path ⟨disk, fates⟩).2.disk path.bak = some previous) := by
  have ended := config.ensures_save path disk fates fun _ _ => trivial
  have snapshot := @save_snapshot _ config path disk fates
  rcases ran : config.save path ⟨disk, fates⟩ with ⟨_ | _ | ⟨⟩, next⟩
  · rw [ran] at ended
    exact ⟨Or.inl ended, nofun, nofun⟩
  · rw [ran] at ended
    exact ⟨Or.inl (ended.1.failed _ rfl), fun _ _ => ended.1.failed _ rfl, nofun⟩
  · rw [ran] at ended snapshot
    exact ⟨Or.inr (ended.1.saved rfl), nofun,
      fun saved => ⟨ended.1.saved rfl, fun _ held asked copied => snapshot saved held asked copied⟩⟩

end Config
end WolfNet
