import WolfNet.Config.Sample
import WolfNet.Semantics.Run

/-!
# Recovery of a lost config file

A start that finds `config.toml` empty restores it from `config.toml.bak`, and a start
that was killed before it wrote anything, or after it wrote everything, leaves a disk
that the next start recovers from. Two disks are beyond recovery. `loadConfig` asks
first whether the file exists, so where it is missing the default config is used; and a
start that was killed half way through the copy leaves a file that looks usable.
-/

namespace WolfNet

open WolfNet.Std WolfNet.Semantics

/-- The operation is done, or the process is killed in it with none or all of the given
number of bytes written. -/
def WholeCopy (length : Nat) : Fate → Prop
  | .done => True
  | .failed _ _ => False
  | .killed reached => ∀ count ∈ reached, count = 0 ∨ length ≤ count

/-- A disk that a start recovers from: the snapshot is there, and the file itself is
empty or already restored. -/
structure Recoverable (path : FilePath) (bytes : List UInt8) (disk : Disk FilePath) : Prop where
  snapshot : disk path.bak = some bytes
  primary : disk path = some [] ∨ disk path = some bytes

variable {path : FilePath} {bytes : List UInt8} {disk : Disk FilePath}

/-- Writing none or all of the file keeps the disk recoverable. -/
theorem Recoverable.written (recoverable : Recoverable path bytes disk) {reached : Option Nat}
    (whole : ∀ count ∈ reached, count = 0 ∨ bytes.length ≤ count) :
    Recoverable path bytes (Files.written path bytes reached disk) := by
  cases reached with
  | none => exact recoverable
  | some count =>
      constructor
      · rw [Files.written, Function.update_of_ne path.bak_ne]
        exact recoverable.snapshot
      · rw [Files.written, Function.update_self]
        rcases whole count rfl with none | all
        · left
          rw [none, List.take_zero]
        · right
          rw [List.take_of_length_le all]

section Start

variable {allowed : Fate → Prop} {crash : Disk FilePath → Prop}

/-- What the rules for a start ask of its fates: none leaves a part of the copy, and
`crash` is what they make of a recoverable disk. -/
structure Admits (path : FilePath) (bytes : List UInt8) (allowed : Fate → Prop)
    (crash : Disk FilePath → Prop) : Prop where
  whole : ∀ fate, allowed fate → WholeCopy bytes.length fate
  killed : ∀ reached disk, allowed (.killed reached) → Recoverable path bytes disk → crash disk

/-- Nothing fails for another reason than a kill. -/
theorem Admits.not_failed (admits : Admits path bytes allowed crash) (error : String)
    (reached : Option Nat) : ¬ allowed (.failed error reached) := admits.whole _

/-- A query of a recoverable disk answers, or the process is killed in it. -/
theorem Admits.query {α : Type} {answer : Disk FilePath → α} {failure : String → α}
    {post : α → Disk FilePath → Prop} (admits : Admits path bytes allowed crash)
    (recoverable : Recoverable path bytes disk) (done : post (answer disk) disk) :
    Files.Ensures allowed (Files.query answer failure) post crash disk :=
  Files.ensures_query done (fun error reached failed =>
    absurd failed (admits.not_failed error reached))
    fun reached killed => admits.killed reached disk killed recoverable

/-- The copy of the snapshot restores the file. -/
theorem Admits.copy (admits : Admits path bytes allowed crash)
    (recoverable : Recoverable path bytes disk) :
    Files.Ensures allowed (Files.copy path.bak path)
      (fun _ disk => disk path.bak = some bytes ∧ disk path = some bytes) crash disk := by
  refine Files.ensures_operation ?_ (fun error reached failed =>
    absurd failed (admits.not_failed error reached)) ?_
  · simp only [recoverable.snapshot]
    exact ⟨by rw [Function.update_of_ne path.bak_ne, recoverable.snapshot], Function.update_self ..⟩
  · intro reached killed
    simp only [recoverable.snapshot]
    exact admits.killed reached _ killed (recoverable.written (admits.whole _ killed))

/-- A recovery of a recoverable disk puts the bytes into the file and its backup. -/
theorem ensures_recover (admits : Admits path bytes allowed crash) (nonempty : bytes ≠ [])
    (recoverable : Recoverable path bytes disk) :
    Files.Ensures allowed (Config.recover path)
      (fun _ disk => disk path.bak = some bytes ∧ disk path = some bytes) crash disk := by
  have long : 0 < bytes.length := List.length_pos_iff.mpr nonempty
  refine Files.ensures_bind (admits.query recoverable ?_)
  rcases recoverable.primary with empty | restored
  · simp only [empty, List.length_nil, Nat.lt_irrefl, decide_false, Bool.not_false, if_true]
    refine Files.ensures_bind (admits.query recoverable ?_)
    simp only [recoverable.snapshot, if_pos long]
    exact Files.ensures_bind ((admits.copy recoverable).mono (fun _ _ both =>
      Files.ensures_pure both) fun _ crashed => crashed)
  · simp only [restored, long, decide_true, Bool.not_true, Bool.false_eq_true, if_false]
    exact Files.ensures_pure ⟨recoverable.snapshot, restored⟩

variable [Toml] {config : Config} {text : String}

/-- A start from a recoverable disk returns the config of the snapshot and leaves the
file complete. -/
theorem ensures_loadConfig (admits : Admits path (utf8 text) allowed crash)
    (nonempty : utf8 text ≠ [])
    (held : Config.read text = .ok (config, false))
    (recoverable : Recoverable path (utf8 text) disk) :
    Files.Ensures allowed (loadConfig path)
      (fun result disk => result = .ok config ∧ disk path.bak = some (utf8 text) ∧
        disk path = some (utf8 text)) crash disk := by
  have present : (disk path).isSome := by
    rcases recoverable.primary with empty | restored
    · rw [empty]
      rfl
    · rw [restored]
      rfl
  refine Files.ensures_bind (admits.query recoverable ?_)
  rw [if_pos present]
  refine Files.ensures_bind (Files.ensures_bind
    ((ensures_recover admits nonempty recoverable).mono ?_
    fun _ crashed => crashed))
  intro _ disk restored
  have recoverable : Recoverable path (utf8 text) disk := ⟨restored.1, .inr restored.2⟩
  refine Files.ensures_attempt (Files.ensures_attempt (admits.query recoverable ?_))
  simp only [restored.2, fromUtf8_utf8]
  refine Files.ensures_pure ?_
  simp only [held]
  exact Files.ensures_pure (Files.ensures_pure ⟨rfl, restored⟩)

end Start

section Runs

variable [Toml] {config : Config} {text : String}

/-- Starts of the program on one disk, each with the fates of its file operations. -/
def Starts (path : FilePath) : Transition (Disk FilePath) (List Fate) :=
  fun disk fates next => (loadConfig path ⟨disk, fates⟩).2.disk = next

/-- An undisturbed start returns the config and leaves the file with these bytes. -/
def Recovers (path : FilePath) (config : Config) (bytes : List UInt8) (disk : Disk FilePath) :
    Prop :=
  ∃ next, loadConfig path ⟨disk, []⟩ = (some (.ok config), next) ∧ next.disk path = some bytes

/-- A recoverable disk recovers the config. -/
theorem Recoverable.recovers (recoverable : Recoverable path (utf8 text) disk)
    (nonempty : utf8 text ≠ []) (held : Config.read text = .ok (config, false)) :
    Recovers path config (utf8 text) disk := by
  have undisturbed : Admits path (utf8 text) (fun _ => False) fun _ => False :=
    ⟨fun _ never => never.elim, fun _ _ never => never.elim⟩
  obtain ⟨result, next, started, rfl, _, restored⟩ :=
    (ensures_loadConfig undisturbed nonempty held recoverable).returned
  exact ⟨next, started, restored⟩

/-- A start that writes whole copies leaves the disk recoverable. -/
theorem Recoverable.step {fates : List Fate} {next : Disk FilePath}
    (recoverable : Recoverable path (utf8 text) disk) (nonempty : utf8 text ≠ [])
    (held : Config.read text = .ok (config, false))
    (whole : ∀ fate ∈ fates, WholeCopy (utf8 text).length fate)
    (started : Starts path disk fates next) :
    Recoverable path (utf8 text) next := by
  have admits : Admits path (utf8 text) (WholeCopy (utf8 text).length)
      (Recoverable path (utf8 text)) :=
    ⟨fun _ => id, fun _ _ _ => id⟩
  have ended := (ensures_loadConfig admits nonempty held recoverable) fates whole
  rw [← started]
  split at ended
  · next ran =>
      rw [ran]
      exact ⟨ended.1.2.1, .inr ended.1.2.2⟩
  · next ran =>
      rw [ran]
      exact ended

/-- Where the file is missing, a start does not look for the snapshot. -/
theorem loadConfig_missing (missing : disk path = none) :
    loadConfig path ⟨disk, []⟩ = (some (.ok Config.default), ⟨disk, []⟩) := by
  simp [loadConfig, Files.bind_apply, Files.exists, Files.query, Files.operation, missing,
    Files.pure_apply]

/-- A start from an empty file that is killed in its copy leaves the front of the snapshot. -/
theorem loadConfig_killed {bytes : List UInt8} {fates : List Fate} (empty : disk path = some [])
    (snapshot : disk path.bak = some bytes) (nonempty : bytes ≠ []) (reached : Option Nat) :
    loadConfig path ⟨disk, .done :: .done :: .done :: .killed reached :: fates⟩ =
      (none, ⟨Files.written path bytes reached disk, fates⟩) := by
  have long : 0 < bytes.length := List.length_pos_iff.mpr nonempty
  simp [loadConfig, Config.load, Config.recover, Files.bind_apply, Files.exists, Files.metadataLen,
    Files.copy, Files.query, Files.operation, empty, snapshot, long]

/-- A start from a file with some contents uses them as they are. -/
theorem loadConfig_error {content error : String} (primary : disk path = some (utf8 content))
    (nonempty : utf8 content ≠ []) (unreadable : Config.read content = .error error) :
    loadConfig path ⟨disk, []⟩ = (some (.error s!"Failed to load config: {error}"),
      ⟨disk, []⟩) := by
  have long : 0 < (utf8 content).length := List.length_pos_iff.mpr nonempty
  simp [loadConfig, Config.load, Config.recover, Files.bind_apply, Files.exists, Files.metadataLen,
    readToString, Files.attempt, Files.read, Files.query, Files.operation, Files.pure_apply,
      primary,
    long, unreadable]

/-- With a complete snapshot and no file or an empty one, every start of a run in which
no kill leaves a part of the copy recovers the config exactly when there was a file. -/
theorem recovers_iff {start last : Disk FilePath} {trace : List (Disk FilePath × List Fate)}
    (roundTrip : Toml.RoundTrip config text) (complete : isComplete text)
    (distinct : (keysOf config.peers).Nodup)
    (noLegacy : ∀ line ∈ lines text.toList, isLegacyLine line = false)
    (snapshot : start path.bak = some (utf8 text)) (lost : start path = none ∨ start path = some [])
    (run : Run (Starts path) start trace last)
    (whole : Throughout (fun _ fates => ∀ fate ∈ fates, WholeCopy (utf8 text).length fate) trace) :
    Always (Recovers path config (utf8 text)) trace last ↔ start path ≠ none := by
  have held := Config.read_printed roundTrip distinct noLegacy
  have nonempty : utf8 text ≠ [] := by
    refine utf8_ne_nil fun empty => ?_
    rw [empty] at complete
    cases complete
  constructor
  · intro always missing
    obtain ⟨next, started, restored⟩ := run.holds_start always
    rw [loadConfig_missing missing] at started
    cases started
    exact absurd (missing.symm.trans restored) (by simp)
  · intro present
    have recoverable : Recoverable path (utf8 text) start :=
      ⟨snapshot, .inl (lost.resolve_left present)⟩
    have kept := run.always (fun before whole started =>
      Recoverable.step before nonempty held whole started)
      recoverable whole
    exact ⟨fun entry member => (kept.1 entry member).recovers nonempty held,
      kept.2.recovers nonempty held⟩

end Runs

namespace Sample

attribute [local instance] toml

def configPath : FilePath := ⟨"/etc/wolfnet", "config", some "toml"⟩

/-- The config of `configText` in the snapshot, and these contents of the file itself. -/
def lostDisk (primary : Option (List UInt8)) : Disk FilePath := fun path =>
  if path = configPath.bak then some (utf8 configText)
  else if path = configPath then primary else none

/-- What is left of the lost file. -/
theorem lostDisk_path (primary : Option (List UInt8)) : lostDisk primary configPath = primary := by
  rw [lostDisk, if_neg configPath.bak_ne.symm, if_pos rfl]

/-- A start killed in its copy, after so many bytes. -/
def killedStart (reached : Nat) : List Fate := [.done, .done, .done, .killed (some reached)]

end Sample

/-- A start that is killed when it has emptied the file, and an undisturbed one. -/
theorem recovers_iff_sample :
    let next := fun disk fates => (@loadConfig Sample.toml Sample.configPath ⟨disk, fates⟩).2.disk
    let labels := [Sample.killedStart 0, []]
    Always (@Recovers Sample.toml Sample.configPath Sample.config (utf8 Sample.configText))
      (traceOf next (Sample.lostDisk (some [])) labels)
        (labels.foldl next (Sample.lostDisk (some []))) ↔
      Sample.lostDisk (some []) Sample.configPath ≠ none := by
  intro next labels
  refine @recovers_iff Sample.configPath Sample.toml _ _ _ _ _ Sample.config_roundTrip ?_ Sample.config_distinct
    Sample.config_noLegacy (if_pos rfl) (.inr (Sample.lostDisk_path _))
      (.of_traceOf fun _ _ => rfl) ?_
  · exact Sample.config_complete
  · simp [labels, traceOf, Throughout, Sample.killedStart, WholeCopy]

/-- Two starts that do not return the config of a complete snapshot: one finds no file
and uses the default config, one finds the front of a copy and ends with an error. -/
theorem config_not_recovered :
    (@loadConfig Sample.toml Sample.configPath ⟨Sample.lostDisk none, []⟩).1 =
      some (.ok Config.default) ∧
    Config.default ≠ Sample.config ∧
    (@loadConfig Sample.toml Sample.configPath ⟨(@loadConfig Sample.toml Sample.configPath
      ⟨Sample.lostDisk (some []), Sample.killedStart 9⟩).2.disk, []⟩).1 =
      some (.error "Failed to load config: missing field") := by
  refine ⟨?_, by decide, ?_⟩
  · rw [@loadConfig_missing _ _ Sample.toml (Sample.lostDisk_path none)]
  · have front : (utf8 Sample.configText).take 9 = utf8 "[network]" := by decide +kernel
    have nonempty : utf8 Sample.configText ≠ [] := by
      intro empty
      rw [empty] at front
      cases front
    have unreadable : @Config.read Sample.toml "[network]" = .error "missing field" := by
      decide +kernel
    rw [Sample.killedStart, @loadConfig_killed _ _ Sample.toml _ [] (Sample.lostDisk_path (some []))
      (if_pos rfl) nonempty]
    rw [@loadConfig_error _ _ Sample.toml _ _ _ (by decide) unreadable]
    · rfl
    · dsimp only [Files.written]
      rw [Function.update_self, front]

end WolfNet
