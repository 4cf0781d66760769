import WolfNet.Config.File

/-!
# What a start reads

`ConfigFile` is the outcome of reading the config file, by value. A start that nothing
disturbs works with what is on the disk, and a config that was saved is what the next
start reads: the commands can be followed on configs, without the files.
-/

namespace WolfNet

open WolfNet.Std WolfNet.Semantics

/-- What reading the config file gives: the parsed config, before twin entries collapse. -/
inductive ConfigFile where
  | missing
  | unreadable (error : String)
  | parsed (config : Config)
deriving DecidableEq, Repr

namespace ConfigFile

/-- `config_path.exists()`. -/
def «exists» : ConfigFile → Bool
  | .missing => false
  | _ => true

/-- `load_config`, at what reading the file gives. -/
def load : ConfigFile → Except String Config
  | .missing => .ok Config.default
  | .unreadable error => .error s!"Failed to load config: {error}"
  | .parsed config => .ok { config with peers := dedup config.peers }

/-- A loaded config lists no key twice. -/
theorem load_distinct {file : ConfigFile} {config : Config} (loaded : file.load = .ok config) :
    (keysOf config.peers).Nodup := by
  cases file with
  | missing =>
      cases loaded
      exact List.nodup_nil
  | unreadable error => cases loaded
  | parsed config =>
      cases loaded
      exact keysOf_dedup_nodup _

/-- What a start that nothing disturbs reads. -/
def onDisk [Toml] (path : FilePath) (disk : Disk FilePath) : ConfigFile :=
  match disk path with
  | none => .missing
  | some bytes =>
    match fromUtf8 (if bytes.isEmpty then (disk path.bak).getD [] else bytes) with
    | none => .unreadable "stream did not contain valid UTF-8"
    | some content =>
      match Toml.fromStr (migrate content).2 with
      | .error error => .unreadable error
      | .ok config => .parsed config

end ConfigFile

section Undisturbed

open Files

variable {path : FilePath} {disk : Disk FilePath}

/-- A rename puts the staged bytes in place. -/
theorem returns_rename {bytes : List UInt8} (staged : disk path.tmp = some bytes) :
    Returns (rename path.tmp path) (fun result disk => result = .ok () ∧
      disk path = some bytes) disk := by
  refine returns_operation ?_
  simp only [staged]
  exact ⟨trivial, Function.update_self ..⟩

/-- What a load finds in the file once it has healed it. -/
def Config.healed (path : FilePath) (disk : Disk FilePath) : Option (List UInt8) :=
  if (disk path).getD [] = [] then
    if (disk path.bak).getD [] = [] then disk path else disk path.bak
  else disk path

/-- A file with bytes needs no healing. -/
theorem Config.healed_of_nonempty {bytes : List UInt8} (held : disk path = some bytes)
    (nonempty : bytes ≠ []) : Config.healed path disk = some bytes := by
  rw [Config.healed, held]
  exact if_neg nonempty

/-- A file that was healed stays as it is. -/
theorem Config.healed_update (path : FilePath) (disk : Disk FilePath) :
    Config.healed path (Function.update disk path (Config.healed path disk)) =
      Config.healed path disk := by
  have snapshot : Function.update disk path (Config.healed path disk) path.bak = disk path.bak :=
    Function.update_of_ne path.bak_ne _ _
  rw [Config.healed, Function.update_self, snapshot, Config.healed]
  split
  · split
    · simp_all
    · simp_all
  · simp_all

/-- A primary that holds nothing is healed from the snapshot, if that holds something. -/
theorem Config.returns_copied (unusable : (disk path).getD [] = []) :
    Returns (do
      match ← metadataLen path.bak with
      | .ok length => if 0 < length then let _ ← copy path.bak path
      | .error _ => pure ())
      (fun _ after => after = Function.update disk path (Config.healed path disk)) disk := by
  refine ensures_bind (returns_query ?_)
  rcases snapshot : disk path.bak with _ | _ | ⟨byte, copied⟩
  · exact ensures_pure (by simp [Config.healed, unusable, snapshot])
  · exact ensures_pure (by simp [Config.healed, unusable, snapshot])
  · refine ensures_bind (returns_operation (ensures_pure ?_))
    simp [Config.healed, unusable, snapshot]

/-- The recovery heals the file. -/
theorem Config.returns_healed (path : FilePath) (disk : Disk FilePath) :
    Returns (Config.recover path)
      (fun _ after => after = Function.update disk path (Config.healed path disk)) disk := by
  refine ensures_bind (returns_query ?_)
  rcases primary : disk path with _ | _ | ⟨byte, bytes⟩
  · exact Config.returns_copied (by rw [primary]; rfl)
  · exact Config.returns_copied (by rw [primary]; rfl)
  · exact ensures_pure (by simp [Config.healed, primary])

/-- The recovery leaves a file with bytes, and replaces an empty one by its backup. -/
theorem Config.returns_recover {bytes : List UInt8} (primary : disk path = some bytes) :
    Returns (Config.recover path) (fun _ after => after path =
      some (if bytes.isEmpty then (disk path.bak).getD [] else bytes)) disk := by
  refine (Config.returns_healed path disk).mono ?_ fun _ => id
  rintro _ _ rfl
  rw [Function.update_self, Config.healed, primary]
  cases bytes with
  | cons byte bytes => rfl
  | nil => cases snapshot : disk path.bak <;> simp_all

/-- A complete text has bytes. -/
theorem isComplete_ne_nil {text : String} (complete : isComplete text) : utf8 text ≠ [] := by
  refine utf8_ne_nil fun empty => ?_
  rw [empty] at complete
  cases complete

variable [Toml]

/-- Undisturbed, a save returns. -/
theorem Config.returns_save (config : Config) :
    Returns (config.save path) (fun _ _ => True) disk := by
  refine ensures_attempt (returns_query ?_)
  dsimp only
  split
  · exact ensures_pure trivial
  split
  · exact ensures_pure trivial
  refine ensures_attempt (returns_operation (ensures_bind (returns_query ?_)))
  split
  · refine ensures_bind (returns_operation ?_)
    exact returns_operation trivial
  · exact returns_operation trivial

/-- A save leaves the printed text. -/
theorem Config.returns_saved {config : Config} {text : String}
    (printed : Toml.toStringPretty config = .ok text) (complete : isComplete text) :
    Returns (config.save path)
      (fun result after => result = .ok () ∧ after path = some (utf8 text)) disk := by
  refine ensures_attempt (returns_query ?_)
  simp only [printed, complete]
  refine ensures_attempt (returns_operation (ensures_bind (returns_query ?_)))
  dsimp only
  split
  · refine ensures_bind (returns_operation ?_)
    split
    · refine returns_rename ?_
      dsimp only
      rw [Function.update_of_ne path.tmp_ne_bak, Function.update_self]
    · exact returns_rename (Function.update_self ..)
  · exact returns_rename (Function.update_self ..)

/-- A config that was saved is what the next start reads. -/
theorem Config.save_onDisk {config : Config} {text : String}
    (roundTrip : Toml.RoundTrip config text)
    (complete : isComplete text)
    (noLegacy : ∀ line ∈ lines text.toList, isLegacyLine line = false) :
    Returns (config.save path)
      (fun result disk => result = .ok () ∧ ConfigFile.onDisk path disk = .parsed config) disk := by
  refine (Config.returns_saved roundTrip.printed complete).mono ?_ fun _ => id
  rintro result after ⟨saved, primary⟩
  refine ⟨saved, ?_⟩
  simp [ConfigFile.onDisk, primary, isComplete_ne_nil complete, roundTrip.migrated noLegacy]

/-- A start that nothing disturbs works with what it reads. -/
theorem loadConfig_onDisk :
    (loadConfig path ⟨disk, []⟩).1 = some (ConfigFile.onDisk path disk).load := by
  have returns : Returns (loadConfig path) (fun result _ =>
    result = (ConfigFile.onDisk path disk).load) disk := by
    refine ensures_bind (returns_query ?_)
    cases primary : disk path with
    | none =>
        exact ensures_pure (by simp [ConfigFile.onDisk, primary, ConfigFile.load])
    | some bytes =>
        refine ensures_bind (ensures_bind ((Config.returns_recover primary).mono ?_ fun _ => id))
        intro _ disk' restored
        refine ensures_attempt (ensures_attempt (returns_query ?_))
        simp only [restored]
        cases decoded : fromUtf8 (if bytes.isEmpty then (disk path.bak).getD [] else bytes) with
        | none =>
            have reads : ConfigFile.onDisk path disk =
              .unreadable "stream did not contain valid UTF-8" := by
              simp only [ConfigFile.onDisk, primary, decoded]
            rw [reads]
            exact ensures_pure (ensures_pure rfl)
        | some content =>
            refine ensures_pure ?_
            cases parsed : Toml.fromStr (migrate content).2 with
            | error error =>
                have reads : ConfigFile.onDisk path disk = .unreadable error := by
                  simp only [ConfigFile.onDisk, primary, decoded, parsed]
                have held : Config.read content = .error error := by
                  simp [Config.read, parsed, bind, Except.bind]
                rw [reads]
                simp only [held]
                exact ensures_pure (ensures_pure rfl)
            | ok config =>
                have reads : ConfigFile.onDisk path disk = .parsed config := by
                  simp only [ConfigFile.onDisk, primary, decoded, parsed]
                obtain ⟨changed, held⟩ : ∃ changed,
                    Config.read content = .ok ({ config with peers := dedup config.peers },
                      changed) :=
                  ⟨_, by simp only [Config.read, parsed]; rfl⟩
                rw [reads]
                simp only [held]
                cases changed with
                | false => exact ensures_pure (ensures_pure rfl)
                | true =>
                    refine ensures_bind ((Config.returns_save _).mono ?_ fun _ => id)
                    exact fun _ _ _ => ensures_pure (ensures_pure rfl)
  obtain ⟨result, next, ran, rfl⟩ := returns.returned
  rw [ran]

end Undisturbed
end WolfNet
