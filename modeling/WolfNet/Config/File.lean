import WolfNet.Config.Entries
import WolfNet.Semantics.Files
import WolfNet.Std.Lines

/-!
# The config file

`Config.load` heals a lost file from its `.bak` sibling, migrates a legacy key line by
line, parses, collapses twin entries and writes the file back where that changed
anything. `Config.save` stages the new text in a `.tmp` sibling and renames it into
place. `loadConfig` is how every command and the daemon start.
-/

namespace WolfNet

open WolfNet.Std WolfNet.Semantics

/-- The functions of the `toml` crate at a config. -/
class Toml where
  fromStr : String → Except String Config
  toStringPretty : Config → Except String String

/-- A path to a file: its directory, and its name in front of and behind the last dot. -/
structure FilePath where
  parent : String
  stem : String
  extension : Option String
deriving DecidableEq, Repr

namespace FilePath

/-- `Path::with_extension`. -/
def withExtension (path : FilePath) (extension : String) : FilePath :=
  { path with extension := if extension = "" then none else some extension }

/-- The sibling that adds an extension to the path's own. -/
def sibling (path : FilePath) (suffix : String) : FilePath :=
  path.withExtension (match path.extension with
    | some ext => s!"{ext}.{suffix}"
    | none => suffix)

/-- The snapshot of the previous file. -/
def bak (path : FilePath) : FilePath := path.sibling "bak"

/-- Where a new file is staged. -/
def tmp (path : FilePath) : FilePath := path.sibling "tmp"

def display (path : FilePath) : String :=
  match path.extension with
  | some ext => s!"{path.parent}/{path.stem}.{ext}"
  | none => s!"{path.parent}/{path.stem}"

/-- A name with one more extension. -/
def extended (extension : Option String) (suffix : String) : String :=
  match extension with
  | some ext => ext ++ "." ++ suffix
  | none => suffix

/-- The length of an extended extension. -/
theorem extended_length (ext suffix : String) :
    (extended (some ext) suffix).length = ext.length + 1 + suffix.length := by
  rw [extended, String.length_append, String.length_append]
  rfl

/-- The extension of a sibling is the extended one. -/
theorem sibling_extension (path : FilePath) {suffix : String} (nonempty : suffix ≠ "") :
    (path.sibling suffix).extension = some (extended path.extension suffix) := by
  have named : extended path.extension suffix ≠ "" := by
    cases path.extension with
    | none => exact nonempty
    | some ext =>
        intro empty
        have length := extended_length ext suffix
        rw [empty, String.length_empty] at length
        omega
  have computed : (path.sibling suffix).extension =
      if extended path.extension suffix = "" then none
      else some (extended path.extension suffix) := by
    unfold sibling withExtension extended
    cases path.extension with
    | none => rfl
    | some ext => rfl
  rw [computed, if_neg named]

/-- A sibling is another file. -/
theorem sibling_ne (path : FilePath) {suffix : String} (nonempty : suffix ≠ "") :
    path.sibling suffix ≠ path := by
  intro same
  have extensions := path.sibling_extension nonempty
  rw [same] at extensions
  cases given : path.extension with
  | none =>
      rw [given] at extensions
      cases extensions
  | some ext =>
      rw [given, Option.some.injEq] at extensions
      have longer := extended_length ext suffix
      rw [← extensions] at longer
      omega

/-- Siblings by different suffixes are different files. -/
theorem sibling_inj (path : FilePath) {suffix other : String} (nonempty : suffix ≠ "")
    (otherNonempty : other ≠ "") (same : path.sibling suffix = path.sibling other) :
    suffix = other := by
  have extensions := path.sibling_extension nonempty
  rw [same, path.sibling_extension otherNonempty, Option.some.injEq] at extensions
  cases given : path.extension with
  | none =>
      rw [given] at extensions
      exact extensions.symm
  | some ext =>
      rw [given] at extensions
      exact (String.append_right_inj _).mp extensions.symm

/-- The backup is another file. -/
theorem bak_ne (path : FilePath) : path.bak ≠ path := path.sibling_ne (by decide)

/-- So is the temporary file. -/
theorem tmp_ne (path : FilePath) : path.tmp ≠ path := path.sibling_ne (by decide)

/-- The two are different files. -/
theorem tmp_ne_bak (path : FilePath) : path.tmp ≠ path.bak := by
  intro same
  exact absurd (path.sibling_inj (by decide) (by decide) same) (by decide)

end FilePath

/-- `fs::read_to_string`. -/
def readToString (path : FilePath) : Files FilePath (Except String String) :=
  Files.attempt (Files.read path) fun bytes =>
    match fromUtf8 bytes with
    | some text => pure (.ok text)
    | none => pure (.error "stream did not contain valid UTF-8")

/-- A line that sets the bare key `ip`. -/
def isLegacyLine (line : List Char) : Bool :=
  "ip = ".toList.isPrefixOf (trimmed line) && !"ip_".toList.isPrefixOf (trimmed line)

def migrateLine (line : List Char) : List Char :=
  if isLegacyLine line then replace "ip = ".toList "allowed_ip = ".toList line else line

/-- The migration of `ip = ` lines: whether there were any, and the text after it. -/
def migrate (content : String) : Bool × String :=
  ((lines content.toList).any isLegacyLine,
    String.ofList (joinLines ((lines content.toList).map migrateLine)))

/-- The text may be written: it is not blank and has both sections. -/
def isComplete (content : String) : Bool :=
  !(trimmed content.toList).isEmpty && contains content.toList "[network]".toList &&
    contains content.toList "[security]".toList

/-- A text without a legacy line is left as it is, up to a line feed at its end. -/
theorem migrate_of_noLegacy {content : String}
    (noLegacy : ∀ line ∈ lines content.toList, isLegacyLine line = false) :
    migrate content = (false, String.ofList (joinLines (lines content.toList))) := by
  have kept : (lines content.toList).map migrateLine = lines content.toList := by
    refine (List.map_congr_left fun line member => ?_).trans (List.map_id _)
    exact if_neg (by simp [noLegacy line member])
  rw [migrate, kept, List.any_eq_false.mpr (by simpa using noLegacy)]

variable [Toml]

/-- Save configuration to a TOML file. -/
def Config.save (config : Config) (path : FilePath) : Files FilePath (Except String Unit) :=
  Files.attempt Files.createDirAll fun _ =>
    match Toml.toStringPretty config with
    | .error error => pure (.error error)
    | .ok content =>
      if !isComplete content then
        pure (.error (s!"Refusing to save WolfNet config to {path.display}: serialized payload is " ++
          "empty or missing required sections. Existing file left untouched."))
      else
        Files.attempt (Files.write path.tmp (utf8 content)) fun _ => do
          if ← Files.exists path then
            -- An absent snapshot is not fatal.
            let _ ← Files.copy path path.bak
          Files.rename path.tmp path

/-- The recovery in front of a load: a missing or empty file is restored from its
`.bak`, if that is not empty. A failure is only reported. -/
def Config.recover (path : FilePath) : Files FilePath Unit := do
  let primaryUsable := match ← Files.metadataLen path with
    | .ok length => decide (0 < length)
    | .error _ => false
  if !primaryUsable then
    match ← Files.metadataLen path.bak with
    | .ok length =>
      if 0 < length then
        let _ ← Files.copy path.bak path
    | .error _ => pure ()

/-- What a text holds: the config, and whether the file has to be written back for the
migration or for a collapsed entry. -/
def Config.read (content : String) : Except String (Config × Bool) := do
  let (migrated, fixed) := migrate content
  let config ← Toml.fromStr fixed
  let kept := dedup config.peers
  let removed := config.peers.length - kept.length
  return ({ config with peers := kept }, migrated || decide (0 < removed))

/-- The crate prints a config as this text, and reads the config back from the text with
or without its last line feed. No line of the text ends in a carriage return. -/
structure Toml.RoundTrip (config : Config) (text : String) : Prop where
  printed : Toml.toStringPretty config = .ok text
  parsed : Toml.fromStr text = .ok config
  unterminated : ∀ front : List Char, front ++ ['\n'] = text.toList →
    Toml.fromStr (String.ofList front) = .ok config
  noReturn : '\r' ∉ text.toList

/-- The migration does not change what a printed text without a legacy line parses to. -/
theorem Toml.RoundTrip.migrated {config : Config} {text : String}
    (roundTrip : Toml.RoundTrip config text)
    (noLegacy : ∀ line ∈ lines text.toList, isLegacyLine line = false) :
    Toml.fromStr (migrate text).2 = .ok config := by
  rw [migrate_of_noLegacy noLegacy]
  rcases joinLines_lines roundTrip.noReturn with same | same
  · rw [same, String.ofList_toList]
    exact roundTrip.parsed
  · exact roundTrip.unterminated _ same

/-- A printed text without a legacy line holds its config. -/
theorem Config.read_printed {config : Config} {text : String}
    (roundTrip : Toml.RoundTrip config text) (distinct : (keysOf config.peers).Nodup)
    (noLegacy : ∀ line ∈ lines text.toList, isLegacyLine line = false) :
    Config.read text = .ok (config, false) := by
  have parsed := roundTrip.migrated noLegacy
  rw [migrate_of_noLegacy noLegacy] at parsed
  have kept : dedup config.peers = config.peers := dedup_of_nodup distinct
  simp only [Config.read, migrate_of_noLegacy noLegacy, parsed]
  simp [bind, Except.bind, pure, Except.pure, kept]

/-- Load configuration from a TOML file. -/
def Config.load (path : FilePath) : Files FilePath (Except String Config) := do
  Config.recover path
  Files.attempt (readToString path) fun content =>
    match Config.read content with
    | .error error => pure (.error error)
    | .ok (config, changed) => do
      if changed then
        let _ ← config.save path
      return .ok config

/-- The config a start works with; an error ends the program with its text. -/
def loadConfig (path : FilePath) : Files FilePath (Except String Config) := do
  if ← Files.exists path then
    match ← Config.load path with
    | .ok config => return .ok config
    | .error error => return .error s!"Failed to load config: {error}"
  else return .ok Config.default

end WolfNet
