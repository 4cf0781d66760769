import WolfNet.Config.File
import WolfNet.Crates.Sample
import WolfNet.Semantics.Run

/-!
# The private key file

Every command that needs the node's identity loads the key file, and makes one where there is none.
The file is written in place, so a start that is cut short leaves a front of it. `identity_kept` says
that no start ever takes another identity than the one that an earlier start was given.
-/

namespace WolfNet

open WolfNet.Std WolfNet.Semantics

section Keys

variable [Crates]

namespace KeyPair

/-- `KeyPair::generate`, at what the random generator gives. -/
def generate (secret : StaticSecret) : KeyPair := ⟨secret, Crates.publicKey secret, rfl⟩

/-- The key pair in the text of a key file: 32 bytes in base64. -/
def ofText (content : String) : Except String KeyPair :=
  match Crates.base64Decode (trim content) with
  | .error error => .error error
  | .ok bytes =>
    if sized : bytes.length = 32 then .ok (generate ⟨bytes, sized⟩)
    else .error "Invalid private key length (expected 32 bytes)"

/-- Load a key pair from a private key file. -/
def load (path : FilePath) : Files FilePath (Except String KeyPair) :=
  Files.attempt (readToString path) fun content => pure (ofText content)

/-- `fs::set_permissions`; permissions are not part of a disk. -/
def setPermissions : Files FilePath (Except String Unit) := Files.query (fun _ => .ok ()) .error

/-- What the key file of a secret holds. -/
def fileOf (secret : StaticSecret) : List UInt8 := utf8 (Crates.base64Encode secret.1)

/-- Save the private key to a file. -/
def save (keypair : KeyPair) (path : FilePath) : Files FilePath (Except String Unit) :=
  Files.attempt Files.createDirAll fun _ =>
    Files.attempt (Files.write path (fileOf keypair.secret)) fun _ => setPermissions

/-- Load or generate a key pair. -/
def loadOrGenerate (secret : StaticSecret) (path : FilePath) :
    Files FilePath (Except String KeyPair) := do
  if ← Files.exists path then load path
  else
    let keypair := generate secret
    Files.attempt (keypair.save path) fun _ => pure (.ok keypair)

/-- The key pair that the bytes of a key file hold. -/
def ofFile (bytes : List UInt8) : Except String KeyPair :=
  match fromUtf8 bytes with
  | some content => ofText content
  | none => .error "stream did not contain valid UTF-8"

end KeyPair

/-- Base64 decodes only texts of the length that it writes, with all their padding. -/
def Base64Sized : Prop :=
  ∀ text bytes, Crates.base64Decode text = .ok bytes →
    text.toList.length = (bytes.length + 2) / 3 * 4

namespace KeyPair

variable {path : FilePath} {secret : StaticSecret} {disk : Disk FilePath} {keypair : KeyPair}

/-- The text of a key is plain ASCII. -/
theorem fileOf_ascii (padded : Base64Padded) :
    ∀ c ∈ (Crates.base64Encode secret.1).toList, c.toNat < 128 := by
  intro c member
  have sign := toNat_of_isBase64Char (padded.alphabet secret.1 c member)
  omega

omit [Crates] in
/-- A front of ASCII text is the text of a front. -/
theorem take_utf8 {text : List Char} (ascii : ∀ c ∈ text, c.toNat < 128) (count : Nat) :
    (utf8 (String.ofList text)).take count = utf8 (String.ofList (text.take count)) := by
  rw [utf8_ofList, utf8_ofList]
  induction text generalizing count with
  | nil => simp
  | cons c text ih =>
      obtain ⟨here, rest⟩ := List.forall_mem_cons.mp ascii
      have one : (String.utf8EncodeChar c).length = 1 := by
        rw [String.length_utf8EncodeChar, utf8Size_ascii here]
      cases count with
      | zero => rfl
      | succ count =>
          rw [List.flatMap_cons, List.take_append, one, List.take_of_length_le (by omega),
            Nat.add_sub_cancel, ih rest, List.take_succ_cons, List.flatMap_cons]

/-- A key that was saved whole is read back. -/
theorem ofFile_fileOf (padded : Base64Padded) (roundTrip : Base64KeysRoundTrip) :
    ofFile (fileOf secret) = .ok (generate secret) := by
  have ink : ∀ c ∈ (Crates.base64Encode secret.1).toList, isWhitespace c = false :=
    fun c member => isWhitespace_of_isBase64Char (padded.alphabet secret.1 c member)
  simp only [ofFile, fileOf, fromUtf8_utf8, ofText, trim_of_ink ink, roundTrip secret]
  rw [dif_pos secret.2]

/-- A front of a key file holds its key pair, or none. -/
theorem ofFile_take (padded : Base64Padded) (sized : Base64Sized) (roundTrip : Base64KeysRoundTrip)
    {count : Nat} (held : ofFile ((fileOf secret).take count) = .ok keypair) :
    keypair = generate secret := by
  obtain ⟨text, whole⟩ : ∃ text, Crates.base64Encode secret.1 = String.ofList text :=
    ⟨_, String.ofList_toList.symm⟩
  have ascii : ∀ c ∈ (Crates.base64Encode secret.1).toList, c.toNat < 128 := fileOf_ascii padded
  have alphabet := padded.alphabet secret.1
  have length := padded.length secret.1
  rw [whole, String.toList_ofList] at ascii alphabet length
  rw [secret.2] at length
  have front : (fileOf secret).take count = utf8 (String.ofList (text.take count)) := by
    rw [fileOf, whole, take_utf8 ascii]
  have ink : ∀ c ∈ (String.ofList (text.take count)).toList, isWhitespace c = false := by
    rw [String.toList_ofList]
    exact fun c member => isWhitespace_of_isBase64Char (alphabet c (List.mem_of_mem_take member))
  have decoded := held
  simp only [front, ofFile, fromUtf8_utf8, ofText, trim_of_ink ink] at decoded
  split at decoded
  · cases decoded
  next bytes decodes =>
  split at decoded
  next full =>
    -- A text that gives 32 bytes has the length of the whole file.
    have size := sized _ bytes decodes
    rw [String.toList_ofList, full, List.length_take] at size
    have everything : text.take count = text := List.take_of_length_le (by omega)
    have same : (fileOf secret).take count = fileOf secret := by
      rw [front, everything, fileOf, whole]
    rw [same, ofFile_fileOf padded roundTrip, Except.ok.injEq] at held
    exact held.symm
  · cases decoded

section Calls

/-- A load leaves the disk, and gives what the file holds. -/
theorem load_ensures {bytes : List UInt8} (held : disk path = some bytes) :
    Files.Ensures (fun _ => True) (load path)
      (fun result after => after = disk ∧ ∀ keypair, result = .ok keypair → ofFile bytes = .ok keypair)
      (fun after => after = disk) disk := by
  refine Files.ensures_attempt (Files.ensures_attempt (Files.ensures_query ?_ ?_ ?_))
  · simp only [held]
    cases decoded : fromUtf8 bytes with
    | none => exact Files.ensures_pure ⟨rfl, fun _ same => by cases same⟩
    | some content =>
        refine Files.ensures_pure (Files.ensures_pure ⟨rfl, fun keypair same => ?_⟩)
        rw [ofFile, decoded]
        exact same
  · exact fun _ _ _ => ⟨rfl, fun _ same => by cases same⟩
  · exact fun _ _ => rfl

/-- The file is missing, or holds a front of what a save of the secret writes. -/
def Fronts (path : FilePath) (secret : StaticSecret) (disk : Disk FilePath) : Prop :=
  disk path = none ∨ ∃ count, disk path = some ((fileOf secret).take count)

/-- A write that is cut leaves a front of the file. -/
theorem fronts_written (missing : disk path = none) (reached : Option Nat) :
    Fronts path secret (Files.written path (fileOf secret) reached disk) := by
  cases reached with
  | none => exact Or.inl missing
  | some count => exact Or.inr ⟨count, Function.update_self ..⟩

/-- A save where no file is leaves a front of it, and the whole where it succeeds. -/
theorem save_ensures (missing : disk path = none) :
    Files.Ensures (fun _ => True) ((generate secret).save path)
      (fun result after => Fronts path secret after ∧
        (result = .ok () → after path = some (fileOf secret)))
      (Fronts path secret) disk := by
  have full : Fronts path secret (Function.update disk path (some (fileOf secret))) :=
    Or.inr ⟨(fileOf secret).length, by rw [List.take_length, Function.update_self]⟩
  refine Files.ensures_attempt (Files.ensures_query ?_ ?_ ?_)
  · refine Files.ensures_attempt (Files.ensures_operation ?_ ?_ ?_)
    · exact Files.ensures_query ⟨full, fun _ => Function.update_self ..⟩
        (fun _ _ _ => ⟨full, fun _ => Function.update_self ..⟩) fun _ _ => full
    · exact fun _ reached _ => ⟨fronts_written missing reached, fun same => by cases same⟩
    · exact fun reached _ => fronts_written missing reached
  · exact fun _ _ _ => ⟨Or.inl missing, fun same => by cases same⟩
  · exact fun _ _ => Or.inl missing

/-- What a call of `loadOrGenerate` gives and leaves: what an existing file holds, or the key pair that
it drew, whose file may be torn. -/
inductive Loads (path : FilePath) (secret : StaticSecret) (disk : Disk FilePath)
    (result : Option (Except String KeyPair)) (after : Disk FilePath) : Prop where
  | loaded (bytes : List UInt8) (held : disk path = some bytes) (kept : after = disk)
      (holds : ∀ keypair, result = some (.ok keypair) → ofFile bytes = .ok keypair)
  | generated (missing : disk path = none) (fronts : Fronts path secret after)
      (saved : ∀ keypair, result = some (.ok keypair) →
        keypair = generate secret ∧ after path = some (fileOf secret))

/-- The check whether the file exists is answered. -/
def Answered (fates : List Fate) : Prop := ∀ error reached, Files.fateAt fates 0 ≠ .failed error reached

/-- A load of the key, disturbed or killed anywhere, keeps an existing file and a key that it holds.
-/
theorem loadOrGenerate_loads {fates : List Fate} {result : Option (Except String KeyPair)}
    {next : Process FilePath} (answered : Answered fates)
    (ran : loadOrGenerate secret path ⟨disk, fates⟩ = (result, next)) :
    Loads path secret disk result next.disk := by
  have asked : Files.exists path ⟨disk, fates⟩ = (some (disk path).isSome, ⟨disk, fates.tail⟩) ∨
      Files.exists path ⟨disk, fates⟩ = (none, ⟨disk, fates.tail⟩) := by
    rcases fates with _ | ⟨_ | ⟨error, reached⟩ | reached, fates⟩
    · exact Or.inl rfl
    · exact Or.inl rfl
    · exact absurd rfl (answered error reached)
    · exact Or.inr rfl
  rw [loadOrGenerate, Files.bind_apply] at ran
  rcases asked with asked | killed
  · simp only [asked] at ran
    cases held : disk path with
    | some bytes =>
        simp only [held, Option.isSome_some, if_true] at ran
        have ended := load_ensures held fates.tail fun _ _ => trivial
        rw [ran] at ended
        cases result with
        | none => exact .loaded bytes held ended fun _ same => by cases same
        | some value =>
            refine .loaded bytes held ended.1.1 fun keypair same => ?_
            exact ended.1.2 keypair (Option.some.inj same)
    | none =>
        simp only [held, Option.isSome_none, Bool.false_eq_true, if_false] at ran
        have ensured : Files.Ensures (fun _ => True)
            (Files.attempt ((generate secret).save path) fun _ => pure (.ok (generate secret)))
            (fun result after => Fronts path secret after ∧ ∀ keypair, result = .ok keypair →
              keypair = generate secret ∧ after path = some (fileOf secret))
            (Fronts path secret) disk := by
          refine Files.ensures_attempt ((save_ensures held).mono ?_ fun _ fronts => fronts)
          rintro (error | _) after ⟨fronts, saved⟩
          · exact ⟨fronts, fun _ same => by cases same⟩
          · refine Files.ensures_pure ⟨fronts, fun keypair same => ⟨?_, saved rfl⟩⟩
            exact (Except.ok.inj same).symm
        have ended := ensured fates.tail fun _ _ => trivial
        rw [ran] at ended
        cases result with
        | none => exact .generated held ended fun _ same => by cases same
        | some value =>
            refine .generated held ended.1.1 fun keypair same => ?_
            exact ended.1.2 keypair (Option.some.inj same)
  · simp only [killed, Prod.mk.injEq] at ran
    obtain ⟨rfl, rfl⟩ := ran
    cases held : disk path with
    | some bytes => exact .loaded bytes held rfl fun _ same => by cases same
    | none => exact .generated held (Or.inl held) fun _ same => by cases same

end Calls

/-- What happens to a key file: a command that needs the identity draws a secret in case it has to, and
gives a result unless it is killed; `genkey` and `init` write a new key; other files change. -/
inductive KeyEvent where
  | use (secret : StaticSecret) (fates : List Fate) (result : Option (Except String KeyPair))
  | renew (secret : StaticSecret) (fates : List Fate)
  | elsewhere

/-- One event at the key file. -/
def KeyStep (path : FilePath) : Transition (Disk FilePath) KeyEvent
  | disk, .use secret fates result, after =>
    ∃ next, loadOrGenerate secret path ⟨disk, fates⟩ = (result, next) ∧ after = next.disk
  | disk, .renew secret fates, after =>
    ∃ result next, (generate secret).save path ⟨disk, fates⟩ = (result, next) ∧ after = next.disk
  | disk, .elsewhere, after => after path = disk path

/-- No event renews the key, and every check whether the file exists is answered. -/
def Keeps (_ : Disk FilePath) : KeyEvent → Prop
  | .use _ fates _ => Answered fates
  | .renew _ _ => False
  | .elsewhere => True

/-- The event gave the key pair to its command. -/
def KeyEvent.Gives (event : KeyEvent) (keypair : KeyPair) : Prop :=
  ∃ secret fates, event = .use secret fates (some (.ok keypair))

/-- The event drew the key pair. -/
def KeyEvent.Draws (event : KeyEvent) (keypair : KeyPair) : Prop :=
  ∃ secret fates result, event = .use secret fates result ∧ keypair = generate secret

/-- The file holds the key pair. -/
def Holds (path : FilePath) (disk : Disk FilePath) (keypair : KeyPair) : Prop :=
  ∃ bytes, disk path = some bytes ∧ ofFile bytes = .ok keypair

/-- What is known of the key file after a run: it holds what the commands were given, and was there
from the start or was drawn by one of them. -/
structure Identity (path : FilePath) (start : Disk FilePath) (trace : List (Disk FilePath × KeyEvent))
    (last : Disk FilePath) : Prop where
  given : ∀ entry ∈ trace, ∀ keypair, entry.2.Gives keypair → Holds path last keypair
  source : ∀ keypair, Holds path last keypair →
    Holds path start keypair ∨ ∃ entry ∈ trace, entry.2.Draws keypair
  kept : ∀ bytes, start path = some bytes → last path = some bytes

variable {start last after : Disk FilePath} {trace : List (Disk FilePath × KeyEvent)} {event : KeyEvent}

/-- The next command is given the key of those before it. -/
theorem Identity.step (padded : Base64Padded) (sized : Base64Sized) (roundTrip : Base64KeysRoundTrip)
    (identity : Identity path start trace disk) (keeps : Keeps disk event)
    (step : KeyStep path disk event after) :
    Identity path start (trace ++ [(disk, event)]) after := by
  have source (keypair : KeyPair) (held : Holds path disk keypair) : Holds path start keypair ∨
      ∃ entry ∈ trace ++ [(disk, event)], entry.2.Draws keypair :=
    (identity.source keypair held).imp_right fun ⟨entry, member, draws⟩ =>
      ⟨entry, List.mem_append_left _ member, draws⟩
  cases event with
  | renew => exact keeps.elim
  | elsewhere =>
      have same : after path = disk path := step
      have holds (keypair : KeyPair) : Holds path after keypair ↔ Holds path disk keypair := by
        rw [Holds, Holds, same]
      refine ⟨fun entry member keypair gives => ?_, fun keypair held =>
        source keypair ((holds keypair).mp held), fun bytes there => same.trans (identity.kept bytes there)⟩
      rcases List.mem_append.mp member with before | here
      · exact (holds keypair).mpr (identity.given entry before keypair gives)
      · cases List.mem_singleton.mp here
        obtain ⟨_, _, contradiction⟩ := gives
        cases contradiction
  | use secret fates result =>
      obtain ⟨next, ran, rfl⟩ := step
      cases loadOrGenerate_loads keeps ran with
      | loaded bytes held kept holds =>
          rw [kept]
          refine ⟨fun entry member keypair gives => ?_, source, identity.kept⟩
          rcases List.mem_append.mp member with before | here
          · exact identity.given entry before keypair gives
          · cases List.mem_singleton.mp here
            obtain ⟨_, _, same⟩ := gives
            cases same
            exact ⟨bytes, held, holds keypair rfl⟩
      | generated missing fronts saved =>
          -- Nothing was given before, since the file was not there.
          have free (keypair : KeyPair) : ¬Holds path disk keypair := by
            rintro ⟨bytes, held, _⟩
            cases missing.symm.trans held
          refine ⟨fun entry member keypair gives => ?_, fun keypair held => Or.inr ?_,
            fun bytes there => by cases missing.symm.trans (identity.kept bytes there)⟩
          · rcases List.mem_append.mp member with before | here
            · exact absurd (identity.given entry before keypair gives) (free keypair)
            · cases List.mem_singleton.mp here
              obtain ⟨_, _, same⟩ := gives
              cases same
              obtain ⟨rfl, whole⟩ := saved keypair rfl
              exact ⟨_, whole, ofFile_fileOf padded roundTrip⟩
          · obtain ⟨bytes, there, holds⟩ := held
            rcases fronts with absent | ⟨count, front⟩
            · cases absent.symm.trans there
            · cases front.symm.trans there
              exact ⟨_, List.mem_append_right _ (List.mem_singleton_self _), secret, fates, result, rfl,
                ofFile_take padded sized roundTrip holds⟩

/-- As long as no command renews the key, and whether the file exists is always answered, all commands
that are given a key pair are given the same one, whatever fails or is killed in between: the one that
the file held at first, or one that a command drew. An existing file is never overwritten. -/
theorem identity_kept (padded : Base64Padded) (sized : Base64Sized) (roundTrip : Base64KeysRoundTrip)
    (run : Run (KeyStep path) start trace last) (keeps : Throughout Keeps trace) :
    (∀ first ∈ trace, ∀ second ∈ trace, ∀ keypair keypair', first.2.Gives keypair →
      second.2.Gives keypair' → keypair = keypair') ∧
    (∀ entry ∈ trace, ∀ keypair, entry.2.Gives keypair → Holds path start keypair ∨
      ∃ drawing ∈ trace, drawing.2.Draws keypair) ∧
    ∀ bytes, start path = some bytes → last path = some bytes := by
  have identity : Identity path start trace last := by
    induction run with
    | refl => exact ⟨by simp, fun _ held => Or.inl held, fun _ there => there⟩
    | step _ transition ih =>
        obtain ⟨before, here⟩ := throughout_snoc.mp keeps
        exact (ih before).step padded sized roundTrip here transition
  refine ⟨fun first here second there keypair keypair' gives gives' => ?_,
    fun entry member keypair gives => identity.source keypair (identity.given entry member keypair gives),
    identity.kept⟩
  obtain ⟨bytes, held, holds⟩ := identity.given first here keypair gives
  obtain ⟨bytes', held', holds'⟩ := identity.given second there keypair' gives'
  cases held.symm.trans held'
  exact Except.ok.inj (holds.symm.trans holds')

end KeyPair
end Keys

section Sample

attribute [local instance] Sample.crates

/-- The length of what decodes to a number of bytes. -/
theorem Sample.base64Decode_length {text : List Char} {bytes : List UInt8}
    (decoded : Sample.base64Decode text = some bytes) :
    text.length = (bytes.length + 2) / 3 * 4 := by
  fun_induction Sample.base64Decode text generalizing bytes with
  | case1 =>
      cases decoded
      rfl
  | case2 first second =>
      simp only [Option.bind_eq_bind, Option.bind_eq_some_iff] at decoded
      obtain ⟨_, _, _, _, decoded⟩ := decoded
      split at decoded <;> cases decoded
      simp
  | case3 first second third =>
      simp only [Option.bind_eq_bind, Option.bind_eq_some_iff] at decoded
      obtain ⟨_, _, _, _, _, _, decoded⟩ := decoded
      split at decoded <;> cases decoded
      simp
  | case4 first second third fourth rest _ _ ih =>
      simp only [Option.bind_eq_bind, Option.bind_eq_some_iff, Option.pure_def,
        Option.some.injEq] at decoded
      obtain ⟨_, _, _, _, _, _, _, _, tail, decodes, rfl⟩ := decoded
      have length := ih decodes
      simp only [List.length_cons]
      omega
  | case5 => cases decoded

/-- Base64 of a key length has one length only. -/
theorem Sample.base64_sized : Base64Sized := by
  intro text bytes decoded
  simp only [Crates.base64Decode] at decoded
  split at decoded
  · next decodes =>
      cases decoded
      exact Sample.base64Decode_length decodes
  · cases decoded

namespace KeyPair

/-- The key file of the samples. -/
def samplePath : FilePath := ⟨"/etc/wolfnet", "private", some "key"⟩

/-- The disk after the first sample key was saved. -/
def savedDisk : Disk FilePath :=
  Function.update (fun _ => none) samplePath (some (fileOf (Sample.keypair 1).secret))

/-- The second start is given the key pair that the first one drew. -/
theorem identity_kept_sample : ∃ trace, Run (KeyStep samplePath) (fun _ => none) trace savedDisk ∧
    ∀ first ∈ trace, ∀ second ∈ trace, ∀ keypair keypair', first.2.Gives keypair →
      second.2.Gives keypair' → keypair = keypair' := by
  have first : KeyStep samplePath (fun _ => none) (.use (Sample.keypair 1).secret []
      (some (.ok (generate (Sample.keypair 1).secret)))) savedDisk := ⟨⟨savedDisk, []⟩, rfl, rfl⟩
  have second : KeyStep samplePath savedDisk (.use (Sample.keypair 2).secret []
      (some (.ok (generate (Sample.keypair 1).secret)))) savedDisk := ⟨⟨savedDisk, []⟩, rfl, rfl⟩
  have run := (Run.refl.step first).step second
  have answered : Answered [] := fun _ _ same => by cases same
  exact ⟨_, run, (identity_kept Sample.base64_padded Sample.base64_sized Sample.base64_keysRoundTrip run
    (throughout_snoc.mpr ⟨throughout_snoc.mpr ⟨.nil, answered⟩, answered⟩)).1⟩

end KeyPair
end Sample
end WolfNet
