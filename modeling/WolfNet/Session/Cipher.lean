import WolfNet.Peer
import WolfNet.Semantics.ReplayWindow

/-!
# What a session cipher does

The replay check is a window of 32 with restarts below 100; its two copies, in
`decrypt` and `decryptInto`, act alike, and so do the two encryption functions.
`receive` is decryption without its buffer.
-/

namespace WolfNet

open WolfNet.Std WolfNet.Semantics

/-- The window that `decrypt` and `decryptInto` implement. -/
def replayWindow : ReplayWindow := ⟨32, 100⟩

/-- The counters that the replay check refuses, spelled out. -/
theorem not_admits_iff {highest counter : Nat} :
    ¬replayWindow.Admits highest counter ↔
      counter + 32 < highest ∧ (100 ≤ counter ∨ highest ≤ 100) := by
  simp only [ReplayWindow.Admits, ReplayWindow.Restarts, replayWindow]
  omega

/-- Distinct counters or directions give distinct nonces. -/
theorem makeNonce_inj {first second : UInt64} {firstLow secondLow : Bool} :
    makeNonce first firstLow = makeNonce second secondLow ↔
      first = second ∧ firstLow = secondLow := by
  constructor
  · intro same
    have bytes := congrArg Subtype.val same
    simp only [makeNonce, List.append_assoc] at bytes
    obtain ⟨counters, rest⟩ := List.append_inj bytes
      ((u64ToLeBytes first).2.trans (u64ToLeBytes second).2.symm)
    refine ⟨u64ToLeBytes_injective (Subtype.ext counters), ?_⟩
    cases firstLow <;> cases secondLow <;> simp_all
  · rintro ⟨rfl, rfl⟩
    rfl

/-- Of two distinct keys, exactly one is the low side. -/
theorem lowSide_swap {first second : PublicKey} (distinct : first ≠ second) :
    decide (second.1 < first.1) = !decide (first.1 < second.1) := by
  by_cases low : first.1 < second.1
  · simp [low, List.lt_asymm low]
  · have high : second.1 < first.1 := by
      by_contra notHigh
      rw [List.not_lt] at low notHigh
      exact distinct (Subtype.ext (List.le_antisymm notHigh low))
    simp [low, high]

/-- Which of the two encryption or decryption functions a packet goes through. -/
inductive PacketPath where
  | allocating
  | inPlace
deriving DecidableEq

namespace SessionCipher

variable {session : SessionCipher} {counter : UInt64}

/-- The highest accepted counter, as a number. -/
def highest (session : SessionCipher) : Nat := session.recvCounter.toNat

/-- The code's test for a restart is the window's. -/
theorem isLikelyRestart_iff :
    session.isLikelyRestart counter = true ↔
      replayWindow.Restarts session.highest counter.toNat := by
  simp only [isLikelyRestart, replayWindow, ReplayWindow.Restarts, highest, Bool.and_eq_true,
    decide_eq_true_eq, gt_iff_lt, UInt64.lt_iff_toNat_lt]
  exact Iff.rfl

/-- The replay check refuses exactly the counters outside the window. -/
theorem isReplay_iff :
    session.isReplay counter = true ↔ ¬replayWindow.Admits session.highest counter.toNat := by
  have restart := @isLikelyRestart_iff session counter
  simp only [isReplay, Bool.and_eq_true, Bool.not_eq_true', decide_eq_true_eq, gt_iff_lt,
    ← Bool.not_eq_true, restart, ReplayWindow.Admits, not_or, not_le]
  rw [UInt64.le_iff_toNat_le, UInt64.lt_iff_toNat_lt, UInt64.lt_iff_toNat_lt]
  constructor
  · rintro ⟨⟨⟨behind, _⟩, noRestart⟩, far⟩
    rw [UInt64.toNat_sub_of_le _ _ (UInt64.le_iff_toNat_le.mpr behind)] at far
    have gap : (32 : UInt64).toNat = 32 := rfl
    exact ⟨by simp only [replayWindow, highest]; omega, noRestart⟩
  · rintro ⟨far, noRestart⟩
    simp only [replayWindow, highest] at far
    have behind : counter.toNat ≤ session.recvCounter.toNat := by omega
    rw [UInt64.toNat_sub_of_le _ _ (UInt64.le_iff_toNat_le.mpr behind)]
    have zero : (0 : UInt64).toNat = 0 := rfl
    have gap : (32 : UInt64).toNat = 32 := rfl
    exact ⟨⟨⟨behind, by omega⟩, noRestart⟩, by omega⟩

/-- A counter that is admitted is not taken for a replay. -/
theorem isReplay_of_admits (admitted : replayWindow.Admits session.highest counter.toNat) :
    session.isReplay counter = false := by
  rw [← Bool.not_eq_true, isReplay_iff, not_not]
  exact admitted

/-- Accepting a counter advances the window. -/
theorem highest_accepted :
    (session.accepted counter).highest = replayWindow.advance session.highest counter.toNat := by
  have restart := @isLikelyRestart_iff session counter
  have forward : session.recvCounter < counter ↔ session.highest < counter.toNat :=
    UInt64.lt_iff_toNat_lt
  simp only [accepted, ReplayWindow.advance, Bool.or_eq_true, decide_eq_true_eq, gt_iff_lt,
    restart, forward]
  split <;> rfl

/-- An accepted counter leaves the key. -/
@[simp] theorem accepted_cipher : (session.accepted counter).cipher = session.cipher := by
  unfold accepted
  split <;> rfl

/-- An accepted counter leaves the direction. -/
@[simp] theorem accepted_isLowSide : (session.accepted counter).isLowSide = session.isLowSide := by
  unfold accepted
  split <;> rfl

/-- The session after it used its next nonce. -/
def sent (session : SessionCipher) : SessionCipher :=
  { session with sendCounter := session.sendCounter + 1 }

variable [Crates]

/-- The keys a session was established with: it has the pair's secret and the node's
side of the order. -/
structure IsFor (session : SessionCipher) (mine : KeyPair) (theirs : PublicKey) : Prop where
  cipher : session.cipher = Crates.diffieHellman mine.secret theirs
  isLowSide : session.isLowSide = decide (mine.publicKey.1 < theirs.1)

/-- A new session is for the two key pairs that it was made from. -/
theorem isFor_new (mine : KeyPair) (theirs : PublicKey) :
    (SessionCipher.new (Crates.diffieHellman mine.secret theirs) mine.publicKey theirs).IsFor
      mine theirs :=
  ⟨rfl, rfl⟩

/-- The plaintext of a ciphertext under the counter's receive nonce, if it opens. -/
def opens (session : SessionCipher) (counter : UInt64) (ciphertext : List UInt8) :
    Option (List UInt8) :=
  Aead.decrypt session.cipher (session.recvNonce counter) ciphertext

/-- Whether a packet opens does not depend on the counters that were accepted. -/
@[simp] theorem opens_accepted (other : UInt64) (ciphertext : List UInt8) :
    (session.accepted other).opens counter ciphertext = session.opens counter ciphertext := by
  simp [opens, recvNonce]

/-- What opens lacks its tag. -/
theorem length_of_opens {ciphertext plaintext : List UInt8}
    (opened : session.opens counter ciphertext = some plaintext) :
    plaintext.length + 16 = ciphertext.length := by
  unfold opens Aead.decrypt at opened
  split at opened
  · rw [Crates.decryptLength opened, List.length_take]
    omega
  · cases opened

/-- Receive a ciphertext through either decryption function. -/
def receive (session : SessionCipher) (path : PacketPath) (counter : UInt64)
    (ciphertext : List UInt8) : Rust (SessionCipher × Option (List UInt8)) :=
  match path with
  | .allocating =>
    match session.decrypt counter ciphertext with
    | (session, .ok plaintext) => return (session, some plaintext)
    | (session, .error _) => return (session, none)
  | .inPlace => do
    match ← session.decryptInto counter ciphertext ciphertext.length with
    | (session, buf, .ok len) => return (session, some (buf.take len))
    | (session, _, .error _) => return (session, none)

/-- What receiving does to the session and gives: the plaintext of a ciphertext that
the window admits and that opens. -/
def outcome (session : SessionCipher) (counter : UInt64) (ciphertext : List UInt8) :
    SessionCipher × Option (List UInt8) :=
  if replayWindow.Admits session.highest counter.toNat then
    match session.opens counter ciphertext with
    | some plaintext => (session.accepted counter, some plaintext)
    | none => (session, none)
  else (session, none)

/-- A packet is accepted exactly when the window admits it and it opens. -/
theorem outcome_cases (session : SessionCipher) (counter : UInt64) (ciphertext : List UInt8) :
    (replayWindow.Admits session.highest counter.toNat ∧
      ∃ plaintext, session.opens counter ciphertext = some plaintext ∧
        session.outcome counter ciphertext = (session.accepted counter, some plaintext)) ∨
    ((replayWindow.Admits session.highest counter.toNat →
        session.opens counter ciphertext = none) ∧
      session.outcome counter ciphertext = (session, none)) := by
  by_cases admitted : replayWindow.Admits session.highest counter.toNat
  · cases opened : session.opens counter ciphertext with
    | none => simp [outcome, admitted, opened]
    | some plaintext => simp [outcome, admitted, opened]
  · simp [outcome, admitted]

/-- Detached decryption of a buffer is attached decryption of its contents. -/
theorem decryptInto_whole (counter : UInt64) (buf : List UInt8) :
    ∃ buf' result, session.decryptInto counter buf buf.length =
        .ok ((session.outcome counter buf).1, buf', result) ∧
      match (session.outcome counter buf).2 with
      | some plaintext => result = .ok plaintext.length ∧ buf'.take plaintext.length = plaintext
      | none => ∃ error, result = .error error := by
  by_cases admitted : replayWindow.Admits session.highest counter.toNat
  · have fresh : session.isReplay counter = false := isReplay_of_admits admitted
    by_cases short : buf.length < 16
    · have closed : session.opens counter buf = none := by
        simp [opens, Aead.decrypt, Nat.not_le.mpr short]
      refine ⟨buf, .error "Ciphertext too short", ?_, ?_⟩
      · simp [decryptInto, fresh, short, outcome, admitted, closed]
      · simp [outcome, admitted, closed]
    · have long : 16 ≤ buf.length := Nat.le_of_not_lt short
      have tagBytes : array buf (buf.length - 16) 16 =
          .ok ⟨buf.drop (buf.length - 16), by simp; omega⟩ := by
        have whole : (buf.drop (buf.length - 16)).take 16 = buf.drop (buf.length - 16) :=
          List.take_of_length_le (by simp; omega)
        simp [array, Nat.sub_add_cancel long, whole]
      have body : slice buf 0 (buf.length - 16) = .ok (buf.take (buf.length - 16)) :=
        slice_ok (Nat.zero_le _) (Nat.sub_le _ _)
      have opensEq : session.opens counter buf = Crates.decryptDetached session.cipher
          (session.recvNonce counter) (buf.take (buf.length - 16))
          ⟨buf.drop (buf.length - 16), by simp; omega⟩ := by
        simp [opens, Aead.decrypt, long]
      cases opened : session.opens counter buf with
      | none =>
          refine ⟨buf, .error "Decryption failed (invalid key or corrupted data)", ?_, ?_⟩
          · simp [decryptInto, fresh, short, tagBytes, body, ← opensEq, outcome, admitted, opened]
          · simp [outcome, admitted, opened]
      | some plaintext =>
          have sameLength : plaintext.length = buf.length - 16 := by
            have lengths := Crates.decryptLength (opensEq.symm.trans opened)
            rw [lengths, List.length_take]
            omega
          refine ⟨plaintext ++ buf.drop (buf.length - 16), .ok (buf.length - 16), ?_, ?_⟩
          · simp [decryptInto, fresh, short, tagBytes, body, ← opensEq, outcome, admitted, opened]
          · simp [outcome, admitted, opened, sameLength]
  · have replayed : session.isReplay counter = true := isReplay_iff.mpr admitted
    refine ⟨buf, .error "Replay detected: stale nonce", ?_, ?_⟩
    · simp [decryptInto, replayed, outcome, admitted]
    · simp [outcome, admitted]

/-- Decryption in place keeps the buffer's length, and leaves a plaintext within it. -/
theorem decryptInto_within (counter : UInt64) (buf : List UInt8) :
    ∃ next buf' result, session.decryptInto counter buf buf.length = .ok (next, buf', result) ∧
      buf'.length = buf.length ∧ ∀ len, result = .ok len → len ≤ buf.length := by
  unfold decryptInto
  split
  · exact ⟨_, _, _, rfl, rfl, by simp⟩
  · split
    · exact ⟨_, _, _, rfl, rfl, by simp⟩
    · next long =>
        dsimp only
        rw [array, dif_pos (by omega), slice_ok (Nat.zero_le _) (Nat.sub_le _ _)]
        simp only [Rust.ok_bind]
        split
        · next plaintext opened =>
            have sameLength := Crates.decryptLength opened
            rw [List.drop_zero, List.length_take, Nat.min_eq_left (Nat.sub_le _ _)] at sameLength
            refine ⟨_, _, _, rfl, ?_, fun len within => ?_⟩
            · rw [List.length_append, List.length_drop, sameLength]
              omega
            · cases within
              exact Nat.sub_le _ _
        · exact ⟨_, _, _, rfl, rfl, by simp⟩

/-- What was decrypted is no longer than the ciphertext. -/
theorem outcome_within {counter : UInt64} {ciphertext plaintext : List UInt8}
    (received : (session.outcome counter ciphertext).2 = some plaintext) :
    plaintext.length ≤ ciphertext.length := by
  obtain ⟨_, _, run, shape⟩ := session.decryptInto_whole counter ciphertext
  obtain ⟨_, _, _, run', _, within⟩ := session.decryptInto_within counter ciphertext
  simp only [received] at shape
  cases run.symm.trans run'
  exact within _ shape.1

/-- Allocating decryption returns the outcome. -/
theorem decrypt_eq (counter : UInt64) (ciphertext : List UInt8) :
    ∃ result, session.decrypt counter ciphertext =
        ((session.outcome counter ciphertext).1, result) ∧
      match (session.outcome counter ciphertext).2 with
      | some plaintext => result = .ok plaintext
      | none => ∃ error, result = .error error := by
  by_cases admitted : replayWindow.Admits session.highest counter.toNat
  · have fresh : session.isReplay counter = false := isReplay_of_admits admitted
    cases opened : session.opens counter ciphertext with
    | none =>
        have failed := opened
        rw [opens] at failed
        simp [decrypt, fresh, failed, outcome, admitted, opened]
    | some plaintext =>
        have succeeded := opened
        rw [opens] at succeeded
        simp [decrypt, fresh, succeeded, outcome, admitted, opened]
  · have replayed : session.isReplay counter = true := isReplay_iff.mpr admitted
    simp [decrypt, replayed, outcome, admitted]

/-- Both decryption functions have the same outcome. -/
theorem receive_eq (path : PacketPath) (counter : UInt64) (ciphertext : List UInt8) :
    session.receive path counter ciphertext = .ok (session.outcome counter ciphertext) := by
  cases path with
  | allocating =>
      obtain ⟨result, run, shape⟩ := session.decrypt_eq counter ciphertext
      cases received : (session.outcome counter ciphertext).2 with
      | none =>
          simp only [received] at shape
          obtain ⟨error, rfl⟩ := shape
          simp [receive, run, ← received]
      | some plaintext =>
          simp only [received] at shape
          simp [receive, run, shape, ← received]
  | inPlace =>
      obtain ⟨buf, result, run, shape⟩ := session.decryptInto_whole counter ciphertext
      cases received : (session.outcome counter ciphertext).2 with
      | none =>
          simp only [received] at shape
          obtain ⟨error, rfl⟩ := shape
          simp [receive, run, ← received]
      | some plaintext =>
          simp only [received] at shape
          obtain ⟨rfl, front⟩ := shape
          simp [receive, run, front, ← received]

/-- The attached encryption of a plaintext under the session's next nonce. -/
def sealed (session : SessionCipher) (plaintext : List UInt8) : List UInt8 :=
  (Crates.encryptDetached session.cipher session.sendNonce plaintext).1 ++
    (Crates.encryptDetached session.cipher session.sendNonce plaintext).2.1

/-- Sealing adds the tag. -/
@[simp] theorem length_sealed (plaintext : List UInt8) :
    (session.sealed plaintext).length = plaintext.length + 16 := by
  have tagLength := (Crates.encryptDetached session.cipher session.sendNonce plaintext).2.2
  simp [sealed, Crates.encryptLength, tagLength]

/-- In-place encryption turns the front of a buffer with room for the tag into the
attached encryption. -/
theorem encryptInto_room (session : SessionCipher) {plaintext room : List UInt8}
    (fits : plaintext.length ≤ Crates.plaintextLimit) (enough : 16 ≤ room.length) :
    session.encryptInto (plaintext ++ room) plaintext.length =
      .ok (session.sent, session.sealed plaintext ++ room.drop 16,
        .ok (session.sendCounter, plaintext.length + 16)) := by
  have bodyLength := Crates.encryptLength session.cipher session.sendNonce plaintext
  have tagLength := (Crates.encryptDetached session.cipher session.sendNonce plaintext).2.2
  have written : copyFromSlice
      ((Crates.encryptDetached session.cipher session.sendNonce plaintext).1 ++ room)
      plaintext.length (Crates.encryptDetached session.cipher session.sendNonce plaintext).2.1 =
        .ok (session.sealed plaintext ++ room.drop 16) := by
    rw [copyFromSlice_ok (by simp [bodyLength, tagLength, enough]), ← bodyLength]
    simp [tagLength, sealed]
  simp [encryptInto, slice_front, Aead.encryptInPlaceDetached, fits, written, sent]

/-- A plaintext beyond the AEAD's limit uses a nonce up and stays as it is. -/
theorem encryptInto_over (session : SessionCipher) {plaintext room : List UInt8}
    (tooLong : ¬plaintext.length ≤ Crates.plaintextLimit) :
    session.encryptInto (plaintext ++ room) plaintext.length =
      .ok (session.sent, plaintext ++ room, .error "Encryption failed") := by
  simp [encryptInto, slice_front, Aead.encryptInPlaceDetached, tooLong, sent]

/-- Allocating encryption seals what fits the AEAD, under a nonce that is used up either way. -/
theorem encrypt_eq (session : SessionCipher) (plaintext : List UInt8) :
    session.encrypt plaintext = (session.sent,
      if plaintext.length ≤ Crates.plaintextLimit then
        .ok (session.sendCounter, session.sealed plaintext)
      else .error "Encryption failed") := by
  by_cases fits : plaintext.length ≤ Crates.plaintextLimit
  · simp [encrypt, Aead.encrypt, Aead.encryptInPlaceDetached, fits, sent, sealed]
  · simp [encrypt, Aead.encrypt, Aead.encryptInPlaceDetached, fits, sent]

end SessionCipher
end WolfNet
