import WolfNet.Session.Cipher

/-!
# The two ends of a link

Each side of a link keeps a record of the other one. The record's operations act on
its session as `Session.Cipher` says, and what one end seals the other end opens.
-/

namespace WolfNet

open WolfNet.Std WolfNet.Semantics

namespace SessionCipher

/-- Two sessions of one pair: they share the key and differ in the direction. -/
structure Paired (sender receiver : SessionCipher) : Prop where
  cipher : sender.cipher = receiver.cipher
  direction : sender.isLowSide = !receiver.isLowSide

/-- Sending keeps the sessions paired. -/
theorem Paired.sent {sender receiver : SessionCipher} (paired : Paired sender receiver) :
    Paired sender.sent receiver :=
  ⟨paired.cipher, paired.direction⟩

/-- So does accepting. -/
theorem Paired.accepted {sender receiver : SessionCipher} (paired : Paired sender receiver)
    (counter : UInt64) : Paired sender (receiver.accepted counter) :=
  ⟨by simp [paired.cipher], by simp [paired.direction]⟩

variable [Crates]

/-- Sessions that two nodes established for each other are paired. -/
theorem IsFor.paired {session other : SessionCipher} {mine theirs : KeyPair}
    (agrees : DiffieHellmanAgrees) (distinct : mine.publicKey ≠ theirs.publicKey)
    (ours : session.IsFor mine theirs.publicKey) (others : other.IsFor theirs mine.publicKey) :
    Paired session other where
  cipher := by
    rw [ours.cipher, others.cipher, mine.publicOfSecret, theirs.publicOfSecret]
    exact agrees mine.secret theirs.secret
  direction := by
    rw [ours.isLowSide, others.isLowSide]
    exact lowSide_swap distinct.symm

/-- The receiving end opens what the sending end seals. -/
theorem Paired.opens_sealed {sender receiver : SessionCipher} (paired : Paired sender receiver)
    (ideal : AeadIdeal) (plaintext : List UInt8) :
    receiver.opens sender.sendCounter (sender.sealed plaintext) = some plaintext := by
  have bodyLength := Crates.encryptLength sender.cipher sender.sendNonce plaintext
  have tagLength := (Crates.encryptDetached sender.cipher sender.sendNonce plaintext).2.2
  have nonce : receiver.recvNonce sender.sendCounter = sender.sendNonce := by
    rw [recvNonce, sendNonce, paired.direction]
  have size : (sender.sealed plaintext).length - 16 = plaintext.length := by simp
  rw [opens, Aead.decrypt, dif_pos (by simp), ← paired.cipher, nonce, ideal]
  refine Prod.ext ?_ (Subtype.ext ?_)
  · simp only [size]
    simp [sealed, ← bodyLength]
  · simp only [size]
    simp [sealed, ← bodyLength]

/-- In-place encryption that does not panic advances the send counter. -/
theorem encryptInto_sent {session session' : SessionCipher} {buf buf' : List UInt8}
    {len : Nat} {result : Except String (UInt64 × Nat)}
    (run : session.encryptInto buf len = .ok (session', buf', result)) :
    session' = session.sent := by
  simp only [SessionCipher.encryptInto, Rust.bind_eq_ok] at run
  obtain ⟨plaintext, _, sealing⟩ := run
  cases sealed : Aead.encryptInPlaceDetached session.cipher session.sendNonce plaintext with
  | none =>
      simp only [sealed, Rust.pure_eq, Except.ok.injEq, Prod.mk.injEq] at sealing
      exact sealing.1.symm
  | some packet =>
      simp only [sealed, Rust.bind_eq_ok, Rust.pure_eq, Except.ok.injEq, Prod.mk.injEq] at sealing
      obtain ⟨_, _, same, _⟩ := sealing
      exact same.symm

end SessionCipher

namespace Peer

variable [Crates]

/-- Send a plaintext through either encryption function; the buffer has just the room
for the tag. -/
def send (peer : Peer) (path : PacketPath) (plaintext : List UInt8) :
    Rust (Peer × Option (UInt64 × List UInt8)) :=
  match path with
  | .allocating =>
    match peer.encrypt plaintext with
    | (peer, .ok packet) => return (peer, some packet)
    | (peer, .error _) => return (peer, none)
  | .inPlace => do
    let buf := plaintext ++ List.replicate 16 0
    match ← peer.encryptInto buf plaintext.length with
    | (peer, buf, .ok (counter, len)) => return (peer, some (counter, buf.take len))
    | (peer, _, .error _) => return (peer, none)

/-- Receive a ciphertext through either decryption function. -/
def receive (peer : Peer) (path : PacketPath) (counter : UInt64) (ciphertext : List UInt8)
    (now : Instant) : Rust (Peer × Option (List UInt8)) :=
  match path with
  | .allocating =>
    match peer.decrypt counter ciphertext now with
    | (peer, .ok plaintext) => return (peer, some plaintext)
    | (peer, .error _) => return (peer, none)
  | .inPlace => do
    match ← peer.decryptInto counter ciphertext ciphertext.length now with
    | (peer, buf, .ok len) => return (peer, some (buf.take len))
    | (peer, _, .error _) => return (peer, none)

variable {peer : Peer} {session : SessionCipher}

/-- The record after it sent a packet of the given size. -/
def sent (peer : Peer) (session : SessionCipher) (plaintextLen : Nat) : Peer :=
  { peer with
    cipher := some session.sent
    txBytes := peer.txBytes + UInt64.ofNat plaintextLen }

/-- Encryption advances the session's send counter, whether or not it succeeds. -/
theorem encrypt_sent (peer : Peer) (plaintext : List UInt8) :
    (peer.encrypt plaintext).1.cipher = peer.cipher.map SessionCipher.sent ∧
      (peer.encrypt plaintext).1.publicKey = peer.publicKey := by
  cases established : peer.cipher with
  | none => simp [Peer.encrypt, established]
  | some session =>
      cases sealed : Aead.encrypt session.cipher session.sendNonce plaintext with
      | none => simp [Peer.encrypt, established, SessionCipher.encrypt, sealed, SessionCipher.sent]
      | some ciphertext =>
          simp [Peer.encrypt, established, SessionCipher.encrypt, sealed, SessionCipher.sent]

/-- Encryption in place uses one counter of the session, and leaves the key of the record. -/
theorem encryptInto_sent {next : Peer} {buf buf' : List UInt8} {len : Nat}
    {result : Except String (UInt64 × Nat)}
    (run : peer.encryptInto buf len = .ok (next, buf', result)) :
    next.cipher = peer.cipher.map SessionCipher.sent ∧ next.publicKey = peer.publicKey := by
  cases established : peer.cipher with
  | none =>
      simp only [Peer.encryptInto, established, Rust.pure_eq, Except.ok.injEq, Prod.mk.injEq] at run
      rw [← run.1, established]
      exact ⟨rfl, rfl⟩
  | some session =>
      simp only [Peer.encryptInto, established, Rust.bind_eq_ok] at run
      obtain ⟨⟨session', buf'', result'⟩, encrypted, rest⟩ := run
      have advanced := SessionCipher.encryptInto_sent encrypted
      cases result' with
      | error message =>
          simp only [Rust.pure_eq, Except.ok.injEq, Prod.mk.injEq] at rest
          rw [← rest.1, advanced]
          exact ⟨rfl, rfl⟩
      | ok packet =>
          simp only [Rust.pure_eq, Except.ok.injEq, Prod.mk.injEq] at rest
          rw [← rest.1, advanced]
          exact ⟨rfl, rfl⟩

/-- In a buffer with room behind, encryption in place seals the plaintext. -/
theorem encryptInto_room (established : peer.cipher = some session) {plaintext room : List UInt8}
    (fits : plaintext.length ≤ Crates.plaintextLimit) (enough : 16 ≤ room.length) :
    peer.encryptInto (plaintext ++ room) plaintext.length =
      .ok (peer.sent session plaintext.length, session.sealed plaintext ++ room.drop 16,
        .ok (session.sendCounter, plaintext.length + 16)) := by
  simp [encryptInto, established, session.encryptInto_room fits enough, sent]

/-- A plaintext beyond the AEAD's limit uses a nonce of the session up. -/
theorem encryptInto_over (established : peer.cipher = some session) {plaintext room : List UInt8}
    (tooLong : ¬plaintext.length ≤ Crates.plaintextLimit) :
    peer.encryptInto (plaintext ++ room) plaintext.length =
      .ok ({ peer with cipher := some session.sent }, plaintext ++ room,
        .error "Encryption failed") := by
  simp [encryptInto, established, session.encryptInto_over tooLong]

/-- Both ways of sending seal the plaintext under the next counter. -/
theorem send_eq (established : peer.cipher = some session) (path : PacketPath)
    {plaintext : List UInt8} (fits : plaintext.length ≤ Crates.plaintextLimit) :
    peer.send path plaintext = .ok (peer.sent session plaintext.length,
      some (session.sendCounter, session.sealed plaintext)) := by
  cases path with
  | allocating =>
      simp [send, encrypt, established, SessionCipher.encrypt, Aead.encrypt,
        Aead.encryptInPlaceDetached, fits, sent, SessionCipher.sent, SessionCipher.sealed]
  | inPlace =>
      have enough : 16 ≤ (List.replicate 16 (0 : UInt8)).length := (List.length_replicate ..).ge
      have whole : (session.sealed plaintext).take (plaintext.length + 16) =
          session.sealed plaintext := List.take_of_length_le (by simp)
      simp only [send, encryptInto_room established fits enough, Rust.ok_bind, Rust.pure_eq,
        List.drop_replicate, Nat.sub_self, List.replicate_zero, List.append_nil, whole]

/-- The record after a datagram with this outcome. -/
def afterOutcome (peer : Peer) (outcome : SessionCipher × Option (List UInt8)) (now : Instant) :
    Peer :=
  match outcome with
  | (session, some plaintext) => peer.received session plaintext.length now
  | (session, none) => { peer with cipher := some session }

/-- Decryption in place of a whole buffer has the session's outcome. -/
theorem decryptInto_whole (established : peer.cipher = some session) (counter : UInt64)
    (buf : List UInt8) (now : Instant) :
    ∃ buf' result, peer.decryptInto counter buf buf.length now =
        .ok (peer.afterOutcome (session.outcome counter buf) now, buf', result) ∧
      match (session.outcome counter buf).2 with
      | some plaintext => result = .ok plaintext.length ∧ buf'.take plaintext.length = plaintext
      | none => ∃ error, result = .error error := by
  obtain ⟨buf', result, run, shape⟩ := session.decryptInto_whole counter buf
  refine ⟨buf', result, ?_, shape⟩
  rcases outcome : session.outcome counter buf with ⟨next, _ | plaintext⟩
  · simp only [outcome] at run shape
    obtain ⟨error, rfl⟩ := shape
    simp [decryptInto, established, run, afterOutcome]
  · simp only [outcome] at run shape
    obtain ⟨rfl, _⟩ := shape
    simp [decryptInto, established, run, afterOutcome]

/-- Decryption in place keeps the buffer's length, and leaves a plaintext within it. -/
theorem decryptInto_within (peer : Peer) (counter : UInt64) (buf : List UInt8) (now : Instant) :
    ∃ next buf' result, peer.decryptInto counter buf buf.length now = .ok (next, buf', result) ∧
      buf'.length = buf.length ∧ ∀ len, result = .ok len → len ≤ buf.length := by
  cases established : peer.cipher with
  | none =>
      exact ⟨peer, buf, .error "No session established", by simp [decryptInto, established], rfl,
        by simp⟩
  | some session =>
      obtain ⟨next, buf', result, run, sameLength, within⟩ := session.decryptInto_within counter buf
      cases result with
      | error text =>
          exact ⟨{ peer with cipher := some next }, buf', .error text,
            by simp [decryptInto, established, run], sameLength, within⟩
      | ok len =>
          exact ⟨peer.received next len now, buf', .ok len,
            by simp [decryptInto, established, run], sameLength, within⟩

/-- Both ways of receiving have the session's outcome. -/
theorem receive_eq (established : peer.cipher = some session) (path : PacketPath)
    (counter : UInt64) (ciphertext : List UInt8) (now : Instant) :
    peer.receive path counter ciphertext now =
      .ok (peer.afterOutcome (session.outcome counter ciphertext) now,
        (session.outcome counter ciphertext).2) := by
  cases path with
  | allocating =>
      obtain ⟨result, run, shape⟩ := session.decrypt_eq counter ciphertext
      rcases outcome : session.outcome counter ciphertext with ⟨next, _ | plaintext⟩
      · simp only [outcome] at run shape
        obtain ⟨error, rfl⟩ := shape
        simp [receive, decrypt, established, run, afterOutcome]
      · simp only [outcome] at run shape
        simp [receive, decrypt, established, run, shape, afterOutcome]
  | inPlace =>
      obtain ⟨buf, result, run, shape⟩ := decryptInto_whole established counter ciphertext now
      rcases outcome : session.outcome counter ciphertext with ⟨next, _ | plaintext⟩
      · simp only [outcome] at run shape
        obtain ⟨error, rfl⟩ := shape
        simp [receive, run]
      · simp only [outcome] at run shape
        obtain ⟨rfl, front⟩ := shape
        simp [receive, run, front]

end Peer
end WolfNet
