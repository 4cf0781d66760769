import WolfNet.Crates
import WolfNet.Std.Text

/-!
# Key pairs and session ciphers

A session cipher encrypts with a static Diffie-Hellman secret and a nonce made of
a send counter and a direction byte. Decryption checks a datagram's counter
against the highest one accepted, with a reorder window of 32 and an exception
for a peer that seems to have restarted. `encrypt` and `decrypt` allocate;
`encryptInto` and `decryptInto` work in a caller's buffer.
-/

namespace WolfNet

open WolfNet.Std

variable [Crates]

/-- X25519 key pair of a node: the public key is the secret's own. -/
structure KeyPair where
  secret : StaticSecret
  publicKey : PublicKey
  publicOfSecret : publicKey = Crates.publicKey secret

/-- A 4-byte peer ID: the front of the public key's SHA-256 digest. -/
def KeyPair.peerId (publicKey : PublicKey) : PeerId :=
  ⟨(Crates.sha256 publicKey.1).1.take 4, by simp [(Crates.sha256 publicKey.1).2]⟩

def KeyPair.myPeerId (keypair : KeyPair) : PeerId := KeyPair.peerId keypair.publicKey

/-- Parse a base64-encoded public key. -/
def parsePublicKey (b64 : String) : Except String PublicKey :=
  match Crates.base64Decode (trim b64) with
  | .error error => .error error
  | .ok bytes =>
    if sized : bytes.length = 32 then .ok ⟨bytes, sized⟩
    else .error s!"Invalid public key length: {bytes.length} (expected 32)"

/-- A public key is read from its own text. -/
theorem parsePublicKey_encode (base64 : Base64Padded) (keys : Base64KeysRoundTrip)
    (publicKey : PublicKey) :
    parsePublicKey (Crates.base64Encode publicKey.1) = .ok publicKey := by
  have trimmed := trim_of_ink fun c member =>
    isWhitespace_of_isBase64Char (base64.alphabet publicKey.1 c member)
  simp only [parsePublicKey, trimmed, keys publicKey]
  rw [dif_pos publicKey.2]

namespace Aead

/-- `AeadInPlace::encrypt_in_place_detached`. -/
def encryptInPlaceDetached (key : SharedSecret) (nonce : Nonce) (buffer : List UInt8) :
    Option (List UInt8 × Tag) :=
  if buffer.length ≤ Crates.plaintextLimit then some (Crates.encryptDetached key nonce buffer) else none

/-- `Aead::encrypt`: the tag is appended. -/
def encrypt (key : SharedSecret) (nonce : Nonce) (plaintext : List UInt8) : Option (List UInt8) :=
  (encryptInPlaceDetached key nonce plaintext).map fun (body, tag) => body ++ tag.1

/-- `Aead::decrypt`: the last 16 bytes are the tag. -/
def decrypt (key : SharedSecret) (nonce : Nonce) (ciphertext : List UInt8) :
    Option (List UInt8) :=
  if long : 16 ≤ ciphertext.length then
    Crates.decryptDetached key nonce (ciphertext.take (ciphertext.length - 16))
      ⟨ciphertext.drop (ciphertext.length - 16), by simp; omega⟩
  else none

end Aead

/-- Session cipher for a peer connection. -/
structure SessionCipher where
  /-- The ChaCha20-Poly1305 key. -/
  cipher : SharedSecret
  sendCounter : UInt64
  recvCounter : UInt64
  /-- Our public key is lexicographically less than the peer's. -/
  isLowSide : Bool
deriving DecidableEq

/-- The nonce of a counter and a direction: byte 11 is the direction flag. -/
def makeNonce (counter : UInt64) (isLowSide : Bool) : Nonce :=
  ⟨(u64ToLeBytes counter).1 ++ [0, 0, 0] ++ [if isLowSide then 0x00 else 0x01], by
    simp [(u64ToLeBytes counter).2]⟩

namespace SessionCipher

/-- A session from the shared secret and the order of the keys. -/
def new (sharedSecret : SharedSecret) (myPublic peerPublic : PublicKey) : SessionCipher where
  cipher := sharedSecret
  sendCounter := 0
  recvCounter := 0
  isLowSide := decide (myPublic.1 < peerPublic.1)

/-- The nonce the next encryption uses. -/
def sendNonce (session : SessionCipher) : Nonce :=
  makeNonce session.sendCounter session.isLowSide

/-- The nonce a datagram with this counter was sealed under. -/
def recvNonce (session : SessionCipher) (counter : UInt64) : Nonce :=
  makeNonce counter !session.isLowSide

/-- Encrypt a packet; the result carries the nonce counter. -/
def encrypt (session : SessionCipher) (plaintext : List UInt8) :
    SessionCipher × Except String (UInt64 × List UInt8) :=
  let counter := session.sendCounter
  let sent := { session with sendCounter := session.sendCounter + 1 }
  match Aead.encrypt session.cipher session.sendNonce plaintext with
  | some ciphertext => (sent, .ok (counter, ciphertext))
  | none => (sent, .error "Encryption failed")

/-- Encrypt `buf[..len]` in place and append the 16-byte tag. -/
def encryptInto (session : SessionCipher) (buf : List UInt8) (len : Nat) :
    Rust (SessionCipher × List UInt8 × Except String (UInt64 × Nat)) := do
  let counter := session.sendCounter
  let sent := { session with sendCounter := session.sendCounter + 1 }
  let plaintext ← slice buf 0 len
  match Aead.encryptInPlaceDetached session.cipher session.sendNonce plaintext with
  | some (body, tag) =>
    let buf ← copyFromSlice (body ++ buf.drop len) len tag.1
    return (sent, buf, .ok (counter, len + 16))
  | none => return (sent, buf, .error "Encryption failed")

/-- The peer likely restarted: a low counter after a high one. -/
def isLikelyRestart (session : SessionCipher) (counter : UInt64) : Bool :=
  counter < 100 && session.recvCounter > 100

/-- The replay check: no forward progress, no restart, and beyond the reorder
window of 32 packets. -/
def isReplay (session : SessionCipher) (counter : UInt64) : Bool :=
  counter ≤ session.recvCounter && session.recvCounter > 0 && !session.isLikelyRestart counter &&
    session.recvCounter - counter > 32

/-- The session after it accepted a counter: only forward progress or a restart
moves the receive counter. -/
def accepted (session : SessionCipher) (counter : UInt64) : SessionCipher :=
  if counter > session.recvCounter || session.isLikelyRestart counter then
    { session with recvCounter := counter }
  else session

/-- Decrypt a packet. -/
def decrypt (session : SessionCipher) (counter : UInt64) (ciphertext : List UInt8) :
    SessionCipher × Except String (List UInt8) :=
  if session.isReplay counter then (session, .error "Replay detected: stale nonce")
  else
    match Aead.decrypt session.cipher (session.recvNonce counter) ciphertext with
    | some plaintext => (session.accepted counter, .ok plaintext)
    | none => (session, .error "Decryption failed (invalid key or corrupted data)")

/-- Decrypt `buf[..len]` in place, its last 16 bytes being the tag. -/
def decryptInto (session : SessionCipher) (counter : UInt64) (buf : List UInt8) (len : Nat) :
    Rust (SessionCipher × List UInt8 × Except String Nat) := do
  if session.isReplay counter then
    return (session, buf, .error "Replay detected: stale nonce")
  if len < 16 then return (session, buf, .error "Ciphertext too short")
  let bodyLen := len - 16
  let tag ← array buf bodyLen 16
  let body ← slice buf 0 bodyLen
  match Crates.decryptDetached session.cipher (session.recvNonce counter) body tag with
  | some plaintext =>
    return (session.accepted counter, plaintext ++ buf.drop bodyLen, .ok bodyLen)
  | none =>
    return (session, buf, .error "Decryption failed (invalid key or corrupted data)")

end SessionCipher
end WolfNet
