import WolfNet.Std.Slice
import WolfNet.Std.Text

/-!
# The third-party crates

X25519, SHA-256, ChaCha20-Poly1305, base64 and serde are not part of the
repository. They enter as one structure of functions; what a result needs of
them beyond their types is a named hypothesis of that result.
-/

namespace WolfNet

open WolfNet.Std

abbrev StaticSecret := SizedBytes 32

abbrev PublicKey := SizedBytes 32

abbrev SharedSecret := SizedBytes 32

/-- The 4-byte identifier a packet names its sender by. -/
abbrev PeerId := SizedBytes 4

abbrev Nonce := SizedBytes 12

/-- A Poly1305 authentication tag. -/
abbrev Tag := SizedBytes 16

/-- A single peer entry in a peer exchange message. -/
structure PexEntry where
  publicKey : String
  wolfnetIp : String
  endpoint : Option String
  hostname : String
  isGateway : Bool
deriving DecidableEq, Repr

/-- The functions of the crates that the daemon calls. -/
class Crates where
  /-- `x25519_dalek::PublicKey::from`. -/
  publicKey : StaticSecret → PublicKey
  /-- The u-coordinate that a public key encodes. Different keys may encode the same one: the
  highest bit is ignored, and the rest is reduced. -/
  coordinate : PublicKey → Nat
  diffieHellman : StaticSecret → PublicKey → SharedSecret
  sha256 : List UInt8 → SizedBytes 32
  /-- The longest plaintext that ChaCha20-Poly1305 encrypts. -/
  plaintextLimit : Nat
  /-- In-place encryption with an empty header: the new contents and the tag. -/
  encryptDetached : SharedSecret → Nonce → List UInt8 → List UInt8 × Tag
  encryptLength : ∀ key nonce plaintext,
    (encryptDetached key nonce plaintext).1.length = plaintext.length
  /-- In-place decryption, which fails unless the tag is right. -/
  decryptDetached : SharedSecret → Nonce → List UInt8 → Tag → Option (List UInt8)
  decryptLength : ∀ {key nonce body tag plaintext},
    decryptDetached key nonce body tag = some plaintext → plaintext.length = body.length
  /-- `base64::STANDARD.decode`, with the crate's own error text. -/
  base64Decode : String → Except String (List UInt8)
  base64Encode : List UInt8 → String
  /-- `serde_json::from_slice` at a list of entries. -/
  entriesFromJson : List UInt8 → Option (List PexEntry)
  entriesToJson : List PexEntry → List UInt8

/-- A letter, a digit or a sign of base64. -/
def isBase64Char (c : Char) : Bool := c.isAlphanum || c = '+' || c = '/' || c = '='

/-- A sign of base64 is ASCII, and neither a quote nor a backslash. -/
theorem toNat_of_isBase64Char {c : Char} (sign : isBase64Char c = true) :
    43 ≤ c.toNat ∧ c.toNat < 123 ∧ c.toNat ≠ 92 := by
  simp only [isBase64Char, Bool.or_eq_true, decide_eq_true_eq] at sign
  rcases sign with ((alphanumeric | rfl) | rfl) | rfl
  · have := toNat_of_isAlphanum alphanumeric
    omega
  · decide
  · decide
  · decide

/-- A sign of base64 is no whitespace. -/
theorem isWhitespace_of_isBase64Char {c : Char} (sign : isBase64Char c = true) :
    isWhitespace c = false := by
  obtain ⟨low, high, _⟩ := toNat_of_isBase64Char sign
  simp [isWhitespace]
  omega

variable [Crates]

/-- `==` on `x25519_dalek::PublicKey`, which compares what the keys encode and not their bytes. -/
def PublicKey.Same (publicKey other : PublicKey) : Prop :=
  Crates.coordinate publicKey = Crates.coordinate other

namespace PublicKey

variable {publicKey other third : PublicKey}

instance : Decidable (publicKey.Same other) :=
  inferInstanceAs (Decidable (Crates.coordinate publicKey = Crates.coordinate other))

/-- Every key is the same as itself. -/
@[simp] theorem Same.refl (publicKey : PublicKey) : publicKey.Same publicKey := rfl

/-- Sameness goes both ways. -/
theorem Same.symm (same : publicKey.Same other) : other.Same publicKey := Eq.symm same

/-- Sameness carries over. -/
theorem Same.trans (first : publicKey.Same other) (second : other.Same third) :
    publicKey.Same third := Eq.trans first second

/-- Keys of the same bytes are the same. -/
theorem Same.of_eq (equal : publicKey = other) : publicKey.Same other := equal ▸ .refl publicKey

end PublicKey

/-- The two ends of a static Diffie-Hellman exchange compute the same secret. -/
def DiffieHellmanAgrees : Prop :=
  ∀ first second : StaticSecret, Crates.diffieHellman first (Crates.publicKey second) =
    Crates.diffieHellman second (Crates.publicKey first)

/-- The AEAD opens exactly the ciphertexts that it sealed under the same key and nonce. -/
def AeadIdeal : Prop :=
  ∀ (key : SharedSecret) (nonce : Nonce) (plaintext body : List UInt8) (tag : Tag),
    Crates.decryptDetached key nonce body tag = some plaintext ↔
      Crates.encryptDetached key nonce plaintext = (body, tag)

/-- Base64 writes four characters of its own for every three bytes begun. -/
structure Base64Padded : Prop where
  length : ∀ bytes, (Crates.base64Encode bytes).toList.length = (bytes.length + 2) / 3 * 4
  alphabet : ∀ bytes, ∀ c ∈ (Crates.base64Encode bytes).toList, isBase64Char c = true

/-- Base64 decodes the public keys that it encodes. -/
def Base64KeysRoundTrip : Prop :=
  ∀ publicKey : PublicKey, Crates.base64Decode (Crates.base64Encode publicKey.1) = .ok publicKey.1

end WolfNet
