import WolfNet.Crypto

/-!
# A model of the crates

A small computable instance that meets what the results ask of the crates: the key
exchange agrees, the AEAD is ideal, and base64 is decoded as the crate does it.
-/

namespace WolfNet.Sample

open WolfNet.Std

/-- The value of a base64 digit. -/
def base64Value (c : Char) : Option Nat :=
  let code := c.toNat
  if 65 ≤ code ∧ code ≤ 90 then some (code - 65)
  else if 97 ≤ code ∧ code ≤ 122 then some (code - 71)
  else if 48 ≤ code ∧ code ≤ 57 then some (code + 4)
  else if c = '+' then some 62
  else if c = '/' then some 63
  else none

/-- Padded base64 without stray trailing bits. -/
def base64Decode : List Char → Option (List UInt8)
  | [] => some []
  | [first, second, '=', '='] => do
    let first ← base64Value first
    let second ← base64Value second
    if second % 16 = 0 then return [UInt8.ofNat (first * 4 + second / 16)] else none
  | [first, second, third, '='] => do
    let first ← base64Value first
    let second ← base64Value second
    let third ← base64Value third
    if third % 4 = 0 then
      return [UInt8.ofNat (first * 4 + second / 16), UInt8.ofNat (second * 16 + third / 4)]
    else none
  | first :: second :: third :: fourth :: rest => do
    let first ← base64Value first
    let second ← base64Value second
    let third ← base64Value third
    let fourth ← base64Value fourth
    let rest ← base64Decode rest
    return UInt8.ofNat (first * 4 + second / 16) :: UInt8.ofNat (second * 16 + third / 4) ::
      UInt8.ofNat (third * 64 + fourth) :: rest
  | _ => none

/-- The base64 digit of a value below 64. -/
def base64Digit (value : Nat) : Char :=
  if value < 26 then Char.ofNat (value + 65)
  else if value < 52 then Char.ofNat (value + 71)
  else if value < 62 then Char.ofNat (value - 4)
  else if value = 62 then '+'
  else '/'

/-- Padded base64. -/
def base64Encode : List UInt8 → List Char
  | [] => []
  | [first] =>
    [base64Digit (first.toNat / 4), base64Digit (first.toNat % 4 * 16), '=', '=']
  | [first, second] =>
    [base64Digit (first.toNat / 4), base64Digit (first.toNat % 4 * 16 + second.toNat / 16),
      base64Digit (second.toNat % 16 * 4), '=']
  | first :: second :: third :: rest =>
    base64Digit (first.toNat / 4) :: base64Digit (first.toNat % 4 * 16 + second.toNat / 16) ::
      base64Digit (second.toNat % 16 * 4 + third.toNat / 64) :: base64Digit (third.toNat % 64) ::
      base64Encode rest

/-- The tag shows the nonce and the front of the key. -/
def tag (key : SharedSecret) (nonce : Nonce) : Tag :=
  ⟨nonce.1 ++ key.1.take 4, by simp [nonce.2, key.2]⟩

/-- The u-coordinate that bytes encode: the number they are in little-endian order, less the highest
bit, modulo `2 ^ 255 - 19`. -/
def coordinate (bytes : List UInt8) : Nat :=
  bytes.foldr (fun byte rest => byte.toNat + 256 * rest) 0 % 2 ^ 255 % (2 ^ 255 - 19)

/-- The crates of the examples: keys are their own secrets, the exchange is `xor`, a
digest is the front of its input, and the AEAD leaves the plaintext in the clear. -/
@[reducible] def crates : Crates where
  publicKey secret := secret
  coordinate publicKey := coordinate publicKey.1
  diffieHellman secret publicKey :=
    ⟨List.zipWith (· ^^^ ·) secret.1 publicKey.1, by simp [secret.2, publicKey.2]⟩
  sha256 bytes := ⟨(bytes ++ List.replicate 32 0).take 32, by simp⟩
  plaintextLimit := 274877906880
  encryptDetached key nonce plaintext := (plaintext, tag key nonce)
  encryptLength _ _ _ := rfl
  decryptDetached key nonce body given := if given = tag key nonce then some body else none
  decryptLength := by
    intro key nonce body given plaintext opened
    split at opened
    · cases opened
      rfl
    · cases opened
  base64Decode text :=
    match base64Decode text.toList with
    | some bytes => .ok bytes
    | none => .error "Invalid input"
  base64Encode bytes := String.ofList (base64Encode bytes)
  entriesFromJson _ := none
  entriesToJson _ := []

attribute [local instance] crates

/-- The sample exchange gives both sides the same secret. -/
theorem diffieHellman_agrees : DiffieHellmanAgrees := by
  intro first second
  apply Subtype.ext
  exact List.zipWith_comm_of_comm UInt8.xor_comm

/-- The sample cipher opens exactly what it sealed. -/
theorem aead_ideal : AeadIdeal := by
  intro key nonce plaintext body given
  simp only [Crates.decryptDetached, Crates.encryptDetached, Prod.mk.injEq]
  split
  · next same => simp [same, eq_comm]
  · next different => simp [Ne.symm different]

/-- Every digit is one of base64. -/
theorem base64Digit_alphabet {value : Nat} (small : value < 64) :
    isBase64Char (base64Digit value) = true := by
  have checked : ∀ value < 64, isBase64Char (base64Digit value) = true := by decide
  exact checked value small

/-- The sample encoding is padded base64. -/
theorem base64_padded : Base64Padded where
  length bytes := by
    simp only [Crates.base64Encode, String.toList_ofList]
    fun_induction base64Encode bytes with
    | case1 => simp
    | case2 => simp
    | case3 => simp
    | case4 first second third rest ih =>
        simp only [List.length_cons, ih]
        omega
  alphabet bytes := by
    simp only [Crates.base64Encode, String.toList_ofList]
    have octet (byte : UInt8) : byte.toNat < 256 := byte.toNat_lt
    fun_induction base64Encode bytes with
    | case1 => simp
    | case2 first =>
        have high := octet first
        simp only [List.forall_mem_cons]
        exact ⟨base64Digit_alphabet (by omega), base64Digit_alphabet (by omega), rfl, rfl, by simp⟩
    | case3 first second =>
        have high := octet first
        have low := octet second
        simp only [List.forall_mem_cons]
        exact ⟨base64Digit_alphabet (by omega), base64Digit_alphabet (by omega),
          base64Digit_alphabet (by omega), rfl, by simp⟩
    | case4 first second third rest ih =>
        have high := octet first
        have middle := octet second
        have low := octet third
        simp only [List.forall_mem_cons]
        exact ⟨base64Digit_alphabet (by omega), base64Digit_alphabet (by omega),
          base64Digit_alphabet (by omega), base64Digit_alphabet (by omega), ih⟩

/-- Every digit has its value back, and is no padding. -/
theorem base64Value_digit (value : Nat) (small : value < 64) :
    base64Value (base64Digit value) = some value ∧ base64Digit value ≠ '=' := by
  have checked : ∀ value < 64,
      base64Value (base64Digit value) = some value ∧ base64Digit value ≠ '=' := by decide
  exact checked value small

/-- A number below 256 is its byte. -/
theorem ofNat_eq_byte {value : Nat} {byte : UInt8} (same : value % 256 = byte.toNat) :
    UInt8.ofNat value = byte := by
  rw [← UInt8.toNat_inj, UInt8.toNat_ofNat', same]

/-- What is encoded is decoded. -/
theorem base64Decode_encode (bytes : List UInt8) :
    base64Decode (base64Encode bytes) = some bytes := by
  have octet (byte : UInt8) : byte.toNat < 256 := byte.toNat_lt
  fun_induction base64Encode bytes with
  | case1 => rfl
  | case2 first =>
      have high := octet first
      obtain ⟨readA, _⟩ := base64Value_digit (first.toNat / 4) (by omega)
      obtain ⟨readB, _⟩ := base64Value_digit (first.toNat % 4 * 16) (by omega)
      have byte : UInt8.ofNat (first.toNat / 4 * 4 + first.toNat % 4 * 16 / 16) = first :=
        ofNat_eq_byte (by omega)
      have padding : first.toNat % 4 * 16 % 16 = 0 := by omega
      rw [base64Decode]
      simp only [readA, readB, Option.bind_eq_bind, Option.bind_some, if_pos padding, byte,
        Option.pure_def]
  | case3 first second =>
      have high := octet first
      have low := octet second
      obtain ⟨readA, _⟩ := base64Value_digit (first.toNat / 4) (by omega)
      obtain ⟨readB, _⟩ := base64Value_digit (first.toNat % 4 * 16 + second.toNat / 16) (by omega)
      obtain ⟨readC, unpadded⟩ := base64Value_digit (second.toNat % 16 * 4) (by omega)
      have front : UInt8.ofNat (first.toNat / 4 * 4 +
          (first.toNat % 4 * 16 + second.toNat / 16) / 16) = first := ofNat_eq_byte (by omega)
      have back : UInt8.ofNat ((first.toNat % 4 * 16 + second.toNat / 16) * 16 +
          second.toNat % 16 * 4 / 4) = second := ofNat_eq_byte (by omega)
      have padding : second.toNat % 16 * 4 % 4 = 0 := by omega
      rw [base64Decode]
      · simp only [readA, readB, readC, Option.bind_eq_bind, Option.bind_some, if_pos padding,
          front, back, Option.pure_def]
      · simp [unpadded]
  | case4 first second third rest ih =>
      have high := octet first
      have middle := octet second
      have low := octet third
      obtain ⟨readA, _⟩ := base64Value_digit (first.toNat / 4) (by omega)
      obtain ⟨readB, _⟩ := base64Value_digit (first.toNat % 4 * 16 + second.toNat / 16) (by omega)
      obtain ⟨readC, _⟩ := base64Value_digit (second.toNat % 16 * 4 + third.toNat / 64) (by omega)
      obtain ⟨readD, unpadded⟩ := base64Value_digit (third.toNat % 64) (by omega)
      have front : UInt8.ofNat (first.toNat / 4 * 4 +
          (first.toNat % 4 * 16 + second.toNat / 16) / 16) = first := ofNat_eq_byte (by omega)
      have inner : UInt8.ofNat ((first.toNat % 4 * 16 + second.toNat / 16) * 16 +
          (second.toNat % 16 * 4 + third.toNat / 64) / 4) = second := ofNat_eq_byte (by omega)
      have back : UInt8.ofNat ((second.toNat % 16 * 4 + third.toNat / 64) * 64 +
          third.toNat % 64) = third := ofNat_eq_byte (by omega)
      rw [base64Decode]
      · simp only [readA, readB, readC, readD, ih, Option.bind_eq_bind, Option.bind_some, front,
          inner, back, Option.pure_def]
      · simp [unpadded]
      · simp [unpadded]

example : base64Decode (base64Encode [1, 2, 253, 254, 255]) = some [1, 2, 253, 254, 255] := by
  decide

/-- The keys are decoded as they were encoded. -/
theorem base64_keysRoundTrip : Base64KeysRoundTrip := by
  intro publicKey
  simp only [Crates.base64Decode, Crates.base64Encode, String.toList_ofList, base64Decode_encode]

/-- The key pair whose secret starts with the given byte. -/
def keypair (byte : UInt8) : KeyPair where
  secret := ⟨byte :: List.replicate 31 0, by simp⟩
  publicKey := ⟨byte :: List.replicate 31 0, by simp⟩
  publicOfSecret := rfl

end WolfNet.Sample
