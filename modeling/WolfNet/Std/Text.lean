import Mathlib.Data.List.Basic

/-!
# Text as the standard library reads it

Trimming, integer parsing and UTF-8 decoding with the rules of Rust's `str`.
Strings are read as lists of characters; byte strings as lists of bytes.
-/

namespace WolfNet.Std

/-- Unicode `White_Space`, which `str::trim` removes. -/
def isWhitespace (c : Char) : Bool :=
  let code := c.toNat
  (9 ≤ code && code ≤ 13) || code == 0x20 || code == 0x85 || code == 0xA0 || code == 0x1680 ||
    (0x2000 ≤ code && code ≤ 0x200A) || code == 0x2028 || code == 0x2029 || code == 0x202F ||
    code == 0x205F || code == 0x3000

/-- `char::is_ascii_alphanumeric` by code points. -/
theorem toNat_of_isAlphanum {c : Char} (alphanumeric : c.isAlphanum = true) :
    ((65 ≤ c.toNat ∧ c.toNat ≤ 90) ∨ 97 ≤ c.toNat ∧ c.toNat ≤ 122) ∨
      48 ≤ c.toNat ∧ c.toNat ≤ 57 := by
  change (decide ('A'.val ≤ c.val ∧ c.val ≤ 'Z'.val) ||
    (decide ('a'.val ≤ c.val) && decide (c.val ≤ 'z'.val)) ||
    (decide ('0'.val ≤ c.val) && decide (c.val ≤ '9'.val))) = true at alphanumeric
  simp only [Bool.or_eq_true, Bool.and_eq_true, decide_eq_true_eq, UInt32.le_iff_toNat_le,
    UInt32.reduceToNat, Char.reduceVal] at alphanumeric
  exact alphanumeric

/-- `str::trim`. -/
def trim (text : String) : String :=
  String.ofList ((text.toList.dropWhile isWhitespace).reverse.dropWhile isWhitespace).reverse

/-- A text without white space is trimmed already. -/
theorem trim_of_ink {text : String} (ink : ∀ c ∈ text.toList, isWhitespace c = false) :
    trim text = text := by
  have kept : ∀ chars : List Char, (∀ c ∈ chars, isWhitespace c = false) →
      chars.dropWhile isWhitespace = chars := by
    intro chars ink
    cases chars with
    | nil => rfl
    | cons c chars => rw [List.dropWhile_cons_of_neg (by simp [ink c List.mem_cons_self])]
  have reversed : ∀ c ∈ text.toList.reverse, isWhitespace c = false := fun c member =>
    ink c (List.mem_reverse.mp member)
  rw [trim, kept _ ink, kept _ reversed, List.reverse_reverse, String.ofList_toList]

/-- `char::to_digit`. -/
def toDigit (radix : Nat) (c : Char) : Option Nat :=
  let code := c.toNat
  let value :=
    if 48 ≤ code ∧ code ≤ 57 then code - 48
    else if 97 ≤ code ∧ code ≤ 122 then code - 87
    else if 65 ≤ code ∧ code ≤ 90 then code - 55
    else radix
  if value < radix then some value else none

/-- The number written by a string of digits. -/
def digitsValue (radix : Nat) (digits : List Char) : Nat :=
  digits.foldl (fun value c => value * radix + (toDigit radix c).getD 0) 0

/-- `str::parse` at an unsigned type whose greatest value is `limit`. -/
def parseUnsigned (limit : Nat) (text : List Char) : Option Nat :=
  let digits := match text with
    | '+' :: rest => rest
    | _ => text
  if digits.isEmpty || !digits.all (fun c => (toDigit 10 c).isSome) then none
  else if digitsValue 10 digits ≤ limit then some (digitsValue 10 digits) else none

/-- `str::parse::<u16>`. -/
def parseU16 (text : List Char) : Option UInt16 := (parseUnsigned 65535 text).map UInt16.ofNat

/-- `str::parse::<u8>`. -/
def parseU8 (text : List Char) : Option UInt8 := (parseUnsigned 255 text).map UInt8.ofNat

/-- The value of a decimal digit. -/
theorem toDigit_ten {c : Char} (digit : c.isDigit = true) :
    toDigit 10 c = some (c.toNat - 48) := by
  have range : 48 ≤ c.toNat ∧ c.toNat ≤ 57 := by
    simpa [Char.isDigit, UInt32.le_iff_toNat_le] using digit
  rw [toDigit, if_pos range, if_pos (by omega)]

/-- The value of decimal digits. -/
theorem digitsValue_ten {digits : List Char} (decimal : ∀ c ∈ digits, c.isDigit = true) :
    digitsValue 10 digits = Nat.ofDigitChars 10 digits 0 := by
  have step : ∀ start, digits.foldl (fun value c => value * 10 + (toDigit 10 c).getD 0) start =
      Nat.ofDigitChars 10 digits start := by
    induction digits with
    | nil => exact fun start => rfl
    | cons c digits ih =>
        intro start
        obtain ⟨first, rest⟩ := List.forall_mem_cons.mp decimal
        rw [List.foldl_cons, ih rest, Nat.ofDigitChars_cons, toDigit_ten first, Option.getD_some,
          Nat.mul_comm start 10]
        rfl
  exact step 0

/-- A number in range is read from its decimal numeral. -/
theorem parseUnsigned_toDigits {limit value : Nat} (inRange : value ≤ limit) :
    parseUnsigned limit (Nat.toDigits 10 value) = some value := by
  have decimal : ∀ c ∈ Nat.toDigits 10 value, c.isDigit = true := fun c member =>
    Nat.isDigit_of_mem_toDigits (by decide) (by decide) member
  have number : digitsValue 10 (Nat.toDigits 10 value) = value := by
    rw [digitsValue_ten decimal, Nat.ofDigitChars_ten_toDigits]
  have read : ∀ c ∈ Nat.toDigits 10 value, (toDigit 10 c).isSome = true := fun c member => by
    rw [toDigit_ten (decimal c member), Option.isSome_some]
  have nonempty : Nat.toDigits 10 value ≠ [] := Nat.toDigits_ne_nil
  generalize Nat.toDigits 10 value = numeral at *
  cases numeral with
  | nil => exact absurd rfl nonempty
  | cons c digits =>
      have unsigned : c ≠ '+' := by
        rintro rfl
        exact absurd (decimal '+' List.mem_cons_self) (by decide)
      simp [parseUnsigned, unsigned, List.all_eq_true.mpr read, number, inRange]

/-- `str::from_utf8`. -/
def fromUtf8 (bytes : List UInt8) : Option String := String.fromUTF8? ⟨bytes.toArray⟩

/-- A byte that continues a UTF-8 sequence. -/
def isContinuation (byte : UInt8) : Bool := 0x80 ≤ byte && byte ≤ 0xBF

/-- The second bytes that may follow a lead byte of a three-byte sequence. -/
def secondOfThree (lead byte : UInt8) : Bool :=
  if lead = 0xE0 then 0xA0 ≤ byte && byte ≤ 0xBF
  else if lead = 0xED then 0x80 ≤ byte && byte ≤ 0x9F
  else isContinuation byte

/-- The second bytes that may follow a lead byte of a four-byte sequence. -/
def secondOfFour (lead byte : UInt8) : Bool :=
  if lead = 0xF0 then 0x90 ≤ byte && byte ≤ 0xBF
  else if lead = 0xF4 then 0x80 ≤ byte && byte ≤ 0x8F
  else isContinuation byte

/-- The character encoded by a lead byte's payload and its continuation bytes. -/
def decodeChar (payload : Nat) (continuations : List UInt8) : Char :=
  Char.ofNat (continuations.foldl (fun code byte => code * 64 + (byte.toNat - 0x80)) payload)

/-- The character that stands for an undecodable sequence. -/
def replacementChar : Char := Char.ofNat 0xFFFD

/-- `String::from_utf8_lossy`: the longest undecodable prefix of a sequence, and at
least one byte, becomes one replacement character. -/
def lossyChars : List UInt8 → List Char
  | [] => []
  | lead :: rest =>
    if lead < 0x80 then Char.ofNat lead.toNat :: lossyChars rest
    else if 0xC2 ≤ lead ∧ lead ≤ 0xDF then
      match rest with
      | b1 :: rest1 =>
        if isContinuation b1 then decodeChar (lead.toNat - 0xC0) [b1] :: lossyChars rest1
        else replacementChar :: lossyChars (b1 :: rest1)
      | [] => [replacementChar]
    else if 0xE0 ≤ lead ∧ lead ≤ 0xEF then
      match rest with
      | b1 :: rest1 =>
        if secondOfThree lead b1 then
          match rest1 with
          | b2 :: rest2 =>
            if isContinuation b2 then decodeChar (lead.toNat - 0xE0) [b1, b2] :: lossyChars rest2
            else replacementChar :: lossyChars (b2 :: rest2)
          | [] => [replacementChar]
        else replacementChar :: lossyChars (b1 :: rest1)
      | [] => [replacementChar]
    else if 0xF0 ≤ lead ∧ lead ≤ 0xF4 then
      match rest with
      | b1 :: rest1 =>
        if secondOfFour lead b1 then
          match rest1 with
          | b2 :: rest2 =>
            if isContinuation b2 then
              match rest2 with
              | b3 :: rest3 =>
                if isContinuation b3 then
                  decodeChar (lead.toNat - 0xF0) [b1, b2, b3] :: lossyChars rest3
                else replacementChar :: lossyChars (b3 :: rest3)
              | [] => [replacementChar]
            else replacementChar :: lossyChars (b2 :: rest2)
          | [] => [replacementChar]
        else replacementChar :: lossyChars (b1 :: rest1)
      | [] => [replacementChar]
    else replacementChar :: lossyChars rest

/-- `String::from_utf8_lossy(bytes).to_string()`. -/
def fromUtf8Lossy (bytes : List UInt8) : String := String.ofList (lossyChars bytes)

example : lossyChars [0x61, 0xE2, 0x82, 0xAC, 0xE2, 0x82, 0x62] = ['a', '€', '\uFFFD', 'b'] := by
  decide

/-- The length of a text in UTF-8, which is its `len`. -/
def byteLength : List Char → Nat
  | [] => 0
  | c :: text => c.utf8Size + byteLength text

/-- A text cut at a byte offset, which must lie between two characters. -/
def splitAtByte : Nat → List Char → Option (List Char × List Char)
  | 0, text => some ([], text)
  | _ + 1, [] => none
  | stop + 1, c :: rest =>
    if c.utf8Size ≤ stop + 1 then
      (splitAtByte (stop + 1 - c.utf8Size) rest).map fun parts => (c :: parts.1, parts.2)
    else none

/-- No text has no bytes. -/
@[simp] theorem byteLength_nil : byteLength [] = 0 := rfl

/-- The bytes of a longer text. -/
@[simp] theorem byteLength_cons (c : Char) (text : List Char) :
    byteLength (c :: text) = c.utf8Size + byteLength text := rfl

/-- The bytes of two texts in a row. -/
@[simp] theorem byteLength_append (front back : List Char) :
    byteLength (front ++ back) = byteLength front + byteLength back := by
  induction front with
  | nil => simp
  | cons c front ih => simp [ih, Nat.add_assoc]

/-- An ASCII character is one byte. -/
theorem utf8Size_ascii {c : Char} (ascii : c.toNat < 128) : c.utf8Size = 1 := by
  rw [Char.utf8Size_eq_one_iff, UInt32.le_iff_toNat_le]
  exact Nat.le_of_lt_succ ascii

/-- An ASCII text has as many bytes as characters. -/
theorem byteLength_ascii {text : List Char} (ascii : ∀ c ∈ text, c.toNat < 128) :
    byteLength text = text.length := by
  induction text with
  | nil => rfl
  | cons c text ih =>
      obtain ⟨first, rest⟩ := List.forall_mem_cons.mp ascii
      rw [byteLength_cons, utf8Size_ascii first, ih rest, List.length_cons, Nat.add_comm]

/-- An ASCII text can be cut anywhere. -/
theorem splitAtByte_ascii {text : List Char} (ascii : ∀ c ∈ text, c.toNat < 128) {stop : Nat}
    (bounded : stop ≤ text.length) :
    splitAtByte stop text = some (text.take stop, text.drop stop) := by
  induction text generalizing stop with
  | nil =>
      cases Nat.le_zero.mp bounded
      rfl
  | cons c text ih =>
      obtain ⟨first, rest⟩ := List.forall_mem_cons.mp ascii
      cases stop with
      | zero => rfl
      | succ stop =>
          have cut := ih rest (Nat.le_of_succ_le_succ bounded)
          simp [splitAtByte, utf8Size_ascii first, cut]

end WolfNet.Std
