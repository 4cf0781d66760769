import WolfNet.Std.Lines

/-!
# What the lossy decoder keeps

A character of a text is one, two, three or four bytes, and its lead byte tells how many.
`String::from_utf8_lossy` reads each such sequence back, so it loses nothing of the bytes of a
text: `fromUtf8Lossy_utf8`.
-/

namespace WolfNet.Std

/-- A number below 256 is its byte's. -/
theorem toNat_ofNat_byte {value : Nat} (small : value < 256) :
    (UInt8.ofNat value).toNat = value := by
  rw [UInt8.toNat_ofNat', Nat.mod_eq_of_lt small]

/-- The bytes that continue a sequence. -/
theorem isContinuation_iff {byte : UInt8} :
    isContinuation byte = true ↔ 0x80 ≤ byte.toNat ∧ byte.toNat ≤ 0xBF := by
  simp [isContinuation, UInt8.le_iff_toNat_le]

/-- The second byte of three is a continuation, short of an overlong form or a surrogate. -/
theorem secondOfThree_of {lead byte : UInt8} (continues : isContinuation byte = true)
    (long : lead.toNat = 0xE0 → 0xA0 ≤ byte.toNat)
    (scalar : lead.toNat = 0xED → byte.toNat ≤ 0x9F) : secondOfThree lead byte = true := by
  obtain ⟨low, high⟩ := isContinuation_iff.mp continues
  unfold secondOfThree
  split
  · next first =>
      have := long (congrArg UInt8.toNat first)
      simp [UInt8.le_iff_toNat_le, this, high]
  · split
    · next last =>
        have := scalar (congrArg UInt8.toNat last)
        simp [UInt8.le_iff_toNat_le, this, low]
    · exact continues

/-- The second byte of four is a continuation, short of an overlong form or the end of the
code points. -/
theorem secondOfFour_of {lead byte : UInt8} (continues : isContinuation byte = true)
    (long : lead.toNat = 0xF0 → 0x90 ≤ byte.toNat)
    (scalar : lead.toNat = 0xF4 → byte.toNat ≤ 0x8F) : secondOfFour lead byte = true := by
  obtain ⟨low, high⟩ := isContinuation_iff.mp continues
  unfold secondOfFour
  split
  · next first =>
      have := long (congrArg UInt8.toNat first)
      simp [UInt8.le_iff_toNat_le, this, high]
  · split
    · next last =>
        have := scalar (congrArg UInt8.toNat last)
        simp [UInt8.le_iff_toNat_le, this, low]
    · exact continues

section Sequences

variable {lead b1 b2 b3 : UInt8} {rest : List UInt8}

/-- A sequence of one byte. -/
theorem lossyChars_one (ascii : lead.toNat < 0x80) :
    lossyChars (lead :: rest) = Char.ofNat lead.toNat :: lossyChars rest := by
  conv_lhs => unfold lossyChars
  rw [if_pos (UInt8.lt_iff_toNat_lt.mpr ascii)]

/-- A sequence of two bytes. -/
theorem lossyChars_two (low : 0xC2 ≤ lead.toNat) (high : lead.toNat ≤ 0xDF)
    (first : isContinuation b1 = true) :
    lossyChars (lead :: b1 :: rest) = decodeChar (lead.toNat - 0xC0) [b1] :: lossyChars rest := by
  conv_lhs => unfold lossyChars
  simp only [UInt8.lt_iff_toNat_lt, UInt8.le_iff_toNat_le, UInt8.reduceToNat]
  rw [if_neg (by omega), if_pos ⟨low, high⟩, if_pos first]

/-- A sequence of three bytes. -/
theorem lossyChars_three (low : 0xE0 ≤ lead.toNat) (high : lead.toNat ≤ 0xEF)
    (first : secondOfThree lead b1 = true) (second : isContinuation b2 = true) :
    lossyChars (lead :: b1 :: b2 :: rest) =
      decodeChar (lead.toNat - 0xE0) [b1, b2] :: lossyChars rest := by
  conv_lhs => unfold lossyChars
  simp only [UInt8.lt_iff_toNat_lt, UInt8.le_iff_toNat_le, UInt8.reduceToNat]
  rw [if_neg (by omega), if_neg (by omega), if_pos ⟨low, high⟩, if_pos first, if_pos second]

/-- A sequence of four bytes. -/
theorem lossyChars_four (low : 0xF0 ≤ lead.toNat) (high : lead.toNat ≤ 0xF4)
    (first : secondOfFour lead b1 = true) (second : isContinuation b2 = true)
    (third : isContinuation b3 = true) :
    lossyChars (lead :: b1 :: b2 :: b3 :: rest) =
      decodeChar (lead.toNat - 0xF0) [b1, b2, b3] :: lossyChars rest := by
  conv_lhs => unfold lossyChars
  simp only [UInt8.lt_iff_toNat_lt, UInt8.le_iff_toNat_le, UInt8.reduceToNat]
  rw [if_neg (by omega), if_neg (by omega), if_neg (by omega), if_pos ⟨low, high⟩, if_pos first,
    if_pos second, if_pos third]

end Sequences

/-- A continuation byte with six bits of a code point. -/
theorem isContinuation_six (bits : Nat) :
    isContinuation (UInt8.ofNat (bits % 64 + 0x80)) = true := by
  rw [isContinuation_iff, toNat_ofNat_byte (by omega)]
  omega

/-- The bytes of a character, by its code point. -/
theorem utf8EncodeChar_eq (c : Char) : String.utf8EncodeChar c =
    if c.toNat ≤ 0x7F then [UInt8.ofNat c.toNat]
    else if c.toNat ≤ 0x7FF then
      [UInt8.ofNat (c.toNat / 64 % 32 + 0xC0), UInt8.ofNat (c.toNat % 64 + 0x80)]
    else if c.toNat ≤ 0xFFFF then
      [UInt8.ofNat (c.toNat / 4096 % 16 + 0xE0), UInt8.ofNat (c.toNat / 64 % 64 + 0x80),
        UInt8.ofNat (c.toNat % 64 + 0x80)]
    else
      [UInt8.ofNat (c.toNat / 262144 % 8 + 0xF0), UInt8.ofNat (c.toNat / 4096 % 64 + 0x80),
        UInt8.ofNat (c.toNat / 64 % 64 + 0x80), UInt8.ofNat (c.toNat % 64 + 0x80)] := rfl

/-- The six bits of a continuation byte. -/
theorem toNat_six (bits : Nat) : (UInt8.ofNat (bits % 64 + 0x80)).toNat - 0x80 = bits % 64 := by
  rw [toNat_ofNat_byte (by omega)]
  omega

/-- The bytes of a character are read as that character. -/
theorem lossyChars_utf8EncodeChar (c : Char) (rest : List UInt8) :
    lossyChars (String.utf8EncodeChar c ++ rest) = c :: lossyChars rest := by
  have whole : Char.ofNat c.toNat = c := Char.ofNat_toNat c
  have scalar : c.toNat < 0xD800 ∨ 0xDFFF < c.toNat ∧ c.toNat < 0x110000 := c.valid
  rw [utf8EncodeChar_eq]
  generalize c.toNat = code at *
  split_ifs with one two three
  · have lead : (UInt8.ofNat code).toNat = code := toNat_ofNat_byte (by omega)
    rw [List.singleton_append, lossyChars_one (by omega), lead, whole]
  · have lead : (UInt8.ofNat (code / 64 % 32 + 0xC0)).toNat = code / 64 % 32 + 0xC0 :=
      toNat_ofNat_byte (by omega)
    have value : (code / 64 % 32 + 0xC0 - 0xC0) * 64 + code % 64 = code := by omega
    rw [List.cons_append, List.singleton_append,
      lossyChars_two (by omega) (by omega) (isContinuation_six code), decodeChar, lead]
    simp only [List.foldl_cons, List.foldl_nil, toNat_six, value, whole]
  · have lead : (UInt8.ofNat (code / 4096 % 16 + 0xE0)).toNat = code / 4096 % 16 + 0xE0 :=
      toNat_ofNat_byte (by omega)
    have second : (UInt8.ofNat (code / 64 % 64 + 0x80)).toNat = code / 64 % 64 + 0x80 :=
      toNat_ofNat_byte (by omega)
    have value : ((code / 4096 % 16 + 0xE0 - 0xE0) * 64 + code / 64 % 64) * 64 + code % 64 =
        code := by omega
    rw [List.cons_append, List.cons_append, List.singleton_append,
      lossyChars_three (by omega) (by omega)
        (secondOfThree_of (isContinuation_six _) (by omega) (by omega))
        (isContinuation_six _), decodeChar, lead]
    simp only [List.foldl_cons, List.foldl_nil, toNat_six, value, whole]
  · have lead : (UInt8.ofNat (code / 262144 % 8 + 0xF0)).toNat = code / 262144 % 8 + 0xF0 :=
      toNat_ofNat_byte (by omega)
    have second : (UInt8.ofNat (code / 4096 % 64 + 0x80)).toNat = code / 4096 % 64 + 0x80 :=
      toNat_ofNat_byte (by omega)
    have value : (((code / 262144 % 8 + 0xF0 - 0xF0) * 64 + code / 4096 % 64) * 64 +
        code / 64 % 64) * 64 + code % 64 = code := by omega
    rw [List.cons_append, List.cons_append, List.cons_append, List.singleton_append,
      lossyChars_four (by omega) (by omega)
        (secondOfFour_of (isContinuation_six _) (by omega) (by omega))
        (isContinuation_six _) (isContinuation_six _), decodeChar, lead]
    simp only [List.foldl_cons, List.foldl_nil, toNat_six, value, whole]

/-- Decoding what was encoded gives the text back. -/
theorem lossyChars_flatMap (text : List Char) :
    lossyChars (text.flatMap String.utf8EncodeChar) = text := by
  induction text with
  | nil => rfl
  | cons c text ih => rw [List.flatMap_cons, lossyChars_utf8EncodeChar, ih]

/-- Nothing of a text is lost. -/
theorem fromUtf8Lossy_utf8 (text : String) : fromUtf8Lossy (utf8 text) = text := by
  obtain ⟨chars, rfl⟩ : ∃ chars, text = String.ofList chars := ⟨text.toList, by simp⟩
  rw [fromUtf8Lossy, utf8_ofList, lossyChars_flatMap]

/-- The bytes that `str::from_utf8` accepts are those of the text it gives. -/
theorem utf8_of_fromUtf8 {bytes : List UInt8} {text : String}
    (decoded : fromUtf8 bytes = some text) : utf8 text = bytes := by
  rw [fromUtf8, String.fromUTF8?] at decoded
  split at decoded
  · cases decoded
    rfl
  · cases decoded

end WolfNet.Std
