import Mathlib.Data.List.Induction
import WolfNet.Net.Addr

/-!
# Canonical IPv4 addresses

The parser takes no leading zeros, so one address has one text.
-/

namespace WolfNet

open WolfNet.Std

/-- A decimal numeral without leading zeros. -/
structure IsDecimal (digits : List Char) : Prop where
  nonempty : digits ≠ []
  isDigit : ∀ c ∈ digits, (toDigit 10 c).isSome
  noZero : digits.head? = some '0' → digits.length = 1

/-- A digit is below ten. -/
theorem toDigit_lt {c : Char} {value : Nat} (digit : toDigit 10 c = some value) : value < 10 := by
  simp only [toDigit, Option.ite_none_right_eq_some, Option.some.injEq] at digit
  obtain ⟨small, rfl⟩ := digit
  exact small

/-- The decimal digits are the characters from 48 to 57. -/
theorem toNat_of_toDigit {c : Char} {value : Nat} (digit : toDigit 10 c = some value) :
    c.toNat = 48 + value := by
  simp only [toDigit, Option.ite_none_right_eq_some, Option.some.injEq] at digit
  obtain ⟨small, rfl⟩ := digit
  split at small
  · next decimal => rw [if_pos decimal]; omega
  · split at small
    · omega
    · split at small <;> omega

/-- Digits with one value are one digit. -/
theorem toDigit_inj {c other : Char} {value : Nat} (digit : toDigit 10 c = some value)
    (otherDigit : toDigit 10 other = some value) : c = other := by
  rw [← Char.toNat_inj, toNat_of_toDigit digit, toNat_of_toDigit otherDigit]

/-- The value of digits with one more. -/
theorem digitsValue_snoc (digits : List Char) (c : Char) :
    digitsValue 10 (digits ++ [c]) = digitsValue 10 digits * 10 + (toDigit 10 c).getD 0 := by
  simp [digitsValue]

/-- A numeral whose first digit is not zero is positive. -/
theorem digitsValue_pos {digits : List Char} (isDigit : ∀ c ∈ digits, (toDigit 10 c).isSome)
    (nonempty : digits ≠ []) (noZero : digits.head? ≠ some '0') : 0 < digitsValue 10 digits := by
  induction digits using List.reverseRecOn with
  | nil => exact absurd rfl nonempty
  | append_singleton digits c ih =>
      rw [digitsValue_snoc]
      by_cases front : digits = []
      · subst front
        obtain ⟨value, digit⟩ := Option.isSome_iff_exists.mp (isDigit c (by simp))
        have positive : value ≠ 0 := by
          rintro rfl
          exact noZero (by rw [List.nil_append, List.head?_cons,
            @toDigit_inj c '0' 0 digit (by decide)])
        rw [digit, Option.getD_some]
        omega
      · have frontPositive := ih (fun d member => isDigit d (List.mem_append_left _ member)) front
          (by rwa [List.head?_append_of_ne_nil _ front] at noZero)
        omega

/-- The front of a decimal is one, and not zero. -/
theorem IsDecimal.front {digits : List Char} {c : Char} (decimal : IsDecimal (digits ++ [c]))
    (nonempty : digits ≠ []) : IsDecimal digits ∧ 0 < digitsValue 10 digits := by
  have noZero : digits.head? ≠ some '0' := by
    intro zero
    have short := decimal.noZero (by rwa [List.head?_append_of_ne_nil _ nonempty])
    rw [List.length_append, List.length_singleton] at short
    exact nonempty (List.length_eq_zero_iff.mp (by omega))
  have isDigit := fun d member => decimal.isDigit d (List.mem_append_left _ member)
  exact ⟨⟨nonempty, isDigit, fun zero => absurd zero noZero⟩,
    digitsValue_pos isDigit nonempty noZero⟩

/-- A number has one numeral. -/
theorem IsDecimal.eq_of_value {digits other : List Char} (decimal : IsDecimal digits)
    (otherDecimal : IsDecimal other) (same : digitsValue 10 digits = digitsValue 10 other) :
    digits = other := by
  induction digits using List.reverseRecOn generalizing other with
  | nil => exact absurd rfl decimal.nonempty
  | append_singleton digits c ih =>
      obtain ⟨others, d, rfl⟩ : ∃ others d, other = others ++ [d] :=
        ⟨_, _, (List.dropLast_append_getLast otherDecimal.nonempty).symm⟩
      obtain ⟨value, digit⟩ := Option.isSome_iff_exists.mp (decimal.isDigit c (by simp))
      obtain ⟨otherValue, otherDigit⟩ :=
        Option.isSome_iff_exists.mp (otherDecimal.isDigit d (by simp))
      rw [digitsValue_snoc, digitsValue_snoc, digit, otherDigit, Option.getD_some,
        Option.getD_some] at same
      have bound := toDigit_lt digit
      have otherBound := toDigit_lt otherDigit
      have last : value = otherValue := by omega
      have fronts : digitsValue 10 digits = digitsValue 10 others := by omega
      subst last
      rw [toDigit_inj digit otherDigit]
      by_cases empty : digits = []
      · by_cases otherEmpty : others = []
        · rw [empty, otherEmpty]
        · have positive := (otherDecimal.front otherEmpty).2
          rw [← fronts, empty] at positive
          exact absurd positive (by decide)
      · by_cases otherEmpty : others = []
        · have positive := (decimal.front empty).2
          rw [fronts, otherEmpty] at positive
          exact absurd positive (by decide)
        · rw [ih (decimal.front empty).1 (otherDecimal.front otherEmpty).1 fronts]

namespace AddrParser

/-- A number that was read is the numeral in front of the rest. -/
theorem readNumber_some {maxDigits : Option Nat} {limit value : Nat} {input rest : List Char}
    (read : readNumber 10 maxDigits false limit input = some (value, rest)) :
    ∃ digits, input = digits ++ rest ∧ IsDecimal digits ∧ digitsValue 10 digits = value ∧
      value ≤ limit := by
  unfold readNumber at read
  dsimp only at read
  split at read
  · cases read
  · next accepted =>
      cases read
      simp only [Bool.or_eq_true, List.isEmpty_iff, Bool.not_false, Bool.true_and, Bool.and_eq_true,
        beq_iff_eq, decide_eq_true_eq, not_or, not_and, Nat.not_lt] at accepted
      obtain ⟨⟨⟨nonempty, _⟩, noZero⟩, bounded⟩ := accepted
      refine ⟨_, (List.takeWhile_append_dropWhile ..).symm, ⟨nonempty, ?_, ?_⟩, rfl, bounded⟩
      · exact fun c member => List.all_eq_true.mp List.all_takeWhile c member
      · intro zero
        have some := List.length_pos_iff.mpr nonempty
        have few := noZero zero
        omega

/-- What is read behind a separator begins with it. -/
theorem readSeparator_some {α : Type} {separator : Char} {inner : Parser α} {value : α}
    {input rest : List Char}
    (read : readSeparator separator false inner input = some (value, rest)) :
    ∃ after, input = separator :: after ∧ inner after = some (value, rest) := by
  rw [readSeparator, if_neg Bool.false_ne_true, Option.bind_eq_some_iff] at read
  obtain ⟨⟨_, after⟩, given, item⟩ := read
  cases input with
  | nil => cases given
  | cons c input =>
      rw [readGivenChar] at given
      split at given
      · next same =>
          cases given
          exact ⟨after, by rw [same], item⟩
      · cases given

end AddrParser

/-- The text of an address: four numerals between dots. -/
structure IsIpv4Text (ip : Ipv4Addr) (text : List Char) (a b c d : List Char) : Prop where
  shape : text = a ++ '.' :: (b ++ '.' :: (c ++ '.' :: d))
  decimal : IsDecimal a ∧ IsDecimal b ∧ IsDecimal c ∧ IsDecimal d
  values : digitsValue 10 a = ip.a.toNat ∧ digitsValue 10 b = ip.b.toNat ∧
    digitsValue 10 c = ip.c.toNat ∧ digitsValue 10 d = ip.d.toNat

/-- Only the text of an address is parsed as one. -/
theorem Ipv4Addr.parse_some {text : List Char} {ip : Ipv4Addr}
    (parsed : Ipv4Addr.parse text = some ip) :
    ∃ a b c d, IsIpv4Text ip text a b c d := by
  unfold Ipv4Addr.parse AddrParser.parseWith AddrParser.readIpv4Addr at parsed
  split at parsed
  · cases parsed
  split at parsed
  · next value read =>
      cases parsed
      simp only [Option.bind_eq_bind, Option.bind_eq_some_iff, Prod.exists, Option.pure_def,
        Option.some.injEq, Prod.mk.injEq] at read
      obtain ⟨va, ra, readA, vb, rb, readB, vc, rc, readC, vd, rd, readD, rfl, rfl⟩ := read
      obtain ⟨a, rfl, decimalA, rfl, boundA⟩ := AddrParser.readNumber_some readA
      obtain ⟨afterA, rfl, readB⟩ := AddrParser.readSeparator_some readB
      obtain ⟨b, rfl, decimalB, rfl, boundB⟩ := AddrParser.readNumber_some readB
      obtain ⟨afterB, rfl, readC⟩ := AddrParser.readSeparator_some readC
      obtain ⟨c, rfl, decimalC, rfl, boundC⟩ := AddrParser.readNumber_some readC
      obtain ⟨afterC, rfl, readD⟩ := AddrParser.readSeparator_some readD
      obtain ⟨d, rfl, decimalD, rfl, boundD⟩ := AddrParser.readNumber_some readD
      have octet : ∀ {value : Nat}, value ≤ 255 → value = (UInt8.ofNat value).toNat := by
        intro value bounded
        rw [UInt8.toNat_ofNat']
        omega
      exact ⟨a, b, c, d, by rw [List.append_nil], ⟨decimalA, decimalB, decimalC, decimalD⟩,
        octet boundA, octet boundB, octet boundC, octet boundD⟩
  · cases parsed

/-- Two texts of one address are the same. -/
theorem Ipv4Addr.parse_inj {text other : List Char} {ip : Ipv4Addr}
    (parsed : Ipv4Addr.parse text = some ip) (otherParsed : Ipv4Addr.parse other = some ip) :
    text = other := by
  obtain ⟨a, b, c, d, shape, ⟨decimalA, decimalB, decimalC, decimalD⟩, valueA, valueB, valueC,
    valueD⟩ :=
    Ipv4Addr.parse_some parsed
  obtain ⟨a', b', c', d', shape', ⟨decimalA', decimalB', decimalC', decimalD'⟩, valueA', valueB',
    valueC', valueD'⟩ := Ipv4Addr.parse_some otherParsed
  rw [shape, shape', decimalA.eq_of_value decimalA' (valueA.trans valueA'.symm),
    decimalB.eq_of_value decimalB' (valueB.trans valueB'.symm),
    decimalC.eq_of_value decimalC' (valueC.trans valueC'.symm),
    decimalD.eq_of_value decimalD' (valueD.trans valueD'.symm)]

/-- A text of an IPv4 address is no text of an IPv6 address. -/
theorem Ipv6Addr.parse_eq_none {text : List Char} {ip : Ipv4Addr}
    (parsed : Ipv4Addr.parse text = some ip) :
    Ipv6Addr.parse text = none := by
  rw [Ipv4Addr.parse, Option.ite_none_left_eq_some, AddrParser.parseWith] at parsed
  obtain ⟨_, parsed⟩ := parsed
  split at parsed
  · next value read =>
      -- The whole text is taken for an embedded IPv4 address, which makes two groups of eight.
      have groups : AddrParser.readGroups 8 true text =
          ([value.a.toNat * 256 + value.b.toNat, value.c.toNat * 256 + value.d.toNat], true,
            []) := by
        simp [AddrParser.readGroups, AddrParser.readSeparator, read]
      simp [Ipv6Addr.parse, AddrParser.parseWith, AddrParser.readIpv6Addr, groups]
  · cases parsed

end WolfNet
