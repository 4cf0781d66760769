import WolfNet.Crates.Sample
import WolfNet.Transport

/-!
# The discovery codec

A broadcast is eight fields with `|` between them, and nothing escapes a `|` inside of one. The
parser counts fields, so a message comes back exactly when neither its node ID nor its host name
holds a separator: `discovery_roundTrip_iff`.
-/

namespace WolfNet

open WolfNet.Std

section Fields

variable {separator : Char} {part rest : List Char}

/-- A part without the separator is not split. -/
theorem splitAll_clean (clean : separator ∉ part) : splitAll separator part = [part] := by
  induction part with
  | nil => rfl
  | cons c part ih =>
      have different := Ne.symm (List.ne_of_not_mem_cons clean)
      rw [splitAll, if_neg different, ih (List.not_mem_of_not_mem_cons clean)]

/-- A field without separators is split off whole. -/
theorem splitAll_append (clean : separator ∉ part) :
    splitAll separator (part ++ separator :: rest) = part :: splitAll separator rest := by
  induction part with
  | nil => rw [List.nil_append, splitAll, if_pos rfl]
  | cons c part ih =>
      have different := Ne.symm (List.ne_of_not_mem_cons clean)
      rw [List.cons_append, splitAll, if_neg different, ih (List.not_mem_of_not_mem_cons clean)]

/-- A text has one part at least. -/
theorem splitAll_ne_nil (text : List Char) : splitAll separator text ≠ [] := by
  fun_cases splitAll separator text <;> simp [*]

/-- No field that was split off holds a separator. -/
theorem clean_of_mem_splitAll {text : List Char} (member : part ∈ splitAll separator text) :
    separator ∉ part := by
  induction text generalizing part with
  | nil =>
      rw [splitAll, List.mem_singleton] at member
      rw [member]
      exact List.not_mem_nil
  | cons c text ih =>
      rw [splitAll] at member
      split at member
      · rcases List.mem_cons.mp member with rfl | later
        · exact List.not_mem_nil
        · exact ih later
      · next different =>
          cases parts : splitAll separator text with
          | nil => exact absurd parts (splitAll_ne_nil text)
          | cons first others =>
              rw [parts] at member ih
              rcases List.mem_cons.mp member with rfl | later
              · exact List.not_mem_cons_of_ne_of_not_mem (Ne.symm different) (ih List.mem_cons_self)
              · exact ih (List.mem_cons_of_mem first later)

end Fields

section Codec

variable [Crates]

omit [Crates] in
/-- A written address has no separator. -/
theorem chars_clean (ip : Ipv4Addr) : '|' ∉ ip.chars := by
  have octet (byte : UInt8) : '|' ∉ octetText byte := fun member =>
    absurd (Nat.isDigit_of_mem_toDigits (by decide) (by decide) member) (by decide)
  simp [Ipv4Addr.chars, octet]

/-- The eight fields of a message, one after another. -/
theorem toList_formatDiscovery (message : Discovery) :
    (formatDiscovery message.nodeId message.publicKey message.wolfnetIp message.listenPort
      message.hostname message.isGateway).toList =
      "WOLFNET".toList ++ '|' :: (['1'] ++ '|' :: (message.nodeId.toList ++ '|' ::
        ((Crates.base64Encode message.publicKey.1).toList ++ '|' ::
          (message.wolfnetIp.chars ++ '|' :: (Nat.toDigits 10 message.listenPort.toNat ++ '|' ::
            (message.hostname.toList ++ '|' :: [if message.isGateway then 'G' else 'N'])))))) := by
  have front : "WOLFNET|1|".toList = "WOLFNET".toList ++ '|' :: (['1'] ++ ['|']) := by simp
  have bar : "|".toList = ['|'] := by simp
  have flag : (if message.isGateway then "G" else "N").toList =
      [if message.isGateway then 'G' else 'N'] := by
    cases message.isGateway <;> simp
  unfold formatDiscovery
  simp only [toString, Ipv4Addr.toText, String.toList_append, String.toList_ofList, front, bar,
    flag, List.append_assoc, List.cons_append, List.nil_append]

/-- The fields of a message whose names hold no separator. -/
theorem splitAll_formatDiscovery (base64 : Base64Padded) (message : Discovery)
    (nodeId : '|' ∉ message.nodeId.toList) (hostname : '|' ∉ message.hostname.toList) :
    splitAll '|' (formatDiscovery message.nodeId message.publicKey message.wolfnetIp
      message.listenPort message.hostname message.isGateway).toList =
      ["WOLFNET".toList, ['1'], message.nodeId.toList,
        (Crates.base64Encode message.publicKey.1).toList, message.wolfnetIp.chars,
        Nat.toDigits 10 message.listenPort.toNat, message.hostname.toList,
        [if message.isGateway then 'G' else 'N']] := by
  have key : '|' ∉ (Crates.base64Encode message.publicKey.1).toList := fun member =>
    absurd (toNat_of_isBase64Char (base64.alphabet _ _ member)).2.1 (by decide)
  have port : '|' ∉ Nat.toDigits 10 message.listenPort.toNat := fun member =>
    absurd (Nat.isDigit_of_mem_toDigits (by decide) (by decide) member) (by decide)
  have gateway : '|' ∉ [if message.isGateway then 'G' else 'N'] := by
    cases message.isGateway <;> decide
  rw [toList_formatDiscovery, splitAll_append (by decide), splitAll_append (by decide),
    splitAll_append nodeId, splitAll_append key, splitAll_append (chars_clean _),
    splitAll_append port, splitAll_append hostname, splitAll_clean gateway]

/-- A name that was parsed holds no separator. -/
theorem clean_of_parseDiscovery {text : String} {message : Discovery}
    (parsed : parseDiscovery text = some message) :
    '|' ∉ message.nodeId.toList ∧ '|' ∉ message.hostname.toList := by
  rw [parseDiscovery] at parsed
  split at parsed
  · next tag version nodeId key ip port hostname gateway others fields =>
      have clean : ∀ part ∈ splitAll '|' text.toList, '|' ∉ part := fun _ => clean_of_mem_splitAll
      rw [fields] at clean
      split at parsed
      · cases parsed
      · simp only [Option.bind_eq_bind, Option.bind_eq_some_iff, Option.pure_def,
          Option.some.injEq] at parsed
        obtain ⟨_, _, _, _, _, _, rfl⟩ := parsed
        simp only [String.toList_ofList]
        exact ⟨clean nodeId (by simp), clean hostname (by simp)⟩
  · cases parsed

/-- A message comes back exactly when neither its node ID nor its host name holds a separator. -/
theorem discovery_roundTrip_iff (base64 : Base64Padded) (keys : Base64KeysRoundTrip)
    (message : Discovery) :
    parseDiscovery (formatDiscovery message.nodeId message.publicKey message.wolfnetIp
      message.listenPort message.hostname message.isGateway) = some message ↔
      '|' ∉ message.nodeId.toList ∧ '|' ∉ message.hostname.toList := by
  refine ⟨clean_of_parseDiscovery, ?_⟩
  rintro ⟨nodeId, hostname⟩
  have ip : Ipv4Addr.parse message.wolfnetIp.chars = some message.wolfnetIp :=
    Ipv4Addr.parse_chars _
  have port : parseU16 (Nat.toDigits 10 message.listenPort.toNat) = some message.listenPort := by
    have bound : message.listenPort.toNat ≤ 65535 := Nat.le_of_lt_succ message.listenPort.toNat_lt
    rw [parseU16, parseUnsigned_toDigits bound, Option.map_some, UInt16.ofNat_toNat]
  have flag : ([if message.isGateway then 'G' else 'N'] == ['G']) = message.isGateway := by
    cases message.isGateway <;> rfl
  rw [parseDiscovery, splitAll_formatDiscovery base64 message nodeId hostname]
  simp [parsePublicKey_encode base64 keys, ip, port, flag, Except.toOption]

end Codec

section Sample

attribute [local instance] Sample.crates

/-- The message of a host whose name holds no separator. -/
theorem discovery_roundTrip_sample :
    parseDiscovery (formatDiscovery "wolf" (Sample.keypair 1).publicKey ⟨10, 10, 10, 1⟩ 9600 "wolf"
      true) = some ⟨"wolf", (Sample.keypair 1).publicKey, ⟨10, 10, 10, 1⟩, 9600, "wolf", true⟩ :=
  (discovery_roundTrip_iff Sample.base64_padded Sample.base64_keysRoundTrip
    ⟨"wolf", (Sample.keypair 1).publicKey, ⟨10, 10, 10, 1⟩, 9600, "wolf", true⟩).mpr
    ⟨by simp, by simp⟩

/-- A host whose name holds a separator is not heard, and a separator in the last name gives a
message of another host. -/
theorem discovery_separator_shifts :
    parseDiscovery (formatDiscovery "wolf|den" (Sample.keypair 1).publicKey ⟨10, 10, 10, 1⟩ 9600
      "wolf|den" false) = none ∧
    parseDiscovery (formatDiscovery "wolf" (Sample.keypair 1).publicKey ⟨10, 10, 10, 1⟩ 9600
      "den|G" false) =
        some ⟨"wolf", (Sample.keypair 1).publicKey, ⟨10, 10, 10, 1⟩, 9600, "den", true⟩ := by
  decide +kernel

end Sample
end WolfNet
