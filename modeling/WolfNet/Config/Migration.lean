import Mathlib.Data.List.TakeWhile
import WolfNet.Config.Collapse
import WolfNet.Config.Document

/-!
# What the migration does to a TOML document

`migrate` looks for `ip = ` at the start of a line. `migrates_iff` says for which documents that
finds the key `ip` of the entries of `[[peers]]` and nothing else.
-/

namespace WolfNet

open WolfNet.Std WolfNet.Document

/-- Every occurrence of the legacy key in a text gives way to the new one. -/
abbrev rekeyed (text : List Char) : List Char :=
  replace "ip = ".toList "allowed_ip = ".toList text

section Lines

variable {line : List Char}

/-- A legacy line: the key and the rest, behind white space. -/
theorem isLegacyLine_split (legacy : isLegacyLine line = true) :
    ∃ rest, line = line.takeWhile isWhitespace ++ "ip = ".toList ++ rest := by
  rw [isLegacyLine, Bool.and_eq_true, List.isPrefixOf_iff_prefix] at legacy
  obtain ⟨rest, same⟩ := legacy.1.trans (trimmed_starts line)
  refine ⟨rest, ?_⟩
  rw [List.append_assoc, same, List.takeWhile_append_dropWhile]

/-- A line is legacy when only blanks precede `ip = ` and something other than a blank follows it.
-/
theorem isLegacyLine_of {indent rest : List Char} {c : Char}
    (blank : ∀ c ∈ indent, isWhitespace c = true) (front : List Char)
    (ink : isWhitespace c = false) :
    isLegacyLine (indent ++ ("ip = ".toList ++ front ++ c :: rest)) = true := by
  have starts : (indent ++ ("ip = ".toList ++ front ++ c :: rest)).dropWhile isWhitespace =
      ("ip = ".toList ++ front) ++ c :: rest := by
    rw [List.dropWhile_append_of_pos blank]
    rfl
  obtain ⟨after, same⟩ := (List.prefix_append "ip = ".toList (front ++ [c])).trans
    (List.append_assoc .. ▸ kept_trimmed ink starts)
  rw [isLegacyLine, ← same]
  rfl

/-- A line whose first other character is no `i` is not a legacy one. -/
theorem isLegacyLine_of_other {front rest : List Char}
    (blank : ∀ c ∈ front, isWhitespace c = true)
    (other : ∀ c ∈ rest.head?, c ≠ 'i' ∧ isWhitespace c = false) :
    isLegacyLine (front ++ rest) = false := by
  rw [isLegacyLine, Bool.and_eq_false_iff, ← Bool.not_eq_true, List.isPrefixOf_iff_prefix]
  left
  intro legacy
  have starts := legacy.trans (trimmed_starts _)
  rw [List.dropWhile_append_of_pos blank] at starts
  cases rest with
  | nil => exact absurd (List.prefix_nil.mp starts) (by decide)
  | cons c rest =>
      obtain ⟨notI, ink⟩ := other c rfl
      rw [List.dropWhile_cons_of_neg (by simp [ink])] at starts
      exact notI (List.cons_prefix_cons.mp starts).1.symm

/-- What becomes of text that starts with the legacy key, behind text without an `i`. -/
theorem migrateLine_legacy {front rest : List Char}
    (legacy : isLegacyLine (front ++ ("ip = ".toList ++ rest)) = true) (absent : 'i' ∉ front) :
    migrateLine (front ++ ("ip = ".toList ++ rest)) =
      front ++ ("allowed_ip = ".toList ++ rekeyed rest) := by
  rw [migrateLine, if_pos legacy]
  exact (replace_front_of_notMem absent).trans (congrArg _ (replace_append (by decide)))

/-- A legacy line changes where its key starts. -/
theorem migrateLine_ne {last tail : List Char} (ink : ∃ c ∈ last, isWhitespace c = false)
    (legacy : isLegacyLine (last ++ tail) = true) (tail' : List Char) :
    migrateLine (last ++ tail) ≠ last ++ tail' := by
  obtain ⟨rest, split⟩ := isLegacyLine_split legacy
  have blank : ∀ c ∈ (last ++ tail).takeWhile isWhitespace, isWhitespace c = true :=
    fun c member => List.mem_takeWhile_imp member
  generalize (last ++ tail).takeWhile isWhitespace = front at split blank
  have absent : 'i' ∉ front := fun member => absurd (blank _ member) (by decide)
  rw [List.append_assoc] at split
  rw [split] at legacy ⊢
  rw [migrateLine_legacy legacy absent]
  obtain ⟨c, member, isInk⟩ := ink
  intro unchanged
  -- The white space ends inside `last`, which therefore has the `i` of the key.
  rcases List.append_eq_append_iff.mp split with ⟨within, rfl, _⟩ | ⟨within, rfl, keyed⟩
  · rw [blank c (List.mem_append_left _ member)] at isInk
    cases isInk
  · cases within with
    | nil =>
        rw [List.append_nil] at member
        rw [blank c member] at isInk
        cases isInk
    | cons first within =>
        rw [List.append_assoc, List.append_cancel_left_eq] at unchanged
        have isI : 'i' = first := (List.cons.inj keyed).1
        have isA : 'a' = first := (List.cons.inj unchanged).1
        exact absurd (isI.trans isA.symm) (by decide)

/-- A legacy line does not migrate to itself. -/
theorem migrateLine_ne_self (legacy : isLegacyLine line = true) : migrateLine line ≠ line := by
  obtain ⟨rest, split⟩ := isLegacyLine_split legacy
  have ink : ∃ c ∈ line, isWhitespace c = false := by
    rw [split]
    exact ⟨'i', by simp, by decide⟩
  have changed := @migrateLine_ne line [] ink (by rwa [List.append_nil]) []
  rwa [List.append_nil] at changed

/-- Other lines migrate to themselves. -/
theorem migrateLine_of_not (other : isLegacyLine line = false) : migrateLine line = line :=
  if_neg (by simp [other])

end Lines

namespace Document

/-- Blanks hold whitespace only. -/
theorem Blanks.isWhitespace (blanks : Blanks) : ∀ c ∈ blanks.1, Std.isWhitespace c = true := by
  intro c member
  rcases blanks.2 c member with rfl | rfl
  · rfl
  · rfl

/-- A character other than a space and a tab is not a blank. -/
theorem Blanks.notMem (blanks : Blanks) {c : Char} (notSpace : c ≠ ' ') (notTab : c ≠ '\t') :
    c ∉ blanks.1 :=
  fun member => (blanks.2 c member).elim notSpace notTab

/-- Rekeying passes over a front that has no `i`. -/
theorem rekeyed_front {front rest : List Char} (absent : 'i' ∉ front) :
    rekeyed (front ++ rest) = front ++ rekeyed rest := replace_front_of_notMem absent

/-- Rekeying passes over blanks. -/
theorem rekeyed_blanks (blanks : Blanks) (rest : List Char) :
    rekeyed (blanks.1 ++ rest) = blanks.1 ++ rekeyed rest :=
  rekeyed_front (blanks.notMem (by decide) (by decide))

/-- The comment of a line that is migrated may read otherwise. -/
theorem Trailer.rekeyed (trailer : Trailer) : ∃ trailer' : Trailer,
    WolfNet.rekeyed trailer.text = trailer'.text := by
  cases given : trailer.comment with
  | none =>
      refine ⟨trailer, ?_⟩
      rw [Trailer.text, given, rekeyed_blanks]
      rfl
  | some comment =>
      have noFeed : '\n' ∉ WolfNet.rekeyed comment.1 := fun member =>
        (mem_of_mem_replace member).elim (by decide) comment.2
      refine ⟨⟨trailer.blanks, some ⟨_, noFeed⟩⟩, ?_⟩
      rw [Trailer.text, given, rekeyed_blanks]
      exact congrArg _ (@rekeyed_front ['#'] comment.1 (by decide))

/-- A character of a bare key is no whitespace. -/
theorem isWhitespace_of_isBareChar {c : Char} (bare : isBareChar c = true) :
    isWhitespace c = false := by
  simp only [isBareChar, Bool.or_eq_true, beq_iff_eq] at bare
  rcases bare with (alphanumeric | rfl) | rfl
  · have := toNat_of_isAlphanum alphanumeric
    simp [isWhitespace]
    omega
  · decide
  · decide

/-- The text of a key starts with ink. -/
theorem Key.starts (key : Key) : ∃ c rest, key.text = c :: rest ∧ isWhitespace c = false := by
  obtain ⟨first, rest⟩ := key
  cases first with
  | quoted quote text name =>
      refine ⟨quote.1, _, rfl, ?_⟩
      rcases quote.2 with same | same
      · rw [same]
        rfl
      · rw [same]
        rfl
  | bare name =>
      obtain ⟨chars, nonempty, isBare⟩ := name
      obtain ⟨c, text, rfl⟩ := List.exists_cons_of_ne_nil nonempty
      rw [List.all_cons, Bool.and_eq_true] at isBare
      exact ⟨c, _, rfl, isWhitespace_of_isBareChar isBare.1⟩

/-- The one spelling of the key that the migration looks for. -/
def Pair.Spaced (pair : Pair) : Prop :=
  pair.before.1 = [' '] ∧ ∃ after, pair.after.1 = ' ' :: after

/-- The first line of a pair behind its indentation. -/
def Pair.body (pair : Pair) (tail : List Char) : List Char :=
  pair.key.text ++ (pair.before.1 ++ '=' :: (pair.after.1 ++ (pair.value.first ++ tail)))

/-- The front of a pair ends where its value begins. -/
theorem Pair.front_append (pair : Pair) (tail : List Char) :
    pair.front ++ (pair.value.first ++ tail) = pair.indent.1 ++ pair.body tail := by
  simp [Pair.front, Pair.body]

/-- Trimming a pair's first line leaves its body. -/
theorem Pair.dropWhile_front (pair : Pair) (tail : List Char) :
    (pair.front ++ (pair.value.first ++ tail)).dropWhile isWhitespace = pair.body tail := by
  obtain ⟨c, rest, starts, ink⟩ := pair.key.starts
  rw [pair.front_append, List.dropWhile_append_of_pos (Blanks.isWhitespace pair.indent),
    Pair.body, starts]
  simp [ink]

/-- What follows the first part of a key starts with no character of a bare name. -/
theorem Pair.behind_first (pair : Pair) (tail : List Char) :
    ∃ c rest, pair.body tail = pair.key.first.text ++ c :: rest ∧ isBareChar c = false := by
  have blank {blanks : Blanks} {c : Char} {rest : List Char} (first : blanks.1 = c :: rest) :
      isBareChar c = false := by
    rcases blanks.2 c (by simp [first]) with rfl | rfl
    · decide
    · decide
  simp only [Pair.body, Key.text, Key.dotted, List.append_assoc, List.append_cancel_left_eq]
  rcases pair.key.rest with _ | ⟨blanks, path⟩
  · rcases before : pair.before.1 with _ | ⟨c, rest⟩
    · exact ⟨'=', _, rfl, by decide⟩
    · exact ⟨c, _, rfl, blank before⟩
  · rcases given : blanks.1 with _ | ⟨c, rest⟩
    · exact ⟨'.', path ++ (pair.before.1 ++ '=' :: (pair.after.1 ++ (pair.value.first ++ tail))),
        by simp [given], by decide⟩
    · refine ⟨c, rest ++ '.' :: path ++
        (pair.before.1 ++ '=' :: (pair.after.1 ++ (pair.value.first ++ tail))), ?_, blank given⟩
      simp [given]

/-- The spelling of a pair whose bare key is followed by a space, a sign and a space. -/
theorem Pair.spaced_of_behind {pair : Pair} {tail behind : List Char}
    (same : pair.key.dotted ++
      (pair.before.1 ++ '=' :: (pair.after.1 ++ (pair.value.first ++ tail))) =
        ' ' :: '=' :: ' ' :: behind) :
    pair.key.rest = none ∧ pair.Spaced := by
  have notBlank {blanks : Blanks} {c : Char} {rest : List Char}
    (second : blanks.1 = ' ' :: c :: rest) :
      c ≠ '=' := by
    rintro rfl
    exact absurd (blanks.2 '=' (by simp [second])) (by decide)
  obtain ⟨first, valueRest, starts, ink⟩ := pair.value.ink
  rw [Key.dotted] at same
  rcases given : pair.key.rest with _ | ⟨blanks, path⟩
  · rw [given] at same
    rcases before : pair.before.1 with _ | ⟨c, _ | ⟨d, rest⟩⟩
    · rw [before] at same
      exact absurd (List.cons.inj same).1 (by decide)
    · rw [before] at same
      obtain ⟨isSpace, same⟩ := List.cons.inj same
      obtain ⟨-, same⟩ := List.cons.inj same
      refine ⟨rfl, by rw [before, isSpace], ?_⟩
      rcases after : pair.after.1 with _ | ⟨c', rest⟩
      · rw [after, starts] at same
        have valueSpace : first = ' ' := (List.cons.inj same).1
        rw [valueSpace] at ink
        exact absurd ink (by decide)
      · rw [after] at same
        exact ⟨rest, by rw [(List.cons.inj same).1]⟩
    · rw [before] at same
      obtain ⟨isSpace, same⟩ := List.cons.inj same
      rw [isSpace] at before
      exact absurd (List.cons.inj same).1 (notBlank before)
  · rw [given] at same
    rcases dotted : blanks.1 with _ | ⟨c, _ | ⟨d, rest⟩⟩
    · simp [dotted] at same
    · simp [dotted] at same
    · simp only [dotted, List.cons_append] at same
      obtain ⟨isSpace, same⟩ := List.cons.inj same
      rw [isSpace] at dotted
      exact absurd (List.cons.inj same).1 (notBlank dotted)

/-- A key that starts with the legacy one, in the one spelling, is the legacy one. -/
theorem Pair.spaced_of_prefix {pair : Pair} {tail : List Char}
    (legacy : "ip = ".toList <+: pair.body tail) : pair.key = ip ∧ pair.Spaced := by
  obtain ⟨behind, same⟩ := legacy
  obtain ⟨c, rest, body, other⟩ := pair.behind_first tail
  rcases given : pair.key with ⟨⟨name, nonempty, isBare⟩ | ⟨quote, text, name⟩, path⟩
  · have taken : (name ++ c :: rest).takeWhile isBareChar = name := by
      rw [List.takeWhile_append_of_pos (List.all_eq_true.mp isBare),
        List.takeWhile_cons_of_neg (by simp [other]), List.append_nil]
    have split : "ip = ".toList ++ behind = name ++ c :: rest := by
      rw [same, body, given]
      rfl
    have named : name = "ip".toList := by
      rw [← taken, ← split]
      rfl
    subst named
    rw [Pair.body, Key.text, given, List.append_assoc] at same
    have behindKey := @Pair.spaced_of_behind pair tail behind
    rw [given] at behindKey
    obtain ⟨single, spaced⟩ := behindKey (List.append_cancel_left same.symm)
    exact ⟨congrArg _ single, spaced⟩
  · rw [Pair.body, given] at same
    have isQuote : 'i' = quote.1 := (List.cons.inj same).1
    rcases quote.2 with double | single
    · exact absurd (isQuote.trans double) (by decide)
    · exact absurd (isQuote.trans single) (by decide)

/-- A pair with the key `ip` and one space on each side of the equals sign has a legacy body. -/
theorem Pair.body_spaced {pair : Pair} (isIp : pair.key = ip) {after : List Char}
    (before : pair.before.1 = [' ']) (spaced : pair.after.1 = ' ' :: after) (tail : List Char) :
    pair.body tail = "ip = ".toList ++ (after ++ (pair.value.first ++ tail)) := by
  rw [Pair.body, isIp, before, spaced]
  rfl

/-- The first line of a pair is taken for a legacy one exactly where it has the legacy key in the
one spelling. -/
theorem Pair.isLegacyLine_iff {pair : Pair} {tail : List Char} :
    isLegacyLine (pair.front ++ (pair.value.first ++ tail)) = true ↔ pair.key = ip ∧
      pair.Spaced := by
  constructor
  · intro legacy
    rw [isLegacyLine, Bool.and_eq_true, List.isPrefixOf_iff_prefix] at legacy
    have starts := legacy.1.trans (trimmed_starts _)
    rw [pair.dropWhile_front] at starts
    exact Pair.spaced_of_prefix starts
  · rintro ⟨isIp, before, after, spaced⟩
    obtain ⟨c, rest, starts, ink⟩ := pair.value.ink
    rw [pair.front_append, Pair.body_spaced isIp before spaced, starts, List.cons_append,
      ← List.append_assoc "ip = ".toList]
    exact isLegacyLine_of (Blanks.isWhitespace pair.indent) after ink

/-- Such a line gets the new key, and the rest of it is searched on. -/
theorem Pair.migrateLine_spaced {pair : Pair} (isIp : pair.key = ip) (spaced : pair.Spaced)
    (tail : List Char) :
    migrateLine (pair.front ++ (pair.value.first ++ tail)) =
      { pair with key := allowedIp }.front ++ rekeyed (pair.value.first ++ tail) := by
  have legacy := (@Pair.isLegacyLine_iff pair tail).mpr ⟨isIp, spaced⟩
  obtain ⟨before, after, spaced⟩ := spaced
  have noI : 'i' ∉ after := fun member =>
    pair.after.notMem (c := 'i') (by decide) (by decide) (spaced ▸ List.mem_cons_of_mem _ member)
  rw [pair.front_append, Pair.body_spaced isIp before spaced] at legacy ⊢
  rw [migrateLine_legacy legacy (pair.indent.notMem (by decide) (by decide)), rekeyed_front noI]
  simp [Pair.front, before, spaced, allowedIp, bareKey, Key.text, Key.dotted, KeyPart.text]

/-- The migration finds the key of the pair where it is a legacy one, and nothing else. -/
structure Pair.Migrates (inPeers : Bool) (pair : Pair) : Prop where
  spelled : pair.key = ip → (inPeers = true ↔ pair.Spaced)
  once : inPeers = true → pair.key = ip → ∀ start, start ≠ [] → start <:+ pair.value.first →
    ¬ "ip = ".toList <+: start ++ pair.behind
  continued : ∀ line ∈ pair.continued, isLegacyLine line = false

section Pairs

variable {inPeers : Bool} {pair : Pair}

/-- In the peers, a pair with the key `ip` is renamed. -/
theorem Pair.renamed_legacy (isIp : pair.key = ip) :
    pair.renamed true = { pair with key := allowedIp } := by simp [Pair.renamed, isIp]

/-- Every other pair is kept. -/
theorem Pair.renamed_kept (kept : inPeers = true → pair.key ≠ ip) :
    pair.renamed inPeers = pair := by
  cases inPeers with
  | false => rfl
  | true => simp [Pair.renamed, kept rfl]

/-- Outside of the peers nothing is renamed. -/
theorem Pair.renamed_false : pair.renamed false = pair := rfl

/-- The key's old name and the new one differ where they start. -/
theorem Pair.front_ne {pair : Pair} (isIp : pair.key = ip) (rest rest' : List Char) :
    { pair with key := allowedIp }.front ++ rest ≠ pair.front ++ rest' := by
  intro same
  simp only [Pair.front, isIp, List.append_assoc, List.append_cancel_left_eq] at same
  exact absurd (List.cons.inj same).1 (by decide)

/-- What the migration does to the first line is what it should. -/
theorem Pair.first_iff {trailer : List Char} :
    migrateLine (pair.front ++ (pair.value.first ++ pair.behind)) =
        (pair.renamed inPeers).front ++ (pair.value.first ++ trailer) ↔
      (pair.key = ip → (inPeers = true ↔ pair.Spaced)) ∧
      (pair.key = ip → inPeers = true →
        rekeyed (pair.value.first ++ pair.behind) = pair.value.first ++ trailer) ∧
      ((inPeers = true → pair.key ≠ ip) → pair.behind = trailer) := by
  have kept (unlike : ¬ (pair.key = ip ∧ pair.Spaced)) :
      migrateLine (pair.front ++ (pair.value.first ++ pair.behind)) =
        pair.front ++ (pair.value.first ++ pair.behind) :=
    migrateLine_of_not (Bool.eq_false_iff.mpr (mt Pair.isLegacyLine_iff.mp unlike))
  by_cases isIp : pair.key = ip
  · by_cases spaced : pair.Spaced
    · rw [Pair.migrateLine_spaced isIp spaced]
      cases inPeers with
      | true =>
          rw [Pair.renamed_legacy isIp, List.append_cancel_left_eq]
          simp [isIp, spaced]
      | false =>
          rw [Pair.renamed_false]
          exact iff_of_false (Pair.front_ne isIp _ _) fun ⟨same, _⟩ =>
            absurd ((same isIp).mpr spaced) nofun
    · rw [kept fun both => spaced both.2]
      cases inPeers with
      | true =>
          rw [Pair.renamed_legacy isIp]
          exact iff_of_false (Pair.front_ne isIp _ _).symm fun ⟨same, _⟩ =>
            spaced ((same isIp).mp rfl)
      | false =>
          rw [Pair.renamed_false, List.append_cancel_left_eq, List.append_cancel_left_eq]
          simp [spaced]
  · rw [kept fun both => isIp both.1, Pair.renamed_kept fun _ => isIp,
      List.append_cancel_left_eq, List.append_cancel_left_eq]
    simp [isIp]

/-- Lines of a value that migrate to themselves are not legacy. -/
theorem continued_of_migrated {more : Continuation} {tail tail' : List Char}
    (same : (more.middle ++ [more.last ++ tail]).map migrateLine =
      more.middle ++ [more.last ++ tail']) :
    ∀ line ∈ more.middle ++ [more.last ++ tail], isLegacyLine line = false := by
  rw [List.map_append] at same
  obtain ⟨middle, last⟩ := List.append_inj same (List.length_map ..)
  intro line member
  rw [← Bool.not_eq_true]
  intro legacy
  rcases List.mem_append.mp member with earlier | isLast
  · rw [← List.map_id more.middle, List.map_map] at middle
    exact migrateLine_ne_self legacy (List.map_inj_left.mp middle line earlier)
  · rw [List.mem_singleton.mp isLast] at legacy
    exact migrateLine_ne more.ink legacy tail' (List.singleton_inj.mp last)

/-- The lines of a renamed pair are its new front on the first line, and what the value says behind
it. -/
theorem Pair.lines_renamed (trailer : Trailer) :
    { pair.renamed inPeers with trailer }.lines =
      ((pair.renamed inPeers).front ++ (pair.value.first ++ { pair with trailer }.behind)) ::
        { pair with trailer }.continued := by
  rw [Pair.renamed]
  split
  · rfl
  · rfl

/-- Where no occurrence starts in the value, the search changes the comment at most. -/
theorem Pair.searched (once : ∀ start, start ≠ [] → start <:+ pair.value.first →
    ¬ "ip = ".toList <+: start ++ pair.behind) :
    ∃ trailer, rekeyed (pair.value.first ++ pair.behind) =
      pair.value.first ++ { pair with trailer }.behind ∧
      pair.continued = { pair with trailer }.continued := by
  rw [rekeyed, replace_front once]
  cases more : pair.value.more with
  | none =>
      obtain ⟨trailer, same⟩ := pair.trailer.rekeyed
      refine ⟨trailer, ?_, ?_⟩
      · simp only [Pair.behind, more, List.append_cancel_left_eq]
        exact same
      · simp only [Pair.continued, more]
  | some more' =>
      refine ⟨pair.trailer, ?_, rfl⟩
      simp only [Pair.behind, more]
      rfl

/-- The migration finds what it should in a pair exactly when its lines become those of the renamed
pair. -/
theorem Pair.migrates_iff :
    pair.Migrates inPeers ↔ ∃ trailer,
      pair.lines.map migrateLine = { pair.renamed inPeers with trailer }.lines := by
  constructor
  · intro migrates
    have continued : pair.continued.map migrateLine = pair.continued :=
      (List.map_congr_left fun line member =>
        migrateLine_of_not (migrates.continued line member)).trans (List.map_id _)
    by_cases legacy : inPeers = true ∧ pair.key = ip
    · obtain ⟨trailer, first, rest⟩ := pair.searched (migrates.once legacy.1 legacy.2)
      refine ⟨trailer, ?_⟩
      rw [Pair.lines_renamed, Pair.lines, List.map_cons, continued, ← rest, List.cons.injEq,
        Pair.first_iff]
      exact ⟨⟨migrates.spelled, fun _ _ => first,
        fun other => absurd legacy.2 (other legacy.1)⟩, rfl⟩
    · refine ⟨pair.trailer, ?_⟩
      rw [Pair.lines_renamed, Pair.lines, List.map_cons, continued, List.cons.injEq, Pair.first_iff]
      exact ⟨⟨migrates.spelled, fun isIp isPeers => absurd ⟨isPeers, isIp⟩ legacy,
        fun _ => rfl⟩, rfl⟩
  · rintro ⟨trailer, same⟩
    rw [Pair.lines_renamed, Pair.lines, List.map_cons, List.cons.injEq, Pair.first_iff] at same
    obtain ⟨⟨spelled, searched, _⟩, continued⟩ := same
    refine ⟨spelled, fun isPeers isIp start nonempty suffix occurs => ?_, ?_⟩
    · exact replace_front_ne (by decide) nonempty suffix occurs _ (searched isIp isPeers)
    · cases more : pair.value.more with
      | none =>
          rw [Pair.continued, more]
          exact fun _ => nofun
      | some more' =>
          simp only [Pair.continued, more] at continued ⊢
          exact continued_of_migrated continued

end Pairs

section Items

variable {inPeers : Bool} {pair : Pair}

/-- The migration finds what it should in an item. -/
def Item.Migrates (inPeers : Bool) : Item → Prop
  | .pair entry => entry.Migrates inPeers
  | _ => True

/-- What trails a value on its line starts with no legacy key. -/
theorem Trailer.notLegacy (trailer : Trailer) : isLegacyLine trailer.text = false := by
  refine isLegacyLine_of_other (Blanks.isWhitespace trailer.blanks) ?_
  cases trailer.comment with
  | none => exact nofun
  | some comment => exact fun c isHash => Option.some.inj isHash ▸ by decide

/-- A header is not legacy. -/
theorem Header.notLegacy (header : Header) : isLegacyLine header.line = false := by
  simp only [Header.line, List.append_assoc]
  refine isLegacyLine_of_other (Blanks.isWhitespace header.indent) ?_
  cases header.isArray with
  | false => exact fun c isBracket => Option.some.inj isBracket ▸ by decide
  | true => exact fun c isBracket => Option.some.inj isBracket ▸ by decide

/-- An item migrates exactly when its lines migrate to those of its renamed form. -/
theorem Item.migrates_iff {item : Item} :
    item.Migrates inPeers ↔
      ∃ new, item.Renamed inPeers new ∧ item.lines.map migrateLine = new.lines := by
  cases item with
  | blank trailer =>
      refine iff_of_true trivial ⟨_, rfl, ?_⟩
      simp [Item.lines, migrateLine_of_not trailer.notLegacy]
  | header title =>
      refine iff_of_true trivial ⟨_, rfl, ?_⟩
      simp [Item.lines, migrateLine_of_not title.notLegacy]
  | pair entry =>
      constructor
      · intro migrates
        obtain ⟨trailer, same⟩ := Pair.migrates_iff.mp migrates
        exact ⟨.pair _, ⟨trailer, rfl⟩, same⟩
      · rintro ⟨new, renamed, same⟩
        cases new with
        | blank trailer => cases renamed
        | header title => cases renamed
        | pair new =>
            obtain ⟨trailer, rfl⟩ := renamed
            exact Pair.migrates_iff.mpr ⟨trailer, same⟩

/-- The trailer does not change how many lines a value goes on for. -/
theorem Pair.continued_length (trailer : Trailer) :
    { pair with trailer }.continued.length = pair.continued.length := by
  simp only [Pair.continued]
  split
  · rfl
  · simp

/-- A renamed item takes as many lines. -/
theorem Item.Renamed.length {item new : Item} (renamed : item.Renamed inPeers new) :
    item.lines.length = new.lines.length := by
  cases item with
  | blank trailer => rw [show Item.blank trailer = new from renamed]
  | header title => rw [show Item.header title = new from renamed]
  | pair entry =>
      cases new with
      | blank trailer => cases renamed
      | header title => cases renamed
      | pair new =>
          obtain ⟨trailer, rfl⟩ := renamed
          have count : { entry.renamed inPeers with trailer }.lines.length =
            entry.lines.length := by
            rw [Pair.lines_renamed, Pair.lines, List.length_cons, List.length_cons,
              Pair.continued_length]
          exact count.symm

/-- A trailer has no line feed. -/
theorem Trailer.noFeed (trailer : Trailer) : '\n' ∉ trailer.text := by
  have blanks := trailer.blanks.notMem (c := '\n') (by decide) (by decide)
  cases given : trailer.comment with
  | none => simp [Trailer.text, given, blanks]
  | some comment => simp [Trailer.text, given, blanks, comment.2]

/-- Renaming puts no line feed into the front of a pair. -/
theorem Pair.noFeed_front (noFeed : '\n' ∉ pair.front) : '\n' ∉ (pair.renamed inPeers).front := by
  rw [Pair.renamed]
  split
  · simp only [Pair.front, List.mem_append, List.mem_cons, not_or] at noFeed ⊢
    exact ⟨⟨⟨noFeed.1.1.1, by decide⟩, noFeed.1.2⟩, noFeed.2⟩
  · exact noFeed

/-- Renaming puts no line feed into any line of a pair. -/
theorem Pair.noFeed_renamed {trailer : Trailer} (noFeed : ∀ line ∈ pair.lines, '\n' ∉ line) :
    ∀ line ∈ { pair.renamed inPeers with trailer }.lines, '\n' ∉ line := by
  rw [Pair.lines_renamed]
  have first := noFeed _ (List.mem_cons_self ..)
  rw [List.mem_append, List.mem_append, not_or, not_or] at first
  have rest : ∀ line ∈ pair.continued, '\n' ∉ line :=
    fun line member => noFeed line (List.mem_cons_of_mem _ member)
  have front := @Pair.noFeed_front inPeers _ first.1
  intro line member
  rcases List.mem_cons.mp member with rfl | later
  · rw [List.mem_append, List.mem_append, not_or, not_or]
    refine ⟨front, first.2.1, ?_⟩
    simp only [Pair.behind]
    split
    · exact trailer.noFeed
    · exact List.not_mem_nil
  · simp only [Pair.continued] at rest later
    cases more : pair.value.more with
    | none =>
        rw [more] at later
        cases later
    | some more' =>
        simp only [more] at rest later
        rcases List.mem_append.mp later with middle | last
        · exact rest line (List.mem_append_left _ middle)
        · have lastLine := rest _ (List.mem_append_right _ (List.mem_singleton_self _))
          rw [List.mem_append, not_or] at lastLine
          rw [List.mem_singleton.mp last, List.mem_append, not_or]
          exact ⟨lastLine.1, trailer.noFeed⟩

/-- A renamed item has no line feeds in its lines, as the old one has none. -/
theorem Item.Renamed.noFeed {item new : Item} (renamed : item.Renamed inPeers new)
    (noFeed : ∀ line ∈ item.lines, '\n' ∉ line) : ∀ line ∈ new.lines, '\n' ∉ line := by
  cases item with
  | blank trailer => rwa [← show Item.blank trailer = new from renamed]
  | header title => rwa [← show Item.header title = new from renamed]
  | pair entry =>
      cases new with
      | blank trailer => cases renamed
      | header title => cases renamed
      | pair new =>
          obtain ⟨trailer, rfl⟩ := renamed
          exact Pair.noFeed_renamed noFeed

/-- The lines of a document are those of its items, one after the other. -/
theorem linesOf_cons (item : Item) (items : List Item) :
    linesOf (item :: items) = item.lines ++ linesOf items := rfl

/-- Renamed items take as many lines. -/
theorem length_of_renamed {items : List (Bool × Item)} {new : List Item}
    (renamed : List.Forall₂ (fun old new => old.2.Renamed old.1 new) items new) :
    (linesOf (items.map Prod.snd)).length = (linesOf new).length := by
  induction renamed with
  | nil => rfl
  | cons first _ ih =>
      rw [List.map_cons, linesOf_cons, linesOf_cons, List.length_append, List.length_append, ih,
        first.length]

/-- A renamed document has no line feed inside of its lines if the document had none. -/
theorem noFeed_of_renamed {items : List (Bool × Item)} {new : List Item}
    (renamed : List.Forall₂ (fun old new => old.2.Renamed old.1 new) items new)
    (noFeed : ∀ line ∈ linesOf (items.map Prod.snd), '\n' ∉ line) :
    ∀ line ∈ linesOf new, '\n' ∉ line := by
  induction renamed with
  | nil => exact nofun
  | cons first _ ih =>
      rw [List.map_cons, linesOf_cons] at noFeed
      rw [linesOf_cons]
      intro line member
      rcases List.mem_append.mp member with here | later
      · exact first.noFeed (fun line member =>
          noFeed line (List.mem_append_left _ member)) line here
      · exact ih (fun line member => noFeed line (List.mem_append_right _ member)) line later

/-- Marking where the peers are changes no item. -/
theorem placed_items (items : List Item) : (placed inPeers items).map Prod.snd = items := by
  induction items generalizing inPeers with
  | nil => rfl
  | cons item items ih => rw [placed, List.map_cons, ih]

/-- The migration finds what it should in all items exactly when their lines become those of the
renamed items. -/
theorem items_migrate_iff {items : List (Bool × Item)} :
    (∀ item ∈ items, item.2.Migrates item.1) ↔
      ∃ new, List.Forall₂ (fun old new => old.2.Renamed old.1 new) items new ∧
        (linesOf (items.map Prod.snd)).map migrateLine = linesOf new := by
  induction items with
  | nil => exact iff_of_true (List.forall_mem_nil _) ⟨[], .nil, rfl⟩
  | cons item items ih =>
      rw [List.forall_mem_cons, ih, Item.migrates_iff, List.map_cons, linesOf_cons, List.map_append]
      constructor
      · rintro ⟨⟨first, renamed, same⟩, new, renamedRest, sameRest⟩
        exact ⟨first :: new, .cons renamed renamedRest, by rw [same, sameRest]; rfl⟩
      · rintro ⟨all, renamedAll, same⟩
        obtain ⟨first, new, renamed, renamedRest, rfl⟩ := List.forall₂_cons_left_iff.mp renamedAll
        rw [linesOf_cons] at same
        obtain ⟨here, rest⟩ := List.append_inj same (by rw [List.length_map, renamed.length])
        exact ⟨⟨first, renamed, here⟩, new, renamedRest, rest⟩

end Items

end Document

/-- No entry of `[[peers]]` has the legacy key. -/
def NoLegacyKey (items : List Item) : Prop :=
  ∀ pair, (true, Item.pair pair) ∈ placed false items → pair.key ≠ ip

/-- The migration of a text that spells the items renames the legacy key of the entries of
`[[peers]]` and changes no other key and no value. A text without that key keeps its lines, and one
that was printed for a config reads back as that config. -/
structure MigratesExactly (content : String) (items : List Item) : Prop where
  renames : ∃ new, Renamed items new ∧
    (migrate content).2 = String.ofList (joinLines (linesOf new))
  keeps : NoLegacyKey items →
    (migrate content).2 = String.ofList (joinLines (lines content.toList))
  reloads : NoLegacyKey items → ∀ [Toml] (config : Config), Toml.RoundTrip config content →
    (keysOf config.peers).Nodup → Config.read content = .ok (config, false)

section Documents

variable {content : String} {items : List Item}

/-- Where the migration finds what it should and there is no legacy key, there is no legacy line. -/
theorem noLegacy_of_migrates (spelled : lines content.toList = linesOf items)
    (migrates : ∀ item ∈ placed false items, item.2.Migrates item.1) (noKey : NoLegacyKey items) :
    ∀ line ∈ lines content.toList, isLegacyLine line = false := by
  rw [spelled]
  intro line member
  obtain ⟨item, isItem, spells⟩ := List.mem_flatMap.mp member
  rw [← @placed_items false items] at isItem
  obtain ⟨⟨inPeers, placedItem⟩, isPlaced, same⟩ := List.mem_map.mp isItem
  obtain rfl : placedItem = item := same
  cases placedItem with
  | blank trailer =>
      rw [List.mem_singleton.mp spells]
      exact trailer.notLegacy
  | header title =>
      rw [List.mem_singleton.mp spells]
      exact title.notLegacy
  | pair entry =>
      have found : entry.Migrates inPeers := migrates _ isPlaced
      rcases List.mem_cons.mp spells with rfl | later
      · rw [← Bool.not_eq_true, Pair.isLegacyLine_iff]
        rintro ⟨isIp, spaced⟩
        rw [(found.spelled isIp).mpr spaced] at isPlaced
        exact noKey entry isPlaced isIp
      · exact found.continued line later

/-- What the migrated text tells about the items. -/
theorem MigratesExactly.migrates (exact : MigratesExactly content items)
    (spelled : lines content.toList = linesOf items) :
    ∀ item ∈ placed false items, item.2.Migrates item.1 := by
  obtain ⟨new, renamed, same⟩ := exact.renames
  refine items_migrate_iff.mpr ⟨new, renamed, ?_⟩
  have count := length_of_renamed renamed
  rw [placed_items] at count ⊢
  have noFeed : ∀ line ∈ linesOf items, '\n' ∉ line := by
    rw [← spelled]
    exact fun line => feed_notMem_lines
  rw [migrate, spelled, String.ofList_inj] at same
  refine joinLines_inj (by rw [List.length_map, count]) ?_ ?_ same
  · intro line member
    obtain ⟨old, isOld, rfl⟩ := List.mem_map.mp member
    rw [migrateLine]
    split
    · exact fun isFeed => (mem_of_mem_replace isFeed).elim (by decide) (noFeed old isOld)
    · exact noFeed old isOld
  · refine noFeed_of_renamed renamed ?_
    rwa [placed_items]

/-- For every document, the migration changes the legacy keys and nothing else exactly when it
finds what it should in every item. -/
theorem migrates_exactly_iff (spelled : lines content.toList = linesOf items) :
    MigratesExactly content items ↔ ∀ item ∈ placed false items, item.2.Migrates item.1 := by
  constructor
  · exact fun exact => exact.migrates spelled
  · intro migrates
    obtain ⟨new, renamed, same⟩ := items_migrate_iff.mp migrates
    rw [placed_items, ← spelled] at same
    refine ⟨⟨new, renamed, ?_⟩, fun noKey => ?_, fun noKey _ config roundTrip distinct => ?_⟩
    · rw [migrate, same]
    · rw [migrate_of_noLegacy (noLegacy_of_migrates spelled migrates noKey)]
    · exact Config.read_printed roundTrip distinct
        (noLegacy_of_migrates spelled migrates noKey)

end Documents

namespace Sample

def noBlanks : Blanks := ⟨[], nofun⟩

def space : Blanks := ⟨[' '], by simp⟩

def peersHeader : Header where
  indent := noBlanks
  isArray := true
  before := noBlanks
  path := bareKey ⟨"peers".toList, by decide⟩
  after := noBlanks
  trailer := ⟨noBlanks, none⟩

/-- The legacy key with white space around its sign. -/
def legacyPair (gap : Blanks) : Pair where
  indent := noBlanks
  key := ip
  before := gap
  after := gap
  value := ⟨"\"10.10.10.2\"".toList, none, '"', _, rfl, rfl⟩
  trailer := ⟨noBlanks, none⟩

/-- An entry of `[[peers]]` with that pair. -/
def entry (gap : Blanks) : List Item := [.header peersHeader, .pair (legacyPair gap)]

/-- The spelling with spaces is the one that the migration looks for. -/
theorem spaced_spelled :
    lines "[[peers]]\nip = \"10.10.10.2\"".toList = linesOf (entry space) := by decide

/-- The spelling without spaces is the same document to TOML. -/
theorem tight_spelled :
    lines "[[peers]]\nip=\"10.10.10.2\"".toList = linesOf (entry noBlanks) := by decide

end Sample

/-- The entry with spaces migrates exactly. -/
theorem migrates_exactly_iff_sample :
    MigratesExactly "[[peers]]\nip = \"10.10.10.2\"" (Sample.entry Sample.space) ↔
      ∀ item ∈ placed false (Sample.entry Sample.space), item.2.Migrates item.1 :=
  migrates_exactly_iff Sample.spaced_spelled

/-- A legacy key without spaces around its sign is not renamed, a key `ip` of another table is, and a
line of a name of two lines is changed, in a file that was saved. -/
theorem legacy_key_missed :
    (migrate "[[peers]]\nip=\"10.10.10.2\"").2 = "[[peers]]\nip=\"10.10.10.2\"" ∧
    (migrate "[network]\nip = \"10.0.0.1\"").2 = "[network]\nallowed_ip = \"10.0.0.1\"" ∧
    @Toml.toStringPretty Sample.toml (Sample.named "ip = 1\na" []) = .ok Sample.collapsedText ∧
    @Config.read Sample.toml Sample.collapsedText =
      .ok (Sample.named "allowed_ip = 1\na" [], true) ∧
    ¬ MigratesExactly "[[peers]]\nip=\"10.10.10.2\"" (Sample.entry Sample.noBlanks) := by
  refine ⟨by decide, by decide, rfl, Sample.collapsed_read, fun exact => ?_⟩
  have found : (Sample.legacyPair Sample.noBlanks).Migrates true :=
    exact.migrates Sample.tight_spelled _ (.tail _ (.head _))
  exact absurd ((found.spelled rfl).mp rfl).1 (by decide)

end WolfNet
