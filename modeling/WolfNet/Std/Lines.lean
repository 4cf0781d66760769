import Mathlib.Data.List.Infix
import WolfNet.Std.Text

/-!
# Lines and substrings of a text

The bytes of a text, and `str::lines`, `join`, `replace` and `contains` on lists of
characters.
-/

namespace WolfNet.Std

/-- The bytes of a text. -/
def utf8 (text : String) : List UInt8 := text.toUTF8.data.toList

/-- The bytes of a text are those of its characters. -/
theorem utf8_ofList (text : List Char) :
    utf8 (String.ofList text) = text.flatMap String.utf8EncodeChar := by
  simp [utf8, List.utf8Encode]

/-- A text is decoded as what it was. -/
@[simp] theorem fromUtf8_utf8 (text : String) : fromUtf8 (utf8 text) = some text := by
  have valid : (ByteArray.mk (utf8 text).toArray).IsValidUTF8 := text.isValidUTF8
  rw [fromUtf8, String.fromUTF8?, dif_pos valid]
  rfl

/-- A text that is not empty has bytes. -/
theorem utf8_ne_nil {text : String} (nonempty : text ≠ "") : utf8 text ≠ [] := by
  intro empty
  have same : some text = some "" := by
    rw [← fromUtf8_utf8 text, empty]
    exact fromUtf8_utf8 ""
  exact nonempty (Option.some.inj same)

/-- `str::trim` on characters. -/
def trimmed (text : List Char) : List Char :=
  ((text.dropWhile isWhitespace).reverse.dropWhile isWhitespace).reverse

/-- `str::contains`. -/
def contains (text pattern : List Char) : Bool := text.tails.any pattern.isPrefixOf

/-- A line less the carriage return in front of its line feed. -/
def stripReturn (line : List Char) : List Char :=
  if line.getLast? = some '\r' then line.dropLast else line

/-- The lines of a text whose first line has already been read so far. -/
def linesFrom (line : List Char) : List Char → List (List Char)
  | [] => if line.isEmpty then [] else [line]
  | c :: rest =>
    if c = '\n' then stripReturn line :: linesFrom [] rest else linesFrom (line ++ [c]) rest

/-- `str::lines`: a line feed ends a line and does not start one. -/
def lines (text : List Char) : List (List Char) := linesFrom [] text

/-- `join("\n")`. -/
def joinLines (lines : List (List Char)) : List Char := ['\n'].intercalate lines

/-- The occurrences of `pattern` replaced, when the next `skip` characters belong to the last one. -/
def replaceFrom (pattern new : List Char) : Nat → List Char → List Char
  | _, [] => []
  | skip + 1, _ :: rest => replaceFrom pattern new skip rest
  | 0, c :: rest =>
    if pattern.isPrefixOf (c :: rest) then new ++ replaceFrom pattern new (pattern.length - 1) rest
    else c :: replaceFrom pattern new 0 rest

/-- `str::replace` at a pattern that is not empty. -/
def replace (pattern new text : List Char) : List Char := replaceFrom pattern new 0 text

example : replace "ip = ".toList "allowed_ip = ".toList "ip = ip = 1".toList =
    "allowed_ip = allowed_ip = 1".toList := by
  decide

/-- Only the empty text has no lines. -/
theorem linesFrom_eq_nil {line text : List Char} (none : linesFrom line text = []) : text = [] := by
  induction text generalizing line with
  | nil => rfl
  | cons c rest ih =>
      rw [linesFrom] at none
      split at none
      · cases none
      · rw [ih none, linesFrom] at none
        simp at none

/-- Lines are joined by a line feed. -/
theorem joinLines_cons_cons (line next : List Char) (others : List (List Char)) :
    joinLines (line :: next :: others) = line ++ '\n' :: joinLines (next :: others) := by
  simp [joinLines, List.intercalate]

/-- The lines of a text without carriage returns, joined, are the text less a last line feed. -/
theorem joinLines_linesFrom {line text : List Char} (noReturn : '\r' ∉ line ++ text) :
    joinLines (linesFrom line text) = line ++ text ∨
      joinLines (linesFrom line text) ++ ['\n'] = line ++ text := by
  induction text generalizing line with
  | nil =>
      left
      cases line with
      | nil => rfl
      | cons c line => simp [linesFrom, joinLines, List.intercalate]
  | cons c rest ih =>
      by_cases feed : c = '\n'
      · have last : stripReturn line = line := by
          refine if_neg fun isReturn => noReturn ?_
          exact List.mem_append_left _ (List.mem_of_getLast? isReturn)
        have rejoined := @ih [] (by simp_all)
        rw [linesFrom, if_pos feed, last, feed]
        cases others : linesFrom [] rest with
        | nil =>
            right
            simp [joinLines, List.intercalate, linesFrom_eq_nil others]
        | cons next others' =>
            rw [others] at rejoined
            rw [joinLines_cons_cons]
            rcases rejoined with same | same
            · left
              rw [same, List.nil_append]
            · right
              rw [List.nil_append] at same
              simp [← same]
      · rw [linesFrom, if_neg feed]
        have rejoined := @ih (line ++ [c]) (by simpa using noReturn)
        simpa using rejoined

/-- Without carriage returns, joining the lines of a text gives it back, up to a line feed at its
end. -/
theorem joinLines_lines {text : List Char} (noReturn : '\r' ∉ text) :
    joinLines (lines text) = text ∨ joinLines (lines text) ++ ['\n'] = text :=
  @joinLines_linesFrom [] text noReturn

/-- Joined lines can be told apart where their number is known. -/
theorem joinLines_inj {first second : List (List Char)} (count : first.length = second.length)
    (noFeed : ∀ line ∈ first, '\n' ∉ line) (noFeed' : ∀ line ∈ second, '\n' ∉ line)
    (same : joinLines first = joinLines second) : first = second := by
  have front {line rest : List Char} (absent : '\n' ∉ line) :
      (line ++ '\n' :: rest).takeWhile (· ≠ '\n') = line := by
    rw [List.takeWhile_append_of_pos]
    · simp
    · exact fun c member => decide_eq_true fun isFeed => absent (isFeed ▸ member)
  induction first generalizing second with
  | nil => exact (List.eq_nil_of_length_eq_zero count.symm).symm
  | cons line others ih =>
      cases second with
      | nil => cases count
      | cons line' others' =>
          cases others with
          | nil =>
              rw [List.eq_nil_of_length_eq_zero (Nat.succ.inj count).symm] at same ⊢
              simpa [joinLines, List.intercalate] using same
          | cons next others =>
              cases others' with
              | nil => cases count
              | cons next' others' =>
                  rw [joinLines_cons_cons, joinLines_cons_cons] at same
                  have lineSame : line = line' := by
                    have taken := congrArg (List.takeWhile (· ≠ '\n')) same
                    rwa [front (noFeed _ (.head _)), front (noFeed' _ (.head _))] at taken
                  rw [lineSame, List.append_cancel_left_eq, List.cons.injEq] at same
                  rw [lineSame, ih (Nat.succ.inj count) (fun _ later => noFeed _ (.tail _ later))
                    (fun _ later => noFeed' _ (.tail _ later)) same.2]

/-- No line has a line feed. -/
theorem feed_notMem_linesFrom {line text : List Char} (noFeed : '\n' ∉ line) :
    ∀ other ∈ linesFrom line text, '\n' ∉ other := by
  induction text generalizing line with
  | nil =>
      intro other member
      rw [linesFrom] at member
      split at member
      · cases member
      · exact List.mem_singleton.mp member ▸ noFeed
  | cons c rest ih =>
      intro other member
      rw [linesFrom] at member
      split at member
      · rcases List.mem_cons.mp member with rfl | later
        · rw [stripReturn]
          split
          · exact fun isFeed => noFeed (List.mem_of_mem_dropLast isFeed)
          · exact noFeed
        · exact ih List.not_mem_nil other later
      · next other' => exact ih (by simp [noFeed, Ne.symm other']) other member

/-- No line of a text has a line feed. -/
theorem feed_notMem_lines {text line : List Char} (member : line ∈ lines text) : '\n' ∉ line :=
  feed_notMem_linesFrom List.not_mem_nil line member

section Replace

variable {pattern new front back : List Char}

/-- What a match has covered is skipped. -/
theorem replaceFrom_skip (skip : Nat) (text : List Char) :
    replaceFrom pattern new skip text = replace pattern new (text.drop skip) := by
  induction text generalizing skip with
  | nil => cases skip <;> rfl
  | cons c rest ih =>
      cases skip with
      | zero => rfl
      | succ skip => exact ih skip

/-- A character at which the pattern does not begin is kept. -/
theorem replace_cons_of_not {c : Char} {rest : List Char}
    (other : ¬ pattern <+: c :: rest) :
    replace pattern new (c :: rest) = c :: replace pattern new rest := by
  rw [← List.isPrefixOf_iff_prefix] at other
  rw [replace, replaceFrom, if_neg other, replace]

/-- An occurrence at the start is replaced. -/
theorem replace_append (nonempty : pattern ≠ []) :
    replace pattern new (pattern ++ back) = new ++ replace pattern new back := by
  obtain ⟨c, rest, rfl⟩ := List.exists_cons_of_ne_nil nonempty
  have occurs : (c :: rest).isPrefixOf (c :: (rest ++ back)) = true :=
    List.isPrefixOf_iff_prefix.mpr (List.prefix_append (c :: rest) back)
  rw [replace, List.cons_append, replaceFrom, if_pos occurs, replaceFrom_skip,
    List.length_cons, Nat.add_sub_cancel, List.drop_left]

/-- Text in which no occurrence starts stays in front. -/
theorem replace_front (quiet : ∀ start, start ≠ [] → start <:+ front → ¬ pattern <+: start ++
    back) :
    replace pattern new (front ++ back) = front ++ replace pattern new back := by
  induction front with
  | nil => rfl
  | cons c front ih =>
      rw [List.cons_append, replace_cons_of_not, ih, List.cons_append]
      · exact fun start nonempty later => quiet start nonempty (later.trans (List.suffix_cons ..))
      · exact quiet (c :: front) (List.cons_ne_nil c front) (List.suffix_refl _)

/-- Text without the pattern's first character stays in front. -/
theorem replace_front_of_notMem {c : Char} (absent : c ∉ front) :
    replace (c :: pattern) new (front ++ back) = front ++ replace (c :: pattern) new back := by
  refine replace_front fun start nonempty suffix occurs => ?_
  obtain ⟨first, rest, rfl⟩ := List.exists_cons_of_ne_nil nonempty
  rw [List.cons_append, List.cons_prefix_cons] at occurs
  rw [occurs.1] at absent
  exact absent (suffix.subset (List.mem_cons_self ..))

/-- Text in which an occurrence starts does not stay in front. -/
theorem replace_front_ne {c d : Char} (differ : c ≠ d) {start : List Char} (nonempty : start ≠ [])
    (suffix : start <:+ front) (occurs : c :: pattern <+: start ++ back) (rest : List Char) :
    replace (c :: pattern) (d :: new) (front ++ back) ≠ front ++ rest := by
  induction front with
  | nil => exact absurd (List.suffix_nil.mp suffix) nonempty
  | cons first front ih =>
      by_cases here : c :: pattern <+: (first :: front) ++ back
      · obtain ⟨after, same⟩ := here
        rw [← same, replace_append (List.cons_ne_nil c pattern)]
        intro unchanged
        rw [List.cons_append, List.cons_append] at same unchanged
        exact differ ((List.cons.inj same).1.trans (List.cons.inj unchanged).1.symm)
      · have kept := @replace_cons_of_not (c :: pattern) (d :: new) _ _ here
        intro unchanged
        rcases List.suffix_cons_iff.mp suffix with rfl | later
        · exact here occurs
        · exact ih later (List.cons.inj (kept.symm.trans unchanged)).2

/-- What comes out of a replacement was put in or was there. -/
theorem mem_of_mem_replace {c : Char} {text : List Char} (member : c ∈ replace pattern new text) :
    c ∈ new ∨ c ∈ text := by
  have within : ∀ skip, c ∈ replaceFrom pattern new skip text → c ∈ new ∨ c ∈ text := by
    clear member
    induction text with
    | nil => exact fun skip member => .inr member
    | cons first text ih =>
        rintro (_ | skip) member
        · rw [replaceFrom] at member
          split at member
          · rcases List.mem_append.mp member with added | later
            · exact .inl added
            · exact (ih _ later).imp_right (List.mem_cons_of_mem _)
          · rcases List.mem_cons.mp member with rfl | later
            · exact .inr (List.mem_cons_self ..)
            · exact (ih _ later).imp_right (List.mem_cons_of_mem _)
        · exact (ih skip member).imp_right (List.mem_cons_of_mem _)
  exact within 0 member

end Replace

section Trim

variable {pattern text : List Char}

/-- A trimmed text is where the ink begins. -/
theorem trimmed_starts (text : List Char) : trimmed text <+: text.dropWhile isWhitespace := by
  rw [← List.reverse_suffix, trimmed, List.reverse_reverse]
  exact List.dropWhile_suffix _

/-- Trimming keeps what ends in a character that is not white space. -/
theorem kept_trimmed {front back : List Char} {c : Char} (ink : isWhitespace c = false)
    (starts : text.dropWhile isWhitespace = front ++ c :: back) :
    front ++ [c] <+: trimmed text := by
  rw [trimmed, starts, ← List.reverse_suffix, List.reverse_reverse]
  simp only [List.reverse_append, List.reverse_cons, List.reverse_nil, List.nil_append,
    List.cons_append, List.append_assoc]
  rw [List.dropWhile_append]
  split
  · simp [ink]
  · exact List.suffix_append ..

end Trim

end WolfNet.Std
