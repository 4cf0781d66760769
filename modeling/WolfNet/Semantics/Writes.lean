import Mathlib.Data.List.Induction

/-!
# Successive writes

A loop over entries writes to a location at some of them. `written` is the value the
location ends with, and `written_eq_iff` says when that is the value of a given entry.
Another loop may write at one kind of entry that the first passes over: `written_reset`.
-/

namespace WolfNet.Semantics

variable {Entry V : Type}

/-- The value of a location after the entries have been processed in order. -/
def written (write : Entry → Option V) (initial : V) (entries : List Entry) : V :=
  entries.foldl (fun value entry => (write entry).getD value) initial

variable {write : Entry → Option V} {initial value : V} {before after entries : List Entry}

/-- Without entries the first value is left. -/
@[simp] theorem written_nil : written write initial [] = initial := rfl

/-- An entry writes, and the others after it. -/
@[simp] theorem written_cons (entry : Entry) :
    written write initial (entry :: entries) = written write ((write entry).getD initial) entries :=
  rfl

/-- Two lists of entries write one after the other. -/
theorem written_append :
    written write initial (before ++ after) = written write (written write initial before) after :=
  List.foldl_append

/-- A loop whose steps each act on a location as a write does leaves the value written. -/
theorem foldl_written {S : Type} {look : S → V} {step : S → Entry → S}
    (each : ∀ state entry, look (step state entry) = (write entry).getD (look state))
    (state : S) (entries : List Entry) :
    look (entries.foldl step state) = written write (look state) entries := by
  induction entries generalizing state with
  | nil => rfl
  | cons entry rest ih => rw [List.foldl_cons, ih, each, written_cons]

/-- Where no entry writes a value, the location has it exactly when it had it before and no
entry writes at all. -/
theorem written_eq_iff_silent (never : ∀ entry ∈ entries, write entry ≠ some value) :
    written write initial entries = value ↔
      (∀ entry ∈ entries, write entry = none) ∧ initial = value := by
  induction entries generalizing initial with
  | nil => simp
  | cons entry rest ih =>
      rw [List.forall_mem_cons] at never
      rw [written_cons, ih never.2, List.forall_mem_cons]
      cases wrote : write entry with
      | none => simp
      | some other =>
          have different : other ≠ value := by
            rintro rfl
            exact never.1 wrote
          simp [different]

/-- Where no other entry writes a value, the location ends with it exactly when a given
entry writes it, or nobody but an earlier state did, and no later entry writes. -/
theorem written_eq_iff {entry : Entry}
    (never : ∀ other ∈ before ++ after, write other ≠ some value) :
    written write initial (before ++ entry :: after) = value ↔
      (∀ other ∈ after, write other = none) ∧
        (write entry = some value ∨
          write entry = none ∧ (∀ other ∈ before, write other = none) ∧ initial = value) := by
  rw [List.forall_mem_append] at never
  rw [written_append, written_cons, written_eq_iff_silent never.2]
  cases wrote : write entry with
  | none => simp [written_eq_iff_silent never.1]
  | some other => simp

/-- Where no entry writes, the location keeps its value. -/
theorem written_silent (silent : ∀ entry ∈ entries, write entry = none) :
    written write initial entries = initial :=
  (written_eq_iff_silent fun entry member => by simp [silent entry member]).mpr ⟨silent, rfl⟩

/-- Where every entry that writes writes one value, the location ends with it once one does. -/
theorem written_eq_of_agree {entry : Entry} (member : entry ∈ entries)
    (wrote : write entry = some value)
    (agree : ∀ other ∈ entries, ∀ another, write other = some another → another = value) :
    written write initial entries = value := by
  induction entries using List.reverseRecOn with
  | nil => cases member
  | append_singleton entries last ih =>
      rw [written_append, written_cons, written_nil]
      cases wroteLast : write last with
      | some another => exact agree last (by simp) another wroteLast
      | none =>
          have earlier : entry ∈ entries := by
            rcases List.mem_append.mp member with earlier | here
            · exact earlier
            · rw [List.mem_singleton.mp here, wroteLast] at wrote
              cases wrote
          exact ih earlier fun other otherMember => agree other (List.mem_append_left _ otherMember)

/-- Entries of which no two write different values leave the same value in every order. -/
theorem written_same {others : List Entry} (members : ∀ entry, entry ∈ others ↔ entry ∈ entries)
    (agree : ∀ first ∈ entries, ∀ second ∈ entries, ∀ value value', write first = some value →
      write second = some value' → value' = value) :
    written write initial others = written write initial entries := by
  by_cases silent : ∀ entry ∈ entries, write entry = none
  · rw [written_silent silent, written_silent fun entry member =>
      silent entry ((members entry).mp member)]
  · obtain ⟨entry, member, writes⟩ : ∃ entry ∈ entries, write entry ≠ none := by simpa using silent
    obtain ⟨value, wrote⟩ := Option.ne_none_iff_exists'.mp writes
    have one := fun other otherMember another =>
      agree entry member other otherMember value another wrote
    rw [written_eq_of_agree member wrote one,
      written_eq_of_agree ((members entry).mpr member) wrote fun other otherMember =>
        one other ((members other).mp otherMember)]

/-- The kind of entry was met after the last write. -/
def MetSince (kind : Entry) (write : Entry → Option V) (entries : List Entry) : Prop :=
  ∃ before after, entries = before ++ kind :: after ∧ ∀ entry ∈ after, write entry = none

/-- The last entry is of the kind, or it is no write and the kind was met before. -/
theorem metSince_snoc {kind entry : Entry} :
    MetSince kind write (entries ++ [entry]) ↔
      entry = kind ∨ write entry = none ∧ MetSince kind write entries := by
  constructor
  · rintro ⟨before, after, whole, silent⟩
    rcases List.eq_nil_or_concat after with rfl | ⟨front, last, rfl⟩
    · exact Or.inl (List.cons.inj (List.append_inj' whole rfl).2).1
    · rw [List.concat_eq_append, ← List.cons_append, ← List.append_assoc] at whole
      obtain ⟨rfl, same⟩ := List.append_inj' whole rfl
      cases same
      exact Or.inr ⟨silent entry (by simp), before, front, rfl,
        fun other member => silent other (by simp [member])⟩
  · rintro (rfl | ⟨passed, before, after, rfl, silent⟩)
    · exact ⟨entries, [], rfl, by simp⟩
    · refine ⟨before, after ++ [entry], by simp, fun other member => ?_⟩
      rcases List.mem_append.mp member with earlier | last
      · exact silent other earlier
      · rwa [List.mem_singleton.mp last]

/-- A loop that writes as the first one does, and one value at the kind of entry, ends with that
value where the kind was met since the first one's last write, and else as the first one does. -/
theorem written_reset {kind : Entry} {reset : Entry → Option V} (resets : reset kind = some value)
    (same : ∀ entry, entry ≠ kind → reset entry = write entry) :
    (MetSince kind write entries → written reset initial entries = value) ∧
      (¬MetSince kind write entries →
        written reset initial entries = written write initial entries) := by
  induction entries using List.reverseRecOn with
  | nil =>
      refine ⟨?_, fun _ => rfl⟩
      rintro ⟨before, after, whole, _⟩
      cases before <;> cases whole
  | append_singleton entries entry ih =>
      rw [metSince_snoc, written_append, written_append]
      simp only [written_cons, written_nil]
      by_cases met : entry = kind
      · simp [met, resets]
      · rw [same entry met]
        cases wrote : write entry with
        | none => simpa [met] using ih
        | some other => simp [met]

end WolfNet.Semantics
