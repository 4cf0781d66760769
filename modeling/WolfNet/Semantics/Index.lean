import Mathlib.Data.Option.Basic
import Mathlib.Tactic.Common

/-!
# Secondary indexes of a table

The keys of a table may carry a mark, and an index maps marks back to keys. Two
notions of a right index:

- `Indexes` allows several keys to carry one mark; the index then names one of them;
- `Inverts` makes the index the exact inverse of the marks.

A `Change` gives one key a new mark, may take the mark of another key away, and edits
the index for that alone. `Indexes.change_iff` and `Inverts.change_iff` say when the
index is right afterwards.
-/

namespace WolfNet.Semantics

variable {K I : Type}

/-- The index maps exactly the marks that occur, each to a key that carries it. -/
structure Indexes (marks : K → Option I) (index : I → Option K) : Prop where
  sound : ∀ {mark key}, index mark = some key → marks key = some mark
  covers : ∀ {key mark}, marks key = some mark → ∃ holder, index mark = some holder

/-- The index is the inverse of the marks. -/
def Inverts (marks : K → Option I) (index : I → Option K) : Prop :=
  ∀ mark key, index mark = some key ↔ marks key = some mark

variable {marks : K → Option I} {index : I → Option K}

/-- Under an inverse index no two keys carry one mark. -/
theorem Inverts.unique (inverts : Inverts marks index) {key other : K} {mark : I}
    (here : marks key = some mark) (there : marks other = some mark) : key = other := by
  have first := (inverts mark key).mpr here
  have second := (inverts mark other).mpr there
  exact Option.some.inj (first.symm.trans second)

/-- One key gets a mark; the source, if there is one, loses its own. -/
structure Change (K I : Type) where
  key : K
  mark : Option I
  source : Option K

namespace Change

variable (change : Change K I)

/-- The mark whose index entry the change drops. -/
def forgotten (marks : K → Option I) : Option I := change.source.bind marks

variable [DecidableEq K] [DecidableEq I]

def onMarks (marks : K → Option I) : K → Option I := fun key =>
  if key = change.key then change.mark
  else if change.source = some key then none
  else marks key

def onIndex (marks : K → Option I) (index : I → Option K) : I → Option K := fun mark =>
  if change.mark = some mark then some change.key
  else if change.forgotten marks = some mark then none
  else index mark

/-- The marks that the change ends leave no trace: a mark it forgets is carried by no
other key, and the index does not lead a mark it overwrites to the changed key. -/
def Clean (marks : K → Option I) (index : I → Option K) : Prop :=
  ∀ mark, change.mark ≠ some mark →
    (change.forgotten marks = some mark →
      ∀ other, other ≠ change.key → change.source ≠ some other → marks other ≠ some mark) ∧
    (change.forgotten marks ≠ some mark → marks change.key = some mark →
      index mark ≠ some change.key)

/-- The changed key's own mark ends properly, and its new mark is carried by no other. -/
def Exclusive (marks : K → Option I) : Prop :=
  (∀ mark, marks change.key = some mark →
    change.mark = some mark ∨ change.forgotten marks = some mark) ∧
  ∀ mark, change.mark = some mark →
    ∀ other, other ≠ change.key → change.source ≠ some other → marks other ≠ some mark

variable {change} {mark : I} {key : K}

omit [DecidableEq I] in
/-- Who has a mark after a change: the changed key its new one, and the others theirs
unless they are the source. -/
theorem onMarks_eq_some_iff :
    change.onMarks marks key = some mark ↔
      key = change.key ∧ change.mark = some mark ∨
        key ≠ change.key ∧ change.source ≠ some key ∧ marks key = some mark := by
  unfold onMarks
  split
  · next here => simp [here]
  · next elsewhere =>
      split
      · next source => simp [elsewhere, source]
      · next other => simp [elsewhere, other]

omit [DecidableEq K] in
/-- Where a change leads a mark: its own to the changed key, and the others as before unless
it forgets them. -/
theorem onIndex_eq_some_iff :
    change.onIndex marks index mark = some key ↔
      change.mark = some mark ∧ key = change.key ∨
        change.mark ≠ some mark ∧ change.forgotten marks ≠ some mark ∧ index mark = some key := by
  unfold onIndex
  split
  · next new => simp [new, eq_comm]
  · next different =>
      split
      · next forgotten => simp [different, forgotten]
      · next kept => simp [different, kept]

omit [DecidableEq K] in
/-- Taking a key's mark away leaves the index entries of all other marks. -/
theorem onIndex_removed {target : K} :
    (Change.mk key none (some key)).onIndex marks index mark = some target ↔
      marks key ≠ some mark ∧ index mark = some target := by
  simp [onIndex_eq_some_iff, forgotten]

omit [DecidableEq K] in
/-- A key that gets a mark, with no source, overwrites the index entry of that mark alone. -/
theorem onIndex_added {given : Option I} :
    (Change.mk key given none).onIndex marks index mark =
      if given = some mark then some key else index mark := by
  simp [onIndex, forgotten]

omit [DecidableEq K] in
/-- A mark that the change forgets and does not give again is found nowhere. -/
theorem onIndex_forgotten (ends : change.forgotten marks = some mark)
    (different : change.mark ≠ some mark) : change.onIndex marks index mark = none := by
  rw [onIndex, if_neg different, if_pos ends]

omit [DecidableEq K] in
/-- Under an inverse index, the mark of a key that is neither changed nor the source is
found as before, unless the change gives it to another key. -/
theorem onIndex_other (inverts : Inverts marks index) (held : marks key = some mark)
    (notSource : change.source ≠ some key) (different : change.mark ≠ some mark) :
    change.onIndex marks index mark = some key := by
  refine onIndex_eq_some_iff.mpr (Or.inr ⟨different, ?_, (inverts mark key).mpr held⟩)
  intro ends
  obtain ⟨source, isSource, marked⟩ := Option.bind_eq_some_iff.mp ends
  exact notSource (isSource.trans (congrArg some (inverts.unique marked held)))

end Change

section Changes

variable [DecidableEq K] [DecidableEq I] {change : Change K I}

/-- A change keeps an index right exactly when it is clean. -/
theorem Indexes.change_iff (indexes : Indexes marks index) :
    Indexes (change.onMarks marks) (change.onIndex marks index) ↔ change.Clean marks index := by
  constructor
  · intro after mark different
    constructor
    · intro forgotten other notKey notSource held
      obtain ⟨holder, found⟩ :=
        after.covers (Change.onMarks_eq_some_iff.mpr (Or.inr ⟨notKey, notSource, held⟩))
      rcases Change.onIndex_eq_some_iff.mp found with ⟨new, _⟩ | ⟨_, kept, _⟩
      · exact different new
      · exact kept forgotten
    · intro kept held found
      have marked := after.sound (Change.onIndex_eq_some_iff.mpr (Or.inr ⟨different, kept, found⟩))
      rcases Change.onMarks_eq_some_iff.mp marked with ⟨_, new⟩ | ⟨notKey, _⟩
      · exact different new
      · exact notKey rfl
  · intro clean
    constructor
    · intro mark key found
      rw [Change.onMarks_eq_some_iff]
      rcases Change.onIndex_eq_some_iff.mp found with ⟨new, isKey⟩ | ⟨different, kept, found⟩
      · exact Or.inl ⟨isKey, new⟩
      · have held := indexes.sound found
        refine Or.inr ⟨?_, fun source => kept ?_, held⟩
        · rintro rfl
          exact (clean mark different).2 kept held found
        · simp [Change.forgotten, source, held]
    · intro key mark marked
      by_cases new : change.mark = some mark
      · exact ⟨change.key, Change.onIndex_eq_some_iff.mpr (Or.inl ⟨new, rfl⟩)⟩
      · rcases Change.onMarks_eq_some_iff.mp marked with ⟨_, same⟩ | ⟨notKey, notSource, held⟩
        · exact absurd same new
        · obtain ⟨holder, found⟩ := indexes.covers held
          refine ⟨holder, Change.onIndex_eq_some_iff.mpr (Or.inr ⟨new, fun forgotten => ?_, found⟩)⟩
          exact (clean mark new).1 forgotten key notKey notSource held

/-- A change keeps an index inverse exactly when it is exclusive. -/
theorem Inverts.change_iff (inverts : Inverts marks index) :
    Inverts (change.onMarks marks) (change.onIndex marks index) ↔ change.Exclusive marks := by
  constructor
  · intro after
    constructor
    · intro mark held
      by_contra ends
      rw [not_or] at ends
      have leads : change.onIndex marks index mark = some change.key :=
        Change.onIndex_eq_some_iff.mpr (Or.inr ⟨ends.1, ends.2, (inverts mark change.key).mpr held⟩)
      rcases Change.onMarks_eq_some_iff.mp ((after mark change.key).mp leads) with
        ⟨_, new⟩ | ⟨notKey, _⟩
      · exact ends.1 new
      · exact notKey rfl
    · intro mark new other notKey notSource held
      have stays : change.onMarks marks other = some mark :=
        Change.onMarks_eq_some_iff.mpr (Or.inr ⟨notKey, notSource, held⟩)
      have marked : change.onMarks marks change.key = some mark :=
        Change.onMarks_eq_some_iff.mpr (Or.inl ⟨rfl, new⟩)
      exact notKey (after.unique stays marked)
  · rintro ⟨ends, alone⟩ mark key
    rw [Change.onIndex_eq_some_iff, Change.onMarks_eq_some_iff]
    constructor
    · rintro (⟨new, isKey⟩ | ⟨different, kept, found⟩)
      · exact Or.inl ⟨isKey, new⟩
      · have held := (inverts mark key).mp found
        refine Or.inr ⟨?_, fun source => kept ?_, held⟩
        · rintro rfl
          exact (ends mark held).elim different kept
        · simp [Change.forgotten, source, held]
    · rintro (⟨isKey, new⟩ | ⟨notKey, notSource, held⟩)
      · exact Or.inl ⟨new, isKey⟩
      · refine Or.inr ⟨fun new => ?_, fun forgotten => ?_, (inverts mark key).mpr held⟩
        · exact alone mark new key notKey notSource held
        · obtain ⟨source, isSource, marked⟩ := Option.bind_eq_some_iff.mp forgotten
          exact notSource (isSource.trans (congrArg some (inverts.unique marked held)))

end Changes
end WolfNet.Semantics
