import Mathlib.Data.List.Basic
import Mathlib.Data.List.Sort
import Mathlib.Order.Lattice

/-!
# First hits in a ranked table

A table is searched for the hit of the highest rank by keeping it sorted, highest rank
first, and taking the first hit. Where no two hits share a rank, the result is the same for
every order that the table was sorted from. Where some do, the one that came first in that
order wins.
-/

namespace WolfNet.Semantics

variable {Entry Rank : Type} [LinearOrder Rank] {rank : Entry → Rank} {hits : Entry → Bool}
  {table other : List Entry} {entry : Entry}

/-- The table is sorted, highest rank first. -/
def Ranked (rank : Entry → Rank) (table : List Entry) : Prop :=
  table.Pairwise fun first second => rank second ≤ rank first

/-- A hit of the table that no other hit outranks. -/
structure BestMatch (rank : Entry → Rank) (hits : Entry → Bool) (table : List Entry)
    (entry : Entry) : Prop where
  member : entry ∈ table
  hit : hits entry = true
  best : ∀ rival ∈ table, hits rival = true → rank rival ≤ rank entry

/-- No two hits of the table share a rank. -/
def HitsDistinct (rank : Entry → Rank) (hits : Entry → Bool) (table : List Entry) : Prop :=
  ∀ first ∈ table, ∀ second ∈ table, hits first = true → hits second = true →
    rank first = rank second → first = second

/-- There is one best match at most. -/
theorem BestMatch.unique {rival : Entry} (distinct : HitsDistinct rank hits table)
    (best : BestMatch rank hits table entry) (rivalBest : BestMatch rank hits table rival) :
    entry = rival :=
  distinct entry best.member rival rivalBest.member best.hit rivalBest.hit
    (le_antisymm (rivalBest.best entry best.member best.hit)
      (best.best rival rivalBest.member rivalBest.hit))

/-- The first hit of a sorted table is a best one. -/
theorem Ranked.bestMatch (ranked : Ranked rank table) (found : table.find? hits = some entry) :
    BestMatch rank hits table entry := by
  obtain ⟨hit, front, back, rfl, missed⟩ := List.find?_eq_some_iff_append.mp found
  obtain ⟨_, later, _⟩ := List.pairwise_append.mp ranked
  refine ⟨by simp, hit, fun rival member rivalHit => ?_⟩
  rcases List.mem_append.mp member with before | after
  · have miss := missed rival before
    rw [rivalHit] at miss
    cases miss
  · rcases List.mem_cons.mp after with rfl | behind
    · exact le_refl _
    · exact (List.pairwise_cons.mp later).1 rival behind

/-- Where no two hits share a rank, the first hit of a sorted table is the best one. -/
theorem Ranked.find_eq_some_iff (ranked : Ranked rank table)
    (distinct : HitsDistinct rank hits table) :
    table.find? hits = some entry ↔ BestMatch rank hits table entry := by
  refine ⟨ranked.bestMatch, fun best => ?_⟩
  have hit : ∃ first, table.find? hits = some first := by
    rw [← Option.isSome_iff_exists, List.find?_isSome]
    exact ⟨entry, best.member, best.hit⟩
  obtain ⟨first, found⟩ := hit
  rw [found, (ranked.bestMatch found).unique distinct best]

/-- The order of the table does not matter for it. -/
theorem BestMatch.of_perm (perm : table.Perm other) (best : BestMatch rank hits table entry) :
    BestMatch rank hits other entry :=
  ⟨perm.mem_iff.mp best.member, best.hit, fun rival member =>
    best.best rival (perm.mem_iff.mpr member)⟩

/-- Two sorted tables with the same entries have the same first hit where no two hits share
a rank. -/
theorem Ranked.find_perm (ranked : Ranked rank table) (otherRanked : Ranked rank other)
    (perm : table.Perm other) (distinct : HitsDistinct rank hits table) :
    table.find? hits = other.find? hits := by
  have otherDistinct : HitsDistinct rank hits other := fun first member second secondMember =>
    distinct first (perm.mem_iff.mpr member) second (perm.mem_iff.mpr secondMember)
  ext entry
  rw [ranked.find_eq_some_iff distinct, otherRanked.find_eq_some_iff otherDistinct]
  exact ⟨.of_perm perm, .of_perm perm.symm⟩

section Stable

variable {before : Entry → Entry → Prop} [DecidableRel before]

/-- An entry put into a sorted table is the first hit when it goes before every other one. -/
theorem find_orderedInsert (hit : hits entry = true)
    (first : ∀ rival ∈ table, hits rival = true → before entry rival) :
    (table.orderedInsert before entry).find? hits = some entry := by
  induction table with
  | nil => simp [hit]
  | cons next table ih =>
      rw [List.orderedInsert_cons]
      split
      · exact List.find?_cons_of_pos hit
      · next after =>
          have miss : ¬hits next = true :=
            fun nextHit => after (first next List.mem_cons_self nextHit)
          rw [List.find?_cons_of_neg miss]
          exact ih fun rival member => first rival (List.mem_cons_of_mem _ member)

/-- Sorting keeps the order of entries that may go in front of each other, so the head of a
table is the first hit when it may go before every other one. -/
theorem find_insertionSort_cons (hit : hits entry = true)
    (first : ∀ rival ∈ table, hits rival = true → before entry rival) :
    ((entry :: table).insertionSort before).find? hits = some entry := by
  rw [List.insertionSort_cons]
  exact find_orderedInsert hit fun rival member =>
    first rival ((List.mem_insertionSort before).mp member)

end Stable

end WolfNet.Semantics
