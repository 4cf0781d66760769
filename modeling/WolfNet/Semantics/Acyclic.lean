import Mathlib.Data.Finset.Card
import Mathlib.Data.List.Chain
import Mathlib.Logic.Relation

/-!
# Walks along an acyclic relation

A walk is the list of the places it visited, the latest first. Along an acyclic relation
it visits no place twice, so among finitely many places it is short.
-/

namespace WolfNet.Semantics

variable {Place : Type} {hop : Place → Place → Prop} {visited : List Place}

/-- No place leads back to itself. -/
def Acyclic (hop : Place → Place → Prop) : Prop := ∀ place, ¬Relation.TransGen hop place place

/-- Each place of the walk is one hop from the place before it. -/
def Walks (hop : Place → Place → Prop) (visited : List Place) : Prop :=
  visited.IsChain fun next place => hop place next

/-- A walk that goes on. -/
theorem Walks.step {place next : Place} (walks : Walks hop (place :: visited))
    (along : hop place next) : Walks hop (next :: place :: visited) :=
  .cons_cons along walks

/-- A walk along an acyclic relation visits no place twice. -/
theorem Walks.nodup (walks : Walks hop visited) (acyclic : Acyclic hop) : visited.Nodup := by
  have later : visited.IsChain fun next place => Relation.TransGen hop place next :=
    walks.imp fun _ _ along => .single along
  have transitive : IsTrans Place fun next place => Relation.TransGen hop place next :=
    ⟨fun _ _ _ first second => second.trans first⟩
  have apart := List.isChain_iff_pairwise.mp later
  refine apart.imp ?_
  rintro next place leads rfl
  exact acyclic _ leads

/-- A walk without repetition is no longer than the set it stays in. -/
theorem length_le_card {members : Finset Place} (nodup : visited.Nodup)
    (within : ∀ place ∈ visited, place ∈ members) : visited.length ≤ members.card := by
  classical
  rw [← List.toFinset_card_of_nodup nodup]
  exact Finset.card_le_card fun place member => within place (List.mem_toFinset.mp member)

end WolfNet.Semantics
