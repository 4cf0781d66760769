import Mathlib.Data.List.Chain
import Mathlib.Data.List.Induction

/-!
# Provenance in a log

The entries of a log that are about one thing are explained when each of them is a source, or has a
cause among the entries before it. `Explained.origin` leads from any of them back to a source, by
causes that stand in the log in order.
-/

namespace WolfNet.Semantics

variable {Entry : Type} {About Source : Entry → Prop} {Causes : Entry → Entry → Prop}
  {log chain : List Entry} {entry last : Entry}

/-- Every entry about the matter is a source, or some entry about it before has caused it. -/
def Explained (About Source : Entry → Prop) (Causes : Entry → Entry → Prop) (log : List Entry) :
    Prop :=
  ∀ before entry after, log = before ++ entry :: after → About entry →
    Source entry ∨ ∃ cause ∈ before, About cause ∧ Causes cause entry

/-- A way from a source to the last entry, each entry causing the next, in the order of the log. -/
structure Provenance (Source : Entry → Prop) (Causes : Entry → Entry → Prop) (log : List Entry)
    (origin : Entry) (chain : List Entry) (last : Entry) : Prop where
  source : Source origin
  ordered : (origin :: chain).Sublist log
  causes : (origin :: chain).IsChain Causes
  ends : (origin :: chain).getLast? = some last

/-- A chain that goes on to what its last entry causes. -/
theorem Provenance.extend {origin : Entry} (provenance : Provenance Source Causes log origin chain last)
    (causes : Causes last entry) :
    Provenance Source Causes (log ++ [entry]) origin (chain ++ [entry]) entry where
  source := provenance.source
  ordered := by
    rw [← List.cons_append]
    exact provenance.ordered.append (.refl [entry])
  causes := by
    rw [← List.cons_append]
    refine provenance.causes.append (.singleton entry) fun earlier ends later head => ?_
    rw [provenance.ends, Option.mem_some_iff] at ends
    rw [List.head?_cons, Option.mem_some_iff] at head
    exact ends ▸ head ▸ causes
  ends := by rw [← List.cons_append, List.getLast?_concat]

/-- A chain in a longer log. -/
theorem Provenance.weaken {origin : Entry} {log' : List Entry}
    (provenance : Provenance Source Causes log origin chain last) (longer : log.Sublist log') :
    Provenance Source Causes log' origin chain last :=
  ⟨provenance.source, provenance.ordered.trans longer, provenance.causes, provenance.ends⟩

namespace Explained

/-- The log up to its last entry is explained. -/
theorem prior (explained : Explained About Source Causes (log ++ [entry])) :
    Explained About Source Causes log := by
  rintro before met after rfl about
  exact explained before met (after ++ [entry]) (by simp) about

/-- Every entry about the matter comes from a source. -/
theorem origin (explained : Explained About Source Causes log) (member : entry ∈ log)
    (about : About entry) : ∃ origin chain, Provenance Source Causes log origin chain entry := by
  induction log using List.reverseRecOn generalizing entry with
  | nil => cases member
  | append_singleton log newest ih =>
      rcases List.mem_append.mp member with before | here
      · obtain ⟨origin, chain, provenance⟩ := ih explained.prior before about
        exact ⟨origin, chain, provenance.weaken (List.sublist_append_left ..)⟩
      · obtain rfl := List.mem_singleton.mp here
        rcases explained log entry [] rfl about with source | ⟨cause, earlier, aboutCause, causes⟩
        · exact ⟨entry, [], source, List.sublist_append_right .., .singleton entry, rfl⟩
        · obtain ⟨origin, chain, provenance⟩ := ih explained.prior earlier aboutCause
          exact ⟨origin, chain ++ [entry], provenance.extend causes⟩

end Explained
end WolfNet.Semantics
