import Mathlib.Data.List.Induction
import Mathlib.Data.List.Nodup
import Mathlib.Tactic.Common

/-!
# First come, first served

Requests that each ask for a slot under a name are served in order: a request is granted when
neither its slot nor its name was granted before. Different names may denote one thing, and then
they count as the same. Where no two requests ask for the same slot or name, each gets what it asks
for, in whatever order they come.
-/

namespace WolfNet.Semantics

variable {Request Slot Name Thing : Type}

/-- A request that was granted its slot and its name. -/
structure Grant (Request Slot Name : Type) where
  request : Request
  slot : Slot
  name : Name

namespace Grant

variable [DecidableEq Slot] [DecidableEq Thing] (denotes : Name → Thing)
  (asks : Request → Option (Slot × Name))
  {granted : List (Grant Request Slot Name)} {requests before after : List Request}
  {request : Request} {slot : Slot} {name : Name} {grant : Grant Request Slot Name}

/-- Neither the slot nor the name was granted. -/
def Free (denotes : Name → Thing) (granted : List (Grant Request Slot Name)) (slot : Slot) (name : Name) : Prop :=
  ∀ grant ∈ granted, grant.slot ≠ slot ∧ denotes grant.name ≠ denotes name

instance : Decidable (Free denotes granted slot name) := by
  unfold Free
  infer_instance

/-- Serve one request. -/
def serve (granted : List (Grant Request Slot Name)) (request : Request) :
    List (Grant Request Slot Name) :=
  match asks request with
  | some (slot, name) =>
    if Free denotes granted slot name then granted ++ [⟨request, slot, name⟩] else granted
  | none => granted

/-- The requests granted, in order. -/
def grants (requests : List Request) : List (Grant Request Slot Name) :=
  requests.foldl (serve denotes asks) []

/-- No request is granted nothing. -/
@[simp] theorem grants_nil : grants denotes asks [] = [] := rfl

/-- One more request is served after the others. -/
theorem grants_snoc :
    grants denotes asks (requests ++ [request]) = serve denotes asks (grants denotes asks requests) request := by
  rw [grants, List.foldl_append]
  rfl

variable {denotes asks}

/-- Serving a request grants it at the end, or does nothing. -/
theorem serve_cases :
    (∃ slot name, asks request = some (slot, name) ∧ Free denotes granted slot name ∧
      serve denotes asks granted request = granted ++ [⟨request, slot, name⟩]) ∨
    (∀ slot name, asks request = some (slot, name) → ¬Free denotes granted slot name) ∧
      serve denotes asks granted request = granted := by
  unfold serve
  cases asked : asks request with
  | none => exact Or.inr ⟨by simp, rfl⟩
  | some pair =>
      obtain ⟨slot, name⟩ := pair
      dsimp only
      split
      · next free => exact Or.inl ⟨slot, name, rfl, free, rfl⟩
      · next taken =>
          refine Or.inr ⟨fun slot' name' same => ?_, rfl⟩
          cases same
          exact taken

/-- What was granted stays granted. -/
theorem grants_prefix : grants denotes asks before <+: grants denotes asks (before ++ after) := by
  induction after using List.reverseRecOn with
  | nil => simp
  | append_singleton after request ih =>
      rw [← List.append_assoc, grants_snoc]
      rcases @serve_cases _ _ _ _ _ _ denotes asks (grants denotes asks (before ++ after)) request with
        ⟨slot, name, _, _, served⟩ | ⟨_, same⟩
      · rw [served]
        exact ih.trans (List.prefix_append _ _)
      · rwa [same]

/-- A request is granted exactly when it asks for a slot and a name that no earlier request was
granted. -/
theorem mem_grants_iff :
    grant ∈ grants denotes asks requests ↔ ∃ before after, requests = before ++ grant.request :: after ∧
      asks grant.request = some (grant.slot, grant.name) ∧
      Free denotes (grants denotes asks before) grant.slot grant.name := by
  constructor
  · intro member
    induction requests using List.reverseRecOn with
    | nil => cases member
    | append_singleton requests request ih =>
        rw [grants_snoc] at member
        rcases @serve_cases _ _ _ _ _ _ denotes asks (grants denotes asks requests) request with
          ⟨slot, name, asked, free, served⟩ | ⟨_, same⟩
        · rw [served, List.mem_append, List.mem_singleton] at member
          rcases member with earlier | rfl
          · obtain ⟨before, after, rfl, rest⟩ := ih earlier
            exact ⟨before, after ++ [request], by simp, rest⟩
          · exact ⟨requests, [], rfl, asked, free⟩
        · rw [same] at member
          obtain ⟨before, after, rfl, rest⟩ := ih member
          exact ⟨before, after ++ [request], by simp, rest⟩
  · rintro ⟨before, after, rfl, asked, free⟩
    have here : grant ∈ grants denotes asks (before ++ [grant.request]) := by
      rw [grants_snoc, serve, asked]
      simp [free]
    rw [List.append_cons]
    exact grants_prefix.subset here

/-- No two grants have the same slot. -/
theorem nodup_slots : ((grants denotes asks requests).map Grant.slot).Nodup := by
  induction requests using List.reverseRecOn with
  | nil => exact List.nodup_nil
  | append_singleton requests request ih =>
      rw [grants_snoc]
      rcases @serve_cases _ _ _ _ _ _ denotes asks (grants denotes asks requests) request with
        ⟨slot, name, _, free, served⟩ | ⟨_, same⟩
      · rw [served, List.map_append, List.nodup_append]
        refine ⟨ih, by simp, fun first member last new => ?_⟩
        obtain ⟨grant, granted, rfl⟩ := List.mem_map.mp member
        rw [List.mem_singleton.mp new]
        exact (free grant granted).1
      · rwa [same]

/-- A slot is granted once. -/
theorem eq_of_slot {other : Grant Request Slot Name} (member : grant ∈ grants denotes asks requests)
    (otherMember : other ∈ grants denotes asks requests) (same : grant.slot = other.slot) : grant = other :=
  List.inj_on_of_nodup_map nodup_slots member otherMember same

/-- No two requests ask for the same slot or the same name. -/
def Apart (denotes : Name → Thing) (asks : Request → Option (Slot × Name)) (requests : List Request) : Prop :=
  requests.Pairwise fun first second => ∀ slot name slot' name',
    asks first = some (slot, name) → asks second = some (slot', name') → slot ≠ slot' ∧
      denotes name ≠ denotes name'

/-- Of requests that are apart, each is granted what it asks for. -/
theorem Apart.mem_grants_iff (apart : Apart denotes asks requests) :
    grant ∈ grants denotes asks requests ↔
      grant.request ∈ requests ∧ asks grant.request = some (grant.slot, grant.name) := by
  rw [Grant.mem_grants_iff]
  constructor
  · rintro ⟨before, after, rfl, asked, _⟩
    exact ⟨by simp, asked⟩
  · rintro ⟨member, asked⟩
    obtain ⟨before, after, rfl⟩ := List.append_of_mem member
    refine ⟨before, after, rfl, asked, fun earlier granted => ?_⟩
    obtain ⟨front, back, rfl, earlierAsked, _⟩ := Grant.mem_grants_iff.mp granted
    exact (List.pairwise_append.mp apart).2.2 earlier.request (by simp) grant.request
      (by simp) _ _ _ _
      earlierAsked asked

end Grant
end WolfNet.Semantics
