import Mathlib.Data.List.AList

/-!
# Hash maps with an arbitrary iteration order

A map is an association list with distinct keys. Lookups depend on the bindings
alone; iteration sees the list, whose order stands for whatever order a randomly
seeded hasher produced. `Reordered` relates two maps with the same bindings, so a
system that may reorder its maps between operations covers every iteration order.
-/

namespace WolfNet.Std

/-- A finite map whose iteration order is the order of its entries. -/
structure HashMap (K V : Type) where
  entries : AList (fun _ : K => V)

namespace HashMap

variable {K V : Type}

def empty : HashMap K V := ⟨∅⟩

instance : Inhabited (HashMap K V) := ⟨empty⟩

/-- The bindings in iteration order. -/
def iter (m : HashMap K V) : List (K × V) := m.entries.entries.map fun entry => (entry.1, entry.2)

def keys (m : HashMap K V) : List K := m.entries.keys

def values (m : HashMap K V) : List V := m.iter.map Prod.snd

/-- The same bindings, met in another order. -/
def Reordered (m m' : HashMap K V) : Prop := m.entries.entries.Perm m'.entries.entries

variable [DecidableEq K]

def get (m : HashMap K V) (key : K) : Option V := m.entries.lookup key

def insert (m : HashMap K V) (key : K) (value : V) : HashMap K V := ⟨m.entries.insert key value⟩

def remove (m : HashMap K V) (key : K) : HashMap K V := ⟨m.entries.erase key⟩

/-- An empty map binds no key. -/
@[simp] theorem get_empty (key : K) : (empty : HashMap K V).get key = none :=
  AList.lookup_empty key

/-- An insertion binds its key and no other. -/
theorem get_insert (m : HashMap K V) (key other : K) (value : V) :
    (m.insert key value).get other = if other = key then some value else m.get other := by
  unfold get insert
  split
  · next same => rw [same, AList.lookup_insert]
  · next different => rw [AList.lookup_insert_ne different]

/-- An insertion binds its key. -/
@[simp] theorem get_insert_self (m : HashMap K V) (key : K) (value : V) :
    (m.insert key value).get key = some value := by
  simp [get_insert]

/-- It leaves the other keys. -/
theorem get_insert_of_ne (m : HashMap K V) {key other : K} (value : V) (different : other ≠ key) :
    (m.insert key value).get other = m.get other := by
  simp [get_insert, different]

/-- A removal unbinds its key and no other. -/
theorem get_remove (m : HashMap K V) (key other : K) :
    (m.remove key).get other = if other = key then none else m.get other := by
  unfold get remove
  split
  · next same => rw [same, AList.lookup_erase]
  · next different => rw [AList.lookup_erase_ne different]

/-- A removal unbinds its key. -/
@[simp] theorem get_remove_self (m : HashMap K V) (key : K) : (m.remove key).get key = none := by
  simp [get_remove]

/-- The keys are those that are bound. -/
theorem mem_keys_iff {m : HashMap K V} {key : K} :
    key ∈ m.keys ↔ ∃ value, m.get key = some value := by
  rw [← Option.isSome_iff_exists]
  exact AList.lookup_isSome.symm

omit [DecidableEq K] in
/-- No key is listed twice. -/
theorem nodup_keys (m : HashMap K V) : m.keys.Nodup := m.entries.keys_nodup

omit [DecidableEq K] in
/-- Iteration meets each key once. -/
theorem pairwise_iter (m : HashMap K V) : m.iter.Pairwise fun first second => first.1 ≠ second.1 :=
  List.pairwise_map.mpr (List.pairwise_map.mp m.nodup_keys)

/-- Iteration visits exactly the bindings that lookups report. -/
theorem mem_iter_iff {m : HashMap K V} {key : K} {value : V} :
    (key, value) ∈ m.iter ↔ m.get key = some value := by
  constructor
  · intro member
    obtain ⟨⟨entryKey, entryValue⟩, entryMem, same⟩ := List.mem_map.mp member
    cases same
    exact AList.mem_lookup_iff.mpr entryMem
  · intro found
    exact List.mem_map.mpr ⟨⟨key, value⟩, AList.mem_lookup_iff.mp found, rfl⟩

/-- The values are those that some key is bound to. -/
theorem mem_values_iff {m : HashMap K V} {value : V} :
    value ∈ m.values ↔ ∃ key, m.get key = some value := by
  simp only [values, List.mem_map, Prod.exists, mem_iter_iff, exists_eq_right]

/-- A search over the iteration order returns a binding of the map that passes the test. -/
theorem find_iter_some {m : HashMap K V} {test : K × V → Bool} {key : K} {value : V}
    (found : m.iter.find? test = some (key, value)) :
    m.get key = some value ∧ test (key, value) = true :=
  ⟨mem_iter_iff.mp (List.mem_of_find?_eq_some found), List.find?_some found⟩

/-- A search fails exactly when no binding passes the test. -/
theorem find_iter_none {m : HashMap K V} {test : K × V → Bool} :
    m.iter.find? test = none ↔ ∀ key value, m.get key = some value → test (key, value) = false := by
  rw [List.find?_eq_none]
  constructor
  · intro fails key value found
    simpa using fails (key, value) (mem_iter_iff.mpr found)
  · rintro fails ⟨key, value⟩ member
    simpa using fails key value (mem_iter_iff.mp member)

/-- Lookups do not see the iteration order. -/
theorem Reordered.get_eq {m m' : HashMap K V} (reordered : m.Reordered m') (key : K) :
    m'.get key = m.get key :=
  (AList.perm_lookup reordered).symm

/-- A search does not miss a binding that fails the test. -/
theorem find_kerase {entries : List (Sigma fun _ : K => V)} {key : K} {value : V}
    (found : entries.dlookup key = some value) {test : K × V → Bool}
    (fails : test (key, value) = false) :
    ((entries.kerase key).map fun entry => (entry.1, entry.2)).find? test =
      (entries.map fun entry => (entry.1, entry.2)).find? test := by
  induction entries with
  | nil => rfl
  | cons entry entries ih =>
      obtain ⟨entryKey, entryValue⟩ := entry
      by_cases here : key = entryKey
      · subst here
        rw [List.dlookup_cons_eq, Option.some.injEq] at found
        have erased : List.kerase key (⟨key, entryValue⟩ :: entries) = entries :=
          List.kerase_cons_eq rfl
        rw [erased, List.map_cons, List.find?_cons, found, fails]
      · rw [List.dlookup_cons_ne _ _ here] at found
        rw [List.kerase_cons_ne here, List.map_cons, List.map_cons, List.find?_cons,
          List.find?_cons, ih found]

/-- Inserting a binding again moves it to the front of the iteration order. -/
theorem find_iter_reinserted {m : HashMap K V} {key : K} {value : V}
    (held : m.get key = some value) (test : K × V → Bool) :
    (m.insert key value).iter.find? test =
      if test (key, value) then some (key, value) else m.iter.find? test := by
  rw [iter, insert, AList.entries_insert, List.map_cons, List.find?_cons]
  cases passes : test (key, value) with
  | true => rfl
  | false => exact find_kerase held passes

end HashMap
end WolfNet.Std
