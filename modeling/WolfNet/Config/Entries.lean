import Mathlib.Data.List.Nodup
import WolfNet.Config

/-!
# The entries of a config

The default config, and the collapse of the entries that share a public key: a public
key is one peer's identity, so the file may list it once only.
-/

namespace WolfNet

/-- `Config::default`. -/
def Config.default : Config where
  network :=
    { interface := "wolfnet0"
      address := "10.0.10.1"
      subnet := 24
      listenPort := 9600
      bindAddress := "0.0.0.0"
      gateway := false
      discovery := true
      mtu := 1400 }
  privateKeyFile := "/etc/wolfnet/private.key"
  peers := []

/-- The public keys listed, in order. -/
def keysOf (peers : List PeerConfig) : List String := peers.map PeerConfig.publicKey

/-- Update the first entry with a key, or add a fresh one at the end. -/
def upsert (key : String) (update : PeerConfig → PeerConfig) (fresh : PeerConfig) :
    List PeerConfig → List PeerConfig
  | [] => [fresh]
  | first :: peers =>
    if first.publicKey = key then update first :: peers else first :: upsert key update fresh peers

/-- Keep one more entry: where its key is kept already, it takes that place only if it
brings an endpoint that the kept entry lacks. -/
def keep (kept : List PeerConfig) (peer : PeerConfig) : List PeerConfig :=
  upsert peer.publicKey
    (fun first => if first.endpoint.isNone && peer.endpoint.isSome then peer else first) peer kept

/-- The entries with one for each key. -/
def dedup (peers : List PeerConfig) : List PeerConfig := peers.foldl keep []

section Upsert

variable {key : String} {update : PeerConfig → PeerConfig} {fresh : PeerConfig}
  {peers : List PeerConfig}

/-- An unlisted key is appended. -/
theorem upsert_new (unlisted : key ∉ keysOf peers) :
    upsert key update fresh peers = peers ++ [fresh] := by
  induction peers with
  | nil => rfl
  | cons first peers ih =>
      simp only [keysOf, List.map_cons, List.mem_cons, not_or] at unlisted
      rw [upsert, if_neg (Ne.symm unlisted.1), ih unlisted.2]
      rfl

/-- The first entry of a listed key is updated in its place. -/
theorem upsert_listed (listed : key ∈ keysOf peers) :
    ∃ front first back, peers = front ++ first :: back ∧ first.publicKey = key ∧
      key ∉ keysOf front ∧ upsert key update fresh peers = front ++ update first :: back := by
  induction peers with
  | nil => cases listed
  | cons first peers ih =>
      rw [upsert]
      by_cases same : first.publicKey = key
      · exact ⟨[], first, peers, rfl, same, List.not_mem_nil, if_pos same⟩
      · have later : key ∈ keysOf peers := (List.mem_cons.mp listed).resolve_left (Ne.symm same)
        obtain ⟨front, found, back, rfl, isKey, unlisted, updated⟩ := ih later
        refine ⟨first :: front, found, back, rfl, isKey, ?_, ?_⟩
        · exact fun member => (List.mem_cons.mp member).elim (Ne.symm same) unlisted
        · rw [if_neg same, updated]
          rfl

/-- The entries with other keys stay, in their order. -/
theorem upsert_others (keeps : ∀ first, first.publicKey = key → (update first).publicKey = key)
    (freshKey : fresh.publicKey = key) :
    (upsert key update fresh peers).filter (fun peer => peer.publicKey ≠ key) =
      peers.filter fun peer => peer.publicKey ≠ key := by
  by_cases listed : key ∈ keysOf peers
  · obtain ⟨front, first, back, same, isKey, _, updated⟩ :=
      @upsert_listed key update fresh peers listed
    rw [updated, same]
    simp [List.filter_append, isKey, keeps first isKey]
  · rw [upsert_new listed]
    simp [List.filter_append, freshKey]

/-- One entry has the key afterwards. -/
theorem upsert_one (keeps : ∀ first, first.publicKey = key → (update first).publicKey = key)
    (freshKey : fresh.publicKey = key) (distinct : (keysOf peers).Nodup) :
    ∃ entry, (upsert key update fresh peers).filter (fun peer => peer.publicKey = key) = [entry] ∧
      (entry = fresh ∧ key ∉ keysOf peers ∨
        ∃ first ∈ peers, first.publicKey = key ∧ entry = update first) := by
  have none : ∀ {peers : List PeerConfig}, key ∉ keysOf peers →
      peers.filter (fun peer => peer.publicKey = key) = [] := by
    intro peers unlisted
    rw [List.filter_eq_nil_iff]
    intro peer member
    exact fun same => unlisted (List.mem_map.mpr ⟨peer, member, of_decide_eq_true same⟩)
  by_cases listed : key ∈ keysOf peers
  · obtain ⟨front, first, back, same, isKey, inFront, updated⟩ :=
      @upsert_listed key update fresh peers listed
    have inBack : key ∉ keysOf back := by
      rw [same, keysOf, List.map_append, List.map_cons] at distinct
      rw [← isKey]
      exact (List.nodup_cons.mp (List.nodup_append.mp distinct).2.1).1
    refine ⟨update first, ?_, .inr ⟨first, ?_, isKey, rfl⟩⟩
    · rw [updated, List.filter_append, none inFront, List.filter_cons,
        if_pos (decide_eq_true (keeps first isKey)), none inBack]
      rfl
    · rw [same]
      exact List.mem_append_right _ (List.mem_cons_self ..)
  · refine ⟨fresh, ?_, .inl ⟨rfl, listed⟩⟩
    rw [upsert_new listed, List.filter_append, none listed]
    simp [freshKey]

/-- An update that settles in one go changes nothing the second time. -/
theorem upsert_upsert (keeps : ∀ first, first.publicKey = key → (update first).publicKey = key)
    (freshKey : fresh.publicKey = key) (settles : ∀ first, update (update first) = update first)
    (fixed : update fresh = fresh) :
    upsert key update fresh (upsert key update fresh peers) = upsert key update fresh peers := by
  induction peers with
  | nil => simp [upsert, freshKey, fixed]
  | cons first peers ih =>
      by_cases same : first.publicKey = key
      · simp [upsert, same, keeps first same, settles first]
      · simp [upsert, same, ih]

/-- An update adds no key. -/
theorem keysOf_upsert_listed
    (keeps : ∀ first, first.publicKey = key → (update first).publicKey = key)
    (listed : key ∈ keysOf peers) : keysOf (upsert key update fresh peers) = keysOf peers := by
  induction peers with
  | nil => cases listed
  | cons first peers ih =>
      rw [upsert]
      by_cases same : first.publicKey = key
      · rw [if_pos same, keysOf, List.map_cons, keeps first same, ← same]
        rfl
      · have later : key ∈ keysOf peers := by
          rcases List.mem_cons.mp listed with here | later
          · exact absurd here.symm same
          · exact later
        rw [if_neg same, keysOf, List.map_cons]
        exact congrArg _ (ih later)

/-- Distinct keys stay distinct. -/
theorem keysOf_upsert_nodup
    (keeps : ∀ first, first.publicKey = key → (update first).publicKey = key)
    (freshKey : fresh.publicKey = key) (distinct : (keysOf peers).Nodup) :
    (keysOf (upsert key update fresh peers)).Nodup := by
  by_cases listed : key ∈ keysOf peers
  · rw [keysOf_upsert_listed keeps listed]
    exact distinct
  · rw [upsert_new listed, keysOf, List.map_append]
    refine List.nodup_append.mpr ⟨distinct, List.nodup_singleton _, ?_⟩
    intro other isListed added isFresh same
    rw [List.map_singleton, List.mem_singleton, freshKey] at isFresh
    exact listed (isFresh ▸ same ▸ isListed)

/-- The key is listed afterwards. -/
theorem mem_keysOf_upsert (keeps : ∀ first, first.publicKey = key → (update first).publicKey = key)
    (freshKey : fresh.publicKey = key) : key ∈ keysOf (upsert key update fresh peers) := by
  by_cases listed : key ∈ keysOf peers
  · rw [keysOf_upsert_listed keeps listed]
    exact listed
  · rw [upsert_new listed, keysOf, List.map_append, List.map_singleton, freshKey]
    exact List.mem_append_right _ (List.mem_singleton_self _)

/-- The one entry with the key is the updated or the fresh one. -/
theorem eq_of_mem_upsert (distinct : (keysOf peers).Nodup) {peer : PeerConfig}
    (member : peer ∈ upsert key update fresh peers) (isKey : peer.publicKey = key) :
    peer = fresh ∨ ∃ first ∈ peers, first.publicKey = key ∧ peer = update first := by
  induction peers with
  | nil => exact .inl (List.mem_singleton.mp member)
  | cons first peers ih =>
      rw [keysOf, List.map_cons, List.nodup_cons] at distinct
      rw [upsert] at member
      split at member
      · next same =>
          rcases List.mem_cons.mp member with here | later
          · exact .inr ⟨first, List.mem_cons_self .., same, here⟩
          · exact absurd (List.mem_map.mpr ⟨peer, later, isKey.trans same.symm⟩) distinct.1
      · next other =>
          rcases List.mem_cons.mp member with here | later
          · rw [here] at isKey
            exact absurd isKey other
          · rcases ih distinct.2 later with added | ⟨updated, earlier, updatedKey, same⟩
            · exact .inl added
            · exact .inr ⟨updated, List.mem_cons_of_mem _ earlier, updatedKey, same⟩

end Upsert

/-- Either of two entries with one key has that key. -/
theorem keep_key {peer : PeerConfig} (first : PeerConfig)
    (same : first.publicKey = peer.publicKey) :
    (if first.endpoint.isNone && peer.endpoint.isSome then peer else first).publicKey =
      peer.publicKey := by
  split
  · rfl
  · exact same

/-- The collapse keeps keys distinct, entry by entry. -/
theorem keysOf_keep_nodup {kept : List PeerConfig} (distinct : (keysOf kept).Nodup)
    (peer : PeerConfig) :
    (keysOf (keep kept peer)).Nodup :=
  keysOf_upsert_nodup keep_key rfl distinct

/-- No key is listed twice after the collapse. -/
theorem keysOf_dedup_nodup (peers : List PeerConfig) : (keysOf (dedup peers)).Nodup := by
  have kept : ∀ kept : List PeerConfig, (keysOf kept).Nodup →
      (keysOf (peers.foldl keep kept)).Nodup := by
    induction peers with
    | nil => exact fun _ distinct => distinct
    | cons peer peers ih => exact fun _ distinct => ih _ (keysOf_keep_nodup distinct peer)
  exact kept [] List.nodup_nil

/-- Entries with distinct keys stay as they are. -/
theorem dedup_of_nodup {peers : List PeerConfig} (distinct : (keysOf peers).Nodup) :
    dedup peers = peers := by
  have appended : ∀ kept, (keysOf (kept ++ peers)).Nodup →
      peers.foldl keep kept = kept ++ peers := by
    clear distinct
    induction peers with
    | nil => simp
    | cons peer peers ih =>
        intro kept distinct
        have unlisted : peer.publicKey ∉ keysOf kept := by
          rw [keysOf, List.map_append, List.nodup_append] at distinct
          exact fun listed => distinct.2.2 _ listed _ (List.mem_cons_self ..) rfl
        rw [List.foldl_cons, keep, upsert_new unlisted, ih _ (by simpa using distinct),
          List.append_assoc]
        rfl
  exact appended [] distinct

end WolfNet
