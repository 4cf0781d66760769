import Mathlib.Data.List.Induction
import WolfNet.Config.OnDisk
import WolfNet.Config.Sample

/-!
# What a load makes of the entries, and of the file

The collapse keeps one entry of each key, in the order of the keys' first entries, and an entry
without an endpoint gives way to the first that has one. The load reads the entries from the
migrated text, and one that collapsed entries or migrated a line writes the file back:
`load_settles_iff` says when what it returns are the entries that the file itself says, and the next
load finds the same config and has nothing left to write.
-/

namespace WolfNet

open WolfNet.Std WolfNet.Semantics

/-- The entry that stands for a key: its first one with an endpoint, or its first one. -/
def chosen (peers : List PeerConfig) (key : String) : Option PeerConfig :=
  (peers.find? fun peer => peer.publicKey = key && peer.endpoint.isSome).or
    (peers.find? fun peer => peer.publicKey = key)

section Chosen

variable {peers : List PeerConfig} {peer first : PeerConfig} {key : String}

/-- The entry that counts for a key is one of the entries, and has the key. -/
theorem chosen_mem (isChosen : chosen peers key = some first) :
    first ∈ peers ∧ first.publicKey = key := by
  rw [chosen, Option.or_eq_some_iff] at isChosen
  rcases isChosen with found | ⟨_, found⟩
  · have has := List.find?_some found
    rw [Bool.and_eq_true] at has
    exact ⟨List.mem_of_find?_eq_some found, of_decide_eq_true has.1⟩
  · have has := List.find?_some found
    exact ⟨List.mem_of_find?_eq_some found, of_decide_eq_true has⟩

/-- An entry with another key changes nothing for a key. -/
theorem chosen_append_other (other : peer.publicKey ≠ key) :
    chosen (peers ++ [peer]) key = chosen peers key := by
  simp [chosen, List.find?_append, other]

/-- The only entry with a key counts for it. -/
theorem chosen_append_new (unlisted : peer.publicKey ∉ keysOf peers) :
    chosen (peers ++ [peer]) peer.publicKey = some peer := by
  have none : ∀ other ∈ peers, other.publicKey ≠ peer.publicKey :=
    fun other member same => unlisted (List.mem_map.mpr ⟨other, member, same⟩)
  have first : peers.find? (fun other => other.publicKey = peer.publicKey) = .none := by
    simpa using none
  have withEndpoint : peers.find? (fun other =>
      other.publicKey = peer.publicKey && other.endpoint.isSome) = .none := by
    rw [List.find?_eq_none]
    intro other member
    simp [none other member]
  rw [chosen, List.find?_append, List.find?_append, first, withEndpoint]
  cases endpoint : peer.endpoint with
  | none => simp [endpoint]
  | some endpoint => simp [endpoint]

/-- A further entry with the key takes its place only if it alone has an endpoint. -/
theorem chosen_append_listed (isChosen : chosen peers peer.publicKey = some first) :
    chosen (peers ++ [peer]) peer.publicKey =
      some (if first.endpoint.isNone && peer.endpoint.isSome then peer else first) := by
  rw [chosen] at isChosen
  rw [chosen, List.find?_append, List.find?_append]
  cases found : peers.find? fun other =>
      other.publicKey = peer.publicKey && other.endpoint.isSome with
  | some withEndpoint =>
      rw [found, Option.some_or, Option.some.injEq] at isChosen
      have has := List.find?_some found
      rw [isChosen, Bool.and_eq_true, Option.isSome_iff_ne_none] at has
      simp [isChosen, has.2]
  | none =>
      rw [found, Option.none_or] at isChosen
      have bare : first.endpoint = .none := by
        have without := List.find?_eq_none.mp found first (List.mem_of_find?_eq_some isChosen)
        have key := List.find?_some isChosen
        simpa [of_decide_eq_true key] using without
      rw [isChosen, bare]
      cases endpoint : peer.endpoint with
      | none => simp [endpoint]
      | some endpoint => simp [endpoint]

end Chosen

/-- The collapse takes the entries one after the other. -/
theorem dedup_append (peers : List PeerConfig) (peer : PeerConfig) :
    dedup (peers ++ [peer]) = keep (dedup peers) peer := List.foldl_append ..

/-- An entry with a listed key adds no key. -/
theorem keysOf_keep_listed {kept : List PeerConfig} {peer : PeerConfig}
    (listed : peer.publicKey ∈ keysOf kept) : keysOf (keep kept peer) = keysOf kept :=
  keysOf_upsert_listed keep_key listed

/-- The keys of a longer list. -/
theorem keysOf_append (peers : List PeerConfig) (peer : PeerConfig) :
    keysOf (peers ++ [peer]) = keysOf peers ++ [peer.publicKey] := List.map_append ..

/-- No key is lost, and none comes up. -/
theorem mem_keysOf_dedup {peers : List PeerConfig} {key : String} :
    key ∈ keysOf (dedup peers) ↔ key ∈ keysOf peers := by
  induction peers using List.reverseRecOn with
  | nil => exact Iff.rfl
  | append_singleton peers peer ih =>
      rw [dedup_append, keysOf_append, List.mem_append, List.mem_singleton, ← ih]
      by_cases listed : peer.publicKey ∈ keysOf (dedup peers)
      · rw [keysOf_keep_listed listed]
        exact ⟨.inl, fun either => either.elim id fun same => same ▸ listed⟩
      · rw [keep, upsert_new listed, keysOf_append, List.mem_append, List.mem_singleton]

/-- The keys stay in the order of their first entries. -/
theorem keysOf_dedup (peers : List PeerConfig) :
    keysOf (dedup peers) = (keysOf peers).eraseDups := by
  induction peers using List.reverseRecOn with
  | nil => rfl
  | append_singleton peers peer ih =>
      rw [dedup_append, keysOf_append, List.eraseDups_append, ← ih]
      by_cases listed : peer.publicKey ∈ keysOf (dedup peers)
      · have known : [peer.publicKey].removeAll (keysOf peers) = [] := by
          simp [List.removeAll, mem_keysOf_dedup.mp listed]
        rw [keysOf_keep_listed listed, known, List.eraseDups_nil, List.append_nil]
      · have unknown : [peer.publicKey].removeAll (keysOf peers) = [peer.publicKey] := by
          simp [List.removeAll, mt mem_keysOf_dedup.mpr listed]
        rw [keep, upsert_new listed, keysOf_append, unknown]
        rfl

/-- The collapse keeps the order of the keys. -/
theorem keysOf_dedup_sublist (peers : List PeerConfig) :
    (keysOf (dedup peers)).Sublist (keysOf peers) := by
  induction peers using List.reverseRecOn with
  | nil => exact .slnil
  | append_singleton peers peer ih =>
      rw [dedup_append, keysOf_append]
      by_cases listed : peer.publicKey ∈ keysOf (dedup peers)
      · rw [keysOf_keep_listed listed]
        exact ih.trans (List.sublist_append_left ..)
      · rw [keep, upsert_new listed, keysOf_append]
        exact ih.append (.refl _)

/-- Entries are missing after the collapse exactly where keys were listed twice. -/
theorem dedup_length {peers : List PeerConfig} :
    0 < peers.length - (dedup peers).length ↔ ¬ (keysOf peers).Nodup := by
  have shorter := (keysOf_dedup_sublist peers).length_le
  simp only [keysOf, List.length_map] at shorter
  constructor
  · intro removed distinct
    rw [dedup_of_nodup distinct] at removed
    omega
  · intro repeated
    by_contra kept
    have same : keysOf (dedup peers) = keysOf peers :=
      (keysOf_dedup_sublist peers).eq_of_length (by simp only [keysOf, List.length_map]; omega)
    rw [← same] at repeated
    exact repeated (keysOf_dedup_nodup peers)

/-- Every entry kept stands for its key. -/
theorem chosen_of_mem_dedup {peers : List PeerConfig} {entry : PeerConfig}
    (member : entry ∈ dedup peers) : chosen peers entry.publicKey = some entry := by
  induction peers using List.reverseRecOn generalizing entry with
  | nil => cases member
  | append_singleton peers peer ih =>
      rw [dedup_append] at member
      by_cases isKey : entry.publicKey = peer.publicKey
      · obtain ⟨only, one, standsFor⟩ :=
          @upsert_one peer.publicKey _ peer _ keep_key rfl (keysOf_dedup_nodup peers)
        have filtered : entry ∈ (keep (dedup peers) peer).filter
            fun other => other.publicKey = peer.publicKey :=
          List.mem_filter.mpr ⟨member, decide_eq_true isKey⟩
        rw [keep, one, List.mem_singleton] at filtered
        rw [isKey, filtered]
        rcases standsFor with ⟨rfl, unlisted⟩ | ⟨first, kept, firstKey, rfl⟩
        · exact chosen_append_new (mt mem_keysOf_dedup.mpr unlisted)
        · exact chosen_append_listed (firstKey ▸ ih kept)
      · have filtered : entry ∈ (keep (dedup peers) peer).filter
            fun other => other.publicKey ≠ peer.publicKey :=
          List.mem_filter.mpr ⟨member, decide_eq_true isKey⟩
        rw [keep, upsert_others keep_key rfl] at filtered
        rw [chosen_append_other (Ne.symm isKey)]
        exact ih (List.mem_filter.mp filtered).1

/-- What the collapse keeps of the entries of a file. -/
structure Collapsed (file kept : List PeerConfig) : Prop where
  order : keysOf kept = (keysOf file).eraseDups
  distinct : (keysOf kept).Nodup
  present : ∀ peer ∈ file, peer.publicKey ∈ keysOf kept
  isChosen : ∀ entry ∈ kept, chosen file entry.publicKey = some entry
  /-- An entry stays whose key no other has, whatever its address. -/
  single : ∀ peer ∈ file, (∀ other ∈ file, other.publicKey = peer.publicKey → other = peer) →
    peer ∈ kept

/-- Two lists with the same keys in the order of their first entries, where the same entry stands for
each key. -/
structure SameEntries (said file : List PeerConfig) : Prop where
  keys : (keysOf said).eraseDups = (keysOf file).eraseDups
  entries : ∀ key, chosen said key = chosen file key

/-- No entry stands for a key that is not listed. -/
theorem chosen_unlisted {peers : List PeerConfig} {key : String} (unlisted : key ∉ keysOf peers) :
    chosen peers key = none := by
  cases isChosen : chosen peers key with
  | none => rfl
  | some entry =>
      obtain ⟨member, isKey⟩ := chosen_mem isChosen
      exact absurd (List.mem_map.mpr ⟨entry, member, isKey⟩) unlisted

/-- The collapse of a list is one of another list exactly when they list the same. -/
theorem collapsed_iff {said file : List PeerConfig} :
    Collapsed said (dedup file) ↔ SameEntries said file := by
  constructor
  · intro collapsed
    refine ⟨collapsed.order.symm.trans (keysOf_dedup file), fun key => ?_⟩
    by_cases listed : key ∈ keysOf (dedup file)
    · obtain ⟨entry, kept, rfl⟩ := List.mem_map.mp listed
      rw [collapsed.isChosen entry kept, chosen_of_mem_dedup kept]
    · have unsaid : key ∉ keysOf said := by
        intro isSaid
        obtain ⟨peer, member, rfl⟩ := List.mem_map.mp isSaid
        exact listed (collapsed.present peer member)
      rw [chosen_unlisted unsaid, chosen_unlisted (mt mem_keysOf_dedup.mpr listed)]
  · intro same
    have present : ∀ peer ∈ said, peer.publicKey ∈ keysOf (dedup file) := by
      intro peer member
      rw [keysOf_dedup, ← same.keys, List.mem_eraseDups]
      exact List.mem_map_of_mem member
    have isChosen : ∀ entry ∈ dedup file, chosen said entry.publicKey = some entry := by
      intro entry member
      rw [same.entries, chosen_of_mem_dedup member]
    refine ⟨(keysOf_dedup file).trans same.keys.symm, keysOf_dedup_nodup file, present, isChosen, ?_⟩
    intro peer member alone
    obtain ⟨entry, kept, isKey⟩ := List.mem_map.mp (present peer member)
    rw [← alone entry (chosen_mem (isChosen entry kept)).1 isKey]
    exact kept

/-- Nothing is written back where no line is a legacy one and no key is listed twice. -/
theorem Config.unchanged_iff {content : String} {file : Config} :
    ((migrate content).1 || decide (0 < file.peers.length - (dedup file.peers).length)) = false ↔
      (∀ line ∈ lines content.toList, isLegacyLine line = false) ∧ (keysOf file.peers).Nodup := by
  have legacy : (migrate content).1 = (lines content.toList).any isLegacyLine := rfl
  rw [Bool.or_eq_false_iff, decide_eq_false_iff_not, dedup_length, not_not, legacy]
  simp

section Load

open Files

variable [Toml] {path : FilePath} {disk : Disk FilePath} {bytes : List UInt8}
  {content text : String} {file config : Config}

/-- What a load returns and whether it writes back, at what the parser makes of the text. -/
theorem Config.read_accepted (accepted : Toml.fromStr (migrate content).2 = .ok file) :
    Config.read content = .ok ({ file with peers := dedup file.peers },
      (migrate content).1 || decide (0 < file.peers.length - (dedup file.peers).length)) := by
  simp only [Config.read, accepted, bind, Except.bind]
  rfl

/-- A read that finds nothing to write has met no legacy line. -/
theorem Config.noLegacy_of_read (reads : Config.read content = .ok (config, false)) :
    ∀ line ∈ lines content.toList, isLegacyLine line = false := by
  cases accepted : Toml.fromStr (migrate content).2 with
  | error error => simp [Config.read, accepted, bind, Except.bind] at reads
  | ok file =>
      rw [Config.read_accepted accepted, Except.ok.injEq, Prod.mk.injEq] at reads
      exact (Config.unchanged_iff.mp reads.2).1

/-- A load is what it does with the config that the healed file holds. -/
theorem Config.returns_load {changed : Bool}
    {post : Except String Config → Disk FilePath → Prop}
    (healed : Config.healed path disk = some bytes) (decoded : fromUtf8 bytes = some content)
    (reads : Config.read content = .ok (config, changed))
    (rest : Returns (do
      if changed then let _ ← config.save path
      return .ok config) post (Function.update disk path (some bytes))) :
    Returns (Config.load path) post disk := by
  refine ensures_bind ((Config.returns_healed path disk).mono ?_ fun _ => id)
  rintro _ _ rfl
  refine ensures_attempt (ensures_attempt (returns_query ?_))
  simp only [healed, Function.update_self, decoded]
  refine ensures_pure ?_
  simp only [reads]
  exact rest

/-- A load that writes nothing back leaves the file as it was healed. -/
theorem Config.returns_quiet (healed : Config.healed path disk = some bytes)
    (decoded : fromUtf8 bytes = some content) (reads : Config.read content = .ok (config, false)) :
    Returns (Config.load path) (fun result after => result = .ok config ∧
      after = Function.update disk path (some bytes)) disk :=
  Config.returns_load healed decoded reads (ensures_pure ⟨rfl, rfl⟩)

/-- One that writes back leaves the printed text. -/
theorem Config.returns_writing (healed : Config.healed path disk = some bytes)
    (decoded : fromUtf8 bytes = some content) (reads : Config.read content = .ok (config, true))
    (printed : Toml.toStringPretty config = .ok text) (complete : isComplete text) :
    Returns (Config.load path) (fun result after => result = .ok config ∧
      after path = some (utf8 text)) disk := by
  refine Config.returns_load healed decoded reads ?_
  refine ensures_bind ((Config.returns_saved printed complete).mono ?_ fun _ => id)
  rintro _ after ⟨_, saved⟩
  exact ensures_pure ⟨rfl, saved⟩

/-- A load of the file returns the config, asks for no write-back, and leaves the disk. -/
structure Config.Settled (config : Config) (path : FilePath) (disk : Disk FilePath) : Prop where
  reads : ∃ bytes content, Config.healed path disk = some bytes ∧ fromUtf8 bytes = some content ∧
    Config.read content = .ok (config, false)
  loads : Returns (Config.load path) (fun result after => result = .ok config ∧ after = disk) disk

/-- A file that reads without a change is settled. -/
theorem Config.settled (held : disk path = some bytes)
    (healed : Config.healed path disk = some bytes) (decoded : fromUtf8 bytes = some content)
    (reads : Config.read content = .ok (config, false)) : config.Settled path disk := by
  refine ⟨⟨bytes, content, healed, decoded, reads⟩, ?_⟩
  refine (Config.returns_quiet healed decoded reads).mono ?_ fun _ => id
  rintro result _ ⟨returned, rfl⟩
  exact ⟨returned, by rw [← held, Function.update_eq_self]⟩

/-- What a config file says: what the parser makes of its own text. A legacy text that the parser
refuses says what its reader takes it for. -/
def Config.said (content : String) (legacy : Config) : Config :=
  match Toml.fromStr content with
  | .ok config => config
  | .error _ => legacy

/-- A load of a file that says `said` returns one entry for each key, and the next load finds that
config and writes nothing. -/
def LoadsStably (path : FilePath) (disk : Disk FilePath) (said : Config) : Prop :=
  Returns (Config.load path) (fun result after => ∃ config, result = .ok config ∧
    Collapsed said.peers config.peers ∧ config.Settled path after) disk

/-- A line of the written text that is taken for a legacy one makes the next load write. -/
theorem LoadsStably.noLegacy {said : Config} (stable : LoadsStably path disk said)
    (healed : Config.healed path disk = some bytes) (decoded : fromUtf8 bytes = some content)
    (reads : Config.read content = .ok (config, true))
    (printed : Toml.toStringPretty config = .ok text) (complete : isComplete text) :
    ∀ line ∈ lines text.toList, isLegacyLine line = false := by
  unfold LoadsStably at stable
  obtain ⟨_, next, ran, _, _, _, isSettled⟩ := stable.returned
  obtain ⟨_, next', ran', _, saved⟩ :=
    (Config.returns_writing healed decoded reads printed complete).returned
  obtain ⟨-, rfl⟩ := Prod.mk.inj (ran.symm.trans ran')
  obtain ⟨bytes', content', healed', decoded', reads'⟩ := isSettled.reads
  rw [Config.healed_of_nonempty saved (isComplete_ne_nil complete), Option.some.injEq] at healed'
  rw [← healed', fromUtf8_utf8, Option.some.injEq] at decoded'
  rw [← decoded'] at reads'
  exact Config.noLegacy_of_read reads'

/-- A load of an accepted file returns the collapse of what the parser makes of the migrated text. -/
theorem Config.returns_collapsed (healed : Config.healed path disk = some bytes)
    (decoded : fromUtf8 bytes = some content)
    (accepted : Toml.fromStr (migrate content).2 = .ok file)
    (printed : Toml.toStringPretty { file with peers := dedup file.peers } = .ok text)
    (complete : isComplete text) :
    Returns (Config.load path)
      (fun result _ => result = .ok { file with peers := dedup file.peers }) disk := by
  have reads := Config.read_accepted accepted
  cases changed : (migrate content).1 ||
      decide (0 < file.peers.length - (dedup file.peers).length) with
  | false =>
      rw [changed] at reads
      refine (Config.returns_quiet healed decoded reads).mono ?_ fun _ => id
      exact fun _ _ returned => returned.1
  | true =>
      rw [changed] at reads
      refine (Config.returns_writing healed decoded reads printed complete).mono ?_ fun _ => id
      exact fun _ _ returned => returned.1

/-- Such a load does right by what the file says only where that lists the same entries. -/
theorem LoadsStably.sameEntries {said : Config} (stable : LoadsStably path disk said)
    (healed : Config.healed path disk = some bytes) (decoded : fromUtf8 bytes = some content)
    (accepted : Toml.fromStr (migrate content).2 = .ok file)
    (printed : Toml.toStringPretty { file with peers := dedup file.peers } = .ok text)
    (complete : isComplete text) : SameEntries said.peers file.peers := by
  unfold LoadsStably at stable
  obtain ⟨_, _, ran, config, same, collapsed, _⟩ := stable.returned
  obtain ⟨_, _, ran', same'⟩ :=
    (Config.returns_collapsed healed decoded accepted printed complete).returned
  have one := Option.some.inj (Prod.mk.inj (ran.symm.trans ran')).1
  cases same.symm.trans (one.trans same')
  exact collapsed_iff.mp collapsed

end Load

namespace Sample

attribute [local instance] toml

def file : FilePath := ⟨"/etc/wolfnet", "config", some "toml"⟩

/-- The text in the file, and no other file. -/
def diskOf (text : String) : Disk FilePath := fun path =>
  if path = file then some (utf8 text) else none

/-- A disk with a text needs no healing. -/
theorem diskOf_healed {text : String} (nonempty : text ≠ "") :
    Config.healed file (diskOf text) = some (utf8 text) :=
  Config.healed_of_nonempty (if_pos rfl) (utf8_ne_nil nonempty)

/-- The disk of a text that the parser accepts needs no healing. -/
theorem healed_of_reading {text : String} {config : Config}
    (said : (readingOf text.toList).said = .ok config) :
    Config.healed file (diskOf text) = some (utf8 text) :=
  diskOf_healed (ne_of_reading said)

/-- What a text says is what the parser makes of it. -/
theorem said_of_reading {text : String} {config : Config}
    (said : (readingOf text.toList).said = .ok config) (legacy : Config) :
    Config.said text legacy = config := by
  rw [Config.said, parsed_of_reading said]

/-- What a read of a text returns. -/
theorem read_of_reading {text : String} {config : Config}
    (migrated : (readingOf text.toList).migrated = .ok config) :
    Config.read text = .ok ({ config with peers := dedup config.peers },
      (readingOf text.toList).legacy ||
        decide (0 < config.peers.length - (dedup config.peers).length)) :=
  Config.read_accepted (migrated_of_reading migrated)

/-- The file with twin keys says two entries, and no line of it is taken for a legacy one. -/
theorem twins_reading : readingOf twinText.toList = ⟨.ok twins, .ok twins, false, false⟩ := by
  rw [twinText_toList]
  decide +kernel

/-- It is read as the first of the entries. -/
theorem twins_read : Config.read twinText = .ok (named "ip = 1\na" [], true) := by
  rw [read_of_reading (congrArg Reading.migrated twins_reading), twins_reading]
  rfl

/-- A line of the name reads like the legacy key in what is written for it. -/
theorem collapsed_reading : readingOf collapsedText.toList =
    ⟨.ok (named "ip = 1\na" []), .ok (named "allowed_ip = 1\na" []), true, true⟩ := by
  rw [collapsedText_toList]
  decide +kernel

/-- The load after it finds a legacy line in the name. -/
theorem collapsed_read : Config.read collapsedText = .ok (named "allowed_ip = 1\na" [], true) := by
  rw [read_of_reading (congrArg Reading.migrated collapsed_reading), collapsed_reading]
  rfl

/-- The listed file says its entries. -/
theorem listed_reading : readingOf listedText.toList = ⟨.ok listed, .ok listed, false, false⟩ := by
  rw [listedText_toList]
  decide +kernel

/-- The name of the one peer is `ip = 1`, and the migration takes it for a legacy line. -/
theorem lone_reading : readingOf loneText.toList =
    ⟨.ok (named "ip = 1" []), .ok (named "allowed_ip = 1" []), true, false⟩ := by
  rw [loneText_toList]
  decide +kernel

/-- What is printed for the renamed peer. -/
def renamedText : String := String.ofList (tomlChars (named "allowed_ip = 1" []))

/-- The text of that config is complete. -/
theorem renamed_complete : isComplete renamedText = true := by
  rw [isComplete, renamedText, String.toList_ofList]
  decide +kernel

end Sample

end WolfNet
