import WolfNet.Config.File

/-!
# A model of the `toml` crate

A printer and a line reader for config files whose strings need no escapes and whose
values start on the lines of their keys, as the crate prints them. A string with a line feed
starts behind the line of its opening quotes.
-/

namespace WolfNet.Sample

open WolfNet.Std

/-- A value on a line of its own. -/
inductive TomlValue where
  | text (value : String)
  | number (value : Nat)
  | flag (value : Bool)
  | emptyArray
deriving DecidableEq, Repr

inductive TomlLine where
  | blank
  | table (name : String)
  | entry (key : String) (value : TomlValue)
deriving DecidableEq, Repr

def tomlValue : List Char → Option TomlValue
  | '"' :: rest =>
    if rest.getLast? = some '"' then some (.text (String.ofList rest.dropLast)) else none
  | ['[', ']'] => some .emptyArray
  | ['t', 'r', 'u', 'e'] => some (.flag true)
  | ['f', 'a', 'l', 's', 'e'] => some (.flag false)
  | digits => (parseUnsigned 65535 digits).map .number

def tomlLine (line : List Char) : Option TomlLine :=
  match line with
  | [] => some .blank
  | '[' :: _ => some (.table (String.ofList line))
  | _ =>
    let key := line.takeWhile (· ≠ ' ')
    match line.dropWhile (· ≠ ' ') with
    | ' ' :: '=' :: ' ' :: value => (tomlValue value).map (.entry (String.ofList key))
    | _ => none

/-- The entries of one table. -/
abbrev TomlTable := List (String × TomlValue)

namespace TomlTable

def string (table : TomlTable) (key : String) : Option String :=
  match table.lookup key with
  | some (.text value) => some value
  | _ => none

def number (table : TomlTable) (key : String) (whenAbsent : Nat) : Option Nat :=
  match table.lookup key with
  | some (.number value) => some value
  | none => some whenAbsent
  | _ => none

def flag (table : TomlTable) (key : String) (whenAbsent : Bool) : Option Bool :=
  match table.lookup key with
  | some (.flag value) => some value
  | none => some whenAbsent
  | _ => none

end TomlTable

/-- The lines put into the tables they belong to, the last one being open. -/
def tomlTables (name : String) (table : TomlTable) : List TomlLine → List (String × TomlTable)
  | [] => [(name, table)]
  | .blank :: rest => tomlTables name table rest
  | .table next :: rest => (name, table) :: tomlTables next [] rest
  | .entry key value :: rest => tomlTables name (table ++ [(key, value)]) rest

def tomlNetwork (table : TomlTable) : Option NetworkConfig := do
  return {
    interface := (table.string "interface").getD "wolfnet0"
    address := ← table.string "address"
    subnet := UInt8.ofNat (← table.number "subnet" 24)
    listenPort := UInt16.ofNat (← table.number "listen_port" 9600)
    bindAddress := (table.string "bind_address").getD "0.0.0.0"
    gateway := ← table.flag "gateway" false
    discovery := ← table.flag "discovery" true
    mtu := UInt16.ofNat (← table.number "mtu" 1400) }

def tomlPeer (table : TomlTable) : Option PeerConfig := do
  return {
    publicKey := ← table.string "public_key"
    endpoint := table.string "endpoint"
    allowedIp := ← table.string "allowed_ip"
    name := table.string "name" }

def tomlConfig (tables : List (String × TomlTable)) : Option Config := do
  let network ← tables.lookup "[network]"
  let security := (tables.lookup "[security]").getD []
  let peers := (tables.filter fun table => table.1 = "[[peers]]").map Prod.snd
  return {
    network := ← tomlNetwork network
    privateKeyFile := (security.string "private_key_file").getD "/etc/wolfnet/private.key"
    peers := ← peers.mapM tomlPeer }

def quotes : List Char := ['"', '"', '"']

/-- The key of a line that opens a string of several lines, and what the string starts with. A line
feed behind the quotes is not part of it. -/
def opened (line : List Char) : Option (List Char × List (List Char)) :=
  let key := line.takeWhile (· ≠ ' ')
  let opening := key ++ " = ".toList ++ quotes
  if opening.isPrefixOf line then
    let front := line.drop opening.length
    some (key, if front.isEmpty then [] else [front])
  else none

/-- The lines read, inside the string that a key opened with the lines of it so far. -/
def tomlLines (inside : Option (List Char × List (List Char))) :
    List (List Char) → Option (List TomlLine)
  | [] => if inside.isNone then some [] else none
  | line :: rest =>
    match inside with
    | some (key, front) =>
      if quotes.isSuffixOf line then
        let value := joinLines (front ++ [line.take (line.length - 3)])
        (tomlLines none rest).map (.entry (String.ofList key) (.text (String.ofList value)) :: ·)
      else tomlLines (some (key, front ++ [line])) rest
    | none =>
      match opened line with
      | some string => tomlLines (some string) rest
      | none => do
        let parsed ← tomlLine line
        (tomlLines none rest).map (parsed :: ·)

def tomlFromChars (text : List Char) : Except String Config :=
  match tomlLines none (lines text) with
  | none => .error "TOML parse error"
  | some parsed =>
    match tomlConfig (tomlTables "" [] parsed) with
    | none => .error "missing field"
    | some config => .ok config

def printString (key value : String) : List Char :=
  if value.toList.contains '\n' then
    key.toList ++ " = ".toList ++ quotes ++ '\n' :: value.toList ++ quotes ++ ['\n']
  else key.toList ++ " = \"".toList ++ value.toList ++ "\"\n".toList

def printNumber (key : String) (value : Nat) : List Char :=
  key.toList ++ " = ".toList ++ Nat.toDigits 10 value ++ ['\n']

def printFlag (key : String) (value : Bool) : List Char :=
  key.toList ++ (if value then " = true\n" else " = false\n").toList

def printPeer (peer : PeerConfig) : List Char :=
  "\n[[peers]]\n".toList ++ printString "public_key" peer.publicKey ++
    (peer.endpoint.map (printString "endpoint")).getD [] ++
    printString "allowed_ip" peer.allowedIp ++ (peer.name.map (printString "name")).getD []

def tomlChars (config : Config) : List Char :=
  (if config.peers.isEmpty then "peers = []\n\n" else "").toList ++
    "[network]\n".toList ++ printString "interface" config.network.interface ++
    printString "address" config.network.address ++
    printNumber "subnet" config.network.subnet.toNat ++
    printNumber "listen_port" config.network.listenPort.toNat ++
    printString "bind_address" config.network.bindAddress ++
    printFlag "gateway" config.network.gateway ++ printFlag "discovery" config.network.discovery ++
    printNumber "mtu" config.network.mtu.toNat ++ "\n[security]\n".toList ++
    printString "private_key_file" config.privateKeyFile ++ config.peers.flatMap printPeer

@[reducible] def toml : Toml where
  fromStr text := tomlFromChars text.toList
  toStringPretty config := .ok (String.ofList (tomlChars config))

attribute [local instance] toml

/-- The config of a node with one peer, as the program writes it. -/
def config : Config :=
  { Config.default with
    network := { Config.default.network with address := "10.10.10.1" }
    peers := [⟨"key-a", some "10.10.1.41:9600", "10.10.10.2", some "a"⟩] }

def configText : String := String.ofList (tomlChars config)

/-- The characters of the sample config's text. -/
@[simp] theorem configText_toList : configText.toList = tomlChars config := String.toList_ofList

/-- What is computed of a text: what the parser makes of it and of the migrated text, whether it has
a legacy line, and whether it is complete. -/
structure Reading where
  said : Except String Config
  migrated : Except String Config
  legacy : Bool
  complete : Bool
deriving DecidableEq

def readingOf (text : List Char) : Reading where
  said := tomlFromChars text
  migrated := tomlFromChars (joinLines ((lines text).map migrateLine))
  legacy := (lines text).any isLegacyLine
  complete := !(trimmed text).isEmpty && contains text "[network]".toList &&
    contains text "[security]".toList

section Readings
variable {text : String} {file : Config}

/-- The sample parser makes of a text what is computed. -/
theorem parsed_of_reading (said : (readingOf text.toList).said = .ok file) :
    Toml.fromStr text = .ok file := said

/-- The parser makes of a migrated text what is computed. -/
theorem migrated_of_reading (migrated : (readingOf text.toList).migrated = .ok file) :
    Toml.fromStr (migrate text).2 = .ok file :=
  (congrArg tomlFromChars String.toList_ofList).trans migrated

/-- The check of a text that is written finds what is computed. -/
theorem complete_of_reading (complete : (readingOf text.toList).complete = true) :
    isComplete text = true := complete

/-- A text is looked through for legacy lines as computed. -/
theorem noLegacy_of_reading (legacy : (readingOf text.toList).legacy = false) :
    ∀ line ∈ lines text.toList, isLegacyLine line = false := by
  intro line member
  exact Bool.eq_false_iff.mpr (List.any_eq_false.mp legacy line member)

/-- A legacy line that is computed is one of the text. -/
theorem legacy_of_reading (legacy : (readingOf text.toList).legacy = true) :
    ∃ line ∈ lines text.toList, isLegacyLine line = true := List.any_eq_true.mp legacy

/-- A text that the parser accepts is not empty. -/
theorem ne_of_reading (said : (readingOf text.toList).said = .ok file) : text ≠ "" := by
  rintro rfl
  cases said

end Readings

/-- The text of the sample config, and the same text after a migration, hold the config. -/
theorem config_reading : readingOf configText.toList = ⟨.ok config, .ok config, false, true⟩ := by
  rw [configText_toList]
  decide +kernel

/-- What is written for the sample config is read back, and only with its last line feed. -/
theorem config_roundTrip : Toml.RoundTrip config configText where
  printed := rfl
  parsed := parsed_of_reading (congrArg Reading.said config_reading)
  unterminated := by
    intro front same
    have read : tomlFromChars (tomlChars config).dropLast = .ok config := by decide +kernel
    rw [← configText_toList, ← same, List.dropLast_concat] at read
    exact (congrArg tomlFromChars String.toList_ofList).trans read
  noReturn := by
    rw [configText_toList]
    decide +kernel

/-- The text is complete. -/
theorem config_complete : isComplete configText :=
  complete_of_reading (congrArg Reading.complete config_reading)

/-- The sample config has no twin keys. -/
theorem config_distinct : (keysOf config.peers).Nodup := by decide

/-- The text has no line that looks like a legacy one. -/
theorem config_noLegacy : ∀ line ∈ lines configText.toList, isLegacyLine line = false :=
  noLegacy_of_reading (congrArg Reading.legacy config_reading)

/-- A config file that lists a key twice, with a name of two lines. -/
def twinChars : List Char :=
  ("[network]\naddress = \"10.10.10.1\"\n\n[[peers]]\npublic_key = \"key-a\"\n" ++
    "allowed_ip = \"10.10.10.2\"\nname = \"\"\"ip = 1\na\"\"\"\n\n[[peers]]\n" ++
    "public_key = \"key-a\"\nallowed_ip = \"10.10.10.2\"\n").toList

/-- What the file holds, where its one key stands for a peer of the name, and for others. -/
def named (name : String) (others : List PeerConfig) : Config :=
  { Config.default with
    network := { Config.default.network with address := "10.10.10.1" }
    peers := ⟨"key-a", none, "10.10.10.2", some name⟩ :: others }

def twins : Config := named "ip = 1\na" [⟨"key-a", none, "10.10.10.2", none⟩]

def twinText : String := String.ofList twinChars

/-- What is printed for the one entry of the key. -/
def collapsedText : String := String.ofList (tomlChars (named "ip = 1\na" []))

/-- The characters of the text with twin keys. -/
@[simp] theorem twinText_toList : twinText.toList = twinChars := String.toList_ofList

/-- The characters of its collapsed config's text. -/
@[simp] theorem collapsedText_toList : collapsedText.toList = tomlChars (named "ip = 1\na" []) :=
  String.toList_ofList

/-- A config file that lists a key twice, the second time with an endpoint. -/
def listedChars : List Char :=
  ("[network]\naddress = \"10.10.10.1\"\n\n[[peers]]\npublic_key = \"key-a\"\n" ++
    "allowed_ip = \"10.10.10.2\"\n\n[[peers]]\npublic_key = \"key-a\"\n" ++
    "endpoint = \"10.10.1.41:9600\"\nallowed_ip = \"10.10.10.2\"\nname = \"a\"\n").toList

def listed : Config :=
  { config with peers := ⟨"key-a", none, "10.10.10.2", none⟩ :: config.peers }

def listedText : String := String.ofList listedChars

/-- The characters of the text that lists a key twice. -/
@[simp] theorem listedText_toList : listedText.toList = listedChars := String.toList_ofList

/-- A config file with one peer, whose name stands on a line of its own. -/
def loneChars : List Char :=
  ("[network]\naddress = \"10.10.10.1\"\n\n[[peers]]\npublic_key = \"key-a\"\n" ++
    "allowed_ip = \"10.10.10.2\"\nname = \"\"\"\nip = 1\"\"\"\n").toList

def loneText : String := String.ofList loneChars

/-- The characters of the text with the name on a line of its own. -/
@[simp] theorem loneText_toList : loneText.toList = loneChars := String.toList_ofList

end WolfNet.Sample
