import WolfNet.Std.Lines

/-!
# TOML documents by their lines

A document as a list of items, each with the characters that spell it: blank lines and comments,
the headers of tables, and pairs of a key and a value. Values are kept as they are spelled, over as
many lines as they take. Only what decides which keys a line can set is told apart.
-/

namespace WolfNet.Document

open WolfNet.Std

/-- White space within a line. -/
abbrev Blanks := { chars : List Char // ∀ c ∈ chars, c = ' ' ∨ c = '\t' }

/-- What ends a line behind a header or a value: white space, and maybe a comment. -/
structure Trailer where
  blanks : Blanks
  comment : Option { chars : List Char // '\n' ∉ chars }
deriving DecidableEq

def Trailer.text (trailer : Trailer) : List Char :=
  trailer.blanks.1 ++ (trailer.comment.map fun comment => '#' :: comment.1).getD []

/-- A character of a key that is not quoted. -/
def isBareChar (c : Char) : Bool := c.isAlphanum || c == '_' || c == '-'

abbrev BareName := { chars : List Char // chars ≠ [] ∧ chars.all isBareChar = true }

abbrev Quote := { c : Char // c = '"' ∨ c = '\x27' }

/-- One part of a key. A quoted one comes with the name that its characters stand for. -/
inductive KeyPart where
  | bare (name : BareName)
  | quoted (quote : Quote) (rest : List Char) (name : String)
deriving DecidableEq

namespace KeyPart

def text : KeyPart → List Char
  | .bare name => name.1
  | .quoted quote rest _ => quote.1 :: rest

def name : KeyPart → String
  | .bare name => String.ofList name.1
  | .quoted _ _ name => name

end KeyPart

/-- A key: its first part, and what follows up to and behind a dot. -/
structure Key where
  first : KeyPart
  rest : Option (Blanks × List Char)
deriving DecidableEq

namespace Key

def dotted (key : Key) : List Char :=
  match key.rest with
  | none => []
  | some (blanks, path) => blanks.1 ++ '.' :: path

def text (key : Key) : List Char := key.first.text ++ key.dotted

end Key

/-- The header of a table, or of one more table in an array of them. -/
structure Header where
  indent : Blanks
  isArray : Bool
  before : Blanks
  path : Key
  after : Blanks
  trailer : Trailer
deriving DecidableEq

namespace Header

def line (header : Header) : List Char :=
  header.indent.1 ++ (if header.isArray then "[[".toList else "[".toList) ++ header.before.1 ++
    header.path.text ++ header.after.1 ++
    (if header.isArray then "]]".toList else "]".toList) ++ header.trailer.text

/-- The header reads `[[peers]]`. -/
def isPeers (header : Header) : Bool :=
  header.isArray && header.path.rest.isNone && header.path.first.name == "peers"

end Header

/-- The lines of a value behind its first one. -/
structure Continuation where
  middle : List (List Char)
  last : List Char
  ink : ∃ c ∈ last, isWhitespace c = false

/-- A value, as it is spelled. -/
structure Value where
  first : List Char
  more : Option Continuation
  ink : ∃ c rest, first = c :: rest ∧ isWhitespace c = false

structure Pair where
  indent : Blanks
  key : Key
  before : Blanks
  after : Blanks
  value : Value
  trailer : Trailer

namespace Pair

/-- What stands in front of the value. -/
def front (pair : Pair) : List Char :=
  pair.indent.1 ++ pair.key.text ++ pair.before.1 ++ '=' :: pair.after.1

/-- What ends the value's first line. -/
def behind (pair : Pair) : List Char :=
  match pair.value.more with
  | none => pair.trailer.text
  | some _ => []

/-- The lines behind the first one. -/
def continued (pair : Pair) : List (List Char) :=
  match pair.value.more with
  | none => []
  | some more => more.middle ++ [more.last ++ pair.trailer.text]

def lines (pair : Pair) : List (List Char) :=
  (pair.front ++ (pair.value.first ++ pair.behind)) :: pair.continued

end Pair

inductive Item where
  | blank (trailer : Trailer)
  | header (header : Header)
  | pair (pair : Pair)

namespace Item

def lines : Item → List (List Char)
  | .blank trailer => [trailer.text]
  | .header title => [title.line]
  | .pair entry => entry.lines

/-- Whether the items behind belong to an entry of `[[peers]]`. -/
def leads (inPeers : Bool) : Item → Bool
  | .header title => title.isPeers
  | _ => inPeers

end Item

/-- The items, each with whether it belongs to an entry of `[[peers]]`. -/
def placed (inPeers : Bool) : List Item → List (Bool × Item)
  | [] => []
  | item :: items => (inPeers, item) :: placed (item.leads inPeers) items

def linesOf (items : List Item) : List (List Char) := items.flatMap Item.lines

/-- A bare key without further parts. -/
def bareKey (name : BareName) : Key := ⟨.bare name, none⟩

def ip : Key := bareKey ⟨"ip".toList, by decide⟩

def allowedIp : Key := bareKey ⟨"allowed_ip".toList, by decide⟩

namespace Pair

/-- The pair under the key's new name, where it is the legacy one of a peer. -/
def renamed (inPeers : Bool) (pair : Pair) : Pair :=
  if inPeers && pair.key == ip then { pair with key := allowedIp } else pair

end Pair

/-- An item after the migration: it has the new key where it had the legacy one, and its comment
may read otherwise. -/
def Item.Renamed (inPeers : Bool) : Item → Item → Prop
  | .pair old, .pair new => ∃ trailer, new = { old.renamed inPeers with trailer }
  | old, new => old = new

/-- The items of a document after the migration. -/
def Renamed (items new : List Item) : Prop :=
  List.Forall₂ (fun (old : Bool × Item) new => old.2.Renamed old.1 new) (placed false items) new

end WolfNet.Document
