import WolfNet.Std.Text

/-!
# JSON values

JSON as serde sees it: a derived reader takes the fields of an object by name, with a default for
some of them, and a writer gives compact text.
-/

namespace WolfNet.Std

/-- A JSON value. Its numbers are the natural ones. -/
inductive Json where
  | null
  | bool (value : Bool)
  | number (value : Nat)
  | string (text : String)
  | array (items : List Json)
  | object (members : List (String × Json))

namespace Json

/-! ## Reading -/

def asBool : Json → Option Bool
  | .bool value => some value
  | _ => none

def asString : Json → Option String
  | .string text => some text
  | _ => none

/-- A number of 16 bits. -/
def asU16 : Json → Option UInt16
  | .number value => if value < 65536 then some (UInt16.ofNat value) else none
  | _ => none

/-- A number of 64 bits. -/
def asU64 : Json → Option UInt64
  | .number value => if value < 18446744073709551616 then some (UInt64.ofNat value) else none
  | _ => none

/-- An optional value is null if there is none. -/
def asOption {α : Type} (read : Json → Option α) : Json → Option (Option α)
  | .null => some none
  | value => (read value).map some

/-- The items of an array, if each can be read. -/
def asList {α : Type} (read : Json → Option α) : Json → Option (List α)
  | .array items => items.mapM read
  | _ => none

/-- The values that an object has for a name. -/
def lookups (members : List (String × Json)) (name : String) : List Json :=
  (members.filter fun member => member.1 = name).map Prod.snd

/-- A field that an object must have, and have once. -/
def required {α : Type} (members : List (String × Json)) (name : String)
    (read : Json → Option α) : Option α :=
  match lookups members name with
  | [value] => read value
  | _ => none

/-- A field with a default, which an object may have once. -/
def defaulted {α : Type} (members : List (String × Json)) (name : String) (default : α)
    (read : Json → Option α) : Option α :=
  match lookups members name with
  | [] => some default
  | [value] => read value
  | _ => none

/-- An empty object has no member. -/
@[simp] theorem lookups_nil (name : String) : lookups [] name = [] := rfl

/-- Members with the name come in their order. -/
theorem lookups_cons (first name : String) (value : Json) (members : List (String × Json)) :
    lookups ((first, value) :: members) name =
      if first = name then value :: lookups members name else lookups members name := by
  by_cases same : first = name <;> simp [lookups, same]

/-- The members of two objects in a row. -/
theorem lookups_append (front back : List (String × Json)) (name : String) :
    lookups (front ++ back) name = lookups front name ++ lookups back name := by
  simp [lookups]

/-- A required member that is given once is read. -/
theorem required_of_lookups {α : Type} {members : List (String × Json)} {name : String}
    {value : Json} {read : Json → Option α} (given : lookups members name = [value]) :
    required members name read = read value := by
  rw [required, given]

/-- A defaulted member that is given once is read. -/
theorem defaulted_of_lookups {α : Type} {members : List (String × Json)} {name : String}
    {value : Json} {default : α} {read : Json → Option α} (given : lookups members name = [value]) :
    defaulted members name default read = read value := by
  rw [defaulted, given]

/-- A defaulted member that is absent has its default. -/
theorem defaulted_absent {α : Type} {members : List (String × Json)} {name : String}
    {default : α} {read : Json → Option α} (absent : lookups members name = []) :
    defaulted members name default read = some default := by
  rw [defaulted, absent]

/-- A 16-bit number is read as itself. -/
@[simp] theorem asU16_toNat (value : UInt16) : asU16 (.number value.toNat) = some value := by
  simp [asU16, value.toNat_lt]

/-- A 64-bit number is read as itself. -/
@[simp] theorem asU64_toNat (value : UInt64) : asU64 (.number value.toNat) = some value := by
  simp [asU64, value.toNat_lt]

/-- An array of items that each can be read back can be read back. -/
theorem asList_map {α : Type} {read : Json → Option α} {write : α → Json}
    (back : ∀ item, read (write item) = some item) (items : List α) :
    asList read (.array (items.map write)) = some items := by
  rw [asList]
  induction items with
  | nil => rfl
  | cons item items ih => simp [back, ih]

/-! ## Writing -/

/-- A hexadecimal digit below sixteen. -/
def hexDigit (value : Nat) : Char := Char.ofNat (if value < 10 then 48 + value else 87 + value)

/-- What stands for a character in a JSON string. -/
def escapeChar (c : Char) : List Char :=
  if c.toNat = 34 ∨ c.toNat = 92 then [Char.ofNat 92, c]
  else if c.toNat = 8 then [Char.ofNat 92, 'b']
  else if c.toNat = 9 then [Char.ofNat 92, 't']
  else if c.toNat = 10 then [Char.ofNat 92, 'n']
  else if c.toNat = 12 then [Char.ofNat 92, 'f']
  else if c.toNat = 13 then [Char.ofNat 92, 'r']
  else if c.toNat < 32 then
    [Char.ofNat 92, 'u', '0', '0', hexDigit (c.toNat / 16), hexDigit (c.toNat % 16)]
  else [c]

/-- A string in quotes. -/
def renderString (text : String) : List Char :=
  Char.ofNat 34 :: text.toList.flatMap escapeChar ++ [Char.ofNat 34]

/-- A line break and two spaces for each level. -/
def indentation (depth : Nat) : List Char := '\n' :: List.replicate (2 * depth) ' '

/-- Texts with commas between them. -/
def commaSeparated (texts : List (List Char)) : List Char := (texts.intersperse [',']).flatten

mutual

/-- The compact text of a value. -/
def render : Json → List Char
  | .null => "null".toList
  | .bool value => if value then "true".toList else "false".toList
  | .number value => Nat.toDigits 10 value
  | .string text => renderString text
  | .array items => '[' :: commaSeparated (renderItems items) ++ [']']
  | .object members => Char.ofNat 123 :: commaSeparated (renderMembers members) ++ [Char.ofNat 125]

def renderItems : List Json → List (List Char)
  | [] => []
  | item :: items => item.render :: renderItems items

def renderMembers : List (String × Json) → List (List Char)
  | [] => []
  | (name, value) :: members =>
    (renderString name ++ ':' :: value.render) :: renderMembers members

end

mutual

/-- The text of a value over several lines. -/
def renderPretty (depth : Nat) : Json → List Char
  | .null => "null".toList
  | .bool value => if value then "true".toList else "false".toList
  | .number value => Nat.toDigits 10 value
  | .string text => renderString text
  | .array [] => ['[', ']']
  | .array items =>
    '[' :: commaSeparated (prettyItems (depth + 1) items) ++ indentation depth ++ [']']
  | .object [] => [Char.ofNat 123, Char.ofNat 125]
  | .object members =>
    Char.ofNat 123 :: commaSeparated (prettyMembers (depth + 1) members) ++ indentation depth ++
      [Char.ofNat 125]

def prettyItems (depth : Nat) : List Json → List (List Char)
  | [] => []
  | item :: items => (indentation depth ++ item.renderPretty depth) :: prettyItems depth items

def prettyMembers (depth : Nat) : List (String × Json) → List (List Char)
  | [] => []
  | (name, value) :: members =>
    (indentation depth ++ renderString name ++ ':' :: ' ' :: value.renderPretty depth) ::
      prettyMembers depth members

end

/-- Items are rendered one by one. -/
theorem renderItems_eq (items : List Json) : renderItems items = items.map render := by
  induction items with
  | nil => rw [renderItems, List.map_nil]
  | cons item items ih => rw [renderItems, ih, List.map_cons]

/-- A comma stands between any two texts. -/
theorem byteLength_commaSeparated (texts : List (List Char)) :
    byteLength (commaSeparated texts) = byteLength texts.flatten + (texts.length - 1) := by
  unfold commaSeparated
  induction texts with
  | nil => rfl
  | cons text texts ih =>
      cases texts with
      | nil => simp
      | cons next texts =>
          have comma : byteLength [','] = 1 := by decide
          simp only [List.intersperse_cons_cons, List.flatten_cons, byteLength_append, comma,
            List.length_cons] at ih ⊢
          omega

/-- The bytes of a text between its quotes. -/
def stringSize (text : String) : Nat := byteLength (text.toList.flatMap escapeChar)

/-- The length of a rendered string, by its characters. -/
theorem byteLength_renderString (text : String) :
    byteLength (renderString text) = 2 + stringSize text := by
  have quote : byteLength [Char.ofNat 34] = 1 := by decide
  rw [renderString, List.cons_append, byteLength_cons, byteLength_append, quote, stringSize]
  have quoteSize : (Char.ofNat 34).utf8Size = 1 := by decide
  omega

example : render (.object [("a", .array [.null, .number 10]), ("b", .string "x\ny")]) =
    "\x7b\"a\":[null,10],\"b\":\"x\\ny\"\x7d".toList := by decide

example : renderPretty 0 (.object [("a", .array [.null, .array []]), ("b", .bool true)]) =
    "\x7b\n  \"a\": [\n    null,\n    []\n  ],\n  \"b\": true\n\x7d".toList := by decide

end Json
end WolfNet.Std
