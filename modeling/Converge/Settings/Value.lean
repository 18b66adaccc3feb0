import Converge.Json.Basic
import Converge.Keyed
import Converge.Record
import Converge.Toml.Basic

/-
  Settings before it is known what they are settings of.

  A setting comes from a file or from a variable. Variables
  hold text, so settings are read leniently: a number will do
  for a text, and the usual words for a flag.

  Key definitions:
    * `Setting`: a value
    * `Setting.merge`: place a value over another one
    * `Setting.ofText`: the value that a variable holds
    * `Setting.recordFormat`: lenient reading
-/

namespace Converge

/- A value that a source of settings holds. -/
inductive Setting where
  | nothing
  | flag (value : Bool)
  | whole (value : Int)
  | real (value : Amount)
  | text (value : String)
  | list (items : List Setting)
  | table (entries : List (String × Setting))

namespace Setting

------------------------------------------------------------
-- Tables and Lists
------------------------------------------------------------

/- The entries of a table; other values have none. -/
def entries : Setting → List (String × Setting)
  | table entries => entries
  | _ => []

/- The items of a list; other values have none. -/
def items : Setting → List Setting
  | list items => items
  | _ => []

/- Changes the value at a key. What is no table becomes
   one. -/
def change
    (key : String)
    (f : Setting → Setting)
    (target : Setting) :
    Setting :=
  let old := (target.entries.lookup key).getD nothing
  table (Keyed.put key (f old) target.entries)

/-
  Changes the item at a position. What is no list becomes
  one, and a list grows until it has such an item. Negative
  positions count from the end of the list.
-/
def changeItem
    (position : Int)
    (f : Setting → Setting)
    (target : Setting) :
    Setting :=
  let items := target.items
  let start := if position < 0 then position + items.length
    else position
  let index := start.toNat
  let front := List.replicate (-start).toNat nothing
  let back :=
    List.replicate (index + 1 - items.length) nothing
  list ((front ++ items ++ back).modify index f)

mutual

/- Puts a value in the place of another one. Tables are
   merged. -/
def merge (target : Setting) : Setting → Setting
  | table entries =>
      mergeEntries (table target.entries) entries
  | value => value

def mergeEntries
    (target : Setting) :
    List (String × Setting) → Setting
  | [] => target
  | (key, value) :: rest =>
      mergeEntries
        (change key (fun old => merge old value) target) rest

end

------------------------------------------------------------
-- Sources
------------------------------------------------------------

mutual

/- The setting that a JSON value is. Integers of more than 63
   bits are as good as other numbers. -/
def ofJson : Json → Setting
  | .null => nothing
  | .bool value => flag value
  | .num (.int value _ _) =>
      if value ≤ 9223372036854775807 then whole value
      else real (.ofScaled false value.toNat 0)
  | .num (.real bits) =>
      real (.finite (2 ^ 63 ≤ bits) (bits % 2 ^ 63))
  | .str value => text value
  | .arr items => list (ofItems items)
  | .obj members => table (ofMembers members)

def ofItems : List Json → List Setting
  | [] => []
  | item :: items => ofJson item :: ofItems items

def ofMembers :
    List (String × Json) → List (String × Setting)
  | [] => []
  | (key, value) :: members =>
      (key, ofJson value) :: ofMembers members

end

mutual

/- The setting that a TOML value is. -/
def ofToml : Toml → Setting
  | .flag value => flag value
  | .whole value => whole value
  | .real value => real value
  | .text value => text value
  | .list items => list (ofTomlItems items)
  | .row tables => list (ofTomlTables tables).reverse
  | .table _ entries => table (ofTomlEntries entries)

def ofTomlItems : List Toml → List Setting
  | [] => []
  | item :: items => ofToml item :: ofTomlItems items

def ofTomlTables :
    List (List (String × Toml)) → List Setting
  | [] => []
  | entries :: tables =>
      table (ofTomlEntries entries) :: ofTomlTables tables

def ofTomlEntries :
    List (String × Toml) → List (String × Setting)
  | [] => []
  | (key, value) :: entries =>
      (key, ofToml value) :: ofTomlEntries entries

end

/- An integer of 64 bits, with or without a sign. -/
def wholeOfText? (written : String) : Option Int :=
  let (negative, digits) := Amount.signed written.toList
  let magnitude : Int := Text.digitsValue digits
  let value := if negative then -magnitude else magnitude
  if digits.isEmpty || !digits.all Char.isDigit then none
  else if value < -9223372036854775808 then none
  else if 9223372036854775807 < value then none
  else some value

/- The value that a text stands for: a truth value, an
   integer, another number, or just that text. -/
def ofText (written : String) : Setting :=
  if Text.lower written = "true" then flag true
  else if Text.lower written = "false" then flag false
  else
    match wholeOfText? written, Amount.read? written with
    | some value, _ => whole value
    | none, some value => real value
    | none, none => text written

------------------------------------------------------------
-- Lenient Reading
------------------------------------------------------------

/- The text of a scalar. -/
def asText? : Setting → Option String
  | flag value => some (if value then "true" else "false")
  | whole value => some (toString value)
  | real value => some value.text
  | text value => some value
  | _ => none

/- A text, or nothing for none. -/
def openText? : Setting → Option (Option String)
  | nothing => some none
  | value => value.asText?.map some

/- Words that stand for truth values. -/
def flagWords : List (String × Bool) :=
  [ ("1", true), ("true", true), ("on", true),
    ("yes", true), ("0", false), ("false", false),
    ("off", false), ("no", false) ]

/- The truth value of a flag, a number or a word. -/
def asFlag? : Setting → Option Bool
  | flag value => some value
  | whole value => some (value ≠ 0)
  | real value => some (!value.isZero)
  | text value => flagWords.lookup (Text.lower value)
  | _ => none

/- The values of fields, by name or by position. -/
def fields? (names : List String) :
    Setting → Option (List (Option Setting))
  | table entries =>
      some (names.map fun name => entries.lookup name)
  | list items =>
      some
        ((List.range names.length).map fun position =>
          items[position]?)
  | _ => none

def recordFormat : RecordFormat Setting :=
  ⟨fields?, asText?, openText?, asFlag?⟩

end Setting

end Converge
