import Converge.Json.Basic

/-
  Configuration trees: the values a host hands over and gets
  back. A map keeps its entries in the order they were
  written; that order is only for show, and two trees that
  differ in nothing else are the same.

  Key definitions:
    * `Tree`: a value
    * `Tree.same`: equality up to the order of entries
    * `Tree.ofJson?`, `Tree.toJson`: JSON form
-/

namespace Converge

/- A value of a configuration. -/
inductive Tree where
  | null
  | bool (value : Bool)
  | int (value : Int64)
  | str (text : String)
  | list (items : List Tree)
  | map (entries : List (String × Tree))
deriving Inhabited

/- A map of a configuration, in the order it was written. -/
abbrev ConfigMap := List (String × Tree)

namespace Tree

------------------------------------------------------------
-- Structure
------------------------------------------------------------

/- The name of the kind of value. -/
def shape : Tree → String
  | .null => "null"
  | .bool _ => "bool"
  | .int _ => "int"
  | .str _ => "string"
  | .list _ => "list"
  | .map _ => "map"

def isNull : Tree → Bool
  | .null => true
  | _ => false

def asString? : Tree → Option String
  | .str text => some text
  | _ => none

def asList? : Tree → Option (List Tree)
  | .list items => some items
  | _ => none

def asMap? : Tree → Option ConfigMap
  | .map entries => some entries
  | _ => none

------------------------------------------------------------
-- Equality up to Order
------------------------------------------------------------

mutual

/- Equality up to the order of map entries. -/
def same : Tree → Tree → Bool
  | .null, .null => true
  | .bool left, .bool right => left = right
  | .int left, .int right => left = right
  | .str left, .str right => left = right
  | .list left, .list right => sameItems left right
  | .map left, .map right =>
      left.length = right.length && entriesIn left right
  | _, _ => false

def sameItems : List Tree → List Tree → Bool
  | [], [] => true
  | left :: lefts, right :: rights =>
      same left right && sameItems lefts rights
  | _, _ => false

/- Every entry has an equal one in the other map. -/
def entriesIn : ConfigMap → ConfigMap → Bool
  | [], _ => true
  | (key, value) :: entries, others =>
      (match others.lookup key with
        | some other => same value other
        | none => false) &&
        entriesIn entries others

end

/- Equality of maps up to the order of entries. -/
def sameMaps (left right : ConfigMap) : Bool :=
  left.length = right.length && entriesIn left right

------------------------------------------------------------
-- JSON Form
------------------------------------------------------------

mutual

/-
  The tree of a JSON value. Numbers have to be integers of a
  signed 64-bit word. An entry of a repeated key keeps the
  place of the first and the value of the last.
-/
def ofJson? : Json → Option Tree
  | .null => some .null
  | .bool value => some (.bool value)
  | .num number => number.toInt64?.map .int
  | .str text => some (.str text)
  | .arr items => (ofItems? items).map .list
  | .obj members => (ofMembers? members).map .map

def ofItems? : List Json → Option (List Tree)
  | [] => some []
  | item :: items => do
      let first ← ofJson? item
      let rest ← ofItems? items
      return first :: rest

def ofMembers? :
    List (String × Json) → Option ConfigMap
  | [] => some []
  | (key, value) :: members => do
      let first ← ofJson? value
      let rest ← ofMembers? members
      return (key, (rest.lookup key).getD first) ::
        Keyed.erase key rest

end

mutual

/- The JSON value of a tree. -/
def toJson : Tree → Json
  | .null => .null
  | .bool value => .bool value
  | .int value => .ofInt64 value
  | .str text => .str text
  | .list items => .arr (itemsToJson items)
  | .map entries => .obj (entriesToJson entries)

def itemsToJson : List Tree → List Json
  | [] => []
  | item :: items => toJson item :: itemsToJson items

def entriesToJson : ConfigMap → List (String × Json)
  | [] => []
  | (key, value) :: entries =>
      (key, toJson value) :: entriesToJson entries

end

/- The map of a JSON object. -/
def mapOfJson? (value : Json) : Option ConfigMap :=
  (ofJson? value).bind asMap?

/- The JSON object of a map. -/
def mapToJson (entries : ConfigMap) : Json :=
  .obj (entriesToJson entries)

mutual

/- No map repeats a key. -/
def HasDistinctKeys : Tree → Prop
  | .list items => ItemsHaveDistinctKeys items
  | .map entries =>
      (entries.map fun entry => entry.1).Nodup ∧
        EntriesHaveDistinctKeys entries
  | _ => True

def ItemsHaveDistinctKeys : List Tree → Prop
  | [] => True
  | item :: items =>
      HasDistinctKeys item ∧ ItemsHaveDistinctKeys items

def EntriesHaveDistinctKeys : ConfigMap → Prop
  | [] => True
  | (_, value) :: entries =>
      HasDistinctKeys value ∧ EntriesHaveDistinctKeys entries

end

end Tree

end Converge
