import Converge.Schema.Reading
import Converge.Time.Timestamp

/-
  The leaves of an object: strings, flags, integers, points
  in time, values of closed sets, and lists and maps of
  strings.

  A leaf has two written forms. In a configuration tree a
  zero value is left out; on the wire, required strings are
  always written. Both forms read an absent leaf as its zero
  value, if it has one.

  Key definitions:
    * `Choices`, `Choice`: closed sets of strings
    * `Leaf`: the types of leaves; `Leaf.Val`: their values
    * `Leaf.expand`, `Leaf.flatten`: tree form
    * `Leaf.decode?`, `Leaf.encode`: wire form
-/

namespace Converge

------------------------------------------------------------
-- Closed Sets
------------------------------------------------------------

/- A closed set of strings, which is never empty. -/
structure Choices where
  first : String
  others : List String
deriving DecidableEq

namespace Choices

def all (choices : Choices) : List String :=
  choices.first :: choices.others

end Choices

/- A string of a closed set. -/
def Choice (choices : Choices) : Type :=
  { value : String // value ∈ choices.all }

namespace Choice

variable {choices : Choices}

instance : DecidableEq (Choice choices) :=
  inferInstanceAs
    (DecidableEq { value : String // value ∈ choices.all })

instance : Inhabited (Choice choices) :=
  ⟨⟨choices.first, List.mem_cons_self⟩⟩

/- The member of a closed set that a string is. -/
def parse?
    (choices : Choices)
    (value : String) :
    Option (Choice choices) :=
  if h : value ∈ choices.all then some ⟨value, h⟩ else none

/- Reads a choice of a tree; absent and empty are none. -/
def expand?
    (choices : Choices)
    (path : FieldPath) :
    Option Tree → Except SchemaError (Option (Choice choices))
  | none => .ok none
  | some (.str value) =>
      if value = "" then .ok none
      else
        match parse? choices value with
        | some selected => .ok (some selected)
        | none =>
            .error (.invalidValue path value choices.all)
  | some _ => .error (.typeMismatch path "string")

/- Reads a choice of the wire: its string, or an object whose
   only member has that key and no value. -/
def decode?
    (choices : Choices) :
    Json → Option (Choice choices)
  | .str value => parse? choices value
  | .obj [(value, .null)] => parse? choices value
  | _ => none

end Choice

------------------------------------------------------------
-- Types of Leaves
------------------------------------------------------------

/- The type of a leaf. -/
inductive Leaf where
  | text
  | requiredText
  | flag
  | integer
  | timestamp
  | choice (choices : Choices)
  | requiredChoice (choices : Choices)
  | texts
  | textMap
deriving DecidableEq

namespace Leaf

/- The values of a leaf. -/
def Val : Leaf → Type
  | .text => String
  | .requiredText => String
  | .flag => Bool
  | .integer => Int64
  | .timestamp => Option Timestamp
  | .choice choices => Option (Choice choices)
  | .requiredChoice choices => Choice choices
  | .texts => List String
  | .textMap => SortedMap String

instance : (leaf : Leaf) → DecidableEq leaf.Val
  | .text => inferInstanceAs (DecidableEq String)
  | .requiredText => inferInstanceAs (DecidableEq String)
  | .flag => inferInstanceAs (DecidableEq Bool)
  | .integer => inferInstanceAs (DecidableEq Int64)
  | .timestamp =>
      inferInstanceAs (DecidableEq (Option Timestamp))
  | .choice choices =>
      inferInstanceAs (DecidableEq (Option (Choice choices)))
  | .requiredChoice choices =>
      inferInstanceAs (DecidableEq (Choice choices))
  | .texts => inferInstanceAs (DecidableEq (List String))
  | .textMap =>
      inferInstanceAs (DecidableEq (SortedMap String))

/- The value of a leaf that was never set. -/
def zero : (leaf : Leaf) → leaf.Val
  | .text => ""
  | .requiredText => ""
  | .flag => false
  | .integer => (0 : Int64)
  | .timestamp => none
  | .choice _ => none
  | .requiredChoice choices =>
      (default : Choice choices)
  | .texts => []
  | .textMap => SortedMap.empty

/- Whether a configuration has to set the leaf. -/
def required : Leaf → Bool
  | .requiredText => true
  | .requiredChoice _ => true
  | _ => false

------------------------------------------------------------
-- Tree Form
------------------------------------------------------------

/- Reads the leaf of a tree. -/
def expand
    (path : FieldPath) :
    (leaf : Leaf) →
      Option Tree → Except SchemaError leaf.Val
  | .text, value => Reading.text path value
  | .requiredText, value => do
      let content ← Reading.text path value
      if content = "" then .error (.missingField path)
      else .ok content
  | .flag, value => Reading.flag path value
  | .integer, value => Reading.integer path value
  | .timestamp, value => do
      let content ← Reading.text path value
      if content = "" then .ok none
      else
        match Timestamp.read? content with
        | some time => .ok (some time)
        | none =>
            .error (.typeMismatch path "RFC 3339 timestamp")
  | .choice choices, value =>
      Choice.expand? choices path value
  | .requiredChoice choices, value => do
      match ← Choice.expand? choices path value with
      | some selected => .ok selected
      | none => .error (.missingField path)
  | .texts, value => Reading.items Reading.element path value
  | .textMap, value =>
      Reading.entries Reading.element path value

/- A string of a tree, unless it is empty. -/
def flattenText (content : String) : Option Tree :=
  if content = "" then none else some (.str content)

/- The tree of a leaf; a zero value has none. -/
def flatten : (leaf : Leaf) → leaf.Val → Option Tree
  | .text, (content : String) => flattenText content
  | .requiredText, (content : String) => flattenText content
  | .flag, (value : Bool) =>
      if value then some (.bool true) else none
  | .integer, (value : Int64) =>
      if value = 0 then none else some (.int value)
  | .timestamp, (time : Option Timestamp) =>
      time.map fun time => .str time.text
  | .choice _, (selected : Option (Choice _)) =>
      selected.map fun value => .str value.val
  | .requiredChoice _, (selected : Choice _) =>
      some (.str selected.val)
  | .texts, (items : List String) =>
      if items.isEmpty then none
      else some (.list (items.map .str))
  | .textMap, (map : SortedMap String) =>
      if map.isEmpty then none
      else some (.map (Keyed.mapValues .str map.entries))

------------------------------------------------------------
-- Wire Form
------------------------------------------------------------

/- Strings of a JSON array. -/
def decodeTexts? : Json → Option (List String)
  | .arr items => items.mapM Json.asString?
  | _ => none

/- Strings of a JSON object. -/
def decodeTextMap? : Json → Option (SortedMap String)
  | .obj members =>
      (members.mapM fun (member : String × Json) =>
        member.2.asString?.map fun content =>
          (member.1, content)).map SortedMap.ofList
  | _ => none

/- A point in time of the wire; null is none. -/
def decodeTimestamp? : Json → Option (Option Timestamp)
  | .null => some none
  | .str content => (Timestamp.read? content).map some
  | _ => none

/- Reads a leaf that the wire holds. -/
def decodePresent? : (leaf : Leaf) → Json → Option leaf.Val
  | .text, value => value.asString?
  | .requiredText, value => value.asString?
  | .flag, .bool value => some value
  | .flag, _ => none
  | .integer, value => value.asInt64?
  | .timestamp, value => decodeTimestamp? value
  | .choice _, .null => some none
  | .choice choices, value =>
      (Choice.decode? choices value).map some
  | .requiredChoice choices, value =>
      Choice.decode? choices value
  | .texts, value => decodeTexts? value
  | .textMap, value => decodeTextMap? value

/- Reads a leaf of the wire; a required one must be there. -/
def decode?
    (leaf : Leaf) :
    Option Json → Option leaf.Val
  | some value => leaf.decodePresent? value
  | none => if leaf.required then none else some leaf.zero

/- The wire form of a map of strings. -/
def encodeTextMap (map : SortedMap String) : Json :=
  .obj (Keyed.mapValues .str map.entries)

/- The wire form of a leaf; zero values are left out, save
   for those of required leaves. -/
def encode : (leaf : Leaf) → leaf.Val → Option Json
  | .text, (content : String) =>
      if content = "" then none else some (.str content)
  | .requiredText, (content : String) => some (.str content)
  | .flag, (value : Bool) =>
      if value then some (.bool true) else none
  | .integer, (value : Int64) =>
      if value = 0 then none else some (.ofInt64 value)
  | .timestamp, (time : Option Timestamp) =>
      time.map fun time => .str time.text
  | .choice _, (selected : Option (Choice _)) =>
      selected.map fun value => .str value.val
  | .requiredChoice _, (selected : Choice _) =>
      some (.str selected.val)
  | .texts, (items : List String) =>
      if items.isEmpty then none
      else some (.arr (items.map .str))
  | .textMap, (map : SortedMap String) =>
      if map.isEmpty then none else some (encodeTextMap map)

end Leaf

end Converge
