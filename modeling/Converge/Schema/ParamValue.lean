import Converge.Schema.Leaf

/-
  Values of parameters and results.

  On the wire a value is a string, an array of strings or an
  object of strings, and nothing else tells which. In a
  configuration tree it is a block that names its type and
  holds the value under a key for that type; without a named
  type, the key that is set decides, and a string is assumed
  when none is.

  Key definitions:
    * `ParamValue`: a value
    * `ParamValue.expand`, `ParamValue.flatten`: tree form
    * `ParamValue.decode?`, `ParamValue.encode`: wire form
-/

namespace Converge

/- The types of parameters. -/
def paramTypes : Choices :=
  ⟨"string", ["array", "object"]⟩

/- The value of a parameter. -/
inductive ParamValue where
  | string (text : String)
  | array (items : List String)
  | object (entries : SortedMap String)
deriving DecidableEq

namespace ParamValue

instance : Inhabited ParamValue :=
  ⟨.string ""⟩

/- The name of a value's type. -/
def typeName : ParamValue → String
  | .string _ => "string"
  | .array _ => "array"
  | .object _ => "object"

------------------------------------------------------------
-- Tree Form
------------------------------------------------------------

/- The name of the type of a block: the one it declares, or
   else the one of the key it sets. -/
def expandType
    (path : FieldPath)
    (entries : ConfigMap) :
    Except SchemaError String := do
  let declared ←
    Choice.expand? paramTypes (path.entry "type")
      (entries.present? "type")
  match declared with
  | some choice => return choice.val
  | none =>
      if (entries.present? "array_val").isSome then
        return "array"
      else if (entries.present? "object_val").isSome then
        return "object"
      else return "string"

/- Reads the block of a value. -/
def expand
    (path : FieldPath)
    (entries : ConfigMap) :
    Except SchemaError ParamValue := do
  let type ← expandType path entries
  if type = "array" then
    let items ←
      Leaf.expand (path.entry "array_val") .texts
        (entries.present? "array_val")
    return .array items
  else if type = "object" then
    let map ←
      Leaf.expand (path.entry "object_val") .textMap
        (entries.present? "object_val")
    return .object map
  else
    let text ←
      Leaf.expand (path.entry "string_val") .text
        (entries.present? "string_val")
    return .string text

/- The entry of a key, unless there is no value. -/
def entryOf
    (key : String) :
    Option Tree → ConfigMap
  | none => []
  | some value => [(key, value)]

/- The block of a value. -/
def flatten (value : ParamValue) : ConfigMap :=
  ("type", .str value.typeName) ::
    match value with
    | .string text =>
        entryOf "string_val" (Leaf.flatten .text text)
    | .array items =>
        entryOf "array_val" (Leaf.flatten .texts items)
    | .object map =>
        entryOf "object_val" (Leaf.flatten .textMap map)

------------------------------------------------------------
-- Wire Form
------------------------------------------------------------

/- Reads a value of the wire. -/
def decode? : Json → Option ParamValue
  | .str text => some (.string text)
  | .arr items => (Leaf.decodeTexts? (.arr items)).map .array
  | .obj members =>
      (Leaf.decodeTextMap? (.obj members)).map .object
  | _ => none

/- The wire form of a value. -/
def encode : ParamValue → Json
  | .string text => .str text
  | .array items => .arr (items.map .str)
  | .object map => Leaf.encodeTextMap map

end ParamValue

end Converge
