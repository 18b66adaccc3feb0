import Converge.Json.Record
import Converge.Schema.Fields

/-
  Records on the wire.

  A block is an object whose members are named by the
  declaration. Members that it does not name are ignored, and
  a name that it does have may not repeat. A block is also
  read from an array that holds its fields in their declared
  order, of which the last ones may be missing.

  Key definitions:
    * `Fields.decode?`: the record of an object or an array
    * `Fields.encode`: the object of a record
-/

namespace Converge

------------------------------------------------------------
-- Decoding
------------------------------------------------------------

/- Reads a parameter value, which null is only where none is
   needed. -/
def Need.decode? :
    (need : Need) → Option Json → Option need.Val
  | .optional, none => some none
  | .optional, some .null => some none
  | .optional, some value =>
      (ParamValue.decode? value).map some
  | .required, value => value.bind ParamValue.decode?
  | .assumed, value => value.bind ParamValue.decode?

/- Reads a block from an object or an array. -/
def decodeBlock?
    {α : Type}
    (object : List (String × Json) → Option α)
    (array : List Json → Option α) :
    Json → Option α
  | .obj members => object members
  | .arr items => array items
  | _ => none

mutual

/- Reads a field. -/
def Shape.decode? :
    (shape : Shape) → Option Json → Option shape.Val
  | .leaf type, value => type.decode? value
  | .value need, value => need.decode? value
  | .block _, none => some none
  | .block _, some .null => some none
  | .block fields, some value =>
      (decodeBlock? fields.decodeObject? fields.decodeArray?
        value).map some
  | .blocks _, none => some []
  | .blocks fields, some (.arr items) =>
      items.mapM
        (decodeBlock? fields.decodeObject?
          fields.decodeArray?)
  | .blocks _, some _ => none
  | .blockMap _, none => some SortedMap.empty
  | .blockMap fields, some (.obj members) =>
      (members.mapM fun (member : String × Json) =>
        (decodeBlock? fields.decodeObject?
          fields.decodeArray? member.2).map fun record =>
            (member.1, record)).map SortedMap.ofList
  | .blockMap _, some _ => none
  | .part fields, none => some fields.zero
  | .part fields, some value =>
      decodeBlock? fields.decodeObject? fields.decodeArray?
        value
  | .observed _, none => some none
  | .observed _, some .null => some none
  | .observed fields, some value =>
      (decodeBlock? fields.decodeObject? fields.decodeArray?
        value).map some

/- Reads the record of an object's members. -/
def Fields.decodeObject? :
    (fields : Fields) →
      List (String × Json) → Option fields.Rec
  | .nil, _ => some ()
  | .field _ wire shape rest, members => do
      let first ← shape.decode? (← Keyed.unique? wire members)
      let others ← rest.decodeObject? members
      return (first, others)
  | .wireOnly wire type rest, members => do
      let first ← type.decode? (← Keyed.unique? wire members)
      let others ← rest.decodeObject? members
      return (first, others)

/- Reads the record of an array's items. -/
def Fields.decodeArray? :
    (fields : Fields) → List Json → Option fields.Rec
  | .nil, [] => some ()
  | .nil, _ :: _ => none
  | .field _ _ shape rest, items => do
      let first ← shape.decode? items.head?
      let others ← rest.decodeArray? items.tail
      return (first, others)
  | .wireOnly _ type rest, items => do
      let first ← type.decode? items.head?
      let others ← rest.decodeArray? items.tail
      return (first, others)

end

/- Reads the record of a block. -/
def Fields.decode?
    (fields : Fields) :
    Json → Option fields.Rec :=
  decodeBlock? fields.decodeObject? fields.decodeArray?

------------------------------------------------------------
-- Encoding
------------------------------------------------------------

/- The wire form of a parameter value. -/
def Need.encode : (need : Need) → need.Val → Option Json
  | .optional, (value : Option ParamValue) =>
      value.map ParamValue.encode
  | .required, (value : ParamValue) => some value.encode
  | .assumed, (value : ParamValue) => some value.encode

mutual

/- The wire form of a field; what is not set has none. -/
def Shape.encode : (shape : Shape) → shape.Val → Option Json
  | .leaf type, value => type.encode value
  | .value need, value => need.encode value
  | .block fields, (value : Option fields.Rec) =>
      value.map fun record => .obj (fields.encode record)
  | .blocks fields, (items : List fields.Rec) =>
      if items.isEmpty then none
      else
        some
          (.arr (items.map fun record =>
            .obj (fields.encode record)))
  | .blockMap fields, (map : SortedMap fields.Rec) =>
      if map.isEmpty then none
      else
        some
          (.obj
            (Keyed.mapValues
              (fun record => .obj (fields.encode record))
              map.entries))
  | .part fields, record =>
      some (.obj (fields.encode record))
  | .observed fields, (value : Option fields.Rec) =>
      value.map fun record => .obj (fields.encode record)

/- The members of a record, in the declared order. -/
def Fields.encode :
    (fields : Fields) → fields.Rec → List (String × Json)
  | .nil, _ => []
  | .field _ wire shape rest, (first, others) =>
      match shape.encode first with
      | some value => (wire, value) :: rest.encode others
      | none => rest.encode others
  | .wireOnly wire type rest, (first, others) =>
      match type.encode first with
      | some value => (wire, value) :: rest.encode others
      | none => rest.encode others

end

end Converge
