import Converge.Schema.Fields

/-
  Records of configuration trees.

  Expanding reads the fields of a block in their declared
  order and stops at the first defect; keys that are not
  declared are passed over. Flattening writes what is set,
  and leaves out zero values.

  Key definitions:
    * `Fields.expand`: the record of a map
    * `Fields.flatten`: the map of a record
-/

namespace Converge

------------------------------------------------------------
-- Expanding
------------------------------------------------------------

/- Reads a parameter value, as far as it is needed. -/
def Need.expand
    (path : FieldPath) :
    (need : Need) →
      Option Tree → Except SchemaError need.Val
  | .optional, none => .ok none
  | .optional, some value =>
      (Reading.block ParamValue.expand path value).map some
  | .required, none => .error (.missingField path)
  | .required, some value =>
      Reading.block ParamValue.expand path value
  | .assumed, none => .ok (default : ParamValue)
  | .assumed, some value =>
      Reading.block ParamValue.expand path value

mutual

/- Reads a field. -/
def Shape.expand
    (path : FieldPath) :
    (shape : Shape) →
      Option Tree → Except SchemaError shape.Val
  | .leaf type, value => type.expand path value
  | .value need, value => need.expand path value
  | .block _, none => .ok none
  | .block fields, some value =>
      (Reading.block fields.expand path value).map some
  | .blocks fields, value =>
      Reading.items (Reading.block fields.expand) path value
  | .blockMap fields, value =>
      Reading.entries (Reading.block fields.expand) path value
  | .part fields, none => .ok fields.zero
  | .part fields, some value =>
      Reading.block fields.expand path value
  | .observed _, none => .ok none
  | .observed fields, some value =>
      (Reading.block fields.expand path value).map some

/- Reads the record of a map. -/
def Fields.expand :
    (fields : Fields) →
      FieldPath → ConfigMap → Except SchemaError fields.Rec
  | .nil, _, _ => .ok ()
  | .field key _ shape rest, path, entries => do
      let first ←
        shape.expand (path.entry key) (entries.present? key)
      let others ← rest.expand path entries
      return (first, others)
  | .wireOnly _ type rest, path, entries => do
      let others ← rest.expand path entries
      return (type.zero, others)

end

------------------------------------------------------------
-- Flattening
------------------------------------------------------------

/- The tree of a parameter value. -/
def Need.flatten : (need : Need) → need.Val → Option Tree
  | .optional, (value : Option ParamValue) =>
      value.map fun value => .map value.flatten
  | .required, (value : ParamValue) =>
      some (.map value.flatten)
  | .assumed, (value : ParamValue) =>
      some (.map value.flatten)

/- The tree of a part, unless nothing in it is set. -/
def flattenPart (entries : ConfigMap) : Option Tree :=
  if entries.isEmpty then none else some (.map entries)

mutual

/- The tree of a field; what is not set has none. -/
def Shape.flatten : (shape : Shape) → shape.Val → Option Tree
  | .leaf type, value => type.flatten value
  | .value need, value => need.flatten value
  | .block fields, (value : Option fields.Rec) =>
      value.map fun record => .map (fields.flatten record)
  | .blocks fields, (items : List fields.Rec) =>
      if items.isEmpty then none
      else
        some
          (.list (items.map fun record =>
            .map (fields.flatten record)))
  | .blockMap fields, (map : SortedMap fields.Rec) =>
      if map.isEmpty then none
      else
        some
          (.map
            (Keyed.mapValues
              (fun record => .map (fields.flatten record))
              map.entries))
  | .part fields, record =>
      flattenPart (fields.flatten record)
  | .observed fields, (value : Option fields.Rec) =>
      value.bind fun record =>
        flattenPart (fields.flatten record)

/- The map of a record. -/
def Fields.flatten :
    (fields : Fields) → fields.Rec → ConfigMap
  | .nil, _ => []
  | .field key _ shape rest, (first, others) =>
      match shape.flatten first with
      | some value => (key, value) :: rest.flatten others
      | none => rest.flatten others
  | .wireOnly _ _ rest, (_, others) => rest.flatten others

end

end Converge
