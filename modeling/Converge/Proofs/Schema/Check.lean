import Converge.Object.Kind
import Converge.Schema.Declaration

/-
  The checks that the blocks of the catalog call for.

  A block that is read and written says by itself what a map
  has to look like: its keys, the shapes of its leaves, and
  what must not be missing. Declarations are compared with
  these checks.

  Key definitions:
    * `Leaf.check`, `ParamValue.check`
    * `Fields.check`: the first defect of a map
-/

namespace Converge

------------------------------------------------------------
-- Leaves
------------------------------------------------------------

/- Checks the shape of a tree's leaf. -/
def Leaf.check
    (path : FieldPath) :
    Leaf → Tree → Except SchemaError Unit
  | .text, value => Reading.checkElement path value
  | .requiredText, value => Reading.checkElement path value
  | .timestamp, value => Reading.checkElement path value
  | .flag, value => Reading.checkFlag path value
  | .integer, value => Reading.checkInteger path value
  | .choice choices, value =>
      Reading.checkChoice choices.all path value
  | .requiredChoice choices, value =>
      Reading.checkChoice choices.all path value
  | .texts, value =>
      Reading.checkItems Reading.checkElement path value
  | .textMap, value =>
      Reading.checkEntries Reading.checkElement path value

------------------------------------------------------------
-- Parameter Values
------------------------------------------------------------

namespace ParamValue

/- The leaves of a block, by their keys. -/
def leaves : List (String × Leaf) :=
  [ ("type", .choice paramTypes),
    ("string_val", .text),
    ("array_val", .texts),
    ("object_val", .textMap) ]

/- Checks the leaves that a block sets. -/
def checkLeaves
    (path : FieldPath)
    (entries : ConfigMap) :
    List (String × Leaf) → Except SchemaError Unit
  | [] => .ok ()
  | (key, leaf) :: rest => do
      match entries.present? key with
      | some value => leaf.check (path.entry key) value
      | none => .ok ()
      checkLeaves path entries rest

/- Checks the block of a value: its keys, then its leaves. -/
def check
    (path : FieldPath)
    (entries : ConfigMap) :
    Except SchemaError Unit :=
  match entries.find? fun entry =>
      !Keyed.has entry.1 leaves with
  | some (key, _) => .error (.unknownField (path.entry key))
  | none => checkLeaves path entries leaves

end ParamValue

------------------------------------------------------------
-- Blocks
------------------------------------------------------------

mutual

/- Checks a field that is set. -/
def Shape.check
    (path : FieldPath) :
    Shape → Tree → Except SchemaError Unit
  | .leaf type, value => type.check path value
  | .value _, value =>
      Reading.block ParamValue.check path value
  | .block fields, value =>
      Reading.block
        (Declaration.guarded fields.keys fields.checkAll)
        path value
  | .blocks fields, value =>
      Reading.checkItems
        (Reading.block
          (Declaration.guarded fields.keys fields.checkAll))
        path value
  | .blockMap fields, value =>
      Reading.checkEntries
        (Reading.block
          (Declaration.guarded fields.keys fields.checkAll))
        path value
  | .part fields, value =>
      Reading.block
        (Declaration.guarded fields.keys fields.checkAll)
        path value
  | .observed fields, value =>
      Reading.block
        (Declaration.guarded fields.keys fields.checkAll)
        path value

/- Checks the fields of a map, in their declared order. -/
def Fields.checkAll :
    Fields → FieldPath → ConfigMap → Except SchemaError Unit
  | .nil, _, _ => .ok ()
  | .field key _ shape rest, path, entries => do
      match entries.present? key with
      | some value => shape.check (path.entry key) value
      | none =>
          if shape.required then
            .error (.missingField (path.entry key))
          else .ok ()
      rest.checkAll path entries
  | .wireOnly _ _ rest, path, entries =>
      rest.checkAll path entries

end

/- Checks a map: its keys, then its fields. -/
def Fields.check (fields : Fields) :
    FieldPath → ConfigMap → Except SchemaError Unit :=
  Declaration.guarded fields.keys fields.checkAll

end Converge
