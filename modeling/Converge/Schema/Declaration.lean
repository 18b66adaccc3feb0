import Converge.Schema.Reading

/-
  Declarations of configuration trees, and checks against
  them.

  A declaration lists the fields that a map may have. It is
  written down apart from the blocks that are read and
  written, and knows the tree form alone: which names there
  are, what shape a value has, and what has to be set.

  Unlike reading, a check also refuses keys that are not
  declared: in each map the first of them, before any of the
  fields is looked at. A required field has to be there, but
  may be an empty string.

  Key definitions:
    * `Presence`, `FieldType`, `Declaration`
    * `Declaration.check`: the first defect of a map
-/

namespace Converge

------------------------------------------------------------
-- Declarations
------------------------------------------------------------

/-
  How far a field has to be set: it may be left out, it may
  not, or the store is the one who sets it. The last is taken
  when it is there, and never asked for.
-/
inductive Presence where
  | optional
  | required
  | computed
deriving DecidableEq

mutual

/- What a field holds. -/
inductive FieldType where
  | text
  | flag
  | integer
  | texts
  | textMap
  | choice (allowed : List String)
  | block (fields : Declaration)
  | blocks (fields : Declaration)
  | blockMap (fields : Declaration)

/- The fields of a map, in their order. -/
inductive Declaration where
  | nil
  | field
      (name : String)
      (type : FieldType)
      (presence : Presence)
      (rest : Declaration)

end

namespace Declaration

/- A field that may be left out. -/
def optional
    (name : String)
    (type : FieldType)
    (rest : Declaration) :
    Declaration :=
  .field name type .optional rest

/- A field that has to be set. -/
def required
    (name : String)
    (type : FieldType)
    (rest : Declaration) :
    Declaration :=
  .field name type .required rest

/- A field that the store sets. -/
def computed
    (name : String)
    (type : FieldType)
    (rest : Declaration) :
    Declaration :=
  .field name type .computed rest

/- The names of the fields. -/
def names : Declaration → List String
  | .nil => []
  | .field name _ _ rest => name :: rest.names

------------------------------------------------------------
-- Checks
------------------------------------------------------------

/- Refuses the first key that is not declared. -/
def checkKeys
    (declared : List String)
    (path : FieldPath)
    (entries : ConfigMap) :
    Except SchemaError Unit :=
  match entries.find? fun entry =>
      !declared.contains entry.1 with
  | some (key, _) => .error (.unknownField (path.entry key))
  | none => .ok ()

/- Checks the keys of a map, and then what remains. -/
def guarded
    (declared : List String)
    (remaining :
      FieldPath → ConfigMap → Except SchemaError Unit)
    (path : FieldPath)
    (entries : ConfigMap) :
    Except SchemaError Unit := do
  checkKeys declared path entries
  remaining path entries

end Declaration

mutual

/- Checks a field that is set. -/
def FieldType.check
    (path : FieldPath) :
    FieldType → Tree → Except SchemaError Unit
  | .text, value => Reading.checkElement path value
  | .flag, value => Reading.checkFlag path value
  | .integer, value => Reading.checkInteger path value
  | .texts, value =>
      Reading.checkItems Reading.checkElement path value
  | .textMap, value =>
      Reading.checkEntries Reading.checkElement path value
  | .choice allowed, value =>
      Reading.checkChoice allowed path value
  | .block fields, value =>
      Reading.block
        (Declaration.guarded fields.names fields.checkAll)
        path value
  | .blocks fields, value =>
      Reading.checkItems
        (Reading.block
          (Declaration.guarded fields.names fields.checkAll))
        path value
  | .blockMap fields, value =>
      Reading.checkEntries
        (Reading.block
          (Declaration.guarded fields.names fields.checkAll))
        path value

/- Checks the fields of a map, in their declared order. -/
def Declaration.checkAll :
    Declaration →
      FieldPath → ConfigMap → Except SchemaError Unit
  | .nil, _, _ => .ok ()
  | .field name type presence rest, path, entries => do
      match entries.present? name with
      | some value => type.check (path.entry name) value
      | none =>
          if presence = .required then
            .error (.missingField (path.entry name))
          else .ok ()
      rest.checkAll path entries

end

/- Checks a map: its keys, then its fields. -/
def Declaration.check (fields : Declaration) :
    FieldPath → ConfigMap → Except SchemaError Unit :=
  Declaration.guarded fields.names fields.checkAll

end Converge
