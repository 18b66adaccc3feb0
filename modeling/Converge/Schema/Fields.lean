import Converge.Schema.ParamValue

/-
  Declarations of blocks of fields, and the records they
  stand for.

  A block is declared once, as a sequence of fields. Each
  field has a key in configuration trees, a name on the wire
  and a shape. What a block holds, and how it is read,
  written and checked in either form, follows from its
  declaration.

  Key definitions:
    * `Shape`, `Fields`: declarations
    * `Shape.Val`, `Fields.Rec`: values and records
    * `Fields.zero`: the record in which nothing was set
    * `Fields.keys`, `Fields.wireNames`
-/

namespace Converge

------------------------------------------------------------
-- Declarations
------------------------------------------------------------

/-
  How far a parameter value is needed: not at all, in every
  form, or on the wire only, where a tree without one stands
  for the empty string.
-/
inductive Need where
  | optional
  | required
  | assumed
deriving DecidableEq

mutual

/-
  The shape of a field.

  Sections and observations are the top-level parts of an
  object. A section is always there, and absent in a tree
  when nothing in it is set. An observation is written by the
  store alone; in a tree it is absent when it shows nothing.
-/
inductive Shape where
  | leaf (type : Leaf)
  | value (need : Need)
  | block (fields : Fields)
  | blocks (fields : Fields)
  | blockMap (fields : Fields)
  | part (fields : Fields)
  | observed (fields : Fields)

/-
  The fields of a block, in their order. A wire-only field
  has no place in configuration trees.
-/
inductive Fields where
  | nil
  | field
      (key : String)
      (wire : String)
      (shape : Shape)
      (rest : Fields)
  | wireOnly
      (wire : String)
      (type : Leaf)
      (rest : Fields)

end

------------------------------------------------------------
-- Records
------------------------------------------------------------

/- The values of a field that holds a parameter value. -/
def Need.Val : Need → Type
  | .optional => Option ParamValue
  | .required => ParamValue
  | .assumed => ParamValue

instance : (need : Need) → DecidableEq need.Val
  | .optional =>
      inferInstanceAs (DecidableEq (Option ParamValue))
  | .required => inferInstanceAs (DecidableEq ParamValue)
  | .assumed => inferInstanceAs (DecidableEq ParamValue)

mutual

/- The values of a field. -/
def Shape.Val : Shape → Type
  | .leaf type => type.Val
  | .value need => need.Val
  | .block fields => Option fields.Rec
  | .blocks fields => List fields.Rec
  | .blockMap fields => SortedMap fields.Rec
  | .part fields => fields.Rec
  | .observed fields => Option fields.Rec

/- The records of a block: a value for each field. -/
def Fields.Rec : Fields → Type
  | .nil => Unit
  | .field _ _ shape rest => shape.Val × rest.Rec
  | .wireOnly _ type rest => type.Val × rest.Rec

end

mutual

def Shape.decEq : (shape : Shape) → DecidableEq shape.Val
  | .leaf type => inferInstanceAs (DecidableEq type.Val)
  | .value need => inferInstanceAs (DecidableEq need.Val)
  | .block fields =>
      have : DecidableEq fields.Rec := fields.decEq
      inferInstanceAs (DecidableEq (Option fields.Rec))
  | .blocks fields =>
      have : DecidableEq fields.Rec := fields.decEq
      inferInstanceAs (DecidableEq (List fields.Rec))
  | .blockMap fields =>
      have : DecidableEq fields.Rec := fields.decEq
      inferInstanceAs (DecidableEq (SortedMap fields.Rec))
  | .part fields => fields.decEq
  | .observed fields =>
      have : DecidableEq fields.Rec := fields.decEq
      inferInstanceAs (DecidableEq (Option fields.Rec))

def Fields.decEq : (fields : Fields) → DecidableEq fields.Rec
  | .nil => inferInstanceAs (DecidableEq PUnit)
  | .field _ _ shape rest =>
      have : DecidableEq shape.Val := shape.decEq
      have : DecidableEq rest.Rec := rest.decEq
      inferInstanceAs (DecidableEq (shape.Val × rest.Rec))
  | .wireOnly _ type rest =>
      have : DecidableEq rest.Rec := rest.decEq
      inferInstanceAs (DecidableEq (type.Val × rest.Rec))

end

instance (shape : Shape) : DecidableEq shape.Val :=
  shape.decEq

instance (fields : Fields) : DecidableEq fields.Rec :=
  fields.decEq

/- No parameter value was set. -/
def Need.zero : (need : Need) → need.Val
  | .optional => none
  | .required => (default : ParamValue)
  | .assumed => (default : ParamValue)

mutual

/- The value of a field that was never set. -/
def Shape.zero : (shape : Shape) → shape.Val
  | .leaf type => type.zero
  | .value need => need.zero
  | .block _ => none
  | .blocks _ => []
  | .blockMap _ => SortedMap.empty
  | .part fields => fields.zero
  | .observed _ => none

/- The record in which no field was set. -/
def Fields.zero : (fields : Fields) → fields.Rec
  | .nil => ()
  | .field _ _ shape rest => (shape.zero, rest.zero)
  | .wireOnly _ type rest => (type.zero, rest.zero)

end

instance (fields : Fields) : Inhabited fields.Rec :=
  ⟨fields.zero⟩

------------------------------------------------------------
-- Names
------------------------------------------------------------

namespace Fields

/- The keys that a configuration may set. -/
def keys : Fields → List String
  | .nil => []
  | .field key _ _ rest => key :: rest.keys
  | .wireOnly _ _ rest => rest.keys

/- The names on the wire. -/
def wireNames : Fields → List String
  | .nil => []
  | .field _ wire _ rest => wire :: rest.wireNames
  | .wireOnly wire _ rest => wire :: rest.wireNames

end Fields

/- Whether a configuration has to set a field. -/
def Shape.required : Shape → Bool
  | .leaf type => type.required
  | .value .required => true
  | _ => false

end Converge
