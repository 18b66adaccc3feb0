import Converge.Object.Kind
import Converge.Object.Meta
import Converge.Schema.Expand
import Converge.Schema.Wire

/-
  Objects of the four kinds.

  Key definitions:
    * `Object`: the type names and the content of an object
    * `Object.expand`, `Object.flatten`, `Object.validate`:
      tree form
    * `Object.decode?`, `Object.toJson`: wire form
    * `Object.prepareForCreate`: what a client may send
-/

namespace Converge

/-
  An object of a kind: the type it claims to be, which the
  client states anew before each submission, and its content.
-/
structure Object (kind : Kind) where
  apiVersion : String
  typeName : String
  content : kind.fields.Rec

namespace Object

variable {kind : Kind}

instance : DecidableEq (Object kind) :=
  fun left right =>
    if h :
        left.apiVersion = right.apiVersion ∧
          left.typeName = right.typeName ∧
          left.content = right.content then
      isTrue (by
        cases left
        cases right
        simp_all)
    else
      isFalse (by
        intro hEq
        subst hEq
        exact h ⟨rfl, rfl, rfl⟩)

/- The object in which nothing is set. -/
def zero (kind : Kind) : Object kind :=
  ⟨"", "", kind.fields.zero⟩

instance : Inhabited (Object kind) :=
  ⟨zero kind⟩

------------------------------------------------------------
-- Parts
------------------------------------------------------------

def metadata (object : Object kind) : ObjectMeta :=
  object.content.1

def spec (object : Object kind) : kind.spec.Rec :=
  object.content.2.1

/- The object with other metadata. -/
def withMetadata
    (info : ObjectMeta)
    (object : Object kind) :
    Object kind :=
  ⟨object.apiVersion, object.typeName,
    (info, object.content.2)⟩

/- The object with no status. -/
def clearStatus (object : Object kind) : Object kind :=
  ⟨object.apiVersion, object.typeName,
    (object.content.1, object.content.2.1,
      kind.observations.zero)⟩

------------------------------------------------------------
-- Tree Form
------------------------------------------------------------

/- The object of a configuration. -/
def expand
    (kind : Kind)
    (config : ConfigMap) :
    Except SchemaError (Object kind) :=
  (kind.fields.expand .root config).map fun content =>
    ⟨"", "", content⟩

/- The configuration of an object. -/
def flatten (object : Object kind) : ConfigMap :=
  kind.fields.flatten object.content

/- The first defect of a configuration, next to what its kind
   declares. -/
def validate
    (kind : Kind)
    (config : ConfigMap) :
    Except SchemaError Unit :=
  kind.declared.check .root config

------------------------------------------------------------
-- Wire Form
------------------------------------------------------------

/- A string member, which may be absent. -/
def decodeText?
    (name : String)
    (members : List (String × Json)) :
    Option String := do
  match ← Keyed.unique? name members with
  | none => some ""
  | some value => value.asString?

/- Reads an object, which is a JSON object. -/
def decode?
    (kind : Kind) :
    Json → Option (Object kind)
  | .obj members => do
      let apiVersion ← decodeText? "apiVersion" members
      let typeName ← decodeText? "kind" members
      let content ← kind.fields.decodeObject? members
      return ⟨apiVersion, typeName, content⟩
  | _ => none

/- A string member, unless it is empty. -/
def encodeText
    (name : String)
    (content : String) :
    List (String × Json) :=
  if content = "" then [] else [(name, .str content)]

/- The wire form of an object, in the declared order. -/
def encode (object : Object kind) : Json :=
  .obj
    (encodeText "apiVersion" object.apiVersion ++
      encodeText "kind" object.typeName ++
      kind.fields.encode object.content)

/- The wire form of an object as an untyped value. -/
def toJson (object : Object kind) : Json :=
  object.encode.canonical

------------------------------------------------------------
-- Submission
------------------------------------------------------------

/- States the type of the object's kind. -/
def stamp (object : Object kind) : Object kind :=
  ⟨kind.resourceType.apiVersion, kind.name, object.content⟩

/- States the type and clears everything the store owns. -/
def prepareForCreate (object : Object kind) : Object kind :=
  let stamped := object.stamp
  (stamped.withMetadata
    stamped.metadata.clearServerFields).clearStatus

end Object

end Converge
