import Converge.Json.Pointer
import Converge.Json.Printer
import Converge.Json.Record
import Converge.Object.Basic

/-
  Differences between two snapshots of an object, and the
  patch documents that carry them to a store.

  Only the labels, the annotations and the specification of
  an object may change. Objects are compared member by
  member; arrays and scalars are replaced as a whole.

  Key definitions:
    * `Edit`: a change at a path of member keys
    * `Diff.edits`: the edits from one value to another
    * `PatchDocument`: the document of edits
    * `PatchDocument.text`, `PatchDocument.read?`: wire form
-/

namespace Converge

/- What happens to a value. -/
inductive Change where
  | add (value : Json)
  | replace (value : Json)
  | remove
deriving DecidableEq

/- A change at a path of member keys. -/
structure Edit where
  path : List String
  change : Change
deriving DecidableEq

namespace Diff

------------------------------------------------------------
-- Edits
------------------------------------------------------------

/- Removes the members that are no longer there. -/
def removals
    (path : List String)
    (current : List (String × Json))
    (previous : List (String × Json)) :
    List Edit :=
  (previous.filter fun member =>
    !Keyed.has member.1 current).map fun member =>
      ⟨path ++ [member.1], .remove⟩

mutual

/- The edits that make a value of what was there before. -/
def valueEdits
    (path : List String) :
    Json → Option Json → List Edit
  | .obj current, some (.obj previous) =>
      memberEdits path current previous ++
        removals path current previous
  | current, some previous =>
      if current = previous then []
      else [⟨path, .replace current⟩]
  | current, none => [⟨path, .add current⟩]

/- The edits of each member that is there now. -/
def memberEdits
    (path : List String) :
    List (String × Json) → List (String × Json) → List Edit
  | [], _ => []
  | (key, value) :: current, previous =>
      valueEdits (path ++ [key]) value (previous.lookup key) ++
        memberEdits path current previous

end

/- The edits between two values, either of which may be
   missing. -/
def rootEdits
    (path : List String) :
    Option Json → Option Json → List Edit
  | some current, previous => valueEdits path current previous
  | none, some _ => [⟨path, .remove⟩]
  | none, none => []

/- The parts of an object that may change. -/
def mutableRoots : List (List String) :=
  [["metadata", "labels"], ["metadata", "annotations"],
    ["spec"]]

/- The edits that make the mutable parts of one value those
   of another. -/
def edits
    (current : Json)
    (previous : Json) :
    List Edit :=
  mutableRoots.flatMap fun root =>
    rootEdits root (current.at? root) (previous.at? root)

end Diff

------------------------------------------------------------
-- Patch Documents
------------------------------------------------------------

/- The verbs of patch documents that clients send. -/
def patchVerbs : Choices :=
  ⟨"add", ["replace", "remove"]⟩

/- An entry of a patch document: a verb, the written pointer
   of a place, and a value if there is one. -/
structure PatchEntry where
  verb : Choice patchVerbs
  path : String
  value : Option Json
deriving DecidableEq

/- A sequence of changes as a client sends it. -/
abbrev PatchDocument := List PatchEntry

namespace PatchEntry

/- The entry of an edit. -/
def ofEdit (edit : Edit) : PatchEntry :=
  let path := Pointer.text edit.path
  match edit.change with
  | .add value =>
      ⟨⟨"add", by decide⟩, path, some value⟩
  | .replace value =>
      ⟨⟨"replace", by decide⟩, path, some value⟩
  | .remove => ⟨⟨"remove", by decide⟩, path, none⟩

/- The members of an entry, in their order. -/
def toJson (entry : PatchEntry) : Json :=
  let value :=
    match entry.value with
    | some value => [("value", value)]
    | none => []
  .obj
    (("op", .str entry.verb.val) ::
      ("path", .str entry.path) :: value)

/- Levels of nesting that the value of an entry may have,
   inside its entry and its document. -/
def maxDepth : Nat :=
  Json.maxDepth - 2

/- Reads an entry of its record. A null value counts as no
   value. -/
def ofWritten? (entry : Json.Written) : Option PatchEntry := do
  match ← entry.record? ["op", "path", "value"] with
  | [verb, path, value] =>
      let verb ← (← verb).value? maxDepth
      let path ← (← path).value? maxDepth
      let value ←
        match value with
        | none => some none
        | some value => (value.value? maxDepth).map some
      let verb ← Choice.decode? patchVerbs verb
      let path ← path.asString?
      let value := (value.filter (· ≠ .null)).map Json.canonical
      return ⟨verb, path, value⟩
  | _ => none

end PatchEntry

namespace PatchDocument

/- The document of edits, in their order. -/
def ofEdits (edits : List Edit) : PatchDocument :=
  edits.map PatchEntry.ofEdit

def toJson (document : PatchDocument) : Json :=
  .arr (document.map PatchEntry.toJson)

/- The text that is sent to a store. -/
def text (document : PatchDocument) : String :=
  document.toJson.compact

/- Reads the list of entries that a text spells. -/
def read? (text : String) : Option PatchDocument := do
  match ← Json.Written.read? text with
  | .arr items => items.mapM PatchEntry.ofWritten?
  | _ => none

end PatchDocument

namespace Object

/- The document that makes the mutable parts of one object
   those of another. -/
def diff
    {kind : Kind}
    (current : Object kind)
    (previous : Object kind) :
    PatchDocument :=
  .ofEdits (Diff.edits current.toJson previous.toJson)

/- Likewise, for the objects of two configurations. -/
def diffConfigs
    (kind : Kind)
    (current : ConfigMap)
    (previous : ConfigMap) :
    Except SchemaError PatchDocument := do
  let current ← Object.expand kind current
  let previous ← Object.expand kind previous
  return diff current previous

end Object

end Converge
