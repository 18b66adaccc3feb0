import Converge.Json.Pointer
import Converge.Json.Reader

/-
  JSON Patch documents, as a store applies them.

  Instructions are carried out in order; when one cannot be,
  the whole document fails and says which, where and why.
  Values are canonical: objects have sorted keys.

  Key definitions:
    * `Instruction`: one change
    * `Patch.apply`: the value after all changes
    * `Patch.read?`: the document of a text
-/

namespace Converge

/- One change of a JSON value. -/
inductive Instruction where
  | add (path : Pointer) (value : Json)
  | remove (path : Pointer)
  | replace (path : Pointer) (value : Json)
  | move (source : Pointer) (path : Pointer)
  | copy (source : Pointer) (path : Pointer)
  | test (path : Pointer) (value : Json)

/- A sequence of changes. -/
abbrev Patch := List Instruction

namespace Instruction

/- The place that an instruction changes or tests. -/
def path : Instruction → Pointer
  | .add path _ => path
  | .remove path => path
  | .replace path _ => path
  | .move _ path => path
  | .copy _ path => path
  | .test path _ => path

end Instruction

/- Why an instruction cannot be carried out. -/
inductive PatchFault where
  | invalidPath
  | invalidSource
  | testFailed
  | insideItself
deriving DecidableEq

namespace PatchFault

def message : PatchFault → String
  | .invalidPath => "path is invalid"
  | .invalidSource => "\"from\" path is invalid"
  | .testFailed => "value did not match"
  | .insideItself => "cannot move the value inside itself"

end PatchFault

/- The instruction that failed, and why. -/
structure PatchError where
  position : Nat
  path : Pointer
  fault : PatchFault
deriving DecidableEq

namespace PatchError

def message (error : PatchError) : String :=
  "operation '/" ++ toString error.position ++
    "' failed at path '" ++ error.path.text ++ "': " ++
    error.fault.message

end PatchError

namespace Instruction

------------------------------------------------------------
-- Single Changes
------------------------------------------------------------

/- Adds a member, or inserts an item. -/
def addChild?
    (token : String)
    (value : Json) :
    Json → Option Json
  | .obj members => some (.obj (Keyed.insert token value members))
  | .arr items =>
      if token = "-" then some (.arr (items ++ [value]))
      else
        (Pointer.positionBelow? token (items.length + 1)).map
          fun position =>
            .arr (items.take position ++ value ::
              items.drop position)
  | _ => none

/- Removes a member or an item that is there. -/
def removeChild? (token : String) : Json → Option Json
  | .obj members =>
      if Keyed.has token members then
        some (.obj (Keyed.erase token members))
      else none
  | .arr items =>
      (Pointer.positionBelow? token items.length).map
        fun position => .arr (items.eraseIdx position)
  | _ => none

/- Changes the container of the place that a pointer ends
   at. -/
def atParent?
    (change : String → Json → Option Json)
    (path : Pointer)
    (document : Json) :
    Option Json :=
  match path.getLast? with
  | none => none
  | some token =>
      Pointer.modify? (change token) path.dropLast document

/- Puts a value at a place, whose container is there. -/
def add?
    (path : Pointer)
    (value : Json)
    (document : Json) :
    Option Json :=
  if path.isEmpty then some value
  else
    atParent? (fun token => addChild? token value) path
      document

/- Removes the value at a place. -/
def remove?
    (path : Pointer)
    (document : Json) :
    Option Json :=
  atParent? removeChild? path document

/- Replaces the value at a place. -/
def replace?
    (path : Pointer)
    (value : Json)
    (document : Json) :
    Option Json :=
  Pointer.modify? (fun _ => some value) path document

/- Turns a missing result into a fault. -/
def orFault
    (fault : PatchFault) :
    Option Json → Except PatchFault Json
  | some value => .ok value
  | none => .error fault

/- Carries an instruction out. -/
def apply
    (document : Json) :
    Instruction → Except PatchFault Json
  | .add path value =>
      orFault .invalidPath (add? path value document)
  | .remove path =>
      orFault .invalidPath (remove? path document)
  | .replace path value =>
      orFault .invalidPath (replace? path value document)
  | .move source path => do
      if source.isPrefixOf path && source ≠ path then
        .error .insideItself
      else
        let value ←
          orFault .invalidSource
            (Pointer.resolve? source document)
        let removed ←
          orFault .invalidSource (remove? source document)
        orFault .invalidPath (add? path value removed)
  | .copy source path => do
      let value ←
        orFault .invalidSource
          (Pointer.resolve? source document)
      orFault .invalidPath (add? path value document)
  | .test path value => do
      let found ←
        orFault .invalidPath (Pointer.resolve? path document)
      if found = value then .ok document
      else .error .testFailed

end Instruction

namespace Patch

------------------------------------------------------------
-- Documents
------------------------------------------------------------

/- Carries instructions out, counting from a position. -/
def applyFrom :
    Nat → Patch → Json → Except PatchError Json
  | _, [], document => .ok document
  | position, instruction :: rest, document =>
      match instruction.apply document with
      | .ok document => applyFrom (position + 1) rest document
      | .error fault =>
          .error ⟨position, instruction.path, fault⟩

/- The value after all instructions. -/
def apply
    (patch : Patch)
    (document : Json) :
    Except PatchError Json :=
  applyFrom 0 patch document

------------------------------------------------------------
-- Reading
------------------------------------------------------------

/- A pointer of a document. -/
def pointer? (value : Json) : Option Pointer :=
  value.asString?.bind Pointer.read?

/- The names of what an instruction of a verb needs, in
   their order. -/
def parameters? : String → Option (List String)
  | "add" => some ["path", "value"]
  | "remove" => some ["path"]
  | "replace" => some ["path", "value"]
  | "move" => some ["from", "path"]
  | "copy" => some ["from", "path"]
  | "test" => some ["path", "value"]
  | _ => none

/- The instruction of a verb with what it needs. -/
def instruction? : String → List Json → Option Instruction
  | "add", [path, value] =>
      (pointer? path).map fun path => .add path value.canonical
  | "remove", [path] => (pointer? path).map .remove
  | "replace", [path, value] =>
      (pointer? path).map fun path =>
        .replace path value.canonical
  | "move", [source, path] => do
      return .move (← pointer? source) (← pointer? path)
  | "copy", [source, path] => do
      return .copy (← pointer? source) (← pointer? path)
  | "test", [path, value] =>
      (pointer? path).map fun path => .test path value.canonical
  | _, _ => none

/- The only value of a name. -/
def single?
    (members : List (String × Json))
    (name : String) :
    Option Json :=
  match Keyed.valuesAt name members with
  | [value] => some value
  | _ => none

/- Reads an instruction: an object with a verb and what it
   needs, or an array of the same. -/
def readInstruction? : Json → Option Instruction
  | .obj members => do
      let verb ← (← single? members "op").asString?
      let values ←
        (← parameters? verb).mapM (single? members)
      instruction? verb values
  | .arr (verb :: values) => do
      instruction? (← verb.asString?) values
  | _ => none

/- Reads a document of a JSON value. -/
def ofJson? : Json → Option Patch
  | .arr items => items.mapM readInstruction?
  | _ => none

/- Reads a document of a text. -/
def read? (text : String) : Option Patch :=
  (Json.readNested? text).bind ofJson?

end Patch

end Converge
