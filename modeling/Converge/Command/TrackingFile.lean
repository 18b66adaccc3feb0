import Converge.Json.Printer
import Converge.Json.Reader
import Converge.Lifecycle.Tracked
import Converge.Object.Kind

/-
  Files in which commands keep an object that they track.

  Key definitions:
    * `TrackingFile`: an object and its kind
    * `TrackingFile.read?`, `TrackingFile.text`: written form
-/

namespace Converge

/- What is remembered of an object between two commands. -/
structure TrackingFile where
  kind : Kind
  tracked : Tracked

namespace TrackingFile

/- Reads the record of an object, in which its kind is one
   more member. -/
def ofJson? : Json → Option TrackingFile
  | .obj members => do
      let kind ← ← Keyed.unique? "kind" members
      let kind ← kind.asString?.bind Kind.ofWord?
      let tracked ← Tracked.ofJson? (.obj members)
      return ⟨kind, tracked⟩
  | _ => none

def toJson (file : TrackingFile) : Json :=
  .obj (("kind", .str file.kind.word) :: file.tracked.members)

/- Reads the content of a file. It is a text: bytes that are
   none are refused in the way of a text that cannot be
   read. -/
def read? (content : String) : Option TrackingFile :=
  (Json.readNested? content).bind ofJson?

/- The content of a file. -/
def text (file : TrackingFile) : String :=
  file.toJson.pretty ++ "\n"

end TrackingFile

end Converge
