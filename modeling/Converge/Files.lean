import Converge.Keyed
import Converge.Text

/-
  The files of a folder, addressed by paths.

  Steps of a path that stay in place do not matter. A path
  that names no file leads to a folder. The content of a file
  is a text: bytes that are no UTF-8 are refused in the same
  way as a text that cannot be read.

  Key definitions:
    * `Files`: contents by names
    * `Files.nameAt`: the name that a path leads to
    * `Files.find?`, `Files.write`: contents by paths
    * `Files.isFolder`: paths that lead to a folder
-/

namespace Converge

/- The contents of files by their names. -/
abbrev Files := List (String × String)

namespace Files

/- The steps of a path that lead somewhere. -/
def steps (path : String) : List String :=
  (Text.parts '/' path).filter fun step =>
    step ≠ "" && step ≠ "."

/- The name that a path leads to. -/
def nameAt (path : String) : String :=
  let last := (Text.parts '/' path).getLast?.getD ""
  if path.toList.head? = some '/' || last = "" || last = "."
    then path
  else "/".intercalate (steps path)

/- The content of the file that a path leads to. -/
def find? (path : String) (files : Files) : Option String :=
  files.lookup (nameAt path)

/- Sets the content of the file that a path leads to. -/
def write
    (path : String)
    (content : String)
    (files : Files) :
    Files :=
  Keyed.put (nameAt path) content files

/- The path leads to a folder, whatever files there are. -/
def isFolder (path : String) : Bool :=
  path ≠ "" && (steps path).all fun step => step = ".."

/- Why there is no content where a path leads. -/
def absence (path : String) : String :=
  if isFolder path then "Is a directory (os error 21)"
  else "No such file or directory (os error 2)"

end Files

end Converge
