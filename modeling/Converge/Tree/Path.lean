/-
  Places inside a configuration tree.

  Key definitions:
    * `FieldPath`: map keys and list positions from the root
    * `FieldPath.text`: dotted form
-/

namespace Converge

/- The way from the root of a tree to one of its values. -/
structure FieldPath where
  segments : List String
deriving DecidableEq, Inhabited

namespace FieldPath

/- The root of a tree. -/
def root : FieldPath :=
  ⟨[]⟩

/- The entry of a map. -/
def entry
    (path : FieldPath)
    (key : String) :
    FieldPath :=
  ⟨path.segments ++ [key]⟩

/- The item of a list, counted from zero. -/
def item
    (path : FieldPath)
    (position : Nat) :
    FieldPath :=
  path.entry (toString position)

def isRoot (path : FieldPath) : Bool :=
  path.segments.isEmpty

/- Segments with points between them. -/
def text (path : FieldPath) : String :=
  if path.isRoot then "<root>"
  else ".".intercalate path.segments

end FieldPath

end Converge
