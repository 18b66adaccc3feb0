import Converge.Json.Written

/-
  Reading JSON values of bounded nesting.

  Key definitions:
    * `Json.readWithin?`: the value of a text, within a
      limit of nesting
    * `Json.readNested?`: likewise, for the limit in use
-/

namespace Converge

namespace Json

/- The value of a text that nests no deeper than a limit. -/
def readWithin?
    (limit : Nat)
    (text : String) :
    Option Json :=
  (Written.read? text).bind (Written.value? limit)

/- Levels of nesting that readers follow. -/
def maxDepth : Nat := 127

/- The value of a text of bounded nesting. -/
def readNested? (text : String) : Option Json :=
  readWithin? maxDepth text

end Json

end Converge
