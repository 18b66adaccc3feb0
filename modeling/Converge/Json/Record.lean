import Converge.Json.Reader
import Converge.Record

/-
  Records in JSON, in a value and in a text.

  A record is an object whose members are named by its
  fields, or an array of its fields in their order. In a
  text, nobody asks what the values of other members mean,
  while every name has to be a name.

  Key definitions:
    * `Json.record?`, `Json.recordFormat`: records in values
    * `Written.record?`, `Written.recordFormat`: records in
      texts
-/

namespace Converge

namespace Json

------------------------------------------------------------
-- Values
------------------------------------------------------------

/- The values of fields, as far as they are given. -/
def record? (names : List String) :
    Json → Option (List (Option Json))
  | .obj members => Record.byName? names members
  | .arr items => Record.byPosition? names items
  | _ => none

/- A text, or null for none. -/
def openText? : Json → Option (Option String)
  | .null => some none
  | .str text => some (some text)
  | _ => none

def asFlag? : Json → Option Bool
  | .bool value => some value
  | _ => none

/- A text is a string, and a flag is true or false. -/
def recordFormat : RecordFormat Json :=
  ⟨record?, asString?, openText?, asFlag?⟩

------------------------------------------------------------
-- Texts
------------------------------------------------------------

namespace Written

/- Members whose keys are all names. -/
def named?
    (members : List (Option String × Written)) :
    Option (List (String × Written)) :=
  members.mapM fun (member : Option String × Written) =>
    member.1.map fun (name : String) => (name, member.2)

/- The spelled values of fields, as far as they are given. -/
def record? (names : List String) :
    Written → Option (List (Option Written))
  | .obj members =>
      (named? members).bind (Record.byName? names)
  | .arr items => Record.byPosition? names items
  | _ => none

/- The value of a scalar. -/
def scalar? (value : Written) : Option Json :=
  value.value? 0

/- Scalars are taken as they are in values. -/
def recordFormat : RecordFormat Written :=
  ⟨record?,
    fun (value : Written) => value.scalar?.bind asString?,
    fun (value : Written) => value.scalar?.bind openText?,
    fun (value : Written) => value.scalar?.bind asFlag?⟩

end Written

end Json

end Converge
