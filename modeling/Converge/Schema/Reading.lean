import Converge.Schema.Error
import Converge.Tree.Basic

/-
  Taking values out of a configuration tree.

  A null entry counts as an absent one. What is absent reads
  as the empty value of its type; what has the wrong shape is
  a mismatch at its place. The checks look at shapes alone
  and build nothing.

  Key definitions:
    * `ConfigMap.present?`: an entry that is not null
    * `Reading.text`, `Reading.items`, `Reading.entries`
    * `Reading.checkItems`, `Reading.checkEntries`
    * `Reading.checkElement`, `Reading.checkChoice`
-/

namespace Converge

namespace ConfigMap

/- The entry of a key, unless it is null. -/
def present?
    (entries : ConfigMap)
    (key : String) :
    Option Tree :=
  (entries.lookup key).filter fun value => !value.isNull

end ConfigMap

namespace Reading

variable {α : Type}

------------------------------------------------------------
-- Scalars
------------------------------------------------------------

/- A string; absent is empty. -/
def text
    (path : FieldPath) :
    Option Tree → Except SchemaError String
  | none => .ok ""
  | some (.str value) => .ok value
  | some _ => .error (.typeMismatch path "string")

/- A string that is an element of a larger value. -/
def element
    (path : FieldPath) :
    Tree → Except SchemaError String
  | .str value => .ok value
  | _ => .error (.typeMismatch path "string")

/- A flag; absent is off. -/
def flag
    (path : FieldPath) :
    Option Tree → Except SchemaError Bool
  | none => .ok false
  | some (.bool value) => .ok value
  | some _ => .error (.typeMismatch path "bool")

/- An integer; absent is zero. -/
def integer
    (path : FieldPath) :
    Option Tree → Except SchemaError Int64
  | none => .ok 0
  | some (.int value) => .ok value
  | some _ => .error (.typeMismatch path "int")

------------------------------------------------------------
-- Lists and Maps
------------------------------------------------------------

/- Reads each item of a list at its position. -/
def eachItem
    (read : FieldPath → Tree → Except SchemaError α)
    (path : FieldPath) :
    Nat → List Tree → Except SchemaError (List α)
  | _, [] => .ok []
  | position, value :: rest => do
      let first ← read (path.item position) value
      let others ← eachItem read path (position + 1) rest
      return first :: others

/- Reads each value of a map at its key. -/
def eachEntry
    (read : FieldPath → Tree → Except SchemaError α)
    (path : FieldPath) :
    ConfigMap → Except SchemaError (List (String × α))
  | [] => .ok []
  | (key, value) :: rest => do
      let first ← read (path.entry key) value
      let others ← eachEntry read path rest
      return (key, first) :: others

/- A list; absent is empty. -/
def items
    (read : FieldPath → Tree → Except SchemaError α)
    (path : FieldPath) :
    Option Tree → Except SchemaError (List α)
  | none => .ok []
  | some (.list values) => eachItem read path 0 values
  | some _ => .error (.typeMismatch path "list")

/- A map; absent is empty. -/
def entries
    (read : FieldPath → Tree → Except SchemaError α)
    (path : FieldPath) :
    Option Tree → Except SchemaError (SortedMap α)
  | none => .ok SortedMap.empty
  | some (.map values) =>
      (eachEntry read path values).map SortedMap.ofList
  | some _ => .error (.typeMismatch path "map")

/- A map that is an element of a larger value, handed on to
   what reads it. -/
def block
    (read : FieldPath → ConfigMap → Except SchemaError α)
    (path : FieldPath) :
    Tree → Except SchemaError α
  | .map values => read path values
  | _ => .error (.typeMismatch path "map")

------------------------------------------------------------
-- Checks
------------------------------------------------------------

/- Checks each item of a list at its position. -/
def checkEachItem
    (check : FieldPath → Tree → Except SchemaError Unit)
    (path : FieldPath) :
    Nat → List Tree → Except SchemaError Unit
  | _, [] => .ok ()
  | position, value :: rest => do
      check (path.item position) value
      checkEachItem check path (position + 1) rest

/- Checks each value of a map at its key. -/
def checkEachEntry
    (check : FieldPath → Tree → Except SchemaError Unit)
    (path : FieldPath) :
    ConfigMap → Except SchemaError Unit
  | [] => .ok ()
  | (key, value) :: rest => do
      check (path.entry key) value
      checkEachEntry check path rest

/- Checks that a value is a list, and its items. -/
def checkItems
    (check : FieldPath → Tree → Except SchemaError Unit)
    (path : FieldPath) :
    Tree → Except SchemaError Unit
  | .list values => checkEachItem check path 0 values
  | _ => .error (.typeMismatch path "list")

/- Checks that a value is a map, and its entries. -/
def checkEntries
    (check : FieldPath → Tree → Except SchemaError Unit)
    (path : FieldPath) :
    Tree → Except SchemaError Unit
  | .map values => checkEachEntry check path values
  | _ => .error (.typeMismatch path "map")

/- Checks that an element of a larger value is a string. -/
def checkElement
    (path : FieldPath) :
    Tree → Except SchemaError Unit
  | .str _ => .ok ()
  | _ => .error (.typeMismatch path "string")

/- Checks that a value is a flag. -/
def checkFlag
    (path : FieldPath) :
    Tree → Except SchemaError Unit
  | .bool _ => .ok ()
  | _ => .error (.typeMismatch path "bool")

/- Checks that a value is an integer. -/
def checkInteger
    (path : FieldPath) :
    Tree → Except SchemaError Unit
  | .int _ => .ok ()
  | _ => .error (.typeMismatch path "int")

/- Checks that a value is empty or one of a closed set. -/
def checkChoice
    (allowed : List String)
    (path : FieldPath) :
    Tree → Except SchemaError Unit
  | .str value =>
      if value = "" || allowed.contains value then .ok ()
      else .error (.invalidValue path value allowed)
  | _ => .error (.typeMismatch path "string")

end Reading

end Converge
