import Converge.Json.Record
import Converge.Object.Identity
import Converge.Time.Duration
import Converge.Tree.Basic

/-
  What a host keeps of an object between operations.

  Key definitions:
    * `Timeouts`: how long to wait
    * `Tracked`: identity, configuration and snapshot
    * `Tracked.ofJson?`, `Tracked.toJson`: written form
-/

namespace Converge

------------------------------------------------------------
-- Timeouts
------------------------------------------------------------

/- How long to wait for the creation and for the deletion of
   an object. -/
structure Timeouts where
  create : Duration
  delete : Duration
deriving DecidableEq

namespace Timeouts

/- Forty minutes and five minutes. -/
def standard : Timeouts :=
  ⟨⟨2400000000000, by decide⟩, ⟨300000000000, by decide⟩⟩

/- Reads timeouts off their record. -/
def ofRecord?
    {α : Type}
    (format : RecordFormat α)
    (value : Option α) :
    Option Timeouts := do
  match ← format.section? ["create", "delete"] value with
  | [create, delete] =>
      let duration? (written : α) : Option Duration :=
        (format.text? written).bind Duration.read?
      let create ←
        RecordFormat.fieldOr duration? standard.create create
      let delete ←
        RecordFormat.fieldOr duration? standard.delete delete
      return ⟨create, delete⟩
  | _ => none

def toJson (timeouts : Timeouts) : Json :=
  .obj
    [ ("create", .str timeouts.create.text),
      ("delete", .str timeouts.delete.text) ]

end Timeouts

------------------------------------------------------------
-- Tracked Objects
------------------------------------------------------------

/-
  An object that a host tracks: its written identity, the
  configuration that the host wants, and the configuration
  of the object that the store last returned.
-/
structure Tracked where
  id : String
  config : ConfigMap
  state : Option ConfigMap
  timeouts : Timeouts

namespace Tracked

/- An object that is not there yet. -/
def ofConfig (config : ConfigMap) : Tracked :=
  ⟨"", config, none, .standard⟩

/- An object that is there, but was not tracked. -/
def ofId (id : String) : Tracked :=
  ⟨id, [], none, .standard⟩

instance : Inhabited Tracked :=
  ⟨ofConfig []⟩

/- The identity of the object. -/
def objectId
    (tracked : Tracked) :
    Except ObjectError ObjectId :=
  ObjectId.parse tracked.id

/- The object was submitted, and this is what came back. -/
def submitted
    (id : ObjectId)
    (state : ConfigMap)
    (tracked : Tracked) :
    Tracked :=
  { tracked with id := id.text, state := some state }

/- The object was seen like this. -/
def observed
    (state : ConfigMap)
    (tracked : Tracked) :
    Tracked :=
  { tracked with state := some state }

/- The object is gone. The wanted configuration stays. -/
def clear (tracked : Tracked) : Tracked :=
  { tracked with id := "", state := none }

/- The snapshot is not what the host wants. -/
def isChanged (tracked : Tracked) : Bool :=
  match tracked.state with
  | none => true
  | some state => !Tree.sameMaps state tracked.config

------------------------------------------------------------
-- Written Form
------------------------------------------------------------

/- A map that may be absent. -/
def map? : Option Json → Option ConfigMap
  | none => some []
  | some value => Tree.mapOfJson? value

/- Reads a tracked object of its record. -/
def ofJson? (value : Json) : Option Tracked := do
  match
      ← value.record? ["id", "config", "state", "timeouts"]
    with
  | [id, config, state, timeouts] =>
      let id ←
        match id with
        | none => some ""
        | some value => value.asString?
      let config ← map? config
      let state ←
        match state with
        | none => some none
        | some .null => some none
        | some value => (Tree.mapOfJson? value).map some
      let timeouts ←
        Timeouts.ofRecord? Json.recordFormat timeouts
      return ⟨id, config, state, timeouts⟩
  | _ => none

/- The members of the written record. -/
def members (tracked : Tracked) : List (String × Json) :=
  let state :=
    match tracked.state with
    | none => []
    | some state => [("state", Tree.mapToJson state)]
  ("id", .str tracked.id) ::
    ("config", Tree.mapToJson tracked.config) ::
    (state ++ [("timeouts", tracked.timeouts.toJson)])

def toJson (tracked : Tracked) : Json :=
  .obj tracked.members

/- Equality up to the order of map entries. -/
def same (left right : Tracked) : Bool :=
  left.id = right.id &&
    Tree.sameMaps left.config right.config &&
    (match left.state, right.state with
      | none, none => true
      | some left, some right => Tree.sameMaps left right
      | _, _ => false) &&
    left.timeouts = right.timeouts

end Tracked

end Converge
