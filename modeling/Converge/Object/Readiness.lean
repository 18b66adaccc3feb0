import Converge.Object.Basic

/-
  How far an object is, as far as it tells itself.

  A run carries conditions, and the one of type `Succeeded`
  decides. Objects that do not run are ready at once.

  Key definitions:
    * `Readiness`: ready, pending or failed
    * `Object.readiness`: what an object tells
-/

namespace Converge

------------------------------------------------------------
-- Conditions
------------------------------------------------------------

/- A condition that the store reports. -/
abbrev Condition := Catalog.condition.Rec

namespace Condition

def type (condition : Condition) : String :=
  condition.1

def status (condition : Condition) : String :=
  let status : Choice Catalog.conditionStatuses :=
    condition.2.1
  status.val

def reason (condition : Condition) : String :=
  condition.2.2.1

def message (condition : Condition) : String :=
  condition.2.2.2.1

end Condition

------------------------------------------------------------
-- Readiness
------------------------------------------------------------

/- How far an object is, as far as it tells itself. -/
inductive Readiness where
  | ready
  | pending
  | failed (reason : String) (message : String)
deriving DecidableEq

namespace Readiness

/- The outcome of a run, as its first condition of type
   `Succeeded` has it. -/
def ofConditions (conditions : List Condition) : Readiness :=
  match conditions.find? fun condition =>
      condition.type = "Succeeded" with
  | none => .pending
  | some condition =>
      if condition.status = "True" then .ready
      else if condition.status = "False" then
        .failed condition.reason condition.message
      else .pending

end Readiness

namespace Object

variable {kind : Kind}

/- The conditions of a run; other kinds have none to wait
   for. -/
def conditions? :
    {kind : Kind} → Object kind → Option (List Condition)
  | .task, _ => none
  | .pipeline, _ => none
  | .taskRun, object =>
      let status : Option Catalog.taskRunStatus.Rec :=
        object.content.2.2.1
      some ((status.map fun status => status.1).getD [])
  | .pipelineRun, object =>
      let status : Option Catalog.pipelineRunStatus.Rec :=
        object.content.2.2.1
      some ((status.map fun status => status.1).getD [])

/- Objects that are no runs are ready once they exist. -/
def readiness (object : Object kind) : Readiness :=
  match object.conditions? with
  | none => .ready
  | some conditions => .ofConditions conditions

end Object

end Converge
