import Converge.Object.Readiness

/-
  Phases of an object's life, as a client observes them.

  Key definitions:
    * `Phase`: a phase, and `Phase.text`, its name
    * `Phase.ofReadiness`: the phase that readiness shows
    * `Phase.isTerminal`: phases that nothing follows
-/

namespace Converge

/-
  A phase. An object is being created from its submission
  until it is ready, and being deleted from the accepted
  request until nothing can be read any more.
-/
inductive Phase where
  | creating
  | succeeded
  | deleting
  | deleted
  | failed
deriving DecidableEq

namespace Phase

/- All phases. -/
def all : List Phase :=
  [.creating, .succeeded, .deleting, .deleted, .failed]

def text : Phase → String
  | .creating => "Creating"
  | .succeeded => "Succeeded"
  | .deleting => "Deleting"
  | .deleted => "Deleted"
  | .failed => "Failed"

/- The phase that an object shows by its readiness. -/
def ofReadiness : Readiness → Phase
  | .ready => .succeeded
  | .pending => .creating
  | .failed _ _ => .failed

/- Nothing follows the phase by itself. -/
def isTerminal : Phase → Bool
  | .succeeded => true
  | .deleted => true
  | .failed => true
  | .creating => false
  | .deleting => false

end Phase

end Converge
