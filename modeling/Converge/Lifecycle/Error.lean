import Converge.Lifecycle.Phase
import Converge.Schema.Error
import Converge.Store.Error
import Converge.Time.Duration

/-
  Faults of the operations on an object's life.

  Every fault below an operation is wrapped with the object
  and the operation it happened in.

  Key definitions:
    * `Operation`, `ObjectRef`: what was done, and to what
    * `LifecycleError`: a fault, or the end of the program
    * `LifecycleError.message`: its text
-/

namespace Converge

/- What is done to an object. -/
inductive Operation where
  | create
  | read
  | update
  | delete
  | probe
  | adopt
deriving DecidableEq

namespace Operation

/- All operations. -/
def all : List Operation :=
  [.create, .read, .update, .delete, .probe, .adopt]

def text : Operation → String
  | .create => "create"
  | .read => "read"
  | .update => "update"
  | .delete => "delete"
  | .probe => "exists"
  | .adopt => "import"

end Operation

/- The object that an operation is about; its name may not be
   known yet. -/
structure ObjectRef where
  kind : Kind
  namespaceName : String
  name : String
deriving DecidableEq

namespace ObjectRef

/- The object of an identity. -/
def ofId
    (kind : Kind)
    (id : ObjectId) :
    ObjectRef :=
  ⟨kind, id.namespaceName, id.name⟩

def text (object : ObjectRef) : String :=
  if object.name = "" then
    object.kind.name ++ " in " ++ object.namespaceName
  else
    object.kind.name ++ " " ++ object.namespaceName ++ "/" ++
      object.name

end ObjectRef

/-
  A fault of an operation.

  The last one is none that an operation returns: a moment
  was asked for that the clock cannot tell, and the program
  ends on the spot. What was being worked on is left as it
  was then.
-/
inductive LifecycleError where
  | store
      (object : ObjectRef)
      (operation : Operation)
      (source : StoreError)
  | schema
      (kind : Kind)
      (operation : Operation)
      (source : SchemaError)
  | identity (source : ObjectError)
  | timeout
      (object : ObjectRef)
      (operation : Operation)
      (target : String)
      (limit : Duration)
  | failed
      (object : ObjectRef)
      (reason : String)
      (detail : String)
  | unexpected
      (object : ObjectRef)
      (operation : Operation)
      (phase : Phase)
  | cancelled
      (object : ObjectRef)
      (operation : Operation)
  | panicked
deriving DecidableEq

namespace LifecycleError

/- What comes before the text of most faults. -/
def context
    (object : ObjectRef)
    (operation : Operation) :
    String :=
  operation.text ++ " " ++ object.text ++ ": "

def message : LifecycleError → String
  | .store object operation source =>
      context object operation ++ source.message
  | .schema kind operation source =>
      operation.text ++ " " ++ kind.name ++
        ": invalid configuration: " ++ source.message
  | .identity source => source.message
  | .timeout object operation target limit =>
      context object operation ++ "timed out after " ++
        toString limit.seconds ++ "s waiting for " ++ target
  | .failed object reason detail =>
      object.text ++ " failed: " ++ reason ++ ": " ++ detail
  | .unexpected object operation phase =>
      context object operation ++ "unexpected state " ++
        phase.text
  | .cancelled object operation =>
      context object operation ++ "cancelled"
  | .panicked => "overflow when adding duration to instant"

/- The messages of a fault and of the faults behind it. -/
def messages (error : LifecycleError) : List String :=
  error.message ::
    match error with
    | .store _ _ source => [source.message]
    | .schema _ _ source => [source.message]
    | .identity source => [source.message]
    | _ => []

def isNotFound : LifecycleError → Bool
  | .store _ _ source => source.isNotFound
  | _ => false

def isTimeout : LifecycleError → Bool
  | .timeout _ _ _ _ => true
  | _ => false

def isCancelled : LifecycleError → Bool
  | .cancelled _ _ => true
  | _ => false

def isParseError : LifecycleError → Bool
  | .identity source => source.isParseError
  | _ => false

/- The category of a fault that is returned. -/
def category? : LifecycleError → Option ErrorCategory
  | .store _ _ source => some source.category
  | .schema _ _ _ => some .validation
  | .identity _ => some .parse
  | .timeout _ _ _ _ => some .timeout
  | .failed _ _ _ => some .failed
  | .unexpected _ _ _ => some .failed
  | .cancelled _ _ => some .cancelled
  | .panicked => none

end LifecycleError

end Converge
