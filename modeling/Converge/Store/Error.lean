import Converge.Object.Coordinate

/-
  Faults of calls to a store.

  Key definitions:
    * `StoreError`: a fault
    * `StoreError.message`: its text
-/

namespace Converge

/-
  A fault of a call. The object may not be there, the store
  may never have answered, it may have refused the request,
  or its answer may hold no object of the wanted kind.
-/
inductive StoreError where
  | notFound
      (plural : String)
      (namespaceName : String)
      (name : String)
  | client (detail : String)
  | rejected (status : Nat) (detail : String)
  | encoding (detail : String)
deriving DecidableEq

namespace StoreError

/- No object is at the address. -/
def missing (coordinate : Coordinate) : StoreError :=
  .notFound coordinate.type.plural coordinate.namespaceName
    coordinate.name

def message : StoreError → String
  | .notFound plural namespaceName name =>
      "Resource not found: " ++ plural ++ " " ++
        namespaceName ++ "/" ++ name
  | .client detail => "Client error: " ++ detail
  | .rejected status detail =>
      "Request rejected (HTTP " ++ toString status ++ "): " ++
        detail
  | .encoding detail => "Serialization error: " ++ detail

def isNotFound : StoreError → Bool
  | .notFound _ _ _ => true
  | _ => false

/- The store answered, and refused. -/
def isRejection : StoreError → Bool
  | .rejected _ _ => true
  | _ => false

def category : StoreError → ErrorCategory
  | .notFound _ _ _ => .notFound
  | .client _ => .infrastructure
  | .rejected status _ =>
      if status = 409 then .conflict else .rejected
  | .encoding _ => .serialization

end StoreError

end Converge
