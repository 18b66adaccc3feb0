/-
  Faults of identities, metadata and points in time, and the
  categories into which every fault of the library falls.

  Key definitions:
    * `ErrorCategory`: what kind of cause a fault has
    * `ObjectError`: a fault of an object's own data
    * `ObjectError.message`: its text
-/

namespace Converge

/- The kind of cause behind a fault. -/
inductive ErrorCategory where
  | notFound
  | conflict
  | rejected
  | infrastructure
  | serialization
  | validation
  | parse
  | timeout
  | failed
  | cancelled
deriving DecidableEq

namespace ErrorCategory

def name : ErrorCategory → String
  | .notFound => "not_found"
  | .conflict => "conflict"
  | .rejected => "rejected"
  | .infrastructure => "infrastructure"
  | .serialization => "serialization"
  | .validation => "validation"
  | .parse => "parse"
  | .timeout => "timeout"
  | .failed => "failed"
  | .cancelled => "cancelled"

end ErrorCategory

/- A fault of an object's own data. -/
inductive ObjectError where
  | invalidIdentity (identity : String) (reason : String)
  | invalidTimestamp (text : String)
  | missingMetadata (field : String)
  | encoding (detail : String)
deriving DecidableEq

namespace ObjectError

def message : ObjectError → String
  | .invalidIdentity identity reason =>
      "Invalid resource identity \"" ++ identity ++ "\": " ++
        reason
  | .invalidTimestamp text => "Invalid timestamp: " ++ text
  | .missingMetadata field =>
      "Object metadata is missing a " ++ field
  | .encoding detail => "JSON serialization error: " ++ detail

/- The fault lies in the text of an identity. -/
def isParseError : ObjectError → Bool
  | .invalidIdentity _ _ => true
  | _ => false

def category : ObjectError → ErrorCategory
  | .invalidIdentity _ _ => .parse
  | .invalidTimestamp _ => .validation
  | .missingMetadata _ => .validation
  | .encoding _ => .serialization

end ObjectError

end Converge
