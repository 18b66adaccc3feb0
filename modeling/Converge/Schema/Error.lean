import Converge.Tree.Path

/-
  Defects of a configuration tree, each at its place.

  Key definitions:
    * `SchemaError`: a defect
    * `SchemaError.message`: its text
-/

namespace Converge

/- A defect of a configuration tree. -/
inductive SchemaError where
  | missingField (path : FieldPath)
  | typeMismatch (path : FieldPath) (expected : String)
  | invalidValue
      (path : FieldPath)
      (value : String)
      (allowed : List String)
  | unknownField (path : FieldPath)
  | encoding (detail : String)
deriving DecidableEq

namespace SchemaError

def message : SchemaError → String
  | .missingField path =>
      "Missing required field: " ++ path.text
  | .typeMismatch path expected =>
      "Type mismatch at " ++ path.text ++ ": expected " ++
        expected
  | .invalidValue path value allowed =>
      "Invalid value \"" ++ value ++ "\" at " ++ path.text ++
        "; expected one of: " ++ ", ".intercalate allowed
  | .unknownField path => "Unknown field: " ++ path.text
  | .encoding detail => "JSON error: " ++ detail

def isMissingField : SchemaError → Bool
  | .missingField _ => true
  | _ => false

end SchemaError

end Converge
