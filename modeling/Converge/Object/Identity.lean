import Converge.Object.Error

/-
  Identities of objects: a namespace and a name, written with
  a slash between them.

  Key definitions:
    * `ObjectId`: namespace and name
    * `ObjectId.text`, `ObjectId.parse`: written form
-/

namespace Converge

/- The namespace and the name of an object. -/
structure ObjectId where
  namespaceName : String
  name : String
deriving DecidableEq

namespace ObjectId

/- The character between namespace and name. -/
def separator : Char := '/'

/- Written form of an identity. -/
def text (id : ObjectId) : String :=
  id.namespaceName ++ String.singleton separator ++ id.name

/-
  Reads a written identity. The separator stands exactly once,
  and neither side of it is empty.
-/
def parse (written : String) : Except ObjectError ObjectId :=
  let chars := written.toList
  let before := chars.takeWhile (· ≠ separator)
  match chars.dropWhile (· ≠ separator) with
  | [] =>
      .error
        (.invalidIdentity written
          "expected <namespace>/<name>")
  | _ :: after =>
      if before.isEmpty then
        .error (.invalidIdentity written "namespace is empty")
      else if after.isEmpty then
        .error (.invalidIdentity written "name is empty")
      else if after.contains separator then
        .error
          (.invalidIdentity written
            "name contains a separator")
      else
        .ok ⟨String.ofList before, String.ofList after⟩

end ObjectId

end Converge
