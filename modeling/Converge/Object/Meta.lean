import Converge.Catalog
import Converge.Object.Identity

/-
  Metadata of objects.

  Key definitions:
    * `ObjectMeta`: the record of an object's metadata
    * `ObjectMeta.clearServerFields`: what a client may send
    * `ObjectId.ofMeta`: the identity of an object
-/

namespace Converge

/- The metadata of an object. -/
abbrev ObjectMeta := Catalog.metadata.Rec

namespace ObjectMeta

def name (info : ObjectMeta) : String :=
  info.1

def generateName (info : ObjectMeta) : String :=
  info.2.1

def namespaceName (info : ObjectMeta) : String :=
  info.2.2.1

def labels (info : ObjectMeta) : SortedMap String :=
  info.2.2.2.1

def annotations (info : ObjectMeta) : SortedMap String :=
  info.2.2.2.2.1

/- When the store was asked to delete the object. -/
def deletionTimestamp (info : ObjectMeta) : Option Timestamp :=
  info.2.2.2.2.2.2.2.2.2.1

/- The metadata with another namespace. -/
def withNamespace
    (namespaceName : String)
    (info : ObjectMeta) :
    ObjectMeta :=
  (info.1, info.2.1, namespaceName, info.2.2.2)

/- Clears the fields that the store assigns. -/
def clearServerFields (info : ObjectMeta) : ObjectMeta :=
  (info.name, info.generateName, info.namespaceName,
    info.labels, info.annotations,
    "", "", (0 : Int64), none, none, ())

/- The store was asked to delete the object. -/
def isTerminating (info : ObjectMeta) : Bool :=
  info.deletionTimestamp.isSome

end ObjectMeta

namespace ObjectId

/- The identity of an object; it needs a namespace and a
   name. -/
def ofMeta (info : ObjectMeta) : Except ObjectError ObjectId :=
  if info.namespaceName = "" then
    .error (.missingMetadata "namespace")
  else if info.name = "" then
    .error (.missingMetadata "name")
  else .ok ⟨info.namespaceName, info.name⟩

end ObjectId

end Converge
