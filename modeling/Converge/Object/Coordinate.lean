import Converge.Object.Identity

/-
  Addresses of remote objects.

  Key definitions:
    * `ResourceType`: group, version and plural name of a kind
    * `Coordinate`: a resource type, a namespace and a name
-/

namespace Converge

/- Group, version and plural name of one kind of object. -/
structure ResourceType where
  group : String
  version : String
  plural : String
deriving DecidableEq

namespace ResourceType

/- Group and version; the core group has no name. -/
def apiVersion (type : ResourceType) : String :=
  if type.group.isEmpty then type.version
  else type.group ++ "/" ++ type.version

def text (type : ResourceType) : String :=
  type.plural ++ "." ++ type.group ++ "/" ++ type.version

end ResourceType

/- The address of one remote object. -/
structure Coordinate where
  type : ResourceType
  namespaceName : String
  name : String
deriving DecidableEq

namespace Coordinate

/- The address of an identity under a resource type. -/
def ofId
    (type : ResourceType)
    (id : ObjectId) :
    Coordinate :=
  ⟨type, id.namespaceName, id.name⟩

def objectId (coordinate : Coordinate) : ObjectId :=
  ⟨coordinate.namespaceName, coordinate.name⟩

def text (coordinate : Coordinate) : String :=
  coordinate.type.text ++ " " ++ coordinate.namespaceName ++
    "/" ++ coordinate.name

end Coordinate

end Converge
