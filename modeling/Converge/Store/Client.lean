import Converge.Object.Basic
import Converge.Store.Basic

/-
  A client of a store for the objects of one kind.

  Key definitions:
    * `Client.create`, `Client.get`, `Client.update`,
      `Client.delete`: calls with typed objects
    * `Client.submit`: a submission of an object in place
-/

namespace Converge

namespace Client

variable {σ : Type}

/- The object of an answer. -/
def decode
    (kind : Kind)
    (value : Json) :
    Calls σ StoreError (Object kind) :=
  match Object.decode? kind value with
  | some object => pure object
  | none =>
      throw
        (.encoding ("not a readable " ++ kind.name))

/- The address of an object of a kind. -/
def coordinate
    (kind : Kind)
    (namespaceName : String)
    (name : String) :
    Coordinate :=
  ⟨kind.resourceType, namespaceName, name⟩

/-
  Submits an object, without anything that only the store may
  say, and gives the object as stored.
-/
def create
    {kind : Kind}
    (store : Store σ)
    (object : Object kind) :
    Calls σ StoreError (Object kind) := do
  let outbound := object.prepareForCreate
  let namespaceName := outbound.metadata.namespaceName
  if namespaceName = "" then
    throw (.client (kind.name ++ " has no namespace"))
  let stored ←
    store.create kind.resourceType namespaceName
      outbound.toJson
  decode kind stored

/- Calls of a client that holds an object, which they may
   replace. -/
abbrev Holding (σ : Type) (kind : Kind) :=
  ExceptT StoreError
    (StateT (Object kind) (StateM (Session σ)))

/- Calls that leave the held object as it is. -/
def Holding.ofCalls
    {kind : Kind}
    {α : Type}
    (calls : Calls σ StoreError α) :
    Holding σ kind α :=
  ExceptT.mk (StateT.lift calls.run)

/- Submits the held object, and holds it as stored from then
   on. -/
def submit
    {kind : Kind}
    (store : Store σ) :
    Holding σ kind Unit := do
  let held ← MonadState.get
  let stored ← Holding.ofCalls (create store held)
  set stored

/- Reads an object. -/
def get
    (store : Store σ)
    (kind : Kind)
    (namespaceName : String)
    (name : String) :
    Calls σ StoreError (Object kind) := do
  decode kind
    (← store.get (coordinate kind namespaceName name))

/- Carries a patch document out, and gives the object that
   comes of it. -/
def update
    (store : Store σ)
    (kind : Kind)
    (namespaceName : String)
    (name : String)
    (document : String) :
    Calls σ StoreError (Object kind) := do
  decode kind
    (← store.patch (coordinate kind namespaceName name)
      document)

/- Deletes an object. -/
def delete
    (store : Store σ)
    (kind : Kind)
    (namespaceName : String)
    (name : String) :
    Calls σ StoreError Unit :=
  store.delete (coordinate kind namespaceName name)

end Client

end Converge
