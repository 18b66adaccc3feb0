import Converge.Json.Patch
import Converge.Keyed
import Converge.Store.Basic
import Converge.Time.Timestamp

/-
  A store in memory.

  It assigns names, identifiers, versions, generations and
  times as a server does. It can also take its time: a new
  object stays out of sight for a number of reads, and a
  deleted one lingers, marked as terminating, for a number
  of reads.

  Key definitions:
    * `MemoryStore`: the objects and what is assigned next
    * `MemoryStore.get`, `MemoryStore.create`,
      `MemoryStore.patch`, `MemoryStore.delete`: the calls
    * `MemoryStore.setStatus`: what a controller does
    * `MemoryStore.store`: the calls as a store
-/

namespace Converge

------------------------------------------------------------
-- Identifiers
------------------------------------------------------------

/- A supply of identifiers: how many unique identifiers and
   how many name endings were drawn. -/
structure Supply where
  identifiers : Nat
  endings : Nat
deriving DecidableEq

namespace Supply

/- Hexadecimal digits, padded with zeros to a width. -/
def hexadecimal
    (width : Nat)
    (value : Nat) :
    String :=
  let digits := Nat.toDigits 16 value
  String.ofList
    (List.replicate (width - digits.length) '0' ++ digits)

/- The next unique identifier, in UUID form. -/
def identifier (supply : Supply) : String :=
  "00000000-0000-4000-8000-" ++
    hexadecimal 12 supply.identifiers

/- How many endings of five digits there are. -/
def endingCount : Nat := 0x100000

/- The next ending of a generated name. It has five digits
   always, so that endings come round again. -/
def ending (supply : Supply) : String :=
  hexadecimal 5 (supply.endings % endingCount)

end Supply

------------------------------------------------------------
-- State
------------------------------------------------------------

/- An object with the reads that it is still out of sight,
   and the reads that it lingers once deleted. -/
structure StoredObject where
  object : Json
  hiddenReads : Nat
  lingeringReads : Option Nat
deriving DecidableEq

/-
  The state of a store in memory: its objects, the version to
  assign next, the supply of identifiers, the time that it
  stamps, and its two delays.
-/
structure MemoryStore where
  objects : List (Coordinate × StoredObject)
  nextVersion : Nat
  supply : Supply
  clock : Timestamp
  visibilityDelay : Nat
  deletionDelay : Nat
deriving DecidableEq

namespace MemoryStore

/- A store without objects. -/
def empty
    (supply : Supply)
    (clock : Timestamp)
    (visibilityDelay : Nat)
    (deletionDelay : Nat) :
    MemoryStore :=
  ⟨[], 1, supply, clock, visibilityDelay, deletionDelay⟩

/- What is stored at an address. -/
def stored?
    (coordinate : Coordinate)
    (store : MemoryStore) :
    Option StoredObject :=
  store.objects.lookup coordinate

/- Stores something at an address. -/
def keep
    (coordinate : Coordinate)
    (stored : StoredObject)
    (store : MemoryStore) :
    MemoryStore :=
  { store with
    objects := Keyed.put coordinate stored store.objects }

/- Forgets what is stored at an address. -/
def forget
    (coordinate : Coordinate)
    (store : MemoryStore) :
    MemoryStore :=
  { store with
    objects := Keyed.erase coordinate store.objects }

/- The addresses of all objects. -/
def coordinates (store : MemoryStore) : List Coordinate :=
  store.objects.map fun entry => entry.1

------------------------------------------------------------
-- Metadata
------------------------------------------------------------

/- A text of an object's metadata; empty when there is
   none. -/
def metadataText
    (field : String)
    (object : Json) :
    String :=
  ((object.at? ["metadata", field]).bind Json.asString?).getD
    ""

/- Sets a member of an object's metadata. -/
def setMetadata
    (field : String)
    (value : Json)
    (object : Json) :
    Json :=
  let info := (object.member? "metadata").getD (.obj [])
  object.setMember "metadata" (info.setMember field value)

/- Stamps an object with the next version. -/
def stampVersion
    (object : Json)
    (store : MemoryStore) :
    Json × MemoryStore :=
  (setMetadata "resourceVersion"
      (.str (toString store.nextVersion)) object,
    { store with nextVersion := store.nextVersion + 1 })

------------------------------------------------------------
-- Reading
------------------------------------------------------------

/-
  Reads an object. Every read of an address counts down what
  is pending there: first the reads out of sight, then the
  reads that a deleted object lingers.
-/
def get
    (coordinate : Coordinate)
    (store : MemoryStore) :
    Except StoreError Json × MemoryStore :=
  match store.stored? coordinate with
  | none => (.error (.missing coordinate), store)
  | some stored =>
      match stored.hiddenReads, stored.lingeringReads with
      | hidden + 1, _ =>
          (.error (.missing coordinate),
            store.keep coordinate
              { stored with hiddenReads := hidden })
      | 0, none => (.ok stored.object, store)
      | 0, some 0 =>
          (.error (.missing coordinate),
            store.forget coordinate)
      | 0, some (remaining + 1) =>
          (.ok stored.object,
            store.keep coordinate
              { stored with lingeringReads := some remaining })

------------------------------------------------------------
-- Creating
------------------------------------------------------------

/- The name of a new object: the one it has, or a generated
   one. -/
def chooseName
    (body : Json)
    (supply : Supply) :
    Except StoreError String × Supply :=
  let name := metadataText "name" body
  let stem := metadataText "generateName" body
  if name ≠ "" then (.ok name, supply)
  else if stem = "" then
    (.error (.rejected 422 "metadata.name: Required value"),
      supply)
  else
    (.ok (stem ++ supply.ending),
      { supply with endings := supply.endings + 1 })

/- A new object with everything that the store assigns but
   its version. -/
def stampNew
    (namespaceName : String)
    (name : String)
    (supply : Supply)
    (clock : Timestamp)
    (body : Json) :
    Json :=
  let assigned : List (String × Json) :=
    [ ("name", .str name),
      ("namespace", .str namespaceName),
      ("uid", .str supply.identifier),
      ("generation", .ofInt64 1),
      ("creationTimestamp", .str clock.text) ]
  assigned.foldl
    (fun object member =>
      setMetadata member.1 member.2 object)
    body

/- Puts a new object at an address where there is none. -/
def place
    (type : ResourceType)
    (namespaceName : String)
    (name : String)
    (body : Json)
    (store : MemoryStore) :
    Except StoreError Json × MemoryStore :=
  let coordinate : Coordinate := ⟨type, namespaceName, name⟩
  match store.stored? coordinate with
  | some _ =>
      (.error
        (.rejected 409
          (type.plural ++ " \"" ++ name ++
            "\" already exists")),
        store)
  | none =>
      let object :=
        stampNew namespaceName name store.supply store.clock
          body
      let supply :=
        { store.supply with
          identifiers := store.supply.identifiers + 1 }
      let (object, store) :=
        { store with supply := supply }.stampVersion object
      (.ok object,
        store.keep coordinate
          ⟨object, store.visibilityDelay, none⟩)

/- Creates an object of a type in a namespace. -/
def create
    (type : ResourceType)
    (namespaceName : String)
    (body : Json)
    (store : MemoryStore) :
    Except StoreError Json × MemoryStore :=
  if body.isObject then
    match chooseName body store.supply with
    | (.error fault, _) => (.error fault, store)
    | (.ok name, supply) =>
        place type namespaceName name body
          { store with supply := supply }
  else
    (.error (.rejected 400 "object body expected"), store)

------------------------------------------------------------
-- Changing
------------------------------------------------------------

/- Counts a generation on, in 64-bit words; anything that is
   not a number of that range counts as zero. -/
def nextGeneration (object : Json) : Json :=
  let generation :=
    ((object.at? ["metadata", "generation"]).bind
      Json.asInt64?).getD 0
  .ofInt64 (generation + 1)

/- The object that a document makes of a stored one, unless
   that would move it. -/
def patched
    (coordinate : Coordinate)
    (patch : Patch)
    (object : Json) :
    Except StoreError Json :=
  match patch.apply object with
  | .error fault => .error (.rejected 422 fault.message)
  | .ok changed =>
      if metadataText "name" changed ≠ coordinate.name ∨
          metadataText "namespace" changed ≠
            coordinate.namespaceName then
        .error
          (.rejected 422
            "metadata.name and metadata.namespace are immutable")
      else if
          changed.member? "spec" = object.member? "spec" then
        .ok changed
      else
        .ok
          (setMetadata "generation" (nextGeneration changed)
            changed)

/- Carries a patch document out on an object. -/
def patch
    (coordinate : Coordinate)
    (document : String)
    (store : MemoryStore) :
    Except StoreError Json × MemoryStore :=
  match Patch.read? document with
  | none =>
      (.error
        (.rejected 400
          "invalid JSON Patch: not a list of operations"),
        store)
  | some patch =>
      match store.stored? coordinate with
      | none => (.error (.missing coordinate), store)
      | some stored =>
          match patched coordinate patch stored.object with
          | .error fault => (.error fault, store)
          | .ok object =>
              let (object, store) := store.stampVersion object
              (.ok object,
                store.keep coordinate
                  { stored with object := object })

/- Replaces the status of an object, as its controller
   would. -/
def setStatus
    (coordinate : Coordinate)
    (status : Json)
    (store : MemoryStore) :
    Except StoreError Unit × MemoryStore :=
  match store.stored? coordinate with
  | none => (.error (.missing coordinate), store)
  | some stored =>
      let (object, store) :=
        store.stampVersion
          (stored.object.setMember "status" status)
      (.ok (),
        store.keep coordinate
          { stored with object := object })

------------------------------------------------------------
-- Deleting
------------------------------------------------------------

/- Marks an object as terminating; once marked, it stays as
   it is. -/
def terminate
    (clock : Timestamp)
    (delay : Nat)
    (stored : StoredObject) :
    StoredObject :=
  match stored.lingeringReads with
  | some _ => stored
  | none =>
      { stored with
        object :=
          setMetadata "deletionTimestamp" (.str clock.text)
            stored.object
        lingeringReads := some delay }

/- Deletes an object, at once or after its last reads. -/
def delete
    (coordinate : Coordinate)
    (store : MemoryStore) :
    Except StoreError Unit × MemoryStore :=
  match store.stored? coordinate with
  | none => (.error (.missing coordinate), store)
  | some stored =>
      if store.deletionDelay = 0 then
        (.ok (), store.forget coordinate)
      else
        (.ok (),
          store.keep coordinate
            (terminate store.clock store.deletionDelay stored))

------------------------------------------------------------
-- As a Store
------------------------------------------------------------

/- The name of the backend. -/
def backendName : String := "memory"

/- The store in memory; its calls take no time. -/
def store : Store MemoryStore where
  name := backendName
  get coordinate := .ofState (get coordinate)
  create type namespaceName body :=
    .ofState (create type namespaceName body)
  patch coordinate document :=
    .ofState (patch coordinate document)
  delete coordinate := .ofState (delete coordinate)

end MemoryStore

end Converge
