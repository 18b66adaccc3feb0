import Converge.Proofs.Store.Effect

/-
  Assignments to members of stored documents.

  The calls of a store write to members of documents, and
  only objects have members. The definitions of the calls
  pass over a value that is none. Here each call is written
  once more with assignments that fail on such a value. As
  long as every stored document has the name of its address,
  both agree: no assignment ever meets anything but an
  object.

  Key definitions:
    * `MemoryStore.Names`: a document with the name and the
      namespace of an address
    * `MemoryStore.assignMetadata?`: an assignment that fails
      where there is no object
    * `MemoryStore.respondInPlace?`: calls that assign so

  Main declarations:
    * `MemoryStore.respondInPlace?_eq`: no assignment fails
-/

namespace Converge

namespace MemoryStore

------------------------------------------------------------
-- Names of Documents
------------------------------------------------------------

/- A document with the name and the namespace of an address;
   the name is not empty. -/
structure Names
    (coordinate : Coordinate)
    (document : Json) : Prop where
  named : coordinate.name ≠ ""
  name : metadataText "name" document = coordinate.name
  namespaceName :
    metadataText "namespace" document =
      coordinate.namespaceName

namespace Names

variable {coordinate : Coordinate}
variable {document after : Json}

/- A document with a name is an object with metadata. -/
theorem hasMetadata
    (hNames : Names coordinate document) :
    document.HasMetadata :=
  hasMetadata_of_metadataText hNames.name hNames.named

/- The names are two texts of the metadata. -/
theorem congr
    (hNames : Names coordinate document)
    (hName :
      after.at? ["metadata", "name"] =
        document.at? ["metadata", "name"])
    (hNamespace :
      after.at? ["metadata", "namespace"] =
        document.at? ["metadata", "namespace"]) :
    Names coordinate after := by
  refine ⟨hNames.named, ?_, ?_⟩
  · rw [← hNames.name]
    unfold metadataText
    rw [hName]
  · rw [← hNames.namespaceName]
    unfold metadataText
    rw [hNamespace]

/- Any other member of the metadata may be set. -/
theorem setMetadata
    (hNames : Names coordinate document)
    {field : String}
    (hName : field ≠ "name")
    (hNamespace : field ≠ "namespace")
    (value : Json) :
    Names coordinate
      (MemoryStore.setMetadata field value document) := by
  have hMetadata := hNames.hasMetadata
  refine hNames.congr ?_ ?_
  · rw [at?_setMetadata hMetadata, if_neg hName.symm]
  · rw [at?_setMetadata hMetadata, if_neg hNamespace.symm]

end Names

------------------------------------------------------------
-- Assignments
------------------------------------------------------------

/- Assigns to a member in place. Only an object has members
   to assign to. -/
def assignMember?
    (key : String)
    (value : Json) :
    Json → Option Json
  | .obj members =>
      some (.obj (Keyed.insert key value members))
  | _ => none

/- Assigns to a member of the metadata in place. -/
def assignMetadata?
    (field : String)
    (value : Json)
    (document : Json) :
    Option Json := do
  let info ← document.member? "metadata"
  assignMember? "metadata" (← assignMember? field value info)
    document

/- Assigns to members of the metadata, one after the
   other. -/
def assignEach?
    (members : List (String × Json))
    (document : Json) :
    Option Json :=
  members.foldlM
    (fun object member =>
      assignMetadata? member.1 member.2 object)
    document

/- What has metadata is an object. -/
theorem isObject_of_hasMetadata
    {document : Json}
    (hMetadata : document.HasMetadata) :
    document.isObject = true := by
  rcases hMetadata with ⟨info, hInfo⟩
  cases document with
  | obj members => rfl
  | _ => cases hInfo

/- Where a document is an object, its members are set. -/
theorem assignMember?_eq
    {document : Json}
    (hObject : document.isObject = true)
    (key : String)
    (value : Json) :
    assignMember? key value document =
      some (document.setMember key value) := by
  cases document with
  | obj members => rfl
  | _ => cases hObject

theorem assignMetadata?_eq
    {document : Json}
    (hMetadata : document.HasMetadata)
    (field : String)
    (value : Json) :
    assignMetadata? field value document =
      some (setMetadata field value document) := by
  have hObject := isObject_of_hasMetadata hMetadata
  rcases hMetadata with ⟨info, hInfo⟩
  have hInside :
      assignMember? field value (.obj info) =
        some ((Json.obj info).setMember field value) := rfl
  unfold assignMetadata? setMetadata
  rw [hInfo]
  simp only [Option.bind_eq_bind, Option.bind_some,
    Option.getD_some, hInside]
  exact assignMember?_eq hObject "metadata" _

/- Each assignment leaves metadata for the next one. -/
theorem assignEach?_eq
    (members : List (String × Json)) :
    ∀ {document : Json}, document.HasMetadata →
      assignEach? members document =
        some (assign members document) := by
  induction members with
  | nil =>
      intro document _
      rfl
  | cons member rest ih =>
      intro document hMetadata
      have hRest := ih
        (hasMetadata_setMetadata hMetadata member.1 member.2)
      unfold assignEach? at hRest ⊢
      rw [List.foldlM_cons, assignMetadata?_eq hMetadata]
      exact hRest

------------------------------------------------------------
-- Calls with Assignments in Place
------------------------------------------------------------

/- A body with metadata; there is an empty one where it has
   none. -/
def withMetadata (body : Json) : Json :=
  match body.member? "metadata" with
  | some _ => body
  | none => body.setMember "metadata" (.obj [])

/- Creates an object with assignments in place. Metadata that
   is no object is refused before anything is assigned. -/
def createInPlace?
    (type : ResourceType)
    (namespaceName : String)
    (body : Json)
    (store : MemoryStore) :
    Option (Except StoreError Json × MemoryStore) :=
  if body.isObject then
    match chooseName body store.supply with
    | (.error fault, _) => some (.error fault, store)
    | (.ok name, supply) =>
        let coordinate : Coordinate :=
          ⟨type, namespaceName, name⟩
        match store.stored? coordinate with
        | some _ =>
            some
              (.error
                (.rejected 409
                  (type.plural ++ " \"" ++ name ++
                    "\" already exists")),
                store.supplied supply)
        | none =>
            let object := withMetadata body
            if ((object.member? "metadata").any
                Json.isObject) then
              (assignEach?
                  (store.assignedMembers namespaceName name
                    supply)
                  object).map
                fun made =>
                  (.ok made,
                    store.placed coordinate made
                      { supply with
                        identifiers :=
                          supply.identifiers + 1 })
            else
              some
                (.error
                  (.rejected 400
                    "metadata must be an object"),
                  store.supplied supply)
  else
    some (.error (.rejected 400 "object body expected"), store)

/- Counts the generation on with an assignment in place. -/
def countInPlace?
    (before document : Json) :
    Option Json :=
  if document.member? "spec" = before.member? "spec" then
    some document
  else
    assignMetadata? "generation" (nextGeneration document)
      document

/- Carries a patch document out with assignments in place. -/
def patchInPlace?
    (coordinate : Coordinate)
    (text : String)
    (store : MemoryStore) :
    Option (Except StoreError Json × MemoryStore) :=
  match Patch.read? text with
  | none =>
      some
        (.error
          (.rejected 400
            "invalid JSON Patch: not a list of operations"),
          store)
  | some document =>
      match store.stored? coordinate with
      | none => some (.error (.missing coordinate), store)
      | some stored =>
          match document.apply stored.object with
          | .error fault =>
              some
                (.error (.rejected 422 fault.message), store)
          | .ok changed =>
              if metadataText "name" changed ≠
                    coordinate.name ∨
                  metadataText "namespace" changed ≠
                    coordinate.namespaceName then
                some
                  (.error
                    (.rejected 422
                      ("metadata.name and " ++
                        "metadata.namespace are immutable")),
                    store)
              else do
                let counted ←
                  countInPlace? stored.object changed
                let made ←
                  assignMetadata? "resourceVersion"
                    (.str (toString store.nextVersion))
                    counted
                some
                  (.ok made,
                    store.accept coordinate stored made)

/- Deletes an object with assignments in place. -/
def deleteInPlace?
    (coordinate : Coordinate)
    (store : MemoryStore) :
    Option (Except StoreError Json × MemoryStore) :=
  match store.stored? coordinate with
  | none => some (.error (.missing coordinate), store)
  | some stored =>
      if store.deletionDelay = 0 then
        some (.ok .null, store.forget coordinate)
      else
        match stored.lingeringReads with
        | some _ =>
            some (.ok .null, store.keep coordinate stored)
        | none =>
            (assignMetadata? "deletionTimestamp"
                (.str store.clock.text) stored.object).map
              fun made =>
                (.ok .null,
                  store.keep coordinate
                    { stored with
                      object := made
                      lingeringReads :=
                        some store.deletionDelay })

/- Replaces a status with assignments in place. -/
def setStatusInPlace?
    (coordinate : Coordinate)
    (status : Json)
    (store : MemoryStore) :
    Option (Except StoreError Json × MemoryStore) :=
  match store.stored? coordinate with
  | none => some (.error (.missing coordinate), store)
  | some stored => do
      let changed ←
        assignMember? "status" status stored.object
      let made ←
        assignMetadata? "resourceVersion"
          (.str (toString store.nextVersion)) changed
      some (.ok .null, store.accept coordinate stored made)

/- What a call answers, and the store after it, unless an
   assignment meets something that is no object. -/
def respondInPlace?
    (call : Call)
    (store : MemoryStore) :
    Option (Except StoreError Json × MemoryStore) :=
  match call with
  | .get coordinate => some (store.get coordinate)
  | .create type namespaceName body =>
      store.createInPlace? type namespaceName body
  | .patch coordinate text =>
      store.patchInPlace? coordinate text
  | .delete coordinate => store.deleteInPlace? coordinate
  | .setStatus coordinate status =>
      store.setStatusInPlace? coordinate status

------------------------------------------------------------
-- Agreement
------------------------------------------------------------

/- No assignment of a submission fails, whatever is
   submitted: what has a name to be chosen has metadata. -/
theorem createInPlace?_eq
    (type : ResourceType)
    (namespaceName : String)
    (body : Json)
    (store : MemoryStore) :
    store.createInPlace? type namespaceName body =
      some (store.create type namespaceName body) := by
  unfold createInPlace? MemoryStore.create
  cases hBody : body.isObject with
  | false => rfl
  | true =>
      simp only [if_true]
      cases hName : chooseName body store.supply with
      | mk chosen supply =>
          cases chosen with
          | error fault => rfl
          | ok name =>
              have hSame :
                  (store.supplied supply).stored?
                      ⟨type, namespaceName, name⟩ =
                    store.stored?
                      ⟨type, namespaceName, name⟩ := rfl
              simp only [place]
              rw [← supplied, hSame]
              cases store.stored?
                  ⟨type, namespaceName, name⟩ with
              | some stored => rfl
              | none =>
                  have hMetadata :=
                    hasMetadata_of_chooseName hName
                  have hAssigned := assignEach?_eq
                    (store.assignedMembers namespaceName name
                      supply)
                    hMetadata
                  rcases hMetadata with ⟨info, hInfo⟩
                  have hWith : withMetadata body = body := by
                    unfold withMetadata
                    rw [hInfo]
                  have hAny :
                      (body.member? "metadata").any
                        Json.isObject = true := by
                    rw [hInfo]
                    rfl
                  simp only [hWith, hAny, if_true, hAssigned,
                    Option.map_some]
                  rfl

theorem countInPlace?_eq
    (before : Json)
    {document : Json}
    (hMetadata : document.HasMetadata) :
    countInPlace? before document =
      some (counted before document) := by
  unfold countInPlace? counted
  split
  · rfl
  · exact assignMetadata?_eq hMetadata _ _

/- A change that leaves a document its name leaves it its
   metadata, to which the store assigns. -/
theorem patchInPlace?_eq
    {coordinate : Coordinate}
    {store : MemoryStore}
    (hNames :
      ∀ stored, store.stored? coordinate = some stored →
        Names coordinate stored.object)
    (text : String) :
    store.patchInPlace? coordinate text =
      some (store.patch coordinate text) := by
  unfold patchInPlace? MemoryStore.patch
  cases Patch.read? text with
  | none => rfl
  | some document =>
      cases hStored : store.stored? coordinate with
      | none => rfl
      | some stored =>
          have hNamed := (hNames stored hStored).named
          simp only [MemoryStore.patched]
          cases document.apply stored.object with
          | error fault => rfl
          | ok changed =>
              simp only
              split
              · rfl
              · rename_i hKept
                simp only [not_or, Decidable.not_not] at hKept
                have hNames : Names coordinate changed :=
                  ⟨hNamed, hKept.1, hKept.2⟩
                have hMetadata := hNames.hasMetadata
                have hStamped := assignMetadata?_eq
                  (hasMetadata_counted stored.object hMetadata)
                  "resourceVersion"
                  (.str (toString store.nextVersion))
                simp only [countInPlace?_eq stored.object
                  hMetadata, Option.bind_eq_bind,
                  Option.bind_some, hStamped]
                unfold counted
                split <;> rfl

theorem deleteInPlace?_eq
    {coordinate : Coordinate}
    {store : MemoryStore}
    (hNames :
      ∀ stored, store.stored? coordinate = some stored →
        Names coordinate stored.object) :
    store.deleteInPlace? coordinate =
      some (store.respond (.delete coordinate)) := by
  simp only [respond, deleteInPlace?, MemoryStore.delete,
    terminate]
  cases hStored : store.stored? coordinate with
  | none => rfl
  | some stored =>
      have hMetadata := (hNames stored hStored).hasMetadata
      simp only
      split
      · rfl
      · cases hLingering : stored.lingeringReads with
        | some remaining => rfl
        | none =>
            simp only [assignMetadata?_eq hMetadata,
              Option.map_some]
            rfl

theorem setStatusInPlace?_eq
    {coordinate : Coordinate}
    {store : MemoryStore}
    (hNames :
      ∀ stored, store.stored? coordinate = some stored →
        Names coordinate stored.object)
    (status : Json) :
    store.setStatusInPlace? coordinate status =
      some (store.respond (.setStatus coordinate status)) := by
  simp only [respond, setStatusInPlace?,
    MemoryStore.setStatus]
  cases hStored : store.stored? coordinate with
  | none => rfl
  | some stored =>
      have hMetadata := (hNames stored hStored).hasMetadata
      have hChanged := assignMember?_eq
        (isObject_of_hasMetadata hMetadata) "status" status
      have hStamped := assignMetadata?_eq
        (hasMetadata_setMember
          (show "metadata" ≠ "status" by decide) status
          hMetadata)
        "resourceVersion" (.str (toString store.nextVersion))
      simp only [hChanged, Option.bind_eq_bind,
        Option.bind_some, hStamped]
      rfl

/- Where every stored document has the name of its address,
   no assignment of any call meets anything but an object. -/
theorem respondInPlace?_eq
    {store : MemoryStore}
    (hNames :
      ∀ coordinate stored,
        store.stored? coordinate = some stored →
          Names coordinate stored.object)
    (call : Call) :
    store.respondInPlace? call = some (store.respond call) := by
  cases call with
  | get coordinate => rfl
  | create type namespaceName body =>
      exact createInPlace?_eq type namespaceName body store
  | patch coordinate text =>
      exact patchInPlace?_eq (hNames coordinate) text
  | delete coordinate =>
      exact deleteInPlace?_eq (hNames coordinate)
  | setStatus coordinate status =>
      exact setStatusInPlace?_eq (hNames coordinate) status

end MemoryStore

end Converge
