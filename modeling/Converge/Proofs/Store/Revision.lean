import Converge.Proofs.Store.Client

/-
  What a store in memory makes of an object by a patch.

  The store counts the generation on when the specification
  is no longer the same, and gives the object a new version.
  Everything else is as the patch left it.

  Key definitions:
    * `MemoryStore.revised`: a patched document as stored
    * `ObjectMeta.revised`: its metadata

  Main declarations:
    * `MemoryStore.decode?_revised`: what it is read as
    * `MemoryStore.update_patched`: what a patch of a client
      does
    * `MemoryStore.patch_of_apply`,
      `MemoryStore.update_of_apply`: when it is accepted
    * `MemoryStore.update_of_apply_error`: when it is refused
-/

namespace Converge

namespace ObjectMeta

def resourceVersion (info : ObjectMeta) : String :=
  info.2.2.2.2.2.2.1

def generation (info : ObjectMeta) : Int64 :=
  info.2.2.2.2.2.2.2.1

/- The metadata with another version and generation. -/
def revised
    (resourceVersion : String)
    (generation : Int64)
    (info : ObjectMeta) :
    ObjectMeta :=
  (info.name, info.generateName, info.namespaceName,
    info.labels, info.annotations, info.2.2.2.2.2.1,
    resourceVersion, generation, info.2.2.2.2.2.2.2.2)

end ObjectMeta

namespace MemoryStore

variable {kind : Kind}

------------------------------------------------------------
-- Revised Documents
------------------------------------------------------------

/- A document that a patch makes, with what the store counts
   on. -/
def revised
    (before made : Json)
    (store : MemoryStore) :
    Json :=
  store.versioned (counted before made)

/- Members of the metadata that the store counts on. -/
def countedFields : List String :=
  ["generation", "resourceVersion"]

theorem hasMetadata_counted
    (before : Json)
    {made : Json}
    (hMetadata : made.HasMetadata) :
    (counted before made).HasMetadata := by
  unfold counted
  split
  · exact hMetadata
  · exact hasMetadata_setMetadata hMetadata _ _

theorem hasMetadata_revised
    (before : Json)
    {made : Json}
    (hMetadata : made.HasMetadata)
    (store : MemoryStore) :
    (store.revised before made).HasMetadata :=
  hasMetadata_setMetadata
    (hasMetadata_counted before hMetadata) _ _

theorem isCanonical_revised
    (before : Json)
    {made : Json}
    (hMade : made.IsCanonical)
    (hMetadata : made.HasMetadata)
    (store : MemoryStore) :
    (store.revised before made).IsCanonical := by
  refine isCanonical_setMetadata ?_
    (hasMetadata_counted before hMetadata) _ trivial
  unfold counted
  split
  · exact hMade
  · exact isCanonical_setMetadata hMade hMetadata _ trivial

/- Nothing but the generation and the version is counted
   on. -/
theorem sameButMetadata_revised
    (before : Json)
    {made : Json}
    (hMetadata : made.HasMetadata)
    (store : MemoryStore) :
    SameButMetadata countedFields made
      (store.revised before made) := by
  have hVersion :
      SameButMetadata countedFields (counted before made)
        (store.revised before made) :=
    (sameButMetadata_setMetadata
      (hasMetadata_counted before hMetadata)
      "resourceVersion"
      (.str (toString store.nextVersion))).mono
        (by simp [countedFields])
  refine .trans ?_ hVersion
  unfold counted
  split
  · exact .refl _ _
  · exact (sameButMetadata_setMetadata hMetadata "generation"
      _).mono (by simp [countedFields])

/- The generation that is counted on is the one that is
   read. -/
theorem nextGeneration_eq
    {document : Json}
    {generation : Int64}
    (hRead :
      Leaf.decode? .integer
          (document.at? ["metadata", "generation"]) =
        some generation) :
    nextGeneration document = .ofInt64 (generation + 1) := by
  unfold nextGeneration
  cases hSlot : document.at? ["metadata", "generation"] with
  | none =>
      rw [hSlot] at hRead
      cases hRead
      rfl
  | some value =>
      rw [hSlot] at hRead
      have hValue : value.asInt64? = some generation := hRead
      simp only [Option.bind_some, hValue, Option.getD_some]

/- The generation of a revised document. -/
theorem at?_generation_revised
    (before : Json)
    {made : Json}
    (hMetadata : made.HasMetadata)
    (store : MemoryStore) :
    (store.revised before made).at?
        ["metadata", "generation"] =
      if made.member? "spec" = before.member? "spec" then
        made.at? ["metadata", "generation"]
      else some (nextGeneration made) := by
  unfold revised versioned
  rw [at?_setMetadata (hasMetadata_counted before hMetadata),
    if_neg (by decide)]
  unfold counted
  split
  · rfl
  · rw [at?_setMetadata hMetadata, if_pos rfl]

/- The version of a revised document. -/
theorem at?_version_revised
    (before : Json)
    {made : Json}
    (hMetadata : made.HasMetadata)
    (store : MemoryStore) :
    (store.revised before made).at?
        ["metadata", "resourceVersion"] =
      some (.str (toString store.nextVersion)) := by
  unfold revised versioned
  rw [at?_setMetadata (hasMetadata_counted before hMetadata),
    if_pos rfl]

/- A revised document is read as the patched one, with
   another version and generation. -/
theorem decode?_revised
    (before : Json)
    {made : Json}
    {object : Object kind}
    (hMade : made.IsCanonical)
    (hMetadata : made.HasMetadata)
    (hRead : Object.decode? kind made = some object)
    (store : MemoryStore) :
    Object.decode? kind (store.revised before made) =
      some
        (object.withMetadata
          (object.metadata.revised
            (toString store.nextVersion)
            (if made.member? "spec" = before.member? "spec"
              then object.metadata.generation
              else object.metadata.generation + 1))) := by
  have hSame := sameButMetadata_revised before hMetadata store
  have hGeneration :=
    at?_generation_revised before hMetadata store
  have hVersion := at?_version_revised before hMetadata store
  have hAfter :=
    isCanonical_revised before hMade hMetadata store
  rcases hasMetadata_revised before hMetadata store with
    ⟨afterInfo, hAfterInfo⟩
  rcases hMetadata with ⟨info, hInfo⟩
  have hInside := Json.at?_metadata hInfo
  have hAfterInside := Json.at?_metadata hAfterInfo
  have hKept :
      ∀ key, key ∉ countedFields →
        afterInfo.lookup key = info.lookup key := by
    intro key hKey
    rw [← hInside, ← hAfterInside]
    exact hSame.metadata key hKey
  rw [hAfterInside] at hGeneration hVersion
  have hInfoRead := Object.decodes_metadata hMade hInfo hRead
  have hSpec :
      (Shape.part kind.spec).decode?
          ((store.revised before made).member? "spec") =
        some object.spec := by
    rw [hSame.members "spec" (by decide)]
    cases made with
    | obj members =>
        exact ((Object.decode?_obj_eq_some_iff hMade.sorted
          object).1 hRead).2.2.2.1
    | _ => cases hInfo
  refine Object.decode?_of_same_members hMade hAfter
    (fun key hKey _ => hSame.members key hKey) hRead
    hAfterInfo ?_ hSpec
  rcases hInfoRead with
    ⟨hName, hGenerate, hNamespace, hLabels, hAnnotations,
      hUid, _, hOld, hCreated, hDeletion, _⟩
  have hCounted :
      Leaf.decode? .integer (afterInfo.lookup "generation") =
        some
          (if made.member? "spec" = before.member? "spec"
            then object.metadata.generation
            else object.metadata.generation + 1) := by
    rw [hGeneration]
    rw [← hInside] at hOld
    split
    · exact hOld
    · rw [nextGeneration_eq hOld]
      exact Number.toInt64?_ofInt64 _
  refine ⟨?_, ?_, ?_, ?_, ?_, ?_, ?_, hCounted, ?_, ?_,
    trivial⟩
  · rw [hKept _ (by decide)]
    exact hName
  · rw [hKept _ (by decide)]
    exact hGenerate
  · rw [hKept _ (by decide)]
    exact hNamespace
  · rw [hKept _ (by decide)]
    exact hLabels
  · rw [hKept _ (by decide)]
    exact hAnnotations
  · rw [hKept _ (by decide)]
    exact hUid
  · rw [hVersion]
    rfl
  · rw [hKept _ (by decide)]
    exact hCreated
  · rw [hKept _ (by decide)]
    exact hDeletion

------------------------------------------------------------
-- Patches of a Client
------------------------------------------------------------

/- What a patch leads to is something that a client relies on
   again, with the mutable parts that the patch made. -/
theorem conforms_revised
    {wanted previous : Object kind}
    {document made : Json}
    (hConforms : Object.Conforms kind document)
    (hApply :
      Patch.apply
          ((Diff.edits wanted.toJson previous.toJson).map
            Edit.instruction)
          document = .ok made)
    (store : MemoryStore) :
    Object.Conforms kind (store.revised document made) ∧
      ∀ root, root ∈ Diff.mutableRoots →
        (store.revised document made).at? root =
          made.at? root := by
  rcases hConforms with ⟨hDocument, hMetadata, shown, hShown⟩
  rcases (Diff.apply_edits_iff wanted.isCanonical_toJson
      hDocument hMetadata).1 hApply with
    ⟨hMade, hMadeMetadata, _⟩
  rcases (wanted.showsMutable_of_apply previous hDocument
      hMetadata hShown hApply).1 with
    ⟨left, hLeft⟩
  have hRoots :=
    (sameButMetadata_revised document hMadeMetadata
      store).roots (by decide) (by decide)
  exact ⟨⟨isCanonical_revised document hMade hMadeMetadata
      store, hasMetadata_revised document hMadeMetadata store,
      left, hLeft.congr hRoots⟩, hRoots⟩

/- The patch of a document between two objects is carried out
   on what is stored, or nothing is written. -/
theorem update_patched
    (wanted previous : Object kind)
    (id : ObjectId)
    (session : Session MemoryStore) :
    (∃ fault,
        (Client.update store kind id.namespaceName id.name
            (wanted.diff previous).text).run session =
          (.error fault, session)) ∨
      ∃ stored made,
        session.state.stored? (address kind id) =
            some stored ∧
          Patch.apply
              ((Diff.edits wanted.toJson previous.toJson).map
                Edit.instruction)
              stored.object = .ok made ∧
          (Client.update store kind id.namespaceName id.name
              (wanted.diff previous).text).run session =
            (Client.decoded kind
                (.ok
                  (session.state.revised stored.object made)),
              ⟨session.now,
                session.state.accept (address kind id) stored
                  (session.state.revised stored.object
                    made)⟩) := by
  have hText := wanted.read?_diff previous
  rw [Client.run_update]
  rcases patch_cases (address kind id) hText session.state
    with
    ⟨fault, hPatch⟩ | ⟨stored, made, hStored, hMade, hPatch⟩
  · left
    rw [hPatch]
    exact ⟨fault, rfl⟩
  · right
    rcases patched_eq_ok_iff.1 hMade with
      ⟨between, hApply, _, _, rfl⟩
    refine ⟨stored, between, hStored, hApply, ?_⟩
    rw [hPatch]
    rfl

/- The store accepts a patch that can be carried out. -/
theorem patch_of_apply
    (wanted previous : Object kind)
    {id : ObjectId}
    {store : MemoryStore}
    {stored : StoredObject}
    {made : Json}
    (hStored :
      store.stored? (address kind id) = some stored)
    (hApply :
      Patch.apply
          ((Diff.edits wanted.toJson previous.toJson).map
            Edit.instruction)
          stored.object = .ok made)
    (hName : metadataText "name" made = id.name)
    (hNamespace :
      metadataText "namespace" made = id.namespaceName) :
    store.patch (address kind id)
        (wanted.diff previous).text =
      (.ok (store.revised stored.object made),
        store.accept (address kind id) stored
          (store.revised stored.object made)) := by
  have hText := wanted.read?_diff previous
  have hMade :
      patched (address kind id)
          ((Diff.edits wanted.toJson previous.toJson).map
            Edit.instruction)
          stored.object =
        .ok (counted stored.object made) :=
    patched_eq_ok_iff.2
      ⟨made, hApply, hName, hNamespace, rfl⟩
  rw [MemoryStore.patch, hText, hStored]
  simp only [hMade]
  rfl

/- A client is answered with the object that comes of it. -/
theorem update_of_apply
    (wanted previous : Object kind)
    {id : ObjectId}
    {session : Session MemoryStore}
    {stored : StoredObject}
    {made : Json}
    (hStored :
      session.state.stored? (address kind id) = some stored)
    (hApply :
      Patch.apply
          ((Diff.edits wanted.toJson previous.toJson).map
            Edit.instruction)
          stored.object = .ok made)
    (hName : metadataText "name" made = id.name)
    (hNamespace :
      metadataText "namespace" made = id.namespaceName) :
    (Client.update store kind id.namespaceName id.name
        (wanted.diff previous).text).run session =
      (Client.decoded kind
          (.ok (session.state.revised stored.object made)),
        ⟨session.now,
          session.state.accept (address kind id) stored
            (session.state.revised stored.object made)⟩) := by
  rw [Client.run_update,
    patch_of_apply wanted previous hStored hApply hName
      hNamespace]

/- A patch that cannot be carried out is refused. -/
theorem update_of_apply_error
    (wanted previous : Object kind)
    {id : ObjectId}
    {session : Session MemoryStore}
    {stored : StoredObject}
    {error : PatchError}
    (hStored :
      session.state.stored? (address kind id) = some stored)
    (hApply :
      Patch.apply
          ((Diff.edits wanted.toJson previous.toJson).map
            Edit.instruction)
          stored.object = .error error) :
    (Client.update store kind id.namespaceName id.name
        (wanted.diff previous).text).run session =
      (.error (.rejected 422 error.message), session) := by
  have hText := wanted.read?_diff previous
  have hRefused :
      patched (address kind id)
          ((Diff.edits wanted.toJson previous.toJson).map
            Edit.instruction)
          stored.object =
        .error (.rejected 422 error.message) := by
    unfold patched
    rw [hApply]
  rw [Client.run_update, MemoryStore.patch, hText, hStored]
  simp only [hRefused]
  rfl

end MemoryStore

end Converge
