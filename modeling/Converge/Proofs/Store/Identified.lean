import Converge.Proofs.Store.History
import Converge.Proofs.Store.Managed

/-
  Stored objects have the identity of their address.

  Whatever clients submit and change, and whatever status a
  controller sets, each object of a store is a canonical
  value whose metadata has the name and the namespace that it
  is stored under, and that name is never empty. One lemma
  for each call shows that the call keeps this, and the
  induction over histories that every store has it.

  Key definitions:
    * `MemoryStore.Identified`: a document with an identity
    * `MemoryStore.Identifies`: each stored object has its
    * `MemoryStore.IsWritten`: states whose history writes
      canonical values

  Main declarations:
    * `MemoryStore.Identifies.after`: a call keeps identities
    * `MemoryStore.IsWritten.identifies`
-/

namespace Converge

namespace MemoryStore

------------------------------------------------------------
-- Texts of the Metadata
------------------------------------------------------------

/- A text that is not empty is there. -/
theorem at?_of_metadataText
    {field text : String}
    {document : Json}
    (hText : metadataText field document = text)
    (hSome : text ≠ "") :
    document.at? ["metadata", field] = some (.str text) := by
  unfold metadataText at hText
  cases hSlot : document.at? ["metadata", field] with
  | none =>
      rw [hSlot] at hText
      exact absurd hText.symm hSome
  | some value =>
      rw [hSlot] at hText
      cases value with
      | str content => rw [← hText]; rfl
      | _ => exact absurd hText.symm hSome

/- And so is the metadata. -/
theorem hasMetadata_of_metadataText
    {field text : String}
    {document : Json}
    (hText : metadataText field document = text)
    (hSome : text ≠ "") :
    document.HasMetadata := by
  have hField := at?_of_metadataText hText hSome
  rcases Option.bind_eq_some_iff.1 hField with
    ⟨info, hInfo, hInside⟩
  cases info with
  | obj members => exact ⟨members, hInfo⟩
  | _ => cases hInside

/- A name is chosen for a body with metadata only. -/
theorem hasMetadata_of_chooseName
    {body : Json}
    {supply left : Supply}
    {name : String}
    (hName : chooseName body supply = (.ok name, left)) :
    body.HasMetadata := by
  unfold chooseName at hName
  simp only at hName
  split at hName
  · rename_i hGiven
    exact hasMetadata_of_metadataText rfl hGiven
  · split at hName
    · cases hName
    · rename_i hStem
      exact hasMetadata_of_metadataText rfl hStem

theorem hasMetadata_of_create
    {type : ResourceType}
    {namespaceName : String}
    {body object : Json}
    {store after : MemoryStore}
    (hCreate :
      store.create type namespaceName body =
        (.ok object, after)) :
    body.HasMetadata := by
  unfold MemoryStore.create at hCreate
  split at hCreate
  · split at hCreate
    · cases hCreate
    · rename_i hName
      exact hasMetadata_of_chooseName hName
  · cases hCreate

------------------------------------------------------------
-- Identities of Documents
------------------------------------------------------------

/- A canonical document with the identity of an address. -/
structure Identified
    (coordinate : Coordinate)
    (document : Json) : Prop where
  canonical : document.IsCanonical
  named : coordinate.name ≠ ""
  name : metadataText "name" document = coordinate.name
  namespaceName :
    metadataText "namespace" document =
      coordinate.namespaceName

namespace Identified

variable {coordinate : Coordinate}
variable {document after : Json}

theorem hasMetadata
    (hIdentified : Identified coordinate document) :
    document.HasMetadata :=
  hasMetadata_of_metadataText hIdentified.name
    hIdentified.named

/- The identity depends on two texts alone. -/
theorem congr
    (hIdentified : Identified coordinate document)
    (hAfter : after.IsCanonical)
    (hName :
      after.at? ["metadata", "name"] =
        document.at? ["metadata", "name"])
    (hNamespace :
      after.at? ["metadata", "namespace"] =
        document.at? ["metadata", "namespace"]) :
    Identified coordinate after := by
  refine ⟨hAfter, hIdentified.named, ?_, ?_⟩
  · rw [← hIdentified.name]
    unfold metadataText
    rw [hName]
  · rw [← hIdentified.namespaceName]
    unfold metadataText
    rw [hNamespace]

/- Any other member of the metadata may be set. -/
theorem setMetadata
    (hIdentified : Identified coordinate document)
    {field : String}
    (hName : field ≠ "name")
    (hNamespace : field ≠ "namespace")
    {value : Json}
    (hValue : value.IsCanonical) :
    Identified coordinate
      (MemoryStore.setMetadata field value document) := by
  have hMetadata := hIdentified.hasMetadata
  refine hIdentified.congr
    (isCanonical_setMetadata hIdentified.canonical hMetadata
      field hValue) ?_ ?_
  · rw [at?_setMetadata hMetadata, if_neg hName.symm]
  · rw [at?_setMetadata hMetadata, if_neg hNamespace.symm]

theorem versioned
    (hIdentified : Identified coordinate document)
    (store : MemoryStore) :
    Identified coordinate (store.versioned document) :=
  hIdentified.setMetadata (by decide) (by decide) trivial

theorem counted
    (hIdentified : Identified coordinate document)
    (before : Json) :
    Identified coordinate
      (MemoryStore.counted before document) := by
  unfold MemoryStore.counted
  split
  · exact hIdentified
  · exact hIdentified.setMetadata (by decide) (by decide)
      trivial

/- What a patch may make of a document has its identity
   still. -/
theorem patched
    (hIdentified : Identified coordinate document)
    {text : String}
    {patch : Patch}
    (hRead : Patch.read? text = some patch)
    (hPatched :
      MemoryStore.patched coordinate patch document =
        .ok after) :
    Identified coordinate after := by
  rcases patched_eq_ok_iff.1 hPatched with
    ⟨made, hApply, hName, hNamespace, rfl⟩
  have hMade :=
    Patch.apply_isCanonical (Patch.read?_isCanonical hRead)
      hIdentified.canonical hApply
  have hKept : Identified coordinate made :=
    ⟨hMade, hIdentified.named, hName, hNamespace⟩
  exact hKept.counted document

theorem withStatus
    (hIdentified : Identified coordinate document)
    {status : Json}
    (hStatus : status.IsCanonical)
    (store : MemoryStore) :
    Identified coordinate
      (store.withStatus status document) := by
  have hSet := statusSet_withStatus hIdentified.canonical
    hIdentified.hasMetadata hStatus store
  exact hIdentified.congr hSet.canonical
    (hSet.inside _ (by decide)) (hSet.inside _ (by decide))

theorem terminate
    {stored : StoredObject}
    (hIdentified : Identified coordinate stored.object)
    (clock : Timestamp)
    (delay : Nat) :
    Identified coordinate
      (MemoryStore.terminate clock delay stored).object := by
  unfold MemoryStore.terminate
  split
  · exact hIdentified
  · exact hIdentified.setMetadata (by decide) (by decide)
      trivial

end Identified

/- A new object has the identity of its address. -/
theorem identified_newObject
    {body : Json}
    (hBody : body.IsCanonical)
    (hMetadata : body.HasMetadata)
    (type : ResourceType)
    (namespaceName : String)
    {name : String}
    (hName : name ≠ "")
    (supply : Supply)
    (store : MemoryStore) :
    Identified ⟨type, namespaceName, name⟩
      (store.newObject namespaceName name supply body) := by
  have hFields := at?_newObject hMetadata namespaceName name
    supply store
  refine ⟨isCanonical_newObject hBody hMetadata namespaceName
    name supply store, hName, ?_, ?_⟩
  · apply metadataText_eq
    rw [hFields]
    rfl
  · apply metadataText_eq
    rw [hFields]
    rfl

------------------------------------------------------------
-- Identities of a Store
------------------------------------------------------------

/- Each stored object has the identity of its address. -/
def Identifies (store : MemoryStore) : Prop :=
  ∀ coordinate stored,
    store.stored? coordinate = some stored →
      Identified coordinate stored.object

/- What a call writes is canonical. -/
def Call.IsCanonical : Call → Prop
  | .create _ _ body => body.IsCanonical
  | .setStatus _ status => status.IsCanonical
  | .get _ => True
  | .patch _ _ => True
  | .delete _ => True

namespace Identifies

variable {store : MemoryStore}

/- Nothing has to be shown of objects that are not
   written. -/
theorem untouched
    (hIdentifies : store.Identifies)
    {later : MemoryStore}
    (hUntouched : Untouched store later) :
    later.Identifies := by
  intro coordinate found hFound
  rcases hUntouched.stored coordinate found hFound with
    ⟨earlier, hEarlier, hSame⟩
  rw [hSame]
  exact hIdentifies coordinate earlier hEarlier

/- Only the object that is written has to be looked at. -/
theorem keep
    (hIdentifies : store.Identifies)
    {coordinate : Coordinate}
    (stored : StoredObject)
    (hIdentified : Identified coordinate stored.object)
    {later : MemoryStore}
    (hLater :
      ∀ other,
        later.stored? other =
          if other = coordinate then some stored
          else store.stored? other) :
    later.Identifies := by
  intro other found hFound
  rw [hLater] at hFound
  split at hFound
  · rename_i hSame
    cases hFound
    rw [hSame]
    exact hIdentified
  · exact hIdentifies other found hFound

theorem create
    (hIdentifies : store.Identifies)
    (type : ResourceType)
    (namespaceName : String)
    {body : Json}
    (hBody : body.IsCanonical) :
    (store.create type namespaceName body).2.Identifies := by
  rcases create_cases type namespaceName body store with
    ⟨_, _, hCreate, hUntouched⟩ |
      ⟨name, supply, left, hName, _, hCreate⟩
  · rw [hCreate]
    exact hIdentifies.untouched hUntouched
  · have hNew := identified_newObject hBody
      (hasMetadata_of_create hCreate) type namespaceName
      hName supply store
    rw [hCreate]
    exact hIdentifies.keep ⟨_, store.visibilityDelay, none⟩
      hNew fun other => stored?_placed _ other _ left store

theorem patch
    (hIdentifies : store.Identifies)
    (coordinate : Coordinate)
    (text : String) :
    (store.patch coordinate text).2.Identifies := by
  cases hRead : Patch.read? text with
  | none =>
      simp only [MemoryStore.patch, hRead]
      exact hIdentifies
  | some document =>
      rcases patch_cases coordinate hRead store with
        ⟨_, hPatch⟩ | ⟨stored, made, hStored, hMade, hPatch⟩
      · rw [hPatch]
        exact hIdentifies
      · have hKept :=
          (hIdentifies coordinate stored hStored).patched
            hRead hMade
        rw [hPatch]
        exact hIdentifies.keep
          { stored with object := store.versioned made }
          (hKept.versioned store)
          fun other => stored?_accept _ other stored _ store

theorem delete
    (hIdentifies : store.Identifies)
    (coordinate : Coordinate) :
    (store.delete coordinate).2.Identifies := by
  unfold MemoryStore.delete
  split
  · exact hIdentifies
  · rename_i stored hStored
    split
    · exact hIdentifies.untouched
        (untouched_forget coordinate store)
    · exact hIdentifies.keep _
        ((hIdentifies coordinate stored hStored).terminate
          store.clock store.deletionDelay)
        fun other => stored?_keep coordinate other _ store

theorem setStatus
    (hIdentifies : store.Identifies)
    (coordinate : Coordinate)
    {status : Json}
    (hStatus : status.IsCanonical) :
    (store.setStatus coordinate status).2.Identifies := by
  intro other found hFound
  rw [stored?_setStatus] at hFound
  rcases Option.map_eq_some_iff.1 hFound with
    ⟨earlier, hEarlier, rfl⟩
  have hIdentified := hIdentifies other earlier hEarlier
  split
  · exact hIdentified.withStatus hStatus store
  · exact hIdentified

/- A call that writes canonical values keeps identities. -/
theorem after
    (hIdentifies : store.Identifies)
    {call : Call}
    (hCall : call.IsCanonical) :
    (store.after call).Identifies := by
  cases call with
  | get coordinate =>
      exact hIdentifies.untouched
        (untouched_get coordinate store)
  | create type namespaceName body =>
      exact hIdentifies.create type namespaceName hCall
  | patch coordinate text =>
      exact hIdentifies.patch coordinate text
  | delete coordinate => exact hIdentifies.delete coordinate
  | setStatus coordinate status =>
      exact hIdentifies.setStatus coordinate hCall

theorem afterTimes
    (hIdentifies : store.Identifies)
    {calls : List TimedCall}
    (hCalls :
      ∀ timed, timed ∈ calls → timed.call.IsCanonical) :
    (store.afterTimes calls).Identifies := by
  induction calls generalizing store with
  | nil => exact hIdentifies
  | cons timed rest ih =>
      rw [List.forall_mem_cons] at hCalls
      have hNow : (store.atTime timed.clock).Identifies :=
        hIdentifies
      exact ih (hNow.after hCalls.1) hCalls.2

end Identifies

/- Nothing is stored under another identity where nothing is
   stored. -/
theorem identifies_empty
    (supply : Supply)
    (clock : Timestamp)
    (visibilityDelay deletionDelay : Nat) :
    (empty supply clock visibilityDelay
      deletionDelay).Identifies := by
  intro coordinate stored hStored
  cases hStored

/- Some history that writes canonical values leads to the
   state of a store. -/
def IsWritten (store : MemoryStore) : Prop :=
  ∃ supply clock visibilityDelay deletionDelay calls,
    (∀ timed : TimedCall, timed ∈ calls →
        timed.call.IsCanonical) ∧
      store =
        (empty supply clock visibilityDelay
          deletionDelay).afterTimes calls

/- In no state that has such a history is an object under an
   identity that is not its own. -/
theorem IsWritten.identifies
    {store : MemoryStore}
    (hWritten : store.IsWritten) :
    store.Identifies := by
  rcases hWritten with
    ⟨supply, clock, visibilityDelay, deletionDelay, calls,
      hCalls, rfl⟩
  exact (identifies_empty supply clock visibilityDelay
    deletionDelay).afterTimes hCalls

end MemoryStore

end Converge
