import Converge.Proofs.Store.Revision
import Converge.Proofs.Text.Digits

/-
  Objects that are changed by documents between objects only.

  An object that a client submitted, and that was changed
  since by documents between two objects and by its
  controller's status alone, keeps all that an update relies
  on. Whatever else happens in the store may happen.

  Key definitions:
    * `MemoryStore.Managed`: how such an object came about
    * `MemoryStore.Kept`: what is kept of it
    * `MemoryStore.StatusSet`: what a new status leaves of a
      document

  Main declarations:
    * `MemoryStore.Managed.kept`: it is kept all the time
-/

namespace Converge

namespace MemoryStore

variable {kind : Kind}
variable {id : ObjectId}

/-
  Stores in which the object of an identity was submitted by
  a client of its kind, and changed since by documents between
  two objects of the kind and by new states of its status.
-/
inductive Managed
    (kind : Kind)
    (id : ObjectId) :
    MemoryStore → Prop
  | submitted
      (object : Object kind)
      {session later : Session MemoryStore}
      {found : Object kind} :
      (Client.create store object).run session =
          (.ok found, later) →
        ObjectId.ofMeta found.metadata = .ok id →
          Managed kind id later.state
  | patched
      (wanted previous : Object kind)
      {session later : Session MemoryStore}
      {result : Except StoreError (Object kind)} :
      Managed kind id session.state →
        (Client.update store kind id.namespaceName id.name
            (wanted.diff previous).text).run session =
            (result, later) →
          Managed kind id later.state
  | statusSet
      {status : Json}
      {before : MemoryStore} :
      Managed kind id before →
        status.IsCanonical →
          Managed kind id
            (before.setStatus (address kind id) status).2
  | elsewhere
      {before after : MemoryStore} :
      Managed kind id before →
        (after.stored? (address kind id)).map
              StoredObject.object =
            (before.stored? (address kind id)).map
              StoredObject.object →
          before.nextVersion ≤ after.nextVersion →
            Managed kind id after

/- What is kept of a managed object. -/
structure Kept
    (kind : Kind)
    (id : ObjectId)
    (nextVersion : Nat)
    (document : Json) : Prop where
  conforms : Object.Conforms kind document
  name :
    document.at? ["metadata", "name"] = some (.str id.name)
  namespaceName :
    document.at? ["metadata", "namespace"] =
      some (.str id.namespaceName)
  version :
    ∃ number, number < nextVersion ∧
      document.at? ["metadata", "resourceVersion"] =
        some (.str (toString number))

/- What a patch leads to conforms again, and is the same but
   for the mutable parts and what the store counts on. -/
theorem Kept.revised
    {wanted previous : Object kind}
    {document made : Json}
    {store : MemoryStore}
    (hKept : Kept kind id store.nextVersion document)
    (hApply :
      Patch.apply
          ((Diff.edits wanted.toJson previous.toJson).map
            Edit.instruction)
          document = .ok made) :
    Kept kind id (store.nextVersion + 1)
      (store.revised document made) := by
  rcases hKept.conforms with ⟨hDocument, hMetadata, _⟩
  rcases (Diff.apply_edits_iff wanted.isCanonical_toJson
      hDocument hMetadata).1 hApply with
    ⟨_, hMadeMetadata, hElsewhere, _⟩
  have hSame :=
    sameButMetadata_revised document hMadeMetadata store
  refine ⟨(conforms_revised hKept.conforms hApply store).1,
    ?_, ?_, ?_⟩
  · rw [hSame.metadata _ (by decide),
      hElsewhere.metadata _ (by decide) (by decide)]
    exact hKept.name
  · rw [hSame.metadata _ (by decide),
      hElsewhere.metadata _ (by decide) (by decide)]
    exact hKept.namespaceName
  · exact ⟨store.nextVersion, Nat.lt_succ_self _,
      at?_version_revised document hMadeMetadata store⟩

/- A document with a new status, as the store keeps it. -/
def withStatus
    (status document : Json)
    (store : MemoryStore) :
    Json :=
  store.versioned (document.setMember "status" status)

/- What is stored once a status was set. -/
theorem stored?_setStatus
    (coordinate other : Coordinate)
    (status : Json)
    (store : MemoryStore) :
    (store.setStatus coordinate status).2.stored? other =
      (store.stored? other).map fun stored =>
        if other = coordinate then
          { stored with
            object := store.withStatus status stored.object }
        else stored := by
  unfold setStatus
  cases hStored : store.stored? coordinate with
  | none =>
      by_cases hSame : other = coordinate
      · simp only [hSame, hStored, Option.map_none]
      · simp only [hSame, if_false, Option.map_id']
  | some stored =>
      simp only [stored?_keep]
      by_cases hSame : other = coordinate
      · simp only [hSame, if_true, hStored, Option.map_some]
        rfl
      · simp only [hSame, if_false, Option.map_id']
        rfl

/- What a store with a new status leaves of a document. -/
structure StatusSet
    (store : MemoryStore)
    (before after : Json) : Prop where
  canonical : after.IsCanonical
  metadata : after.HasMetadata
  inside :
    ∀ key, key ≠ "resourceVersion" →
      after.at? ["metadata", key] =
        before.at? ["metadata", key]
  roots :
    ∀ root, root ∈ Diff.mutableRoots →
      after.at? root = before.at? root
  version :
    after.at? ["metadata", "resourceVersion"] =
      some (.str (toString store.nextVersion))

/- A new status leaves the rest of a document alone. -/
theorem statusSet_withStatus
    {document status : Json}
    (hDocument : document.IsCanonical)
    (hMetadata : document.HasMetadata)
    (hStatus : status.IsCanonical)
    (store : MemoryStore) :
    StatusSet store document
      (store.withStatus status document) := by
  have hOther :
      ∀ key, key ≠ "status" →
        (document.setMember "status" status).member? key =
          document.member? key := fun key hKey =>
    member?_setMember_of_ne hKey status document
  have hInside :
      ∀ key,
        (document.setMember "status" status).at?
            ["metadata", key] =
          document.at? ["metadata", key] := by
    intro key
    simp only [Json.at?, hOther "metadata" (by decide)]
  have hSet := hDocument.setMember "status" hStatus
  have hSetMetadata :
      (document.setMember "status" status).HasMetadata :=
    hasMetadata_setMember (by decide) status hMetadata
  have hSame := sameButMetadata_setMetadata hSetMetadata
    "resourceVersion" (.str (toString store.nextVersion))
  refine
    ⟨isCanonical_setMetadata hSet hSetMetadata _ trivial,
      hasMetadata_setMetadata hSetMetadata _ _, ?_, ?_, ?_⟩
  · intro key hKey
    exact (hSame.metadata key (by simpa using hKey)).trans
      (hInside key)
  · intro root hRoot
    refine (hSame.roots (by decide) (by decide) root
      hRoot).trans ?_
    simp only [Diff.mutableRoots, List.mem_cons,
      List.not_mem_nil, or_false] at hRoot
    rcases hRoot with rfl | rfl | rfl
    · exact hInside "labels"
    · exact hInside "annotations"
    · rw [Json.at?_singleton, Json.at?_singleton]
      exact hOther "spec" (by decide)
  · rw [withStatus, versioned, at?_setMetadata hSetMetadata,
      if_pos rfl]

theorem Kept.statusSet
    {document status : Json}
    {store : MemoryStore}
    (hKept : Kept kind id store.nextVersion document)
    (hStatus : status.IsCanonical) :
    Kept kind id (store.nextVersion + 1)
      (store.withStatus status document) := by
  rcases hKept.conforms with ⟨hDocument, hMetadata, shown, hShown⟩
  have hSet :=
    statusSet_withStatus hDocument hMetadata hStatus store
  exact
    ⟨⟨hSet.canonical, hSet.metadata, shown,
        hShown.congr hSet.roots⟩,
      (hSet.inside _ (by decide)).trans hKept.name,
      (hSet.inside _ (by decide)).trans hKept.namespaceName,
      store.nextVersion, Nat.lt_succ_self _, hSet.version⟩

/- A managed object keeps what an update relies on. The
   induction is on what happened to it, each time from what
   was kept before. -/
theorem Managed.kept
    {store : MemoryStore}
    (hManaged : Managed kind id store) :
    ∀ {stored : StoredObject},
      store.stored? (address kind id) = some stored →
        Kept kind id store.nextVersion stored.object := by
  induction hManaged with
  | submitted object hCreate hId =>
      rename_i session later found
      intro stored hStored
      rcases create_submitted object session with
        ⟨fault, after, hRun, _⟩ |
          ⟨other, submitted, document, after, hRun, hNew⟩
      · rw [hRun] at hCreate
        cases hCreate
      · rw [hRun] at hCreate
        cases hCreate
        rw [hNew.identity] at hId
        cases hId
        rw [hNew.stored] at hStored
        cases hStored
        refine ⟨hNew.conforms, hNew.name, hNew.namespaceName,
          session.state.nextVersion, ?_, hNew.version⟩
        rw [hNew.nextVersion]
        exact Nat.lt_succ_self _
  | patched wanted previous hBefore hUpdate ih =>
      rename_i session later result
      intro stored hStored
      rcases update_patched wanted previous id session with
        ⟨fault, hRun⟩ | ⟨before, made, hThere, hApply, hRun⟩
      · rw [hRun] at hUpdate
        cases hUpdate
        exact ih hStored
      · rw [hRun] at hUpdate
        cases hUpdate
        rw [stored?_accept, if_pos rfl] at hStored
        cases hStored
        exact (ih hThere).revised hApply
  | statusSet hManaged hStatus ih =>
      rename_i status before
      intro stored hStored
      unfold setStatus at hStored ⊢
      cases hBefore : before.stored? (address kind id) with
      | none =>
          simp only [hBefore] at hStored ⊢
          cases hStored
      | some earlier =>
          simp only [hBefore] at hStored ⊢
          rw [stored?_keep, if_pos rfl] at hStored
          cases hStored
          exact (ih hBefore).statusSet hStatus
  | elsewhere hManaged hSame hVersions ih =>
      rename_i before after
      intro stored hStored
      rw [hStored, Option.map_some] at hSame
      rcases Option.map_eq_some_iff.1 hSame.symm with
        ⟨earlier, hEarlier, hObject⟩
      have hKept := ih hEarlier
      rcases hKept.version with ⟨number, hNumber, hVersion⟩
      rw [hObject] at hKept hVersion
      exact ⟨hKept.conforms, hKept.name, hKept.namespaceName,
        number, Nat.lt_of_lt_of_le hNumber hVersions,
        hVersion⟩

end MemoryStore

end Converge
