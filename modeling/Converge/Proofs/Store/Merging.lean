import Mathlib.Data.List.Infix
import Converge.Proofs.Object.Separate
import Converge.Proofs.Store.History
import Converge.Proofs.Store.Managed

/-
  What a store in memory makes of an object by the diffs of
  several clients.

  The clients compared the same snapshot with what they want,
  and the places of their diffs lie apart. Then each diff is
  accepted, whichever others were accepted before, and all of
  them lead to the same document in any order. It has at each
  place of a diff what its client wants there, and is as
  before elsewhere, but for what the store counts on.

  Key definitions:
    * `MemoryStore.Merged`: the document after some diffs
    * `MemoryStore.Unspoilt`: what it has at each place

  Main declarations:
    * `MemoryStore.Merged.patch`,
      `MemoryStore.Merged.accepted`: one more diff is accepted
    * `MemoryStore.Merged.eq_of_perm`: the order of the diffs
      has no effect
    * `MemoryStore.Merged.unspoilt`
-/

namespace Converge

/- A value with metadata is an object. -/
theorem Json.HasMetadata.exists_obj
    {value : Json}
    (hMetadata : value.HasMetadata) :
    ∃ members, value = .obj members := by
  rcases hMetadata with ⟨info, hInfo⟩
  cases value with
  | obj members => exact ⟨members, rfl⟩
  | _ => cases hInfo

/- What lies above a mutable part of a value with metadata is
   an object. -/
theorem Json.HasMetadata.exists_obj_above
    {value : Json}
    (hMetadata : value.HasMetadata)
    {root path : List String}
    (hRoot : root ∈ Diff.mutableRoots)
    (hAbove : path <+: root)
    (hNe : path ≠ root) :
    ∃ members, value.at? path = some (.obj members) := by
  have hTop : ∃ members, value.at? [] = some (.obj members) :=
    hMetadata.exists_obj.imp fun _ hValue =>
      congrArg some hValue
  have hInfo :
      ∃ members,
        value.at? ["metadata"] = some (.obj members) := by
    rw [Json.at?_singleton]
    exact hMetadata
  have hIn := (List.mem_inits path root).2 hAbove
  simp only [Diff.mutableRoots, List.mem_cons,
    List.not_mem_nil, or_false] at hRoot
  rcases hRoot with rfl | rfl | rfl <;>
    simp only [List.inits, List.map_cons, List.map_nil,
      List.mem_cons, List.not_mem_nil, or_false] at hIn
  · rcases hIn with rfl | rfl | rfl
    · exact hTop
    · exact hInfo
    · exact absurd rfl hNe
  · rcases hIn with rfl | rfl | rfl
    · exact hTop
    · exact hInfo
    · exact absurd rfl hNe
  · rcases hIn with rfl | rfl
    · exact hTop
    · exact absurd rfl hNe

/- Two values are the same when all members are the same, and
   all members of the metadata. -/
theorem Json.eq_of_members
    {left right : Json}
    (hLeft : left.IsCanonical)
    (hRight : right.IsCanonical)
    (hLeftMetadata : left.HasMetadata)
    (hRightMetadata : right.HasMetadata)
    (hMembers :
      ∀ key, key ≠ "metadata" →
        left.member? key = right.member? key)
    (hInside :
      ∀ key,
        left.at? ["metadata", key] =
          right.at? ["metadata", key]) :
    left = right := by
  rcases hLeftMetadata.exists_obj with ⟨lefts, rfl⟩
  rcases hRightMetadata.exists_obj with ⟨rights, rfl⟩
  rcases hLeftMetadata with ⟨info, hInfo⟩
  rcases hRightMetadata with ⟨other, hOther⟩
  have hSame : info = other := by
    refine (hLeft.member hInfo).sorted.ext
      (hRight.member hOther).sorted fun key => ?_
    rw [← Json.at?_metadata hInfo,
      ← Json.at?_metadata hOther]
    exact hInside key
  congr 1
  refine hLeft.sorted.ext hRight.sorted fun key => ?_
  by_cases hKey : key = "metadata"
  · rw [hKey]
    exact hInfo.trans (hSame ▸ hOther.symm)
  · exact hMembers key hKey

/- A document that conforms shows the object that it is read
   as. -/
theorem Object.Conforms.showsMutable
    {kind : Kind}
    {document : Json}
    {found : Object kind}
    (hConforms : Object.Conforms kind document)
    (hFound : Object.decode? kind document = some found) :
    found.ShowsMutable document := by
  rcases hConforms.shown with ⟨shown, hShows⟩
  exact (Object.sameMutable_of_decode hConforms.canonical
    hConforms.metadata hFound hShows).shows hShows

/- So edits of diffs from that object keep apart on it, if the
   places of the diffs lie apart. -/
theorem Object.Conforms.separate
    {kind : Kind}
    {document : Json}
    {found : Object kind}
    {wanted : List (Object kind)}
    (hConforms : Object.Conforms kind document)
    (hFound : Object.decode? kind document = some found)
    (hApart :
      wanted.Pairwise fun left right =>
        (left.diff found).Apart (right.diff found))
    {root : List String}
    (hRoot : root ∈ Diff.mutableRoots) :
    Diff.Separate (found.rootEdits wanted root)
      (document.at? root) :=
  Object.separate_rootEdits hConforms.canonical
    hConforms.metadata hFound (hConforms.showsMutable hFound)
    hApart hRoot

namespace MemoryStore

variable {kind : Kind}

------------------------------------------------------------
-- Reads to Come
------------------------------------------------------------

/- An object is in sight, and stays there for some reads. -/
structure InSight
    (reads : Nat)
    (stored : StoredObject) : Prop where
  visible : stored.hiddenReads = 0
  stays :
    ∀ left, stored.lingeringReads = some left →
      reads ≤ left

/- One of these reads finds the object, and leaves it in sight
   for the others. -/
theorem get_of_inSight
    {coordinate : Coordinate}
    {store : MemoryStore}
    {stored : StoredObject}
    {reads : Nat}
    (hStored : store.stored? coordinate = some stored)
    (hInSight : InSight (reads + 1) stored) :
    ∃ left after,
      store.get coordinate = (.ok stored.object, after) ∧
        InSight reads { stored with lingeringReads := left } ∧
        after.stored? coordinate =
          some { stored with lingeringReads := left } ∧
        (∀ other, other ≠ coordinate →
          after.stored? other = store.stored? other) ∧
        after.nextVersion = store.nextVersion := by
  have hVisible := hInSight.visible
  cases hLingering : stored.lingeringReads with
  | none =>
      have hSame :
          { stored with lingeringReads := none } = stored := by
        rw [← hLingering]
      refine ⟨none, store,
        get_of_visible hStored hVisible hLingering,
        ⟨hVisible, nofun⟩, ?_, fun _ _ => rfl, rfl⟩
      rw [hSame]
      exact hStored
  | some left =>
      cases left with
      | zero => exact absurd (hInSight.stays 0 hLingering) nofun
      | succ left =>
          have hEnough := hInSight.stays _ hLingering
          refine ⟨some left,
            store.keep coordinate
              { stored with lingeringReads := some left },
            get_of_lingering hStored hVisible hLingering,
            ⟨hVisible, ?_⟩, ?_, ?_, rfl⟩
          · intro rest hRest
            cases hRest
            exact Nat.le_of_succ_le_succ hEnough
          · rw [stored?_keep, if_pos rfl]
          · intro other hOther
            rw [stored?_keep, if_neg hOther]

------------------------------------------------------------
-- Documents after Some Diffs
------------------------------------------------------------

/- How many of the diffs towards some objects are concerned
   with the specification. -/
def specChanges
    (found : Object kind)
    (done : List (Object kind)) :
    Nat :=
  done.countP fun object => (object.diff found).touchesSpec

/-
  The document after the diffs from an object towards others
  were accepted one after the other. The first of them was
  given a certain version, and the next ones those after it.
-/
structure Merged
    (found : Object kind)
    (version : Nat)
    (done : List (Object kind))
    (before after : Json) : Prop where
  conforms : Object.Conforms kind after
  read : ∃ object, Object.decode? kind after = some object
  members :
    ∀ key, key ≠ "metadata" → key ≠ "spec" →
      after.member? key = before.member? key
  metadata :
    ∀ key, key ≠ "labels" → key ≠ "annotations" →
      key ∉ countedFields →
        after.at? ["metadata", key] =
          before.at? ["metadata", key]
  roots :
    ∀ root, root ∈ Diff.mutableRoots →
      Diff.carry? (found.rootEdits done root)
          (before.at? root) =
        some (after.at? root)
  generation :
    after.at? ["metadata", "generation"] =
      if specChanges found done = 0 then
        before.at? ["metadata", "generation"]
      else
        some
          (.ofInt64
            (found.metadata.generation +
              .ofNat (specChanges found done)))
  version :
    after.at? ["metadata", "resourceVersion"] =
      match done.length with
      | 0 => before.at? ["metadata", "resourceVersion"]
      | rest + 1 => some (.str (toString (version + rest)))

namespace Merged

variable {found object : Object kind}
variable {version : Nat}
variable {done others : List (Object kind)}
variable {before after : Json}

/- Nothing was done yet. -/
theorem nil
    (hConforms : Object.Conforms kind before)
    (hFound : Object.decode? kind before = some found) :
    Merged found version [] before before where
  conforms := hConforms
  read := ⟨found, hFound⟩
  members _ _ _ := rfl
  metadata _ _ _ _ := rfl
  roots _ _ := rfl
  generation := rfl
  version := rfl

/- The generation that is read after some diffs. -/
theorem readGeneration
    (h : Merged found version done before after)
    (hConforms : Object.Conforms kind before)
    (hFound : Object.decode? kind before = some found) :
    Leaf.decode? .integer
        (after.at? ["metadata", "generation"]) =
      some
        (found.metadata.generation +
          .ofNat (specChanges found done)) := by
  rw [h.generation]
  split
  · rename_i hNone
    rcases hConforms.metadata with ⟨info, hInfo⟩
    rcases Object.decodes_metadata hConforms.canonical hInfo
        hFound with
      ⟨_, _, _, _, _, _, _, hRead, _⟩
    have hSame :
        found.metadata.generation + .ofNat 0 =
          found.metadata.generation :=
      Int64.add_zero _
    rw [Json.at?_metadata hInfo, hNone, hSame]
    exact hRead
  · exact Number.toInt64?_ofInt64 _

/- So is the generation of the object. -/
theorem generation_eq
    {reached : Object kind}
    (h : Merged found version done before after)
    (hConforms : Object.Conforms kind before)
    (hFound : Object.decode? kind before = some found)
    (hReached : Object.decode? kind after = some reached) :
    reached.metadata.generation =
      found.metadata.generation +
        .ofNat (specChanges found done) := by
  have hCounted := h.readGeneration hConforms hFound
  rcases h.conforms.metadata with ⟨info, hInfo⟩
  rcases Object.decodes_metadata h.conforms.canonical hInfo
      hReached with
    ⟨_, _, _, _, _, _, _, hRead, _⟩
  rw [Json.at?_metadata hInfo] at hCounted
  exact Option.some.inj (hRead.symm.trans hCounted)

/- A diff counts for the generation exactly when it is
   concerned with the specification. -/
theorem generation_patch
    (h : Merged found version done before after)
    (hConforms : Object.Conforms kind before)
    (hFound : Object.decode? kind before = some found)
    (hApart :
      (done ++ [object]).Pairwise fun left right =>
        (left.diff found).Apart (right.diff found))
    {made : Json}
    (hMadeMetadata : made.HasMetadata)
    (hElsewhere : Diff.SameElsewhere after made)
    (hCarry :
      Diff.carry?
          (Diff.rootEdits [] (object.toJson.at? ["spec"])
            (found.toJson.at? ["spec"]))
          (after.at? ["spec"]) =
        some (made.at? ["spec"]))
    (store : MemoryStore) :
    (store.revised after made).at?
        ["metadata", "generation"] =
      if specChanges found (done ++ [object]) = 0 then
        before.at? ["metadata", "generation"]
      else
        some
          (.ofInt64
            (found.metadata.generation +
              .ofNat
                (specChanges found (done ++ [object])))) := by
  have hSpec :
      made.member? "spec" = after.member? "spec" ↔
        (object.diff found).touchesSpec = false := by
    have hIn : ["spec"] ∈ Diff.mutableRoots := by
      simp [Diff.mutableRoots]
    rw [← Json.at?_singleton, ← Json.at?_singleton]
    exact Object.spec_changes_iff
      (hConforms.showsMutable hFound)
      (hConforms.separate hFound hApart hIn)
      (h.roots _ hIn) hCarry
  have hOld :
      made.at? ["metadata", "generation"] =
        after.at? ["metadata", "generation"] :=
    hElsewhere.metadata _ (by decide) (by decide)
  have hCount :
      specChanges found (done ++ [object]) =
        specChanges found done +
          if (object.diff found).touchesSpec then 1
          else 0 := by
    simp [specChanges, List.countP_append,
      List.countP_singleton]
  rw [at?_generation_revised after hMadeMetadata store,
    hCount]
  cases hTouches : (object.diff found).touchesSpec with
  | false =>
      rw [if_pos (hSpec.2 hTouches), hOld, h.generation]
      rfl
  | true =>
      have hChanged :
          made.member? "spec" ≠ after.member? "spec" :=
        fun hEq => by
          rw [hSpec.1 hEq] at hTouches
          cases hTouches
      have hNext := h.readGeneration hConforms hFound
      rw [← hOld] at hNext
      simp only [if_true]
      rw [if_neg hChanged, nextGeneration_eq hNext,
        if_neg (Nat.succ_ne_zero _), Int64.ofNat_add,
        Int64.add_assoc]
      rfl

/- At each mutable part, one more diff goes on from where the
   others left it. -/
theorem exists_carry?
    (h : Merged found version done before after)
    (hConforms : Object.Conforms kind before)
    (hFound : Object.decode? kind before = some found)
    (hApart :
      (done ++ [object]).Pairwise fun left right =>
        (left.diff found).Apart (right.diff found)) :
    ∀ root, root ∈ Diff.mutableRoots →
      ∃ made,
        Diff.carry?
            (Diff.rootEdits [] (object.toJson.at? root)
              (found.toJson.at? root))
            (after.at? root) =
          some made := by
  intro root hRoot
  rcases Object.exists_carry?_rootEdits hConforms.canonical
      hConforms.metadata hFound (hConforms.showsMutable hFound)
      hApart hRoot with
    ⟨made, hAll⟩
  rw [Object.rootEdits_concat, Diff.carry?_append,
    h.roots root hRoot] at hAll
  exact ⟨made, hAll⟩

/- One more diff can be carried out, whichever diffs were
   accepted before, if its places lie apart from theirs. -/
theorem patch
    (h : Merged found version done before after)
    (hConforms : Object.Conforms kind before)
    (hFound : Object.decode? kind before = some found)
    (hApart :
      (done ++ [object]).Pairwise fun left right =>
        (left.diff found).Apart (right.diff found))
    {store : MemoryStore}
    (hVersion : store.nextVersion = version + done.length) :
    ∃ made,
      Patch.apply
          ((Diff.edits object.toJson found.toJson).map
            Edit.instruction)
          after = .ok made ∧
        Diff.SameElsewhere after made ∧
        Merged found version (done ++ [object]) before
          (store.revised after made) := by
  have hAfter := h.conforms.canonical
  have hAfterMetadata := h.conforms.metadata
  rcases Diff.exists_apply_edits object.isCanonical_toJson
      hAfter hAfterMetadata
      (h.exists_carry? hConforms hFound hApart) with
    ⟨made, hApply⟩
  rcases (Diff.apply_edits_iff object.isCanonical_toJson
      hAfter hAfterMetadata).1 hApply with
    ⟨hMade, hMadeMetadata, hElsewhere, hCarry⟩
  rcases conforms_revised h.conforms hApply store with
    ⟨hRevised, hSameRoots⟩
  have hSame :=
    sameButMetadata_revised after hMadeMetadata store
  refine ⟨made, hApply, hElsewhere,
    { conforms := hRevised
      read := ?_
      members := ?_
      metadata := ?_
      roots := ?_
      generation := ?_
      version := ?_ }⟩
  · rcases h.conforms.shown with ⟨shown, hShows⟩
    rcases (object.showsMutable_of_apply found hAfter
        hAfterMetadata hShows hApply).1 with
      ⟨left, hLeft⟩
    rcases h.read with ⟨last, hLast⟩
    exact ⟨_, decode?_revised after hMade hMadeMetadata
      (Object.decode?_of_sameElsewhere hAfter hMade
        hAfterMetadata hMadeMetadata hElsewhere hLast hLeft)
      store⟩
  · intro key hNotMetadata hNotSpec
    rw [hSame.members key hNotMetadata,
      hElsewhere.members key hNotMetadata hNotSpec]
    exact h.members key hNotMetadata hNotSpec
  · intro key hNotLabels hNotAnnotations hNotCounted
    rw [hSame.metadata key hNotCounted,
      hElsewhere.metadata key hNotLabels hNotAnnotations]
    exact h.metadata key hNotLabels hNotAnnotations
      hNotCounted
  · intro root hRoot
    rw [Object.rootEdits_concat, Diff.carry?_append,
      h.roots root hRoot, hSameRoots root hRoot]
    exact hCarry root hRoot
  · exact h.generation_patch hConforms hFound hApart
      hMadeMetadata hElsewhere
      (hCarry _ (by simp [Diff.mutableRoots])) store
  · rw [at?_version_revised after hMadeMetadata store,
      hVersion, List.length_append]
    rfl

/- So the store accepts its document. -/
theorem accepted
    {id : ObjectId}
    {limit : Nat}
    (h : Merged found version done before after)
    (hKept : Kept kind id limit before)
    (hFound : Object.decode? kind before = some found)
    (hApart :
      (done ++ [object]).Pairwise fun left right =>
        (left.diff found).Apart (right.diff found))
    {store : MemoryStore}
    {stored : StoredObject}
    (hStored :
      store.stored? (address kind id) = some stored)
    (hObject : stored.object = after)
    (hVersion : store.nextVersion = version + done.length) :
    ∃ next,
      store.patch (address kind id)
          (object.diff found).text =
        (.ok next,
          store.accept (address kind id) stored next) ∧
        Merged found version (done ++ [object]) before
          next := by
  subst hObject
  rcases h.patch hKept.conforms hFound hApart hVersion with
    ⟨made, hApply, hElsewhere, hNext⟩
  have hSame :
      ∀ key, key ≠ "labels" → key ≠ "annotations" →
        key ∉ countedFields →
          made.at? ["metadata", key] =
            before.at? ["metadata", key] :=
    fun key hLabels hAnnotations hCounted =>
      (hElsewhere.metadata key hLabels hAnnotations).trans
        (h.metadata key hLabels hAnnotations hCounted)
  have hName :=
    (hSame "name" (by decide) (by decide)
      (by decide)).trans hKept.name
  have hNamespace :=
    (hSame "namespace" (by decide) (by decide)
      (by decide)).trans hKept.namespaceName
  exact ⟨_,
    patch_of_apply object found hStored hApply
      (metadataText_eq hName) (metadataText_eq hNamespace),
    hNext⟩

/- The order in which diffs were accepted has no effect. -/
theorem eq_of_perm
    {also : Json}
    (h : Merged found version done before after)
    (hOther : Merged found version others before also)
    (hConforms : Object.Conforms kind before)
    (hFound : Object.decode? kind before = some found)
    (hApart :
      done.Pairwise fun left right =>
        (left.diff found).Apart (right.diff found))
    (hOrder : List.Perm others done) :
    also = after := by
  have hRoots :
      ∀ root, root ∈ Diff.mutableRoots →
        also.at? root = after.at? root := by
    intro root hRoot
    have hSeparate := hConforms.separate hFound hApart hRoot
    have hEdits :
        (found.rootEdits others root).Perm
          (found.rootEdits done root) :=
      hOrder.flatMap_right _
    have hBoth := hSeparate.unordered _ hEdits
    rw [hOther.roots root hRoot, h.roots root hRoot] at hBoth
    exact Option.some.inj hBoth
  have hChanges :
      specChanges found others = specChanges found done :=
    hOrder.countP_eq _
  refine Json.eq_of_members hOther.conforms.canonical
    h.conforms.canonical hOther.conforms.metadata
    h.conforms.metadata ?_ ?_
  · intro key hNotMetadata
    by_cases hSpec : key = "spec"
    · rw [hSpec, ← Json.at?_singleton,
        ← Json.at?_singleton]
      exact hRoots _ (by simp [Diff.mutableRoots])
    · rw [hOther.members key hNotMetadata hSpec,
        h.members key hNotMetadata hSpec]
  · intro key
    by_cases hLabels : key = "labels"
    · rw [hLabels]
      exact hRoots _ (by simp [Diff.mutableRoots])
    by_cases hAnnotations : key = "annotations"
    · rw [hAnnotations]
      exact hRoots _ (by simp [Diff.mutableRoots])
    by_cases hCounted : key ∈ countedFields
    · simp only [countedFields, List.mem_cons,
        List.not_mem_nil, or_false] at hCounted
      rcases hCounted with rfl | rfl
      · rw [hOther.generation, h.generation, hChanges]
      · rw [hOther.version, h.version, hOrder.length_eq]
    · rw [hOther.metadata key hLabels hAnnotations hCounted,
        h.metadata key hLabels hAnnotations hCounted]

end Merged

------------------------------------------------------------
-- Each Place
------------------------------------------------------------

/-
  What a document has where diffs from an object towards
  others were accepted: at a place of a diff what the object
  has there that the diff leads to, above it objects as
  before, and elsewhere, but for what the store counts on,
  what it had.
-/
structure Unspoilt
    (found : Object kind)
    (wanted : List (Object kind))
    (before after : Json) : Prop where
  reached :
    ∀ object, object ∈ wanted →
      ∀ place, place ∈ (object.diff found).places →
        after.at? place = object.toJson.at? place
  above :
    ∀ object, object ∈ wanted →
      ∀ place, place ∈ (object.diff found).places →
        ∀ path, path <+: place → path ≠ place →
          (∃ members,
              before.at? path = some (.obj members)) ∧
            ∃ members, after.at? path = some (.obj members)
  elsewhere :
    ∀ path,
      (∀ object, object ∈ wanted →
        ∀ place, place ∈ (object.diff found).places →
          ¬place <+: path ∧ ¬path <+: place) →
        (∀ key, key ∈ countedFields →
          ¬["metadata", key] <+: path ∧
            ¬path <+: ["metadata", key]) →
          after.at? path = before.at? path

section Empty

variable {found : Object kind}
variable {wanted others : List (Object kind)}

/- Empty diffs are about no place, -/
theorem Unspoilt.of_rest_empty
    {before after : Json}
    (h : Unspoilt found wanted before after)
    (hSome : ∀ object, object ∈ wanted → object ∈ others)
    (hRest :
      ∀ object, object ∈ others →
        object ∈ wanted ∨ object.diff found = []) :
    Unspoilt found others before after := by
  have hIn :
      ∀ object, object ∈ others →
        ∀ place, place ∈ (object.diff found).places →
          object ∈ wanted := by
    intro object hObject place hPlace
    rcases hRest object hObject with hWanted | hEmpty
    · exact hWanted
    · rw [hEmpty] at hPlace
      cases hPlace
  exact
    { reached := fun object hObject place hPlace =>
        h.reached object (hIn object hObject place hPlace)
          place hPlace
      above := fun object hObject place hPlace =>
        h.above object (hIn object hObject place hPlace)
          place hPlace
      elsewhere := fun path hPlaces =>
        h.elsewhere path fun object hObject =>
          hPlaces object (hSome object hObject) }

/- and do not concern the specification. -/
theorem specChanges_filter
    (found : Object kind)
    (wanted : List (Object kind)) :
    specChanges found
        (wanted.filter fun object =>
          object.diff found ≠ []) =
      specChanges found wanted := by
  rw [specChanges, specChanges, List.countP_filter]
  congr 1
  funext object
  cases hDiff : object.diff found with
  | nil => rfl
  | cons entry rest => simp

end Empty

namespace Merged

variable {found : Object kind}
variable {version : Nat}
variable {done : List (Object kind)}
variable {before after : Json}

/- Outside of the mutable parts and of what the store counts
   on everything is as before. -/
theorem at?_outside
    (h : Merged found version done before after)
    {path : List String}
    (hRoots :
      ∀ root, root ∈ Diff.mutableRoots → ¬root <+: path)
    (hCounted :
      ∀ key, key ∈ countedFields →
        ¬["metadata", key] <+: path ∧
          ¬path <+: ["metadata", key]) :
    after.at? path = before.at? path := by
  have hNotAbove := (hCounted "generation" (.head _)).2
  match path with
  | [] => exact absurd List.nil_prefix hNotAbove
  | [key] =>
      have hNotMetadata : key ≠ "metadata" := fun hKey =>
        hNotAbove (hKey ▸ List.prefix_append _ _)
      have hNotSpec : key ≠ "spec" := fun hKey =>
        hRoots ["spec"] (by simp [Diff.mutableRoots])
          (hKey ▸ List.prefix_rfl)
      rw [Json.at?_singleton, Json.at?_singleton]
      exact h.members key hNotMetadata hNotSpec
  | key :: token :: rest =>
      by_cases hMetadata : key = "metadata"
      · subst hMetadata
        have hInside :
            ∀ field, field = token →
              ["metadata", field] <+:
                "metadata" :: token :: rest := by
          rintro field rfl
          exact List.prefix_append ["metadata", field] rest
        have hSame := h.metadata token
          (fun hLabels =>
            hRoots ["metadata", "labels"] (.head _)
              (hInside _ hLabels.symm))
          (fun hAnnotations =>
            hRoots ["metadata", "annotations"]
              (.tail _ (.head _))
              (hInside _ hAnnotations.symm))
          (fun hIn => (hCounted token hIn).1 (hInside _ rfl))
        have hSplit :
            "metadata" :: token :: rest =
              ["metadata", token] ++ rest := rfl
        rw [hSplit, Json.at?_append, Json.at?_append, hSame]
      · have hNotSpec : key ≠ "spec" := fun hKey =>
          hRoots ["spec"] (by simp [Diff.mutableRoots])
            (hKey ▸ List.prefix_append _ _)
        have hSplit :
            key :: token :: rest = [key] ++ token :: rest :=
          rfl
        rw [hSplit, Json.at?_append, Json.at?_append,
          Json.at?_singleton, Json.at?_singleton,
          h.members key hMetadata hNotSpec]

/- No client loses what another one wants, nor anything that
   no one asked for. -/
theorem unspoilt
    (h : Merged found version done before after)
    (hConforms : Object.Conforms kind before)
    (hFound : Object.decode? kind before = some found)
    (hApart :
      done.Pairwise fun left right =>
        (left.diff found).Apart (right.diff found)) :
    Unspoilt found done before after := by
  have hSeparate :
      ∀ root, root ∈ Diff.mutableRoots →
        Diff.Separate (found.rootEdits done root)
          (before.at? root) :=
    fun _ hRoot => hConforms.separate hFound hApart hRoot
  constructor
  · intro object hObject place hPlace
    exact Object.at?_of_mem_places hSeparate h.roots hObject
      hPlace
  · intro object hObject place hPlace path hAbove hNe
    rcases Object.mem_places_diff_iff.1 hPlace with
      ⟨root, hRoot, edit, hEdit, rfl⟩
    have hMember : edit ∈ found.rootEdits done root :=
      List.mem_flatMap.2 ⟨object, hObject, hEdit⟩
    by_cases hIn : root <+: path
    · rcases hIn with ⟨rest, rfl⟩
      have hInside :=
        (List.prefix_append_right_inj root).1 hAbove
      have hNotAll : rest ≠ edit.path :=
        fun hEq => hNe (congrArg (root ++ ·) hEq)
      rw [Json.at?_append, Json.at?_append]
      exact
        ⟨((hSeparate root hRoot).lands edit
              hMember).exists_obj_above hInside hNotAll,
          ((hSeparate root hRoot).lands_after
              (h.roots root hRoot) hMember).exists_obj_above
            hInside hNotAll⟩
    · have hOver : path <+: root :=
        (List.prefix_or_prefix_of_prefix hAbove
          (List.prefix_append root edit.path)).resolve_right hIn
      have hNotRoot : path ≠ root :=
        fun hEq => hIn (hEq ▸ List.prefix_rfl)
      exact
        ⟨hConforms.metadata.exists_obj_above hRoot hOver
            hNotRoot,
          h.conforms.metadata.exists_obj_above hRoot hOver
            hNotRoot⟩
  · intro path hPlaces hCounted
    by_cases hRoot :
        ∃ root, root ∈ Diff.mutableRoots ∧ root <+: path
    · rcases hRoot with ⟨root, hRoot, rest, rfl⟩
      exact Object.at?_of_apart_places hRoot
        (hSeparate root hRoot) (h.roots root hRoot) hPlaces
    · exact h.at?_outside
        (fun root hIn hPrefix => hRoot ⟨root, hIn, hPrefix⟩)
        hCounted

end Merged

end MemoryStore

end Converge
