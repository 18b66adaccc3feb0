import Converge.Proofs.Json.Frame
import Converge.Proofs.Object.WireRoundTrip
import Converge.Proofs.Store.Content
import Converge.Proofs.Store.Revision

/-
  What becomes of the metadata that the store assigns.

  A patch document may name any place, and only the name and
  the namespace are looked at after it was carried out. So
  the identifier and the time of creation stay as they are
  exactly if the document leaves them, and the generation
  counts the changes of the specification exactly if the
  document does not change it as well, and it is not the last
  one of its range. A document that spares these three is
  such a document.

  Key definitions:
    * `MemoryStore.generationOf`: a generation as a number
    * `MemoryStore.KeepsOwned`: what is assigned is kept up
    * `MemoryStore.Unforged`: documents that do not change it

  Main declarations:
    * `MemoryStore.keepsOwned_revised_iff`
    * `MemoryStore.unforged_of_spares`
    * `MemoryStore.patch_owned_iff`
-/

namespace Converge

namespace MemoryStore

------------------------------------------------------------
-- Generations
------------------------------------------------------------

/- The generation that is counted on; anything that is not a
   number of 64 bits counts as zero. -/
def generationOf (object : Json) : Int64 :=
  ((object.at? ["metadata", "generation"]).bind
    Json.asInt64?).getD 0

theorem nextGeneration_eq_succ (object : Json) :
    nextGeneration object =
      .ofInt64 (generationOf object + 1) :=
  rfl

/- A number of 64 bits is read as it was written. -/
theorem ofInt64_injective
    {left right : Int64}
    (hSame : Json.ofInt64 left = Json.ofInt64 right) :
    left = right := by
  have hRead := congrArg Json.asInt64? hSame
  simp only [Json.ofInt64, Json.asInt64?,
    Number.toInt64?_ofInt64, Option.some.injEq] at hRead
  exact hRead

/- A generation is counted on to the next number, if it is
   the same one and has a next number. -/
theorem toInt_succ_eq_iff {made before : Int64} :
    (made + 1).toInt = before.toInt + 1 ↔
      made = before ∧ before ≠ Int64.maxValue := by
  have hLow := made.le_toInt
  have hHigh := made.toInt_lt
  have hLowBefore := before.le_toInt
  have hLast :
      before ≠ Int64.maxValue ↔
        before.toInt ≠ 2 ^ 63 - 1 := by
    rw [ne_eq, ← Int64.toInt_inj, Int64.toInt_maxValue]
  rw [hLast, ← Int64.toInt_inj, Int64.toInt_add,
    Int64.toInt_one, Int.bmod]
  omega

------------------------------------------------------------
-- Metadata that the Store Assigns
------------------------------------------------------------

/- The members of the metadata that a patch is not for. -/
def ownedFields : List String :=
  ["uid", "creationTimestamp", "generation"]

/- An object is the same one as before, and its generation
   counts the changes of its specification. -/
structure KeepsOwned (before after : Json) : Prop where
  uid :
    after.at? ["metadata", "uid"] =
      before.at? ["metadata", "uid"]
  created :
    after.at? ["metadata", "creationTimestamp"] =
      before.at? ["metadata", "creationTimestamp"]
  kept :
    after.member? "spec" = before.member? "spec" →
      after.at? ["metadata", "generation"] =
        before.at? ["metadata", "generation"]
  counted :
    after.member? "spec" ≠ before.member? "spec" →
      ∃ generation,
        after.at? ["metadata", "generation"] =
            some (.ofInt64 generation) ∧
          generation.toInt = (generationOf before).toInt + 1

/- A document did not change what the store assigns. -/
structure Unforged (before made : Json) : Prop where
  uid :
    made.at? ["metadata", "uid"] =
      before.at? ["metadata", "uid"]
  created :
    made.at? ["metadata", "creationTimestamp"] =
      before.at? ["metadata", "creationTimestamp"]
  kept :
    made.member? "spec" = before.member? "spec" →
      made.at? ["metadata", "generation"] =
        before.at? ["metadata", "generation"]
  counted :
    made.member? "spec" ≠ before.member? "spec" →
      generationOf made = generationOf before

/- What a store makes of a patched object keeps up what it
   assigns exactly if the document left it. -/
theorem keepsOwned_revised_iff
    (before : Json)
    {made : Json}
    (hMetadata : made.HasMetadata)
    (store : MemoryStore) :
    KeepsOwned before (store.revised before made) ↔
      Unforged before made ∧
        (made.member? "spec" ≠ before.member? "spec" →
          generationOf before ≠ Int64.maxValue) := by
  have hSame := sameButMetadata_revised before hMetadata store
  have hUid := hSame.metadata "uid" (by decide)
  have hCreated :=
    hSame.metadata "creationTimestamp" (by decide)
  have hSpec := hSame.members "spec" (by decide)
  have hGeneration :=
    at?_generation_revised before hMetadata store
  constructor
  · rintro ⟨hKeptUid, hKeptCreated, hKept, hCounted⟩
    rw [hSpec, hGeneration] at hKept hCounted
    have hNext :
        made.member? "spec" ≠ before.member? "spec" →
          generationOf made = generationOf before ∧
            generationOf before ≠ Int64.maxValue := by
      intro hChanged
      rcases hCounted hChanged with
        ⟨generation, hSlot, hNumber⟩
      rw [if_neg hChanged, nextGeneration_eq_succ] at hSlot
      rw [← ofInt64_injective (Option.some.inj hSlot)]
        at hNumber
      exact toInt_succ_eq_iff.1 hNumber
    refine ⟨⟨hUid.symm.trans hKeptUid,
      hCreated.symm.trans hKeptCreated, ?_,
      fun hChanged => (hNext hChanged).1⟩,
      fun hChanged => (hNext hChanged).2⟩
    intro hUnchanged
    have hSlot := hKept hUnchanged
    rwa [if_pos hUnchanged] at hSlot
  · rintro ⟨hUnforged, hBounded⟩
    refine ⟨hUid.trans hUnforged.uid,
      hCreated.trans hUnforged.created, ?_, ?_⟩
    · rw [hSpec, hGeneration]
      intro hUnchanged
      rw [if_pos hUnchanged]
      exact hUnforged.kept hUnchanged
    · rw [hSpec, hGeneration]
      intro hChanged
      refine ⟨generationOf made + 1, ?_, ?_⟩
      · rw [if_neg hChanged, nextGeneration_eq_succ]
      · exact toInt_succ_eq_iff.2
          ⟨hUnforged.counted hChanged, hBounded hChanged⟩

/- A document changes nothing of what it spares. -/
theorem unforged_of_spares
    {document : Patch}
    (hSpares :
      ∀ field ∈ ownedFields,
        ∀ instruction ∈ document,
          instruction.Spares ["metadata", field])
    {before made : Json}
    (hApply : document.apply before = .ok made) :
    Unforged before made := by
  have hSlot :
      ∀ field ∈ ownedFields,
        made.at? ["metadata", field] =
          before.at? ["metadata", field] :=
    fun field hField =>
      Patch.at?_of_apply (hSpares field hField) hApply
  have hGeneration := hSlot "generation" (by decide)
  refine ⟨hSlot _ (by decide), hSlot _ (by decide),
    fun _ => hGeneration, fun _ => ?_⟩
  unfold generationOf
  rw [hGeneration]

------------------------------------------------------------
-- Patches
------------------------------------------------------------

/-
  Whatever a store has been through, a patch that it accepts
  keeps up what the store assigned exactly if the document
  leaves the identifier and the time of creation as they are,
  the generation as well, and this is not the last one of its
  range when it is counted on. Documents that spare these
  three leave them.
-/
theorem patch_owned_iff
    (supply : Supply)
    (clock : Timestamp)
    (visibilityDelay deletionDelay : Nat)
    (history : List TimedCall)
    (hHistory :
      ∀ timed ∈ history, timed.call.IsCanonical)
    (coordinate : Coordinate)
    {text : String}
    {object : Json}
    {after : MemoryStore} :
    let store :=
      (empty supply clock visibilityDelay
        deletionDelay).afterTimes history
    store.patch coordinate text = (.ok object, after) →
      ∃ stored document made,
        store.stored? coordinate = some stored ∧
          after.stored? coordinate =
            some { stored with object := object } ∧
          Patch.read? text = some document ∧
          document.apply stored.object = .ok made ∧
          (KeepsOwned stored.object object ↔
            Unforged stored.object made ∧
              (made.member? "spec" ≠
                  stored.object.member? "spec" →
                generationOf stored.object ≠
                  Int64.maxValue)) ∧
          ((∀ field ∈ ownedFields,
              ∀ instruction ∈ document,
                instruction.Spares ["metadata", field]) →
            Unforged stored.object made) := by
  intro store hPatch
  have hIdentifies : store.Identifies :=
    (identifies_empty supply clock visibilityDelay
      deletionDelay).afterTimes hHistory
  cases hRead : Patch.read? text with
  | none =>
      rw [MemoryStore.patch, hRead] at hPatch
      cases hPatch
  | some document =>
      rcases patch_cases coordinate hRead store with
        ⟨_, hRefused⟩ |
          ⟨stored, changed, hStored, hChanged, hAccepted⟩
      · rw [hRefused] at hPatch
        cases hPatch
      · rw [hAccepted] at hPatch
        cases hPatch
        rcases patched_eq_ok_iff.1 hChanged with
          ⟨made, hApply, hName, _, rfl⟩
        have hMetadata : made.HasMetadata :=
          hasMetadata_of_metadataText hName
            (hIdentifies coordinate stored hStored).named
        refine ⟨stored, document, made, hStored, ?_, rfl,
          hApply,
          keepsOwned_revised_iff stored.object hMetadata
            store,
          fun hSpares => unforged_of_spares hSpares hApply⟩
        rw [stored?_accept, if_pos rfl]

/- Replaces the metadata of an object that the store
   assigned, and describes it. -/
def forgery : Json :=
  let replace (path : String) (value : Json) : Json :=
    .obj
      [ ("op", .str "replace"), ("path", .str path),
        ("value", value) ]
  .arr
    [ replace "/metadata/uid" (.str "forged"),
      replace "/metadata/creationTimestamp"
        (.str "2020-01-01T00:00:00Z"),
      replace "/metadata/generation" (.ofInt64 41),
      .obj
        [ ("op", .str "add"),
          ("path", .str "/spec/description"),
          ("value", .str "d") ] ]

theorem read?_forgery :
    Patch.read? forgery.compact = Patch.ofJson? forgery := by
  have hFits : forgery.Fits PatchEntry.maxDepth := by
    simp [forgery, Json.Fits, PatchEntry.maxDepth,
      Json.maxDepth, Json.ofInt64, Number.ofInt64]
  rw [Patch.read?, Object.readNested?_compact hFits]
  rfl

/- The store accepts it. -/
theorem patch_owned_iff_forged :
    let today : Timestamp := .ofDay 2024 1 1
    let build : Coordinate :=
      ⟨Kind.task.resourceType, "ci", "build"⟩
    let body : Json :=
      .obj
        [ ("metadata", .obj [("name", .str "build")]),
          ("spec", .obj []) ]
    let history : List TimedCall :=
      [⟨today, .create build.type "ci" body⟩]
    let store := (empty ⟨1, 1⟩ today 0 0).afterTimes history
    (∀ timed ∈ history, timed.call.IsCanonical) ∧
      ∃ stored object after,
        store.stored? build = some stored ∧
          store.patch build forgery.compact =
            (.ok object, after) ∧
          object.at? ["metadata", "uid"] =
            some (.str "forged") ∧
          object.at? ["metadata", "generation"] =
            some (.ofInt64 42) ∧
          ¬KeepsOwned stored.object object := by
  intro today build body history store
  have hHistory :
      ∀ timed ∈ history, timed.call.IsCanonical := by
    intro timed hTimed
    cases List.mem_singleton.1 hTimed
    exact ⟨by decide, ⟨by decide, trivial, trivial⟩,
      ⟨by decide, trivial⟩, trivial⟩
  have hFields :
      (store.patch build forgery.compact).1.toOption.map
          (fun object =>
            (object.at? ["metadata", "uid"],
              object.at? ["metadata", "generation"])) =
        some (some (.str "forged"), some (.ofInt64 42)) := by
    rw [MemoryStore.patch, read?_forgery]
    decide +kernel
  have hBefore :
      (store.stored? build).bind (fun stored =>
          stored.object.at? ["metadata", "uid"]) ≠
        some (.str "forged") := by
    decide +kernel
  cases hPatch : store.patch build forgery.compact with
  | mk result after =>
      rw [hPatch] at hFields
      rcases Option.map_eq_some_iff.1 hFields with
        ⟨object, hResult, hSlots⟩
      cases Result.eq_ok_of_toOption hResult
      rcases Prod.mk.inj hSlots with ⟨hUid, hGeneration⟩
      rcases patch_owned_iff ⟨1, 1⟩ today 0 0 history hHistory
          build hPatch with
        ⟨stored, _, _, hStored, -⟩
      refine ⟨hHistory, stored, object, after, hStored, rfl,
        hUid, hGeneration, fun hKeeps => ?_⟩
      rw [hStored] at hBefore
      exact hBefore (hKeeps.uid.symm.trans hUid)

end MemoryStore

end Converge
