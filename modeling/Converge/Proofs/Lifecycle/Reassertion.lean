import Converge.Proofs.Lifecycle.Convergence
import Converge.Proofs.Lifecycle.Requests
import Converge.Proofs.Object.Restatement
import Converge.Proofs.Store.Merging

/-
  Updates without a snapshot.

  Without a snapshot an update compares its configuration
  with nothing, so that it states all of it again. The labels,
  the annotations and each member of the specification that
  are configured are put as a whole, whatever was there, and
  nothing else of the object changes but what the store counts
  on. A second such update only counts the version on.

  Main declarations:
    * `Engine.update_restating`: one update
    * `Engine.notes_update`: what it asks a store for
    * `Engine.update_reasserts`
-/

namespace Converge

------------------------------------------------------------
-- Places beside Counted Members
------------------------------------------------------------

/- Documents that differ in members of their metadata are the
   same at any place apart from these. -/
theorem MemoryStore.SameButMetadata.at?_of_apart
    {fields : List String}
    {left right : Json}
    (hSame : SameButMetadata fields left right)
    {field : String}
    (hField : field ∈ fields)
    {path : List String}
    (hApart :
      ∀ field, field ∈ fields →
        Pointer.Apart ["metadata", field] path) :
    right.at? path = left.at? path := by
  have hNotAbove := (hApart field hField).2
  match path with
  | [] => exact absurd List.nil_prefix hNotAbove
  | [key] =>
      rw [Json.at?_singleton, Json.at?_singleton]
      refine hSame.members key ?_
      rintro rfl
      exact hNotAbove (List.prefix_append ["metadata"] [field])
  | key :: token :: rest =>
      by_cases hMetadata : key = "metadata"
      · subst hMetadata
        have hSplit :
            "metadata" :: token :: rest =
              ["metadata", token] ++ rest := rfl
        rw [hSplit, Json.at?_append, Json.at?_append,
          hSame.metadata token]
        intro hIn
        exact (hApart token hIn).1
          (List.prefix_append ["metadata", token] rest)
      · have hSplit :
            key :: token :: rest = [key] ++ token :: rest :=
          rfl
        rw [hSplit, Json.at?_append, Json.at?_append,
          Json.at?_singleton, Json.at?_singleton,
          hSame.members key hMetadata]

namespace Object

open MemoryStore (countedFields)

variable {kind : Kind}
variable {wanted : Object kind}

/- What the store counts on is apart from what is stated. -/
theorem IsStated.apart_counted
    {place : List String}
    (hPlace : IsStated place)
    {field : String}
    (hField : field ∈ countedFields) :
    Pointer.Apart ["metadata", field] place := by
  simp only [countedFields, List.mem_cons, List.not_mem_nil,
    or_false] at hField
  cases hPlace <;> rcases hField with rfl | rfl <;>
    simp [Pointer.Apart]

/- What the store counts on does not concern the statement of
   an object. -/
theorem Restated.revised
    {before made : Json}
    (hRestated : wanted.Restated [] before made)
    (hMetadata : made.HasMetadata)
    (store : MemoryStore) :
    wanted.Restated countedFields before
      (store.revised before made) := by
  have hSame := MemoryStore.sameButMetadata_revised before
    hMetadata store
  constructor
  · intro place value hPlace hValue
    rw [hSame.at?_of_apart (.head _) fun _ hField =>
      hPlace.apart_counted hField]
    exact hRestated.stated place value hPlace hValue
  · intro path hApart hCounted
    rw [hSame.at?_of_apart (.head _) hCounted]
    exact hRestated.elsewhere path hApart nofun

end Object

namespace Engine

open MemoryStore (Managed Kept address)

variable {kind : Kind}
variable {id : ObjectId}
variable {tracked : Tracked}
variable {session : Session MemoryStore}
variable {stored : StoredObject}
variable {found wanted : Object kind}

/- An update without a snapshot is prepared from nothing. -/
theorem prepared_zero
    (hId : tracked.objectId = .ok id)
    (hState : tracked.state = none)
    (hValid : Object.validate kind tracked.config = .ok ())
    (hWanted :
      Object.expand kind tracked.config = .ok wanted) :
    Prepared tracked id wanted (.zero kind) := by
  refine ⟨hId, hValid, hWanted, ?_⟩
  rw [hState]
  exact Object.expand_nil kind

/- A managed object has a specification. -/
theorem exists_spec_of_kept
    {nextVersion : Nat}
    {document : Json}
    (hKept : Kept kind id nextVersion document) :
    ∃ members,
      document.at? ["spec"] = some (.obj members) := by
  rcases hKept.conforms.shown with ⟨shown, hShows⟩
  rcases hShows.spec with ⟨members, hMembers, _⟩
  exact ⟨members, hMembers⟩

/- One such update of a managed object in sight. -/
theorem update_restating
    (engine : Engine MemoryStore)
    (hStore : engine.store = MemoryStore.store)
    (session : Session MemoryStore)
    (hManaged : Managed kind id session.state)
    (hStored :
      session.state.stored? (address kind id) = some stored)
    (hHidden : stored.hiddenReads = 0)
    (hLasting : stored.lingeringReads = none)
    (hFound :
      Object.decode? kind stored.object = some found)
    (hPrepared : Prepared tracked id wanted (.zero kind)) :
    ∃ made current after reached,
      Patch.apply
          ((Diff.edits wanted.toJson
            (Object.zero kind).toJson).map Edit.instruction)
          stored.object = .ok made ∧
        Carried id wanted (.zero kind) session.state stored
          made current after ∧
        Object.decode? kind current = some reached ∧
        (engine.update kind).run tracked session =
          ((.ok (), tracked.observed reached.flatten),
            ⟨session.now, after⟩) ∧
        wanted.Restated MemoryStore.countedFields
          stored.object current ∧
        Managed kind id after := by
  have hKept := hManaged.kept hStored
  have hSpec := exists_spec_of_kept hKept
  rcases hKept.conforms with
    ⟨hDocument, hMetadata, shown, hShows⟩
  rcases wanted.exists_apply_restating hDocument hMetadata
      hSpec hFound with
    ⟨made, hApply⟩
  rcases (Diff.apply_edits_iff wanted.isCanonical_toJson
      hDocument hMetadata).1 hApply with
    ⟨hMade, hMadeMetadata, hElsewhere, _⟩
  have hName := MemoryStore.metadataText_eq
    ((hElsewhere.metadata "name" (by decide)
      (by decide)).trans hKept.name)
  have hNamespace := MemoryStore.metadataText_eq
    ((hElsewhere.metadata "namespace" (by decide)
      (by decide)).trans hKept.namespaceName)
  rcases (wanted.showsMutable_of_apply (.zero kind) hDocument
      hMetadata hShows hApply).1 with
    ⟨left, hLeft⟩
  have hRead := Object.decode?_of_sameElsewhere hDocument
    hMade hMetadata hMadeMetadata hElsewhere hFound hLeft
  have hRevised := MemoryStore.decode?_revised stored.object
    hMade hMadeMetadata hRead session.state
  have hRestated := wanted.restated_of_apply hDocument
    hMetadata hSpec hApply
  rcases engine.update_carried hStore hPrepared hStored
      hHidden hLasting hFound hApply hName hNamespace
      hRevised with
    ⟨current, after, reached, hCarried, hReached, hRun⟩
  refine ⟨made, current, after, reached, hApply, hCarried,
    hReached, hRun, ?_⟩
  cases hCarried with
  | idle hEmpty =>
      refine ⟨?_, hManaged⟩
      have hSame :=
        Object.eq_of_apply_of_diff_eq_nil hEmpty hApply
      subst hSame
      exact ⟨hRestated.stated, fun _ hApart _ =>
        hRestated.elsewhere _ hApart nofun⟩
  | sent hSome =>
      exact ⟨hRestated.revised hMadeMetadata session.state,
        hManaged.patched wanted (.zero kind)
          (MemoryStore.update_of_apply wanted (.zero kind)
            hStored hApply hName hNamespace)⟩

------------------------------------------------------------
-- Requests
------------------------------------------------------------

/- A read is one request. -/
theorem notes_readAs
    {σ : Type}
    (engine : Engine σ)
    (kind : Kind)
    (operation : Operation)
    (hId : tracked.objectId = .ok id)
    (session : Session σ)
    (notes : Notes) :
    ((engine.noted.readAs kind operation).run tracked
        (session.withNotes notes)).2.state.notes =
      notes ++ [(session.now, .get (address kind id))] := by
  rw [readAs_eq, hId]
  simp only [store_noted, Client.run_get_noted]
  rcases
      (Client.get engine.store kind id.namespaceName
        id.name).run session with
    ⟨_ | _, _⟩ <;> rfl

/- An update that succeeds sends its document, unless this is
   empty, and reads the object. -/
theorem notes_update
    (engine : Engine MemoryStore)
    (hStore : engine.store = MemoryStore.store)
    {previous : Object kind}
    (hPrepared : Prepared tracked id wanted previous)
    {after : Tracked}
    {later : Session MemoryStore}
    (hRun :
      (engine.update kind).run tracked session =
        ((.ok (), after), later))
    (notes : Notes) :
    ((engine.noted.update kind).run tracked
        (session.withNotes notes)).2.state.notes =
      notes ++
        (if wanted.diff previous = [] then []
          else
            [(session.now,
              .patch (address kind id)
                (wanted.diff previous).text)]) ++
          [(session.now, .get (address kind id))] := by
  rw [engine.run_update hStore hPrepared] at hRun
  rw [engine.noted.update_of_prepared hPrepared]
  by_cases hEmpty : wanted.diff previous = []
  · rw [if_pos hEmpty, if_pos hEmpty, List.append_nil]
    exact engine.notes_readAs kind .update hPrepared.identity
      session notes
  · rw [if_neg hEmpty] at hRun ⊢
    rw [if_neg hEmpty, store_noted, Client.run_update_noted,
      hStore]
    have hNow :
        ((Client.update MemoryStore.store kind
          id.namespaceName id.name
          (wanted.diff previous).text).run session).2.now =
          session.now := by
      rw [Client.run_update]
    rcases hMade :
        (Client.update MemoryStore.store kind id.namespaceName
          id.name (wanted.diff previous).text).run session
      with ⟨fault | reply, between⟩
    · rw [hMade] at hRun
      cases hRun
    · rw [hMade] at hNow
      rw [← hNow]
      exact engine.notes_readAs kind .update
        hPrepared.identity between _

------------------------------------------------------------
-- Reassertion
------------------------------------------------------------

/-
  An update of a managed object in sight, without a snapshot,
  succeeds for every configuration that is accepted. It sends
  a document that states what is configured, once for each
  part. Afterwards each of these parts is as configured, and
  all else of the object is as it was but for its generation
  and its version. Another such update changes the version at
  most.
-/
theorem update_reasserts
    (engine : Engine MemoryStore)
    (hStore : engine.store = MemoryStore.store)
    (hManaged : Managed kind id session.state)
    (hStored :
      session.state.stored? (address kind id) = some stored)
    (hHidden : stored.hiddenReads = 0)
    (hLasting : stored.lingeringReads = none)
    (hFound :
      Object.decode? kind stored.object = some found)
    (hId : tracked.objectId = .ok id)
    (hState : tracked.state = none)
    (hValid : Object.validate kind tracked.config = .ok ())
    (hWanted :
      Object.expand kind tracked.config = .ok wanted) :
    ∃ document current reached after,
      wanted.RestatedBy document ∧
        (∀ notes,
          ((engine.noted.update kind).run tracked
              (session.withNotes notes)).2.state.notes =
            notes ++
              (if document = [] then []
                else
                  [(session.now,
                    .patch (address kind id)
                      document.text)]) ++
                [(session.now, .get (address kind id))]) ∧
        (engine.update kind).run tracked session =
          ((.ok (), tracked.observed reached.flatten),
            ⟨session.now, after⟩) ∧
        after.stored? (address kind id) =
          some { stored with object := current } ∧
        (∀ other, other ≠ address kind id →
          after.stored? other =
            session.state.stored? other) ∧
        Object.decode? kind current = some reached ∧
        wanted.Restated MemoryStore.countedFields
          stored.object current ∧
        ∀ moment, ∃ final again last,
          (engine.update kind).run tracked ⟨moment, after⟩ =
              ((.ok (), tracked.observed again.flatten),
                ⟨moment, last⟩) ∧
            last.stored? (address kind id) =
              some { stored with object := final } ∧
            Object.decode? kind final = some again ∧
            MemoryStore.SameButMetadata ["resourceVersion"]
              current final := by
  have hPrepared := prepared_zero hId hState hValid hWanted
  rcases engine.update_restating hStore session hManaged
      hStored hHidden hLasting hFound hPrepared with
    ⟨made, current, after, reached, _, hCarried, hReached,
      hRun, hRestated, hLater⟩
  have hAfter := hCarried.stored? hStored
  refine ⟨_, current, reached, after,
    wanted.restatedBy_diff,
    engine.notes_update hStore hPrepared hRun, hRun,
    hAfter.1, hAfter.2, hReached, hRestated, ?_⟩
  intro moment
  rcases engine.update_restating hStore ⟨moment, after⟩ hLater
      hAfter.1 hHidden hLasting hReached hPrepared with
    ⟨made', final, last, again, hApply, hCarried', hAgain,
      hRun', _, _⟩
  have hKept := hLater.kept hAfter.1
  have hSame := wanted.apply_restating_eq_self
    hKept.conforms.canonical hKept.conforms.metadata
    (exists_spec_of_kept hKept) hRestated.stated
  cases hSame.symm.trans hApply
  refine ⟨final, again, last, hRun',
    (hCarried'.stored? hAfter.1).1, hAgain, ?_⟩
  cases hCarried' with
  | idle => exact .refl _ _
  | sent =>
      have hUncounted :
          after.revised current current =
            after.versioned current :=
        congrArg _ (if_pos rfl)
      rw [hUncounted]
      exact MemoryStore.sameButMetadata_setMetadata
        hKept.conforms.metadata "resourceVersion" _

/- A task is submitted with one description. An update to
   another without a snapshot adds the other description. -/
theorem update_reasserts_described :
    ∃ later document current reached after,
      (Client.create MemoryStore.store
            (describedTask "old")).run (emptySession 0) =
          (.ok (submittedTask "old"), later) ∧
        (describedTask "new").RestatedBy document ∧
        (memoryEngine.update .task).run
            ⟨"ci/build", describedConfig "new", none,
              .standard⟩
            later =
          ((.ok (),
              ⟨"ci/build", describedConfig "new",
                some reached.flatten, .standard⟩),
            ⟨later.now, after⟩) ∧
        Object.decode? .task current = some reached ∧
        current.at? ["spec", "description"] =
          some (.str "new") := by
  rcases submitted_described "old" with
    ⟨document, after, hRun, hNew⟩
  let tracked : Tracked :=
    ⟨"ci/build", describedConfig "new", none, .standard⟩
  have hId : tracked.objectId = .ok ⟨"ci", "build"⟩ :=
    Result.eq_ok_of_toOption (by decide +kernel)
  have hValid :
      Object.validate .task tracked.config = .ok () :=
    Result.eq_ok_of_toOption (by decide +kernel)
  have hWanted :
      Object.expand .task tracked.config =
        .ok (describedTask "new") :=
    Result.eq_ok_of_toOption (by decide +kernel)
  have hDescription :
      (describedTask "new").toJson.at?
          ["spec", "description"] =
        some (.str "new") := by
    decide +kernel
  rcases update_reasserts memoryEngine rfl
      (.submitted _ hRun hNew.identity) hNew.stored rfl rfl
      hNew.read hId rfl hValid hWanted with
    ⟨document', current, reached, after', hBy, _, hUpdate, _,
      _, hRead, hRestated, _⟩
  exact ⟨_, document', current, reached, after', hRun, hBy,
    hUpdate, hRead,
    hRestated.stated _ _ (.member "description")
      hDescription⟩

end Engine

end Converge
