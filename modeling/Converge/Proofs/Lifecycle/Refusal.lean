import Converge.Proofs.Lifecycle.Convergence
import Converge.Proofs.Object.Ground
import Converge.Proofs.Store.Identified

/-
  Which updates a store refuses.

  An update sends what changes the object that its snapshot
  was taken of, or all that is configured when there is no
  snapshot. The document is made between objects, in which
  every part of the declaration is there; the store carries
  it out on what it was given, where parts may be missing.
  So the store refuses an update exactly when the document
  changes a member of an object that is not there, and then
  nothing has happened.

  Key definitions:
    * `Engine.baseline`: the object an update starts from
    * `Engine.HasGround`: what its document changes is there

  Main declarations:
    * `Engine.update_accepted`: updates that are carried out
    * `Engine.update_refused_iff`: updates that are not
-/

namespace Converge

/- What a client reads of an answer is not refused any
   more. -/
theorem Client.decoded_ok_ne_rejected
    (kind : Kind)
    (value : Json)
    (status : Nat)
    (message : String) :
    decoded kind (.ok value) ≠
      .error (.rejected status message) := by
  unfold decoded
  simp only [Except.bind]
  split <;> simp

/- A store refuses no read. -/
theorem MemoryStore.get_ne_rejected
    (coordinate : Coordinate)
    (store : MemoryStore)
    (status : Nat)
    (message : String) :
    (store.get coordinate).1 ≠
      .error (.rejected status message) := by
  unfold get
  split
  · simp [StoreError.missing]
  · split <;> simp [StoreError.missing]

namespace Engine

open MemoryStore (OnlyRead address)

variable {kind : Kind}
variable {id : ObjectId}
variable {tracked : Tracked}
variable {wanted previous : Object kind}
variable {session : Session MemoryStore}
variable {stored : StoredObject}

------------------------------------------------------------
-- Answers to Updates
------------------------------------------------------------

/- What is sent depends on the mutable parts of the snapshot
   alone. -/
theorem Sent.congr
    {base : Object kind}
    (hSame : previous.SameMutable base)
    {later : Session MemoryStore}
    (hSent : Sent id wanted previous session later) :
    Sent id wanted base session later := by
  cases hSent with
  | nothing hEmpty =>
      rw [wanted.diff_congr hSame] at hEmpty
      exact .nothing hEmpty
  | patch hSome hStored hApply =>
      rw [wanted.diff_congr hSame] at hSome
      rw [wanted.edits_congr hSame] at hApply
      exact .patch hSome hStored hApply

/- No read is refused. -/
theorem readAs_ne_rejected
    (engine : Engine MemoryStore)
    (hStore : engine.store = MemoryStore.store)
    (operation : Operation)
    (hId : tracked.objectId = .ok id)
    (session : Session MemoryStore)
    (status : Nat)
    (message : String) :
    ((engine.readAs kind operation).run tracked
        session).1.1 ≠
      .error
        (.store (.ofId kind id) operation
          (.rejected status message)) := by
  have hAnswer := MemoryStore.get_ne_rejected
    (address kind id) session.state status message
  rw [engine.run_readAs hStore kind operation hId]
  cases hGet : (session.state.get (address kind id)).1 with
  | error fault =>
      rw [hGet] at hAnswer
      intro hSame
      cases hSame
      exact hAnswer rfl
  | ok value =>
      have hFault := Client.decoded_ok_ne_rejected kind value
        status message
      cases hRead : Client.decoded kind (.ok value) with
      | ok object => simp
      | error fault =>
          rw [hRead] at hFault
          intro hSame
          cases hSame
          exact hFault rfl

/- An update whose document can be carried out is carried
   out, and whatever it fails for is no refusal. -/
theorem update_accepted
    (engine : Engine MemoryStore)
    (hStore : engine.store = MemoryStore.store)
    (hPrepared : Prepared tracked id wanted previous)
    {made : Json}
    (hStored :
      session.state.stored? (address kind id) = some stored)
    (hApply :
      Patch.apply
          ((Diff.edits wanted.toJson previous.toJson).map
            Edit.instruction)
          stored.object = .ok made)
    (hName :
      MemoryStore.metadataText "name" made = id.name)
    (hNamespace :
      MemoryStore.metadataText "namespace" made =
        id.namespaceName) :
    (∃ later, Sent id wanted previous session later ∧
        OnlyRead later.state
          ((engine.update kind).run tracked
            session).2.state) ∧
      ∀ status message,
        ((engine.update kind).run tracked session).1.1 ≠
          .error
            (.store (.ofId kind id) .update
              (.rejected status message)) := by
  have hRun := engine.run_update hStore hPrepared session
  have hReads :
      ∀ later : Session MemoryStore,
        OnlyRead later.state
          ((engine.readAs kind .update).run tracked
            later).2.state := by
    intro later
    rw [engine.run_readAs hStore kind .update
      hPrepared.identity]
    split <;> exact MemoryStore.onlyRead_get _ _
  by_cases hEmpty : wanted.diff previous = []
  · rw [if_pos hEmpty] at hRun
    rw [hRun]
    exact ⟨⟨session, .nothing hEmpty, hReads session⟩,
      engine.readAs_ne_rejected hStore .update
        hPrepared.identity session⟩
  · have hSent := MemoryStore.update_of_apply wanted previous
      hStored hApply hName hNamespace
    rw [if_neg hEmpty, hSent] at hRun
    have hPatched : Sent id wanted previous session _ :=
      .patch hEmpty hStored hApply
    cases hAnswer :
        Client.decoded kind
          (.ok (session.state.revised stored.object made)) with
    | ok object =>
        rw [hAnswer] at hRun
        rw [hRun]
        exact ⟨⟨_, hPatched, hReads _⟩,
          engine.readAs_ne_rejected hStore .update
            hPrepared.identity _⟩
    | error fault =>
        rw [hAnswer] at hRun
        rw [hRun]
        refine ⟨⟨_, hPatched, .refl _⟩, ?_⟩
        intro status message hSame
        cases hSame
        exact Client.decoded_ok_ne_rejected kind _ status
          message hAnswer

/- An update whose document cannot be carried out is
   refused. -/
theorem update_refused
    (engine : Engine MemoryStore)
    (hStore : engine.store = MemoryStore.store)
    (hPrepared : Prepared tracked id wanted previous)
    {error : PatchError}
    (hStored :
      session.state.stored? (address kind id) = some stored)
    (hApply :
      Patch.apply
          ((Diff.edits wanted.toJson previous.toJson).map
            Edit.instruction)
          stored.object = .error error) :
    (engine.update kind).run tracked session =
      ((.error
          (.store (.ofId kind id) .update
            (.rejected 422 error.message)),
          tracked),
        session) := by
  have hSome : wanted.diff previous ≠ [] := by
    intro hEmpty
    rw [List.map_eq_nil_iff.1 hEmpty] at hApply
    cases hApply
  rw [engine.run_update hStore hPrepared, if_neg hSome,
    MemoryStore.update_of_apply_error wanted previous hStored
      hApply]

------------------------------------------------------------
-- Refused Updates
------------------------------------------------------------

/- The object that an update starts from: the one that its
   snapshot was taken of, or nothing at all. -/
def baseline
    (found : Object kind) :
    Option ConfigMap → Object kind
  | some _ => found
  | none => .zero kind

/- An update is prepared from its baseline. -/
theorem exists_prepared
    {found : Object kind}
    (hFilled : found.Filled)
    (hId : tracked.objectId = .ok id)
    (hState :
      tracked.state = some found.flatten ∨
        tracked.state = none)
    (hConfig :
      configured kind .update tracked.config = .ok wanted) :
    ∃ previous,
      Prepared tracked id wanted previous ∧
        previous.SameMutable
          (baseline found tracked.state) := by
  rcases configured_eq_ok_iff.1 hConfig with
    ⟨hValid, hWanted⟩
  rcases hState with hState | hState
  · refine ⟨found.settled, ⟨hId, hValid, hWanted, ?_⟩, ?_⟩
    · rw [hState]
      exact found.expand_flatten.ok hFilled
    · rw [hState]
      exact found.sameMutable_settled
  · refine ⟨.zero kind, ⟨hId, hValid, hWanted, ?_⟩, ?_⟩
    · rw [hState]
      exact Object.expand_nil kind
    · rw [hState]
      exact ⟨rfl, rfl, rfl⟩

/- The document of an update changes only members of objects
   that are stored. -/
def HasGround
    (tracked : Tracked)
    (wanted found : Object kind)
    (document : Json) :
    Prop :=
  Diff.Grounded
    (Diff.edits wanted.toJson
      (baseline found tracked.state).toJson)
    (some document)

/-
  An object of a store is read as `found`, which has all its
  required strings, and the snapshot is either that object's
  or not there; the configuration has no defects. Then the
  store refuses the update exactly when its document lacks
  ground, always as unprocessable, and all is as it was.
  Otherwise the document is carried out, and only reads
  follow.
-/
theorem update_refused_iff
    (engine : Engine MemoryStore)
    (hStore : engine.store = MemoryStore.store)
    {found : Object kind}
    (hWritten : session.state.IsWritten)
    (hStored :
      session.state.stored? (address kind id) = some stored)
    (hFound :
      Object.decode? kind stored.object = some found)
    (hFilled : found.Filled)
    (hId : tracked.objectId = .ok id)
    (hState :
      tracked.state = some found.flatten ∨
        tracked.state = none)
    (hConfig :
      configured kind .update tracked.config = .ok wanted) :
    ((∃ status message,
        ((engine.update kind).run tracked session).1.1 =
          .error
            (.store (.ofId kind id) .update
              (.rejected status message))) ↔
      ¬HasGround tracked wanted found stored.object) ∧
    (¬HasGround tracked wanted found stored.object →
      ∃ message,
        (engine.update kind).run tracked session =
          ((.error
              (.store (.ofId kind id) .update
                (.rejected 422 message)),
              tracked),
            session)) ∧
    (HasGround tracked wanted found stored.object →
      ∃ later,
        Sent id wanted (baseline found tracked.state) session
            later ∧
          OnlyRead later.state
            ((engine.update kind).run tracked
              session).2.state) := by
  have hIdentified :=
    hWritten.identifies (address kind id) stored hStored
  have hMetadata := hIdentified.hasMetadata
  rcases exists_prepared hFilled hId hState hConfig with
    ⟨previous, hPrepared, hSame⟩
  have hCarried :
      (∃ after,
          Patch.apply
              ((Diff.edits wanted.toJson
                previous.toJson).map Edit.instruction)
              stored.object = .ok after) ↔
        HasGround tracked wanted found stored.object := by
    rw [wanted.edits_congr hSame]
    refine Object.exists_apply_iff_grounded wanted
      hIdentified.canonical hMetadata hFound ?_
    rcases hState with hState | hState
    · rw [hState]
      exact Or.inl ⟨rfl, rfl, rfl⟩
    · rw [hState]
      exact Or.inr rfl
  cases hApply :
      Patch.apply
        ((Diff.edits wanted.toJson previous.toJson).map
          Edit.instruction)
        stored.object with
  | ok made =>
      have hGround := hCarried.1 ⟨made, hApply⟩
      rcases (Diff.apply_edits_iff wanted.isCanonical_toJson
          hIdentified.canonical hMetadata).1 hApply with
        ⟨hMade, _, hElsewhere, _⟩
      have hKept := hIdentified.congr hMade
        (hElsewhere.metadata _ (by decide) (by decide))
        (hElsewhere.metadata _ (by decide) (by decide))
      rcases engine.update_accepted hStore hPrepared hStored
          hApply hKept.name hKept.namespaceName with
        ⟨⟨later, hSent, hReads⟩, hNever⟩
      refine ⟨iff_of_false ?_ (not_not_intro hGround),
        fun hNot => absurd hGround hNot,
        fun _ => ⟨later, hSent.congr hSame, hReads⟩⟩
      rintro ⟨status, message, hFault⟩
      exact hNever status message hFault
  | error error =>
      have hRun := engine.update_refused hStore hPrepared
        hStored hApply
      have hNot :
          ¬HasGround tracked wanted found stored.object := by
        intro hGround
        rcases hCarried.2 hGround with ⟨made, hMade⟩
        cases hApply.symm.trans hMade
      refine ⟨iff_of_true ⟨_, _, by rw [hRun]⟩ hNot,
        fun _ => ⟨_, hRun⟩, fun hGround => absurd hGround hNot⟩

/- A client stores a task that has a name only. -/
def bareSession : Session MemoryStore :=
  ⟨0,
    (emptySession 0).state.afterTimes
      [ ⟨secondDay,
          .create Kind.task.resourceType "ci"
            (.obj
              [("metadata",
                  .obj [("name", .str "build")])])⟩ ]⟩

/- The configuration of a described task beside the snapshot
   of another. -/
def bareTracked (found : Object .task) : Tracked :=
  ⟨"ci/build", describedConfig "new", some found.flatten,
    .standard⟩

/- The update that would describe the task is refused, for
   the task that is stored has no specification. -/
theorem update_refused_iff_bare :
    ∃ stored found message,
      bareSession.state.IsWritten ∧
        bareSession.state.stored?
            (address .task ⟨"ci", "build"⟩) = some stored ∧
        Object.decode? .task stored.object = some found ∧
        found.Filled ∧
        configured .task .update (describedConfig "new") =
          .ok (describedTask "new") ∧
        (memoryEngine.update .task).run (bareTracked found)
            bareSession =
          ((.error
              (.store (.ofId .task ⟨"ci", "build"⟩) .update
                (.rejected 422 message)),
              bareTracked found),
            bareSession) := by
  have hWritten : bareSession.state.IsWritten := by
    refine ⟨⟨1, 1⟩, firstDay, 0, 0, _, ?_, rfl⟩
    simp [MemoryStore.Call.IsCanonical, Json.IsCanonical,
      Json.MembersAreCanonical, Keyed.Sorted]
  obtain ⟨stored, hStored⟩ :
      ∃ stored,
        bareSession.state.stored?
            (address .task ⟨"ci", "build"⟩) = some stored :=
    Option.isSome_iff_exists.1 (by decide +kernel)
  have hBare :
      (bareSession.state.stored?
            (address .task ⟨"ci", "build"⟩)).map
          (fun stored => stored.object.at? ["spec"]) =
        some none := by
    decide +kernel
  rw [hStored, Option.map_some, Option.some.injEq] at hBare
  have hShown :
      (bareSession.state.stored?
            (address .task ⟨"ci", "build"⟩)).map
          (fun stored =>
            (Object.decode? .task stored.object).map
              fun found =>
                ((Object.validate .task
                    found.flatten).toOption,
                  decide
                    (⟨["spec", "description"],
                        .add (.str "new")⟩ ∈
                      Diff.edits (describedTask "new").toJson
                        found.toJson))) =
        some (some (some (), true)) := by
    decide +kernel
  rw [hStored, Option.map_some, Option.some.injEq,
    Option.map_eq_some_iff] at hShown
  rcases hShown with ⟨found, hFound, hBoth⟩
  rw [Prod.mk.injEq, decide_eq_true_eq] at hBoth
  have hValid := Result.eq_ok_of_toOption hBoth.1
  have hFilled :=
    found.validate_flatten.exists_ok_iff.1 ⟨(), hValid⟩
  have hId :
      (bareTracked found).objectId =
        .ok ⟨"ci", "build"⟩ := by
    change ObjectId.parse "ci/build" = _
    exact Result.eq_ok_of_toOption (by decide +kernel)
  have hConfig :
      configured .task .update (describedConfig "new") =
        .ok (describedTask "new") :=
    Result.eq_ok_of_toOption (by decide +kernel)
  have hNot :
      ¬HasGround (bareTracked found) (describedTask "new")
        found stored.object := by
    intro hGround
    rcases hGround _ hBoth.2 (List.cons_ne_nil _ _) with
      ⟨members, hMembers⟩
    cases hBare.symm.trans hMembers
  rcases (update_refused_iff memoryEngine rfl hWritten
      hStored hFound hFilled hId (Or.inl rfl)
      hConfig).2.1 hNot with
    ⟨message, hRun⟩
  exact ⟨stored, found, message, hWritten, hStored, hFound,
    hFilled, hConfig, hRun⟩

end Engine

end Converge
