import Converge.Proofs.Lifecycle.Operation
import Converge.Proofs.Store.Revision

/-
  What reads and updates of tracked objects do.

  An update prepares a document without any call, sends it
  unless it is empty, and reads the object back. Whatever
  fails, the tracked object is as it was; only what the store
  accepted before cannot be taken back.

  Key definitions:
    * `Engine.Prepared`: what an update sends
    * `Engine.Sent`: the session once it is sent
    * `Engine.Carried`: what is stored once it is carried out

  Main declarations:
    * `Engine.readAs_cases`: what a read does
    * `Engine.update_carried`: an update that is carried out
    * `Engine.update_cases`: what an update does
-/

namespace Converge

namespace Engine

open MemoryStore (Untouched address)

variable {kind : Kind}

------------------------------------------------------------
-- Reading
------------------------------------------------------------

/- A read keeps the object that it finds, or nothing. -/
theorem run_readAs
    (engine : Engine MemoryStore)
    (hStore : engine.store = MemoryStore.store)
    (kind : Kind)
    (operation : Operation)
    {tracked : Tracked}
    {id : ObjectId}
    (hId : tracked.objectId = .ok id)
    (session : Session MemoryStore) :
    (engine.readAs kind operation).run tracked session =
      match
          Client.decoded kind
            (session.state.get (address kind id)).1 with
      | .ok object =>
          ((.ok (), tracked.observed object.flatten),
            ⟨session.now,
              (session.state.get (address kind id)).2⟩)
      | .error fault =>
          ((.error
              (.store (.ofId kind id) operation fault),
              tracked),
            ⟨session.now,
              (session.state.get (address kind id)).2⟩) := by
  rw [readAs_eq, hId, hStore]
  simp only [Client.run_get]
  cases
      Client.decoded kind
        (session.state.get (address kind id)).1 <;> rfl

/- A read finds what is stored, and writes nothing. -/
theorem readAs_cases
    (engine : Engine MemoryStore)
    (hStore : engine.store = MemoryStore.store)
    (kind : Kind)
    (operation : Operation)
    {tracked : Tracked}
    {id : ObjectId}
    (hId : tracked.objectId = .ok id)
    (session : Session MemoryStore) :
    ∃ after,
      Untouched session.state after ∧
        ((∃ fault,
            (engine.readAs kind operation).run tracked
                session =
              ((.error fault, tracked),
                ⟨session.now, after⟩)) ∨
          ∃ stored object,
            after.stored? (address kind id) = some stored ∧
              Object.decode? kind stored.object =
                some object ∧
              (engine.readAs kind operation).run tracked
                  session =
                ((.ok (), tracked.observed object.flatten),
                  ⟨session.now, after⟩)) := by
  have hRun := engine.run_readAs hStore kind operation hId
    session
  refine ⟨_, MemoryStore.untouched_get (address kind id)
    session.state, ?_⟩
  rw [hRun]
  cases hGet : session.state.get (address kind id) with
  | mk answer after =>
      cases hFound : Client.decoded kind answer with
      | error fault => exact Or.inl ⟨_, rfl⟩
      | ok object =>
          right
          rcases Client.decoded_eq_ok_iff.1 hFound with
            ⟨value, rfl, hDecode⟩
          rcases MemoryStore.get_eq_ok hGet with
            ⟨stored, hStored, rfl⟩
          exact ⟨stored, object, hStored, hDecode, rfl⟩

------------------------------------------------------------
-- Updating
------------------------------------------------------------

/- A configuration without defects has an object. -/
theorem configured_eq_ok_iff
    {operation : Operation}
    {config : ConfigMap}
    {object : Object kind} :
    configured kind operation config = .ok object ↔
      Object.validate kind config = .ok () ∧
        Object.expand kind config = .ok object := by
  unfold configured
  cases Object.validate kind config with
  | error fault => simp [Except.bind]
  | ok _ =>
      cases Object.expand kind config <;>
        simp [Except.bind]

/- What an update of a tracked object is about: the identity,
   the wanted object and the object of the snapshot. -/
structure Prepared
    (tracked : Tracked)
    (id : ObjectId)
    (wanted previous : Object kind) : Prop where
  identity : tracked.objectId = .ok id
  valid : Object.validate kind tracked.config = .ok ()
  wanted : Object.expand kind tracked.config = .ok wanted
  previous :
    Object.expand kind (tracked.state.getD []) = .ok previous

section Prepared

variable {tracked : Tracked}
variable {id : ObjectId}
variable {wanted previous : Object kind}
variable (hPrepared : Prepared tracked id wanted previous)

include hPrepared

/- The configuration has no defect. -/
theorem Prepared.configured :
    configured kind .update tracked.config = .ok wanted :=
  configured_eq_ok_iff.2 ⟨hPrepared.valid, hPrepared.wanted⟩

/- The document of the update leads from the snapshot to the
   wanted object. -/
theorem Prepared.document :
    Object.diffConfigs kind tracked.config
        (tracked.state.getD []) =
      .ok (wanted.diff previous) := by
  unfold Object.diffConfigs
  rw [hPrepared.wanted, hPrepared.previous]
  rfl

end Prepared

/- The session once the document of an update was sent. An
   empty document is not sent. -/
inductive Sent
    (id : ObjectId)
    (wanted previous : Object kind)
    (session : Session MemoryStore) :
    Session MemoryStore → Prop
  | nothing :
      wanted.diff previous = [] →
        Sent id wanted previous session session
  | patch
      {stored : StoredObject}
      {made : Json} :
      wanted.diff previous ≠ [] →
        session.state.stored? (address kind id) =
            some stored →
          Patch.apply
              ((Diff.edits wanted.toJson previous.toJson).map
                Edit.instruction)
              stored.object = .ok made →
            Sent id wanted previous session
              ⟨session.now,
                session.state.accept (address kind id) stored
                  (session.state.revised stored.object made)⟩

/- An update with a prepared document. -/
theorem update_of_prepared
    {σ : Type}
    (engine : Engine σ)
    {tracked : Tracked}
    {id : ObjectId}
    {wanted previous : Object kind}
    (hPrepared : Prepared tracked id wanted previous)
    (session : Session σ) :
    (engine.update kind).run tracked session =
      if wanted.diff previous = [] then
        (engine.readAs kind .update).run tracked session
      else
        match
            (Client.update engine.store kind id.namespaceName
              id.name (wanted.diff previous).text).run
                session with
        | (.ok _, later) =>
            (engine.readAs kind .update).run tracked later
        | (.error fault, later) =>
            ((.error
                (.store (.ofId kind id) .update fault),
                tracked),
              later) := by
  rw [update_eq, hPrepared.identity, hPrepared.configured,
    hPrepared.document]
  cases hDiff : wanted.diff previous with
  | nil => simp only [if_true]
  | cons entry rest =>
      simp only [reduceCtorEq, if_false]
      rcases (Client.update engine.store kind
          id.namespaceName id.name
          (PatchDocument.text (entry :: rest))).run session
        with ⟨_ | _, _⟩ <;> rfl

theorem run_update
    (engine : Engine MemoryStore)
    (hStore : engine.store = MemoryStore.store)
    {tracked : Tracked}
    {id : ObjectId}
    {wanted previous : Object kind}
    (hPrepared : Prepared tracked id wanted previous)
    (session : Session MemoryStore) :
    (engine.update kind).run tracked session =
      if wanted.diff previous = [] then
        (engine.readAs kind .update).run tracked session
      else
        match
            (Client.update MemoryStore.store kind
              id.namespaceName id.name
              (wanted.diff previous).text).run session with
        | (.ok _, later) =>
            (engine.readAs kind .update).run tracked later
        | (.error fault, later) =>
            ((.error
                (.store (.ofId kind id) .update fault),
                tracked),
              later) := by
  rw [engine.update_of_prepared hPrepared, hStore]
  rcases (Client.update MemoryStore.store kind
      id.namespaceName id.name
      (wanted.diff previous).text).run session with
    ⟨_ | _, _⟩ <;> rfl

/- What is stored, and the store, once an update was carried
   out whose document makes `made` of what was stored. An
   empty document is not sent. -/
inductive Carried
    (id : ObjectId)
    (wanted previous : Object kind)
    (store : MemoryStore)
    (stored : StoredObject)
    (made : Json) :
    Json → MemoryStore → Prop
  | idle :
      wanted.diff previous = [] →
        Carried id wanted previous store stored made
          stored.object store
  | sent :
      wanted.diff previous ≠ [] →
        Carried id wanted previous store stored made
          (store.revised stored.object made)
          (store.accept (address kind id) stored
            (store.revised stored.object made))

section Carried

variable {id : ObjectId}
variable {wanted previous : Object kind}
variable {stored : StoredObject}
variable {made current : Json}

theorem Carried.stored?
    {store after : MemoryStore}
    (hCarried :
      Carried id wanted previous store stored made current
        after)
    (hStored :
      store.stored? (address kind id) = some stored) :
    after.stored? (address kind id) =
        some { stored with object := current } ∧
      ∀ other, other ≠ address kind id →
        after.stored? other = store.stored? other := by
  cases hCarried with
  | idle => exact ⟨hStored, fun _ _ => rfl⟩
  | sent =>
      constructor
      · rw [MemoryStore.stored?_accept, if_pos rfl]
      · intro other hOther
        rw [MemoryStore.stored?_accept, if_neg hOther]

/- An update of an object in sight succeeds whose document can
   be carried out and leaves an object of the kind, which the
   snapshot then is. -/
theorem update_carried
    (engine : Engine MemoryStore)
    (hStore : engine.store = MemoryStore.store)
    {tracked : Tracked}
    {session : Session MemoryStore}
    {found revised : Object kind}
    (hPrepared : Prepared tracked id wanted previous)
    (hStored :
      session.state.stored? (address kind id) = some stored)
    (hHidden : stored.hiddenReads = 0)
    (hLasting : stored.lingeringReads = none)
    (hFound :
      Object.decode? kind stored.object = some found)
    (hApply :
      Patch.apply
          ((Diff.edits wanted.toJson previous.toJson).map
            Edit.instruction)
          stored.object = .ok made)
    (hName :
      MemoryStore.metadataText "name" made = id.name)
    (hNamespace :
      MemoryStore.metadataText "namespace" made =
        id.namespaceName)
    (hRevised :
      Object.decode? kind
          (session.state.revised stored.object made) =
        some revised) :
    ∃ current after reached,
      Carried id wanted previous session.state stored made
          current after ∧
        Object.decode? kind current = some reached ∧
        (engine.update kind).run tracked session =
          ((.ok (), tracked.observed reached.flatten),
            ⟨session.now, after⟩) := by
  have hRead :
      ∀ {current after reached},
        Carried id wanted previous session.state stored made
            current after →
          Object.decode? kind current = some reached →
            (engine.readAs kind .update).run tracked
                ⟨session.now, after⟩ =
              ((.ok (), tracked.observed reached.flatten),
                ⟨session.now, after⟩) := by
    intro current after reached hCarried hReached
    have hGet := MemoryStore.get_of_visible
      (hCarried.stored? hStored).1 hHidden hLasting
    rw [engine.run_readAs hStore kind .update
      hPrepared.identity, hGet,
      Client.decoded_eq_ok_iff.2 ⟨_, rfl, hReached⟩]
  rw [engine.run_update hStore hPrepared]
  by_cases hEmpty : wanted.diff previous = []
  · rw [if_pos hEmpty]
    exact ⟨_, _, found, .idle hEmpty, hFound,
      hRead (.idle hEmpty) hFound⟩
  · rw [if_neg hEmpty,
      MemoryStore.update_of_apply wanted previous hStored
        hApply hName hNamespace,
      Client.decoded_eq_ok_iff.2 ⟨_, rfl, hRevised⟩]
    exact ⟨_, _, revised, .sent hEmpty, hRevised,
      hRead (.sent hEmpty) hRevised⟩

end Carried

/- Without a prepared document nothing happens. -/
theorem update_prepared_or_error
    (engine : Engine MemoryStore)
    (kind : Kind)
    (tracked : Tracked)
    (session : Session MemoryStore) :
    (∃ fault,
        (engine.update kind).run tracked session =
          ((.error fault, tracked), session)) ∨
      ∃ id, ∃ wanted previous : Object kind,
        Prepared tracked id wanted previous := by
  rw [update_eq]
  cases hId : tracked.objectId with
  | error fault => exact Or.inl ⟨_, rfl⟩
  | ok id =>
      cases hConfigured :
          configured kind .update tracked.config with
      | error fault =>
          exact Or.inl ⟨fault, rfl⟩
      | ok wanted =>
          cases hDocument :
              Object.diffConfigs kind tracked.config
                (tracked.state.getD []) with
          | error fault => exact Or.inl ⟨_, rfl⟩
          | ok document =>
              right
              have hWanted := configured_eq_ok_iff.1 hConfigured
              rcases Result.bind_eq_ok_iff.1 hDocument with
                ⟨current, _, hRest⟩
              rcases Result.bind_eq_ok_iff.1 hRest with
                ⟨previous, hPrevious, _⟩
              exact ⟨id, wanted, previous, hId, hWanted.1,
                hWanted.2, hPrevious⟩

/- An update does nothing, or sends its document, and fails
   or goes on to a read. -/
theorem update_cases
    (engine : Engine MemoryStore)
    (hStore : engine.store = MemoryStore.store)
    (kind : Kind)
    (tracked : Tracked)
    (session : Session MemoryStore) :
    (∃ fault,
        (engine.update kind).run tracked session =
          ((.error fault, tracked), session)) ∨
      ∃ id, ∃ wanted previous : Object kind, ∃ later,
        Prepared tracked id wanted previous ∧
          Sent id wanted previous session later ∧
          ((∃ fault,
              (engine.update kind).run tracked session =
                ((.error fault, tracked), later)) ∨
            (engine.update kind).run tracked session =
              (engine.readAs kind .update).run tracked
                later) := by
  rcases engine.update_prepared_or_error kind tracked
      session with
    hFailed | ⟨id, wanted, previous, hPrepared⟩
  · exact Or.inl hFailed
  · have hRun := engine.run_update hStore hPrepared session
    by_cases hEmpty : wanted.diff previous = []
    · rw [if_pos hEmpty] at hRun
      exact Or.inr ⟨id, wanted, previous, session, hPrepared,
        .nothing hEmpty, Or.inr hRun⟩
    · rw [if_neg hEmpty] at hRun
      rcases MemoryStore.update_patched wanted previous id
          session with
        ⟨fault, hRefused⟩ | ⟨stored, made, hStored, hApply, hSent⟩
      · rw [hRefused] at hRun
        exact Or.inl ⟨_, hRun⟩
      · rw [hSent] at hRun
        refine Or.inr ⟨id, wanted, previous, _, hPrepared,
          .patch hEmpty hStored hApply, ?_⟩
        cases hReply :
            Client.decoded kind
              (.ok
                (session.state.revised stored.object
                  made)) with
        | error fault =>
            rw [hReply] at hRun
            exact Or.inl ⟨_, hRun⟩
        | ok object =>
            rw [hReply] at hRun
            exact Or.inr hRun

end Engine

end Converge
