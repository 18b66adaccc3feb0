import Converge.Proofs.Lifecycle.Operation

/-
  What operations leave of a tracked object.

  Over any store, an operation changes the tracked object at
  its very end, and by what the store answered only; a
  creation does so as soon as the store has accepted the
  object, too. So an operation that fails leaves the tracked
  object as it was, but for an object that was accepted.

  Key definitions:
    * `Engine.Accepted`: the store took a configured object
    * `Engine.Delivered`: the document of an update was sent
    * `Tracked.SameWish`: the same is wanted of an object

  Main declarations:
    * `Engine.run_create_of_accepted`,
      `Engine.run_create_of_refused`: what becomes of a
      submission
    * `Engine.operations_atomic`
-/

namespace Converge

/- What the host wants, and how long it waits for it, is the
   same. -/
structure Tracked.SameWish (before after : Tracked) : Prop where
  config : after.config = before.config
  timeouts : after.timeouts = before.timeouts

theorem Tracked.SameWish.refl (tracked : Tracked) :
    tracked.SameWish tracked :=
  ⟨rfl, rfl⟩

/- An operation that changes nothing where it fails only has
   to keep the wish where it succeeds. -/
theorem Tracked.sameWish_of_result
    {tracked after : Tracked}
    {result : Except LifecycleError Unit}
    (hFailed :
      ∀ fault, result = .error fault → after = tracked)
    (hOk : result = .ok () → tracked.SameWish after) :
    tracked.SameWish after := by
  cases result with
  | error fault =>
      rw [hFailed fault rfl]
      exact .refl tracked
  | ok _ => exact hOk rfl

namespace Engine

variable {σ : Type} {kind : Kind}

------------------------------------------------------------
-- Creating
------------------------------------------------------------

/- The store accepted a configured object, and what it
   answered can be read and names the object. -/
structure Accepted
    (engine : Engine σ)
    (tracked : Tracked)
    (session : Session σ)
    (wanted : Object kind)
    (id : ObjectId)
    (submitted : Object kind)
    (between : Session σ) : Prop where
  configured :
    configured kind .create tracked.config = .ok wanted
  reply :
    (Client.create engine.store
        (engine.inNamespace wanted)).run session =
      (.ok submitted, between)
  identity : ObjectId.ofMeta submitted.metadata = .ok id

/- An accepted object is tracked, whatever becomes of the
   wait. -/
theorem run_create_of_accepted
    {engine : Engine σ}
    {tracked : Tracked}
    {session between : Session σ}
    {wanted submitted : Object kind}
    {id : ObjectId}
    (hAccepted :
      engine.Accepted tracked session wanted id submitted
        between) :
    (engine.create kind).run tracked session =
      match
          ((engine.creationWait tracked.timeouts).run
            engine.timer (.ofId kind id) .create engine.signal
            (engine.observeCreation kind id)).run
              between with
      | (.error fault, later) =>
          ((.error fault,
              tracked.submitted id submitted.flatten),
            later)
      | (.ok seen, later) =>
          ((.ok (),
              tracked.submitted id
                (seen.getD submitted).flatten),
            later) := by
  rcases hWait :
      ((engine.creationWait tracked.timeouts).run
        engine.timer (.ofId kind id) .create engine.signal
        (engine.observeCreation kind id)).run between with
    ⟨fault | seen, later⟩
  all_goals
    simp only [create_eq, hAccepted.configured,
      hAccepted.reply, hAccepted.identity, hWait]

/- Without an accepted object a creation fails, and tracks
   nothing new. -/
theorem run_create_of_refused
    {engine : Engine σ}
    {tracked : Tracked}
    {session : Session σ}
    (hRefused :
      ∀ wanted id between, ∀ submitted : Object kind,
        ¬engine.Accepted tracked session wanted id submitted
          between) :
    ∃ fault later,
      (engine.create kind).run tracked session =
        ((.error fault, tracked), later) := by
  rw [create_eq]
  cases hConfigured :
      configured kind .create tracked.config with
  | error fault => exact ⟨_, _, rfl⟩
  | ok wanted =>
      simp only
      rcases hReply :
          (Client.create engine.store
            (engine.inNamespace wanted)).run session with
        ⟨fault | submitted, between⟩
      · exact ⟨_, _, rfl⟩
      · cases hId : ObjectId.ofMeta submitted.metadata with
        | error fault => exact ⟨_, _, by simp only [hId]; rfl⟩
        | ok id =>
            exact absurd ⟨hConfigured, hReply, hId⟩
              (hRefused wanted id between submitted)

/- What a creation leaves of the tracked object. -/
theorem create_atomic
    (engine : Engine σ)
    (kind : Kind)
    (tracked : Tracked)
    (session : Session σ) :
    let made := (engine.create kind).run tracked session
    tracked.SameWish made.1.2 ∧
      ∀ fault, made.1.1 = .error fault →
        (made.1.2 = tracked ∧
            ∀ wanted id between, ∀ submitted : Object kind,
              ¬engine.Accepted tracked session wanted id
                submitted between) ∨
          ∃ wanted id between, ∃ submitted : Object kind,
            engine.Accepted tracked session wanted id
                submitted between ∧
              made.1.2 =
                { tracked with
                  id := id.text
                  state := some submitted.flatten } := by
  intro made
  by_cases hAccepted :
      ∃ wanted id between, ∃ submitted : Object kind,
        engine.Accepted tracked session wanted id submitted
          between
  · rcases hAccepted with
      ⟨wanted, id, between, submitted, hAccepted⟩
    have hMade := run_create_of_accepted hAccepted
    generalize
      ((engine.creationWait tracked.timeouts).run
        engine.timer (.ofId kind id) .create engine.signal
        (engine.observeCreation kind id)).run between =
          outcome at hMade
    change made = _ at hMade
    rcases outcome with ⟨fault | seen, later⟩
    · rw [hMade]
      exact ⟨⟨rfl, rfl⟩, fun _ _ => Or.inr
        ⟨wanted, id, between, submitted, hAccepted, rfl⟩⟩
    · rw [hMade]
      exact ⟨⟨rfl, rfl⟩, nofun⟩
  · have hRefused :
        ∀ wanted id between, ∀ submitted : Object kind,
          ¬engine.Accepted tracked session wanted id
            submitted between :=
      fun wanted id between submitted hAccepts =>
        hAccepted
          ⟨wanted, id, between, submitted, hAccepts⟩
    rcases run_create_of_refused hRefused with
      ⟨fault, later, hRun⟩
    have hMade : made = ((.error fault, tracked), later) :=
      hRun
    rw [hMade]
    exact ⟨.refl tracked, fun _ _ => Or.inl ⟨rfl, hRefused⟩⟩

------------------------------------------------------------
-- Reading and Updating
------------------------------------------------------------

/- A read that succeeded ended with the object of a get,
   which is the snapshot now. -/
def ReadBack
    (engine : Engine σ)
    (kind : Kind)
    (tracked : Tracked)
    (before later : Session σ)
    (after : Tracked) : Prop :=
  ∃ id, ∃ object : Object kind,
    tracked.objectId = .ok id ∧
      (Client.get engine.store kind id.namespaceName
          id.name).run before = (.ok object, later) ∧
      after = { tracked with state := some object.flatten }

theorem ReadBack.sameWish
    {engine : Engine σ}
    {tracked after : Tracked}
    {before later : Session σ}
    (h : engine.ReadBack kind tracked before later after) :
    tracked.SameWish after := by
  rcases h with ⟨_, _, _, _, rfl⟩
  exact ⟨rfl, rfl⟩

/- What a read leaves of the tracked object. -/
theorem readAs_atomic
    (engine : Engine σ)
    (kind : Kind)
    (operation : Operation)
    (tracked : Tracked)
    (session : Session σ) :
    let seen :=
      (engine.readAs kind operation).run tracked session
    (∀ fault, seen.1.1 = .error fault →
        seen.1.2 = tracked) ∧
      (seen.1.1 = .ok () →
        engine.ReadBack kind tracked session seen.2
          seen.1.2) := by
  rw [readAs_eq]
  cases hId : tracked.objectId with
  | error fault => exact ⟨fun _ _ => rfl, nofun⟩
  | ok id =>
      simp only
      rcases hRun :
          (Client.get engine.store kind id.namespaceName
            id.name).run session with
        ⟨fault | object, later⟩
      · exact ⟨fun _ _ => rfl, nofun⟩
      · exact ⟨nofun, fun _ => ⟨id, object, hId, hRun, rfl⟩⟩

/- The session once the document of an update was sent. An
   empty document is not sent. -/
inductive Delivered
    (engine : Engine σ)
    (kind : Kind)
    (tracked : Tracked)
    (session : Session σ) :
    Session σ → Prop
  | nothing :
      Object.diffConfigs kind tracked.config
          (tracked.state.getD []) = .ok [] →
        Delivered engine kind tracked session session
  | patch
      {id : ObjectId}
      {document : PatchDocument}
      {reply : Object kind}
      {later : Session σ} :
      tracked.objectId = .ok id →
        Object.diffConfigs kind tracked.config
            (tracked.state.getD []) = .ok document →
          document ≠ [] →
            (Client.update engine.store kind id.namespaceName
                id.name document.text).run session =
                (.ok reply, later) →
              Delivered engine kind tracked session later

/- An update fails, or goes on to a read once its document
   was sent. -/
theorem update_delivered
    (engine : Engine σ)
    (kind : Kind)
    (tracked : Tracked)
    (session : Session σ) :
    (∃ fault later,
        (engine.update kind).run tracked session =
          ((.error fault, tracked), later)) ∨
      ∃ between,
        engine.Delivered kind tracked session between ∧
          (engine.update kind).run tracked session =
            (engine.readAs kind .update).run tracked
              between := by
  rw [update_eq]
  cases hId : tracked.objectId with
  | error fault => exact Or.inl ⟨_, _, rfl⟩
  | ok id =>
      simp only
      cases configured kind .update tracked.config with
      | error fault => exact Or.inl ⟨_, _, rfl⟩
      | ok wanted =>
          simp only
          rcases hDocument :
              Object.diffConfigs kind tracked.config
                (tracked.state.getD []) with
            fault | _ | ⟨entry, rest⟩
          · exact Or.inl ⟨_, _, rfl⟩
          · exact Or.inr ⟨session, .nothing hDocument, rfl⟩
          · simp only
            rcases hSent :
                (Client.update engine.store kind
                  id.namespaceName id.name
                  (PatchDocument.text
                    (entry :: rest))).run session with
              ⟨fault | reply, between⟩
            · exact Or.inl ⟨_, _, rfl⟩
            · exact Or.inr
                ⟨between,
                  .patch hId hDocument
                    (List.cons_ne_nil _ _) hSent,
                  rfl⟩

/- What an update leaves of the tracked object. -/
theorem update_atomic
    (engine : Engine σ)
    (kind : Kind)
    (tracked : Tracked)
    (session : Session σ) :
    let made := (engine.update kind).run tracked session
    (∀ fault, made.1.1 = .error fault →
        made.1.2 = tracked) ∧
      (made.1.1 = .ok () →
        ∃ between,
          engine.Delivered kind tracked session between ∧
            engine.ReadBack kind tracked between made.2
              made.1.2) := by
  rcases engine.update_delivered kind tracked session with
    ⟨fault, later, hRun⟩ | ⟨between, hDelivered, hRun⟩
  · rw [hRun]
    exact ⟨fun _ _ => rfl, nofun⟩
  · rw [hRun]
    have hRead := engine.readAs_atomic kind .update tracked
      between
    exact ⟨hRead.1,
      fun hOk => ⟨between, hDelivered, hRead.2 hOk⟩⟩

------------------------------------------------------------
-- Deleting
------------------------------------------------------------

/- A deletion fails, or clears the tracked object. -/
theorem delete_ends
    (engine : Engine σ)
    (kind : Kind)
    (tracked : Tracked)
    (session : Session σ) :
    (∃ fault later,
        (engine.delete kind).run tracked session =
          ((.error fault, tracked), later)) ∨
      ∃ later,
        (engine.delete kind).run tracked session =
          ((.ok (), tracked.clear), later) := by
  rw [delete_eq]
  cases tracked.objectId with
  | error fault => exact Or.inl ⟨_, _, rfl⟩
  | ok id =>
      simp only
      rcases (Client.delete engine.store kind
          id.namespaceName id.name).run session with
        ⟨fault | _, marked⟩
      · simp only
        split
        · exact Or.inr ⟨_, rfl⟩
        · exact Or.inl ⟨_, _, rfl⟩
      · simp only
        rcases ((engine.deletionWait
            tracked.timeouts).run engine.timer
            (.ofId kind id) .delete engine.signal
            (engine.observeDeletion kind id)).run marked with
          ⟨fault | value, later⟩
        · exact Or.inl ⟨_, _, rfl⟩
        · exact Or.inr ⟨_, rfl⟩

/- What a deletion leaves of the tracked object. -/
theorem delete_atomic
    (engine : Engine σ)
    (kind : Kind)
    (tracked : Tracked)
    (session : Session σ) :
    let made := (engine.delete kind).run tracked session
    (∀ fault, made.1.1 = .error fault →
        made.1.2 = tracked) ∧
      (made.1.1 = .ok () →
        made.1.2 =
          { tracked with id := "", state := none }) := by
  rcases engine.delete_ends kind tracked session with
    ⟨fault, later, hRun⟩ | ⟨later, hRun⟩
  · rw [hRun]
    exact ⟨fun _ _ => rfl, nofun⟩
  · rw [hRun]
    exact ⟨nofun, fun _ => rfl⟩

------------------------------------------------------------
-- Questions
------------------------------------------------------------

/- A question does nothing, or what one get does. -/
theorem probe_atomic
    (engine : Engine σ)
    (kind : Kind)
    (tracked : Tracked)
    (session : Session σ) :
    let later := ((engine.probe kind tracked).run session).2
    later = session ∨
      ∃ id, tracked.objectId = .ok id ∧
        later =
          ((Client.get engine.store kind id.namespaceName
            id.name).run session).2 := by
  rw [probe_eq]
  cases hId : tracked.objectId with
  | error fault => exact Or.inl rfl
  | ok id =>
      refine Or.inr ⟨id, rfl, ?_⟩
      simp only
      rcases (Client.get engine.store kind id.namespaceName
          id.name).run session with
        ⟨fault | _, _⟩
      · simp only
        split <;> rfl
      · rfl

/- An adoption that succeeds starts from what it got. -/
theorem adopt_atomic
    (engine : Engine σ)
    (kind : Kind)
    (session : Session σ)
    (written : String)
    (adopted : Tracked)
    (later : Session σ)
    (hRun :
      (engine.adopt kind written).run session =
        (.ok adopted, later)) :
    ∃ id, ∃ object : Object kind,
      ObjectId.parse written = .ok id ∧
        (Client.get engine.store kind id.namespaceName
            id.name).run session =
          (.ok object, later) ∧
        adopted =
          ⟨written, object.flatten, some object.flatten,
            .standard⟩ := by
  rw [adopt_eq] at hRun
  cases hId : ObjectId.parse written with
  | error fault =>
      rw [hId] at hRun
      cases hRun
  | ok id =>
      simp only [hId] at hRun
      rcases hGet :
          (Client.get engine.store kind id.namespaceName
            id.name).run session with
        ⟨fault | object, after⟩
      · rw [hGet] at hRun
        cases hRun
      · rw [hGet] at hRun
        cases hRun
        exact ⟨id, object, rfl, hGet, rfl⟩

------------------------------------------------------------
-- All Operations
------------------------------------------------------------

/-
  Whatever a store answers and whenever an operation is asked
  to stop: what is wanted of the object stays the same. An
  operation that fails leaves the tracked object as it was,
  but for a creation whose object was accepted, which is
  tracked as it was answered. A read or an update that
  succeeds keeps the object that it got last, and a deletion
  that succeeds keeps nothing. A question does no more than
  one get, and an adoption starts from what it got.
-/
theorem operations_atomic
    (engine : Engine σ)
    (kind : Kind)
    (tracked : Tracked)
    (session : Session σ) :
    (let made := (engine.create kind).run tracked session
     tracked.SameWish made.1.2 ∧
       ∀ fault, made.1.1 = .error fault →
         (made.1.2 = tracked ∧
             ∀ wanted id between, ∀ submitted : Object kind,
               ¬engine.Accepted tracked session wanted id
                 submitted between) ∨
           ∃ wanted id between, ∃ submitted : Object kind,
             engine.Accepted tracked session wanted id
                 submitted between ∧
               made.1.2 =
                 { tracked with
                   id := id.text
                   state := some submitted.flatten }) ∧
      (let seen := (engine.read kind).run tracked session
       tracked.SameWish seen.1.2 ∧
         (∀ fault, seen.1.1 = .error fault →
           seen.1.2 = tracked) ∧
         (seen.1.1 = .ok () →
           engine.ReadBack kind tracked session seen.2
             seen.1.2)) ∧
      (let made := (engine.update kind).run tracked session
       tracked.SameWish made.1.2 ∧
         (∀ fault, made.1.1 = .error fault →
           made.1.2 = tracked) ∧
         (made.1.1 = .ok () →
           ∃ between,
             engine.Delivered kind tracked session between ∧
               engine.ReadBack kind tracked between made.2
                 made.1.2)) ∧
      (let made := (engine.delete kind).run tracked session
       tracked.SameWish made.1.2 ∧
         (∀ fault, made.1.1 = .error fault →
           made.1.2 = tracked) ∧
         (made.1.1 = .ok () →
           made.1.2 =
             { tracked with id := "", state := none })) ∧
      (let later :=
         ((engine.probe kind tracked).run session).2
       later = session ∨
         ∃ id, tracked.objectId = .ok id ∧
           later =
             ((Client.get engine.store kind id.namespaceName
               id.name).run session).2) ∧
      ∀ written adopted later,
        (engine.adopt kind written).run session =
            (.ok adopted, later) →
          ∃ id, ∃ object : Object kind,
            ObjectId.parse written = .ok id ∧
              (Client.get engine.store kind id.namespaceName
                  id.name).run session =
                (.ok object, later) ∧
              adopted =
                ⟨written, object.flatten,
                  some object.flatten, .standard⟩ := by
  have hRead := engine.readAs_atomic kind .read tracked session
  have hUpdate := engine.update_atomic kind tracked session
  have hDelete := engine.delete_atomic kind tracked session
  refine ⟨engine.create_atomic kind tracked session,
    ⟨Tracked.sameWish_of_result hRead.1 ?_, hRead⟩,
    ⟨Tracked.sameWish_of_result hUpdate.1 ?_, hUpdate⟩,
    ⟨Tracked.sameWish_of_result hDelete.1 ?_, hDelete⟩,
    engine.probe_atomic kind tracked session,
    engine.adopt_atomic kind session⟩
  · intro hOk
    exact (hRead.2 hOk).sameWish
  · intro hOk
    rcases hUpdate.2 hOk with ⟨_, _, hBack⟩
    exact hBack.sameWish
  · intro hOk
    rw [hDelete.2 hOk]
    exact ⟨rfl, rfl⟩

end Engine

end Converge
