import Converge.Lifecycle.Engine
import Converge.Proofs.Result
import Converge.Proofs.Store.Client

/-
  Operations as functions of the calls that they make.

  Each operation on a tracked object is told once, over any
  store: which calls it makes, one after the other, and what
  comes of their answers. No other proof opens an operation.

  Key definitions:
    * `Engine.creationSeen`, `Engine.deletionSeen`: what an
      observation shows

  Main declarations:
    * `Work.run_bind`: operations one after the other
    * `Engine.run_observeCreation`,
      `Engine.run_observeDeletion`: an observation is one
      call
    * `Engine.readAs_eq`, `Engine.create_eq`,
      `Engine.update_eq`, `Engine.delete_eq`,
      `Engine.probe_eq`, `Engine.adopt_eq`
-/

namespace Converge

theorem Calls.run_attempt
    {σ ε δ α : Type}
    (calls : Calls σ ε α)
    (session : Session σ) :
    (calls.attempt : Calls σ δ (Except ε α)).run session =
      (.ok (calls.run session).1, (calls.run session).2) :=
  rfl

namespace Work

variable {σ α β : Type}

------------------------------------------------------------
-- Operations
------------------------------------------------------------

/- Operations one after the other. -/
theorem run_bind
    (work : Work σ α)
    (next : α → Work σ β)
    (tracked : Tracked)
    (session : Session σ) :
    (work >>= next).run tracked session =
      match work.run tracked session with
      | ((.ok value, after), later) =>
          (next value).run after later
      | ((.error fault, after), later) =>
          ((.error fault, after), later) := by
  unfold ExceptT.run
  simp only [bind, ExceptT.bind, ExceptT.mk, StateT.bind,
    ExceptT.bindCont]
  cases work tracked session with
  | mk answer later =>
      cases answer with
      | mk result after => cases result <;> rfl

theorem run_ofResult
    {ε : Type}
    (convert : ε → LifecycleError)
    (result : Except ε α)
    (tracked : Tracked)
    (session : Session σ) :
    (ofResult convert result).run tracked session =
      ((result.mapError convert, tracked), session) :=
  rfl

theorem run_ofCalls
    (calls : Calls σ LifecycleError α)
    (tracked : Tracked)
    (session : Session σ) :
    (ofCalls calls).run tracked session =
      (((calls.run session).1, tracked),
        (calls.run session).2) :=
  rfl

theorem run_ofStore
    (object : ObjectRef)
    (operation : Operation)
    (calls : Calls σ StoreError α)
    (tracked : Tracked)
    (session : Session σ) :
    (ofStore object operation calls).run tracked session =
      (((calls.run session).1.mapError
          (.store object operation), tracked),
        (calls.run session).2) :=
  rfl

theorem run_get
    (tracked : Tracked)
    (session : Session σ) :
    (get : Work σ Tracked).run tracked session =
      ((.ok tracked, tracked), session) :=
  rfl

theorem run_modify
    (change : Tracked → Tracked)
    (tracked : Tracked)
    (session : Session σ) :
    (modify change : Work σ Unit).run tracked session =
      ((.ok (), change tracked), session) :=
  rfl

end Work

/- The timeouts of a tracked object never change. -/
@[simp] theorem Tracked.timeouts_submitted
    (id : ObjectId)
    (state : ConfigMap)
    (tracked : Tracked) :
    (tracked.submitted id state).timeouts =
      tracked.timeouts :=
  rfl

namespace Engine

variable {σ : Type}

theorem run_identity
    (tracked : Tracked)
    (session : Session σ) :
    (identity : Work σ ObjectId).run tracked session =
      ((tracked.objectId.mapError .identity, tracked),
        session) :=
  rfl

------------------------------------------------------------
-- Observations
------------------------------------------------------------

/- What an observation of a submitted object shows, by what
   was read. -/
def creationSeen
    (kind : Kind)
    (id : ObjectId) :
    Except StoreError (Object kind) →
      Except LifecycleError (Observation (Object kind))
  | .ok found =>
      match found.readiness with
      | .failed reason message =>
          .error (.failed (.ofId kind id) reason message)
      | readiness => .ok (.found (.ofReadiness readiness) found)
  | .error fault =>
      if fault.isNotFound then .ok (.absent .creating)
      else .error (.store (.ofId kind id) .create fault)

theorem run_observeCreation
    (engine : Engine σ)
    (kind : Kind)
    (id : ObjectId)
    (session : Session σ) :
    (engine.observeCreation kind id).run session =
      let seen :=
        (Client.get engine.store kind id.namespaceName
          id.name).run session
      (creationSeen kind id seen.1, seen.2) := by
  unfold observeCreation
  simp only [Calls.run_bind, Calls.run_attempt]
  rcases (Client.get engine.store kind id.namespaceName
      id.name).run session with
    ⟨fault | found, after⟩
  · simp only [creationSeen]
    split <;> rfl
  · simp only [creationSeen]
    cases found.readiness <;> rfl

/- What an observation of an object shows whose deletion was
   asked for, by what was read. -/
def deletionSeen
    (kind : Kind)
    (id : ObjectId) :
    Except StoreError (Object kind) →
      Except LifecycleError (Observation (Object kind))
  | .ok found => .ok (.found .deleting found)
  | .error fault =>
      if fault.isNotFound then .ok (.absent .deleted)
      else .error (.store (.ofId kind id) .delete fault)

theorem run_observeDeletion
    (engine : Engine σ)
    (kind : Kind)
    (id : ObjectId)
    (session : Session σ) :
    (engine.observeDeletion kind id).run session =
      let seen :=
        (Client.get engine.store kind id.namespaceName
          id.name).run session
      (deletionSeen kind id seen.1, seen.2) := by
  unfold observeDeletion
  simp only [Calls.run_bind, Calls.run_attempt]
  rcases (Client.get engine.store kind id.namespaceName
      id.name).run session with
    ⟨fault | found, after⟩
  · simp only [deletionSeen]
    split <;> rfl
  · rfl

------------------------------------------------------------
-- Operations as Functions of Calls
------------------------------------------------------------

/- A read is one call, whose object is kept. -/
theorem readAs_eq
    (engine : Engine σ)
    (kind : Kind)
    (operation : Operation)
    (tracked : Tracked)
    (session : Session σ) :
    (engine.readAs kind operation).run tracked session =
      match tracked.objectId with
      | .error fault =>
          ((.error (.identity fault), tracked), session)
      | .ok id =>
          match
              (Client.get engine.store kind id.namespaceName
                id.name).run session with
          | (.ok object, later) =>
              ((.ok (), tracked.observed object.flatten),
                later)
          | (.error fault, later) =>
              ((.error
                  (.store (.ofId kind id) operation fault),
                  tracked),
                later) := by
  unfold readAs
  simp only [Work.run_bind, run_identity, Work.run_ofStore]
  cases tracked.objectId with
  | error fault => rfl
  | ok id =>
      simp only [Result.mapError_ok]
      rcases (Client.get engine.store kind id.namespaceName
        id.name).run session with ⟨_ | _, _⟩ <;> rfl

/- A creation is a submission and a wait. -/
theorem create_eq
    (engine : Engine σ)
    (kind : Kind)
    (tracked : Tracked)
    (session : Session σ) :
    (engine.create kind).run tracked session =
      match configured kind .create tracked.config with
      | .error fault => ((.error fault, tracked), session)
      | .ok configured =>
          let wanted := engine.inNamespace configured
          match
              (Client.create engine.store wanted).run
                session with
          | (.error fault, later) =>
              ((.error
                  (.store
                    ⟨kind, wanted.metadata.namespaceName,
                      wanted.metadata.name⟩
                    .create fault),
                  tracked),
                later)
          | (.ok submitted, between) =>
              match ObjectId.ofMeta submitted.metadata with
              | .error fault =>
                  ((.error (.identity fault), tracked),
                    between)
              | .ok id =>
                  match
                      ((engine.creationWait
                        tracked.timeouts).run engine.timer
                        (.ofId kind id) .create engine.signal
                        (engine.observeCreation kind id)).run
                          between with
                  | (.error fault, later) =>
                      ((.error fault,
                          tracked.submitted id
                            submitted.flatten),
                        later)
                  | (.ok seen, later) =>
                      ((.ok (),
                          tracked.submitted id
                            (seen.getD submitted).flatten),
                        later) := by
  unfold create
  simp only [Work.run_bind, Work.run_get, Work.run_ofResult,
    Work.run_ofStore, Work.run_modify, Work.run_ofCalls]
  cases configured kind .create tracked.config with
  | error fault => rfl
  | ok configured =>
      simp only [Result.mapError_ok]
      rcases (Client.create engine.store
          (engine.inNamespace configured)).run session with
        ⟨fault | submitted, between⟩
      · rfl
      · simp only [Result.mapError_ok]
        cases ObjectId.ofMeta submitted.metadata with
        | error fault => rfl
        | ok id =>
            simp only [Result.mapError_ok,
              Tracked.timeouts_submitted]
            rcases ((engine.creationWait
                tracked.timeouts).run engine.timer
                (.ofId kind id) .create engine.signal
                (engine.observeCreation kind id)).run
                  between with
              ⟨_ | _ | _, _⟩ <;> rfl

/- An update is a document, which is sent unless it is empty,
   and a read. -/
theorem update_eq
    (engine : Engine σ)
    (kind : Kind)
    (tracked : Tracked)
    (session : Session σ) :
    (engine.update kind).run tracked session =
      match tracked.objectId with
      | .error fault =>
          ((.error (.identity fault), tracked), session)
      | .ok id =>
          match configured kind .update tracked.config with
          | .error fault => ((.error fault, tracked), session)
          | .ok _ =>
              match
                  Object.diffConfigs kind tracked.config
                    (tracked.state.getD []) with
              | .error fault =>
                  ((.error (.schema kind .update fault),
                      tracked),
                    session)
              | .ok [] =>
                  (engine.readAs kind .update).run tracked
                    session
              | .ok document =>
                  match
                      (Client.update engine.store kind
                        id.namespaceName id.name
                        document.text).run session with
                  | (.ok _, later) =>
                      (engine.readAs kind .update).run tracked
                        later
                  | (.error fault, later) =>
                      ((.error
                          (.store (.ofId kind id) .update
                            fault),
                          tracked),
                        later) := by
  unfold update
  simp only [Work.run_bind, run_identity, Work.run_get,
    Work.run_ofResult]
  cases tracked.objectId with
  | error fault => rfl
  | ok id =>
      simp only [Result.mapError_ok]
      cases configured kind .update tracked.config with
      | error fault => rfl
      | ok wanted =>
          simp only [Result.mapError_ok]
          rcases Object.diffConfigs kind tracked.config
              (tracked.state.getD []) with
            fault | _ | ⟨entry, rest⟩
          · rfl
          · rfl
          · simp only [Result.mapError_ok, List.isEmpty_cons,
              Bool.false_eq_true, if_false, Work.run_bind,
              Work.run_ofStore]
            rcases (Client.update engine.store kind
                id.namespaceName id.name
                (PatchDocument.text
                  (entry :: rest))).run session with
              ⟨_ | _, _⟩ <;> rfl

/- A deletion is a request and a wait. -/
theorem delete_eq
    (engine : Engine σ)
    (kind : Kind)
    (tracked : Tracked)
    (session : Session σ) :
    (engine.delete kind).run tracked session =
      match tracked.objectId with
      | .error fault =>
          ((.error (.identity fault), tracked), session)
      | .ok id =>
          match
              (Client.delete engine.store kind
                id.namespaceName id.name).run session with
          | (.error fault, later) =>
              if fault.isNotFound then
                ((.ok (), tracked.clear), later)
              else
                ((.error
                    (.store (.ofId kind id) .delete fault),
                    tracked),
                  later)
          | (.ok (), marked) =>
              match
                  ((engine.deletionWait
                    tracked.timeouts).run engine.timer
                    (.ofId kind id) .delete engine.signal
                    (engine.observeDeletion kind id)).run
                      marked with
              | (.error fault, later) =>
                  ((.error fault, tracked), later)
              | (.ok _, later) =>
                  ((.ok (), tracked.clear), later) := by
  unfold delete awaitDeletion
  simp only [Work.run_bind, run_identity, Work.run_ofCalls,
    Calls.run_attempt]
  cases tracked.objectId with
  | error fault => rfl
  | ok id =>
      simp only [Result.mapError_ok]
      rcases (Client.delete engine.store kind
          id.namespaceName id.name).run session with
        ⟨fault | _, marked⟩
      · simp only
        split <;> rfl
      · simp only [Work.run_bind, Work.run_get,
          Work.run_ofCalls]
        rcases ((engine.deletionWait
            tracked.timeouts).run engine.timer
            (.ofId kind id) .delete engine.signal
            (engine.observeDeletion kind id)).run marked with
          ⟨_ | _, _⟩ <;> rfl

/- A question about an identity is one call at most. -/
theorem probe_eq
    (engine : Engine σ)
    (kind : Kind)
    (tracked : Tracked)
    (session : Session σ) :
    (engine.probe kind tracked).run session =
      match tracked.objectId with
      | .error fault =>
          ((false, some (.identity fault)), session)
      | .ok id =>
          match
              (Client.get engine.store kind id.namespaceName
                id.name).run session with
          | (.ok _, later) => ((true, none), later)
          | (.error fault, later) =>
              if fault.isNotFound then
                ((false, none), later)
              else
                ((true,
                    some
                      (.store (.ofId kind id) .probe fault)),
                  later) := by
  unfold probe
  cases tracked.objectId with
  | error fault => rfl
  | ok id =>
      simp only [StateT.run_bind]
      rcases hRun :
          (Client.get engine.store kind id.namespaceName
            id.name).run session with
        ⟨fault | object, later⟩ <;>
        rw [show
          StateT.run
              (Client.get engine.store kind id.namespaceName
                id.name).run session = _ from hRun]
      · change StateT.run (ite _ _ _) later = ite _ _ _
        split <;> rfl
      · rfl

/- An adoption is one call, whose object is wanted as it
   is. -/
theorem adopt_eq
    (engine : Engine σ)
    (kind : Kind)
    (written : String)
    (session : Session σ) :
    (engine.adopt kind written).run session =
      match ObjectId.parse written with
      | .error fault => (.error (.identity fault), session)
      | .ok id =>
          match
              (Client.get engine.store kind id.namespaceName
                id.name).run session with
          | (.ok object, later) =>
              (.ok
                  ⟨written, object.flatten,
                    some object.flatten, .standard⟩,
                later)
          | (.error fault, later) =>
              (.error (.store (.ofId kind id) .adopt fault),
                later) := by
  have hRead := engine.readAs_eq kind .adopt (.ofId written)
    session
  have hRun :
      (engine.adopt kind written).run session =
        let outcome :=
          (engine.readAs kind .adopt).run (.ofId written)
            session
        (outcome.1.1.map fun _ =>
            { outcome.1.2 with
              config :=
                outcome.1.2.state.getD outcome.1.2.config },
          outcome.2) :=
    rfl
  have hId :
      (Tracked.ofId written).objectId =
        ObjectId.parse written :=
    rfl
  rw [hRun, hRead, hId]
  cases ObjectId.parse written with
  | error fault => rfl
  | ok id =>
      simp only
      rcases (Client.get engine.store kind id.namespaceName
        id.name).run session with ⟨_ | _, _⟩ <;> rfl

end Engine

end Converge
