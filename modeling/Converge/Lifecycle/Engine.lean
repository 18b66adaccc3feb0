import Converge.Diff
import Converge.Lifecycle.Tracked
import Converge.Lifecycle.Wait
import Converge.Store.Client

/-
  Operations on the life of an object in a store.

  An engine keeps nothing of an object. All that it needs,
  and all that it learns, is in the tracked object that an
  operation is carried out on, also when the operation
  fails half-way.

  Key definitions:
    * `Engine`: a store, and how to use it
    * `Work`: an operation on a tracked object
    * `Engine.create`, `Engine.read`, `Engine.update`,
      `Engine.delete`: operations on tracked objects
    * `Engine.probe`, `Engine.adopt`: questions about an
      identity
-/

namespace Converge

/- A store with the namespace of objects that name none, the
   time between observations, the timer that it is slept by,
   and the signal to stop. -/
structure Engine (σ : Type) where
  store : Store σ
  defaultNamespace : String
  pollInterval : Duration
  timer : Timer
  signal : Signal

/- An operation on a tracked object. -/
abbrev Work (σ : Type) :=
  ExceptT LifecycleError (StateT Tracked (StateM (Session σ)))

namespace Work

variable {σ α : Type}

/- Calls that leave the tracked object as it is. -/
def ofCalls
    (calls : Calls σ LifecycleError α) :
    Work σ α :=
  ExceptT.mk fun tracked session =>
    let (result, session) := calls.run session
    ((result, tracked), session)

/- Calls to a store, about an object. -/
def ofStore
    (object : ObjectRef)
    (operation : Operation)
    (calls : Calls σ StoreError α) :
    Work σ α :=
  ofCalls
    (calls.mapError fun fault =>
      .store object operation fault)

/- What holds or fails without any call. -/
def ofResult
    {ε : Type}
    (convert : ε → LifecycleError)
    (result : Except ε α) :
    Work σ α :=
  ExceptT.mk (pure (result.mapError convert))

end Work

namespace Engine

variable {σ : Type}

------------------------------------------------------------
-- Common Steps
------------------------------------------------------------

/- The identity of the tracked object. -/
def identity : Work σ ObjectId := do
  Work.ofResult .identity (← get).objectId

/- The object of a configuration without defects. -/
def configured
    (kind : Kind)
    (operation : Operation)
    (config : ConfigMap) :
    Except LifecycleError (Object kind) :=
  ((Object.validate kind config).bind fun _ =>
    Object.expand kind config).mapError
      fun fault => .schema kind operation fault

/- Reads an object into the snapshot, as part of an
   operation. -/
def readAs
    (engine : Engine σ)
    (kind : Kind)
    (operation : Operation) :
    Work σ Unit := do
  let id ← identity
  let object ←
    Work.ofStore (.ofId kind id) operation
      (Client.get engine.store kind id.namespaceName id.name)
  modify (Tracked.observed object.flatten)

------------------------------------------------------------
-- Creating
------------------------------------------------------------

/- Observes an object that was submitted. While it is out of
   sight it is still being created. -/
def observeCreation
    (engine : Engine σ)
    (kind : Kind)
    (id : ObjectId) :
    Calls σ LifecycleError (Observation (Object kind)) := do
  let object := ObjectRef.ofId kind id
  let result ←
    (Client.get engine.store kind id.namespaceName
      id.name).attempt
  match result with
  | .ok found =>
      match found.readiness with
      | .failed reason message =>
          throw (.failed object reason message)
      | readiness =>
          return .found (.ofReadiness readiness) found
  | .error fault =>
      if fault.isNotFound then return .absent .creating
      else throw (.store object .create fault)

/- What to wait for after a submission. -/
def creationWait
    (engine : Engine σ)
    (timeouts : Timeouts) :
    StateWait :=
  ⟨[.creating], [.succeeded], timeouts.create,
    engine.pollInterval⟩

/- The object with the namespace of objects that name
   none. -/
def inNamespace
    {kind : Kind}
    (engine : Engine σ)
    (object : Object kind) :
    Object kind :=
  if object.metadata.namespaceName = "" then
    object.withMetadata
      (object.metadata.withNamespace engine.defaultNamespace)
  else object

/-
  Submits the configured object and waits until it is ready.

  What the store answers is tracked as soon as it accepts
  the object, so that a wait that fails leaves the object
  tracked.
-/
def create
    (engine : Engine σ)
    (kind : Kind) :
    Work σ Unit := do
  let configured ←
    Work.ofResult (fun fault => fault)
      (configured kind .create (← get).config)
  let wanted := engine.inNamespace configured
  let requested : ObjectRef :=
    ⟨kind, wanted.metadata.namespaceName,
      wanted.metadata.name⟩
  let submitted ←
    Work.ofStore requested .create
      (Client.create engine.store wanted)
  let id ←
    Work.ofResult .identity
      (ObjectId.ofMeta submitted.metadata)
  modify (Tracked.submitted id submitted.flatten)
  let observed ←
    Work.ofCalls
      ((engine.creationWait (← get).timeouts).run
        engine.timer (.ofId kind id) .create engine.signal
        (engine.observeCreation kind id))
  match observed with
  | some object => modify (Tracked.observed object.flatten)
  | none => return ()

------------------------------------------------------------
-- Reading and Updating
------------------------------------------------------------

/- Reads the object and keeps it as the snapshot. -/
def read
    (engine : Engine σ)
    (kind : Kind) :
    Work σ Unit :=
  engine.readAs kind .read

/-
  Patches the object towards its configuration, and reads it
  back. The configuration is compared with the snapshot;
  without one, all that is configured is stated again.
-/
def update
    (engine : Engine σ)
    (kind : Kind) :
    Work σ Unit := do
  let id ← identity
  let tracked ← get
  let _ ←
    Work.ofResult (fun fault => fault)
      (configured kind .update tracked.config)
  let document ←
    Work.ofResult (.schema kind .update)
      (Object.diffConfigs kind tracked.config
        (tracked.state.getD []))
  unless document.isEmpty do
    let _ ←
      Work.ofStore (.ofId kind id) .update
        (Client.update engine.store kind id.namespaceName
          id.name document.text)
  engine.readAs kind .update

------------------------------------------------------------
-- Deleting
------------------------------------------------------------

/- Observes an object whose deletion was asked for. -/
def observeDeletion
    (engine : Engine σ)
    (kind : Kind)
    (id : ObjectId) :
    Calls σ LifecycleError (Observation (Object kind)) := do
  let result ←
    (Client.get engine.store kind id.namespaceName
      id.name).attempt
  match result with
  | .ok found => return .found .deleting found
  | .error fault =>
      if fault.isNotFound then return .absent .deleted
      else throw (.store (.ofId kind id) .delete fault)

/- What to wait for after a request for deletion. -/
def deletionWait
    (engine : Engine σ)
    (timeouts : Timeouts) :
    StateWait :=
  ⟨[.deleting], [], timeouts.delete, engine.pollInterval⟩

/- Waits until nothing can be read any more. -/
def awaitDeletion
    (engine : Engine σ)
    (kind : Kind)
    (id : ObjectId) :
    Work σ Unit := do
  let _ ←
    Work.ofCalls
      ((engine.deletionWait (← get).timeouts).run
        engine.timer (.ofId kind id) .delete engine.signal
        (engine.observeDeletion kind id))

/- Asks for deletion, and waits until the object is gone.
   Then its identity is forgotten. -/
def delete
    (engine : Engine σ)
    (kind : Kind) :
    Work σ Unit := do
  let id ← identity
  let result ←
    Work.ofCalls
      (Client.delete engine.store kind id.namespaceName
        id.name).attempt
  match result with
  | .ok () =>
      engine.awaitDeletion kind id
      modify Tracked.clear
  | .error fault =>
      if fault.isNotFound then modify Tracked.clear
      else throw (.store (.ofId kind id) .delete fault)

------------------------------------------------------------
-- Questions
------------------------------------------------------------

/-
  Whether the tracked object is still there. Any fault but
  absence leaves that open, and counts as presence; an
  identity that cannot be read does not.
-/
def probe
    (engine : Engine σ)
    (kind : Kind)
    (tracked : Tracked) :
    StateM (Session σ) (Bool × Option LifecycleError) :=
  match tracked.objectId with
  | .error fault => return (false, some (.identity fault))
  | .ok id => do
      let result ←
        (Client.get engine.store kind id.namespaceName
          id.name).run
      match result with
      | .ok _ => return (true, none)
      | .error fault =>
          if fault.isNotFound then return (false, none)
          else
            return (true,
              some (.store (.ofId kind id) .probe fault))

/- Starts to track an object that is there: what is read
   becomes the configuration. -/
def adopt
    (engine : Engine σ)
    (kind : Kind)
    (id : String) :
    Calls σ LifecycleError Tracked :=
  ExceptT.mk do
    let (result, tracked) ←
      (engine.readAs kind .adopt).run (.ofId id)
    return result.map fun _ =>
      { tracked with
        config := tracked.state.getD tracked.config }

end Engine

end Converge
