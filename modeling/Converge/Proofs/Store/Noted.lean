import Converge.Lifecycle.Engine
import Converge.Proofs.Store.Client

/-
  Stores that note what they are asked for.

  A noting store answers as the store it is made of, and
  keeps every request with the moment it was made. So what
  runs on it does the same as on the store itself, and its
  notes tell what was asked for.

  Key definitions:
    * `StoreRequest`: what a store is asked for
    * `Store.noted`, `Engine.noted`: the same store, and the
      same engine, with notes
    * `Adds`, `Follows`: a run with notes of a certain sort

  Main declarations:
    * `Client.run_get_noted`, `Client.run_update_noted`,
      `Client.run_delete_noted`, `Client.run_create_noted`:
      each call of a client is one request
-/

namespace Converge

------------------------------------------------------------
-- Requests
------------------------------------------------------------

/- What a store is asked for. -/
inductive StoreRequest where
  | get (coordinate : Coordinate)
  | create
      (type : ResourceType)
      (namespaceName : String)
      (body : Json)
  | patch (coordinate : Coordinate) (document : String)
  | delete (coordinate : Coordinate)
deriving DecidableEq

namespace StoreRequest

/- The address that is asked about; a new object has none
   yet. -/
def coordinate? : StoreRequest → Option Coordinate
  | .get coordinate => some coordinate
  | .create _ _ _ => none
  | .patch coordinate _ => some coordinate
  | .delete coordinate => some coordinate

/- Nothing is asked for but an answer. -/
def IsRead (request : StoreRequest) : Prop :=
  ∃ coordinate, request = .get coordinate

end StoreRequest

/- Requests with the moments they were made, in their
   order. -/
abbrev Notes := List (Moment × StoreRequest)

/- The state of a store with notes. -/
structure Noted (σ : Type) where
  state : σ
  notes : Notes

variable {σ ε α β : Type}

/- A session with notes. -/
def Session.withNotes
    (notes : Notes)
    (session : Session σ) :
    Session (Noted σ) :=
  ⟨session.now, ⟨session.state, notes⟩⟩

@[simp] theorem Session.now_withNotes
    (notes : Notes)
    (session : Session σ) :
    (session.withNotes notes).now = session.now :=
  rfl

/- The session itself. -/
def Session.plain (session : Session (Noted σ)) : Session σ :=
  ⟨session.now, session.state.state⟩

/- Calls that are noted as one request. -/
def Calls.noted
    (request : StoreRequest)
    (calls : Calls σ ε α) :
    Calls (Noted σ) ε α :=
  ExceptT.mk fun session =>
    let (result, after) := calls.run session.plain
    (result,
      after.withNotes
        (session.state.notes ++ [(session.now, request)]))

/- The same store, which notes every request. -/
def Store.noted (store : Store σ) : Store (Noted σ) where
  name := store.name
  get coordinate :=
    (store.get coordinate).noted (.get coordinate)
  create type namespaceName body :=
    (store.create type namespaceName body).noted
      (.create type namespaceName body)
  patch coordinate document :=
    (store.patch coordinate document).noted
      (.patch coordinate document)
  delete coordinate :=
    (store.delete coordinate).noted (.delete coordinate)

/- The same engine on a noting store. -/
def Engine.noted (engine : Engine σ) : Engine (Noted σ) :=
  ⟨engine.store.noted, engine.defaultNamespace,
    engine.pollInterval, engine.timer, engine.signal⟩

@[simp] theorem Engine.store_noted
    (engine : Engine σ) :
    engine.noted.store = engine.store.noted :=
  rfl

@[simp] theorem Engine.timer_noted
    (engine : Engine σ) :
    engine.noted.timer = engine.timer :=
  rfl

@[simp] theorem Engine.signal_noted
    (engine : Engine σ) :
    engine.noted.signal = engine.signal :=
  rfl

@[simp] theorem Engine.inNamespace_noted
    {kind : Kind}
    (engine : Engine σ)
    (object : Object kind) :
    engine.noted.inNamespace object =
      engine.inNamespace object :=
  rfl

@[simp] theorem Engine.creationWait_noted
    (engine : Engine σ)
    (timeouts : Timeouts) :
    engine.noted.creationWait timeouts =
      engine.creationWait timeouts :=
  rfl

@[simp] theorem Engine.deletionWait_noted
    (engine : Engine σ)
    (timeouts : Timeouts) :
    engine.noted.deletionWait timeouts =
      engine.deletionWait timeouts :=
  rfl

------------------------------------------------------------
-- Requests of a Client
------------------------------------------------------------

namespace Client

variable {kind : Kind}

/- A read is one request. -/
theorem run_get_noted
    (store : Store σ)
    (kind : Kind)
    (namespaceName name : String)
    (session : Session σ)
    (notes : Notes) :
    (get store.noted kind namespaceName name).run
        (session.withNotes notes) =
      let seen :=
        (get store kind namespaceName name).run session
      (seen.1,
        seen.2.withNotes
          (notes ++
            [(session.now,
              .get (coordinate kind namespaceName name))])) := by
  rw [get_eq, get_eq]
  rfl

/- A patch is one request. -/
theorem run_update_noted
    (store : Store σ)
    (kind : Kind)
    (namespaceName name document : String)
    (session : Session σ)
    (notes : Notes) :
    (update store.noted kind namespaceName name
        document).run (session.withNotes notes) =
      let made :=
        (update store kind namespaceName name document).run
          session
      (made.1,
        made.2.withNotes
          (notes ++
            [(session.now,
              .patch (coordinate kind namespaceName name)
                document)])) := by
  rw [update_eq, update_eq]
  rfl

/- A deletion is one request. -/
theorem run_delete_noted
    (store : Store σ)
    (kind : Kind)
    (namespaceName name : String)
    (session : Session σ)
    (notes : Notes) :
    (delete store.noted kind namespaceName name).run
        (session.withNotes notes) =
      let made :=
        (delete store kind namespaceName name).run session
      (made.1,
        made.2.withNotes
          (notes ++
            [(session.now,
              .delete (coordinate kind namespaceName
                name))])) :=
  rfl

/- A submission is one request, if there is a namespace to
   submit to. -/
theorem run_create_noted
    (store : Store σ)
    {object : Object kind}
    (hNamespace :
      object.prepareForCreate.metadata.namespaceName ≠ "")
    (session : Session σ)
    (notes : Notes) :
    (create store.noted object).run
        (session.withNotes notes) =
      let made := (create store object).run session
      (made.1,
        made.2.withNotes
          (notes ++
            [(session.now,
              .create kind.resourceType
                object.prepareForCreate.metadata.namespaceName
                object.prepareForCreate.toJson)])) := by
  rw [create_eq, create_eq, if_neg hNamespace,
    if_neg hNamespace]
  rfl

end Client

------------------------------------------------------------
-- Runs with Notes
------------------------------------------------------------

/- What comes of a run on a noting store is what comes of the
   run on the store itself, with further notes of a certain
   sort. -/
def Adds
    (sort : StoreRequest → Prop)
    (notes : Notes)
    (noted : β × Session (Noted σ))
    (plain : β × Session σ) :
    Prop :=
  ∃ made : Notes,
    (∀ note ∈ made, sort note.2) ∧
      noted = (plain.1, plain.2.withNotes (notes ++ made))

variable {sort : StoreRequest → Prop}
variable {notes made : Notes}
variable {noted : β × Session (Noted σ)}
variable {plain : β × Session σ}

theorem Adds.mono
    {other : StoreRequest → Prop}
    (h : Adds sort notes noted plain)
    (hSort : ∀ request, sort request → other request) :
    Adds other notes noted plain := by
  rcases h with ⟨made, hMade, hNoted⟩
  exact ⟨made, fun note hNote => hSort _ (hMade note hNote),
    hNoted⟩

/- What adds to longer notes adds to shorter ones. -/
theorem Adds.of_append
    (hMade : ∀ note ∈ made, sort note.2)
    (h : Adds sort (notes ++ made) noted plain) :
    Adds sort notes noted plain := by
  rcases h with ⟨rest, hRest, hNoted⟩
  refine ⟨made ++ rest, ?_, ?_⟩
  · intro note hNote
    rcases List.mem_append.1 hNote with hFirst | hLater
    · exact hMade note hFirst
    · exact hRest note hLater
  · rw [hNoted, List.append_assoc]

theorem Adds.of_append_one
    {request : StoreRequest}
    {moment : Moment}
    (hSort : sort request)
    (h :
      Adds sort (notes ++ [(moment, request)]) noted plain) :
    Adds sort notes noted plain := by
  refine h.of_append ?_
  intro note hNote
  rw [List.mem_singleton.1 hNote]
  exact hSort

/- Where no store is asked, nothing is noted. -/
theorem adds_nothing
    (value : β)
    (session : Session σ) :
    Adds sort notes (value, session.withNotes notes)
      (value, session) :=
  ⟨[], nofun, by rw [List.append_nil]⟩

/- One request is noted. -/
theorem adds_one
    {request : StoreRequest}
    {moment : Moment}
    (hSort : sort request)
    (value : β)
    (session : Session σ) :
    Adds sort notes
      (value,
        session.withNotes (notes ++ [(moment, request)]))
      (value, session) :=
  (adds_nothing value session).of_append_one hSort

/- A run on a noting store does what the run on the store
   itself does, and notes requests of a certain sort only. -/
def Follows
    (sort : StoreRequest → Prop)
    (noted :
      Session (Noted σ) → β × Session (Noted σ))
    (plain : Session σ → β × Session σ) :
    Prop :=
  ∀ session notes,
    Adds sort notes (noted (session.withNotes notes))
      (plain session)

end Converge
