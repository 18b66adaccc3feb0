import Converge.Proofs.Lifecycle.Operation
import Converge.Proofs.Lifecycle.Polling
import Converge.Proofs.Store.Noted

/-
  What operations ask a store for.

  An operation on a noting store does what it does on the
  store itself. All that it asks for is about the address of
  the tracked object; only a creation submits an object
  before it has one.

  Key definitions:
    * `Engine.Reads`, `Engine.Submits`, `Engine.AsksAbout`:
      a request to read an object, of its creation, or about
      it in any way

  Main declarations:
    * `StateWait.follows_run`: a wait asks for what its
      observations ask for
    * `Engine.follows_create`, `Engine.follows_readAs`,
      `Engine.follows_update`, `Engine.follows_delete`,
      `Engine.follows_probe`
-/

namespace Converge

open MemoryStore (address)

variable {σ : Type}

------------------------------------------------------------
-- Waits
------------------------------------------------------------

section Waits

variable {α : Type}
variable {sort : StoreRequest → Prop}
variable
  {noted : Calls (Noted σ) LifecycleError (Observation α)}
variable {observe : Calls σ LifecycleError (Observation α)}

/- A wait notes what its observations note. The induction is
   on the observations of the wait on the store itself. -/
theorem StateWait.follows_poll
    (wait : StateWait)
    (timer : Timer)
    (object : ObjectRef)
    (operation : Operation)
    (signal : Signal)
    (hObserve : Follows sort noted.run observe.run)
    (deadline : Moment) :
    Follows sort
      (wait.poll timer object operation signal noted deadline)
      (wait.poll timer object operation signal observe
        deadline) := by
  intro session notes
  fun_induction
      wait.poll timer object operation signal observe deadline
        session
    generalizing notes with
  | case1 session cancelled hOn =>
      rw [Session.withNotes, poll_stopped hOn]
      exact adds_nothing _ _
  | case2 session hOff result after hRun now verdict
      hVerdict =>
      rw [Bool.not_eq_true] at hOff
      rcases hObserve session notes with ⟨made, hMade, hNoted⟩
      rw [hRun] at hNoted
      exact ⟨made, hMade, poll_decided hOff hNoted hVerdict⟩
  | case3 session hOff result after hRun now hVerdict hLate =>
      rw [Bool.not_eq_true] at hOff
      rcases hObserve session notes with ⟨made, hMade, hNoted⟩
      rw [hRun] at hNoted
      exact ⟨made, hMade,
        poll_overdue hOff hNoted hVerdict hLate⟩
  | case4 session hOff result after hRun now hVerdict hEarly
      hNone =>
      rw [Bool.not_eq_true] at hOff
      rcases hObserve session notes with ⟨made, hMade, hNoted⟩
      rw [hRun] at hNoted
      exact ⟨made, hMade,
        poll_untold hOff hNoted hVerdict
          (Nat.lt_of_not_le hEarly)
          (wake?_eq_none_iff.1 hNone)⟩
  | case5 session cancelled hOff result after hRun now
      hVerdict hEarly wake hWake moment hFires =>
      rw [Bool.not_eq_true] at hOff
      rcases hObserve session notes with ⟨made, hMade, hNoted⟩
      rw [hRun] at hNoted
      rcases wake?_eq_some_iff.1 hWake with ⟨hTold, rfl⟩
      exact ⟨made, hMade,
        poll_interrupted hOff hNoted hVerdict
          (Nat.lt_of_not_le hEarly) hTold hFires⟩
  | case6 session hOff result after hRun now hVerdict hEarly
      wake hWake hSilent ih =>
      rw [Bool.not_eq_true] at hOff
      rcases hObserve session notes with ⟨made, hMade, hNoted⟩
      rw [hRun] at hNoted
      rcases wake?_eq_some_iff.1 hWake with ⟨hTold, rfl⟩
      refine Adds.of_append hMade ?_
      have hOnward :=
        poll_onward hOff hNoted hVerdict
          (Nat.lt_of_not_le hEarly) hTold hSilent
      rw [Session.withNotes, hOnward]
      exact ih (notes ++ made)

theorem StateWait.follows_run
    (wait : StateWait)
    (timer : Timer)
    (object : ObjectRef)
    (operation : Operation)
    (signal : Signal)
    (hObserve : Follows sort noted.run observe.run) :
    Follows sort
      (wait.run timer object operation signal noted).run
      (wait.run timer object operation signal observe).run := by
  intro session notes
  cases hDeadline :
      timer.later? session.now wait.timeout.nanoseconds with
  | none =>
      have hNoted :
          timer.later? (session.withNotes notes).now
              wait.timeout.nanoseconds = none :=
        hDeadline
      rw [run_of_untold _ _ _ _ hDeadline,
        run_of_untold _ _ _ _ hNoted]
      exact adds_nothing _ _
  | some deadline =>
      have hNoted :
          timer.later? (session.withNotes notes).now
              wait.timeout.nanoseconds = some deadline :=
        hDeadline
      rw [run_of_deadline _ _ _ _ hDeadline,
        run_of_deadline _ _ _ _ hNoted]
      exact wait.follows_poll timer object operation signal
        hObserve deadline session notes

end Waits

namespace Engine

variable {kind : Kind}

------------------------------------------------------------
-- Observations
------------------------------------------------------------

/- A request to read an object. -/
def Reads
    (kind : Kind)
    (id : ObjectId)
    (request : StoreRequest) :
    Prop :=
  request = .get (address kind id)

theorem reads_get
    (kind : Kind)
    (id : ObjectId) :
    Reads kind id (.get (address kind id)) :=
  rfl

theorem follows_observeCreation
    (engine : Engine σ)
    (kind : Kind)
    (id : ObjectId) :
    Follows (Reads kind id)
      (engine.noted.observeCreation kind id).run
      (engine.observeCreation kind id).run := by
  intro session notes
  simp only [run_observeCreation, store_noted,
    Client.run_get_noted]
  exact adds_one (reads_get kind id) _ _

theorem follows_observeDeletion
    (engine : Engine σ)
    (kind : Kind)
    (id : ObjectId) :
    Follows (Reads kind id)
      (engine.noted.observeDeletion kind id).run
      (engine.observeDeletion kind id).run := by
  intro session notes
  simp only [run_observeDeletion, store_noted,
    Client.run_get_noted]
  exact adds_one (reads_get kind id) _ _

------------------------------------------------------------
-- Creating
------------------------------------------------------------

/- The request that submits an object. -/
def submission (object : Object kind) : StoreRequest :=
  .create kind.resourceType
    object.prepareForCreate.metadata.namespaceName
    object.prepareForCreate.toJson

/- A request of a creation. -/
def Submits (kind : Kind) (request : StoreRequest) : Prop :=
  (∃ object : Object kind, request = submission object) ∨
    ∃ id, Reads kind id request

theorem follows_submit
    (store : Store σ)
    (object : Object kind) :
    Follows (Submits kind)
      (Client.create store.noted object).run
      (Client.create store object).run := by
  intro session notes
  by_cases hNamespace :
      object.prepareForCreate.metadata.namespaceName = ""
  · rw [Client.create_eq, Client.create_eq,
      if_pos hNamespace, if_pos hNamespace]
    exact adds_nothing _ _
  · rw [Client.run_create_noted store hNamespace]
    have hSubmits : Submits kind (submission object) :=
      Or.inl ⟨object, rfl⟩
    exact adds_one hSubmits _ _

/- A creation submits an object, and reads it. -/
theorem follows_create
    (engine : Engine σ)
    (kind : Kind)
    (tracked : Tracked) :
    Follows (Submits kind)
      ((engine.noted.create kind).run tracked)
      ((engine.create kind).run tracked) := by
  intro session notes
  rw [create_eq, create_eq]
  cases configured kind .create tracked.config with
  | error fault => exact adds_nothing _ _
  | ok wanted =>
      rcases follows_submit engine.store
          (engine.inNamespace wanted) session notes with
        ⟨made, hMade, hNoted⟩
      rcases hReply :
          (Client.create engine.store
            (engine.inNamespace wanted)).run session with
        ⟨fault | submitted, between⟩
      · rw [hReply] at hNoted
        simp only [store_noted, inNamespace_noted, hNoted,
          hReply]
        exact ⟨made, hMade, rfl⟩
      · rw [hReply] at hNoted
        simp only [store_noted, inNamespace_noted, hNoted,
          hReply]
        cases ObjectId.ofMeta submitted.metadata with
        | error fault => exact ⟨made, hMade, rfl⟩
        | ok id =>
            refine Adds.of_append hMade ?_
            rcases
                (engine.creationWait tracked.timeouts
                  ).follows_run engine.timer
                    (.ofId kind id) .create engine.signal
                    (engine.follows_observeCreation kind id)
                    between (notes ++ made) with
              ⟨rest, hRest, hLater⟩
            refine ⟨rest, ?_, ?_⟩
            · intro note hNote
              exact Or.inr ⟨id, hRest note hNote⟩
            · simp only [creationWait_noted, timer_noted,
                signal_noted,
                hLater]
              rcases
                  ((engine.creationWait tracked.timeouts).run
                    engine.timer (.ofId kind id) .create
                    engine.signal
                    (engine.observeCreation kind id)).run
                      between with
                ⟨_ | _, _⟩ <;> rfl

------------------------------------------------------------
-- Tracked Objects
------------------------------------------------------------

/- A request about an address. -/
def AsksAbout
    (kind : Kind)
    (id : ObjectId)
    (request : StoreRequest) :
    Prop :=
  request.coordinate? = some (address kind id)

theorem asksAbout_of_reads
    {id : ObjectId}
    {request : StoreRequest}
    (hReads : Reads kind id request) :
    AsksAbout kind id request := by
  rw [hReads]
  rfl

section Tracked

variable (engine : Engine σ)
variable (kind : Kind)
variable {tracked : Tracked}
variable {id : ObjectId}

/- A read asks for the tracked object. -/
theorem follows_readAs
    (operation : Operation)
    (hId : tracked.objectId = .ok id) :
    Follows (Reads kind id)
      ((engine.noted.readAs kind operation).run tracked)
      ((engine.readAs kind operation).run tracked) := by
  intro session notes
  rw [readAs_eq, readAs_eq, hId]
  simp only [store_noted, Client.run_get_noted]
  rcases
      (Client.get engine.store kind id.namespaceName
        id.name).run session with
    ⟨_ | _, _⟩ <;> exact adds_one (reads_get kind id) _ _

/- An update asks about the tracked object only. -/
theorem follows_update
    (hId : tracked.objectId = .ok id) :
    Follows (AsksAbout kind id)
      ((engine.noted.update kind).run tracked)
      ((engine.update kind).run tracked) := by
  have hRead :
      Follows (AsksAbout kind id)
        ((engine.noted.readAs kind .update).run tracked)
        ((engine.readAs kind .update).run tracked) :=
    fun session notes =>
      (engine.follows_readAs kind .update hId session
        notes).mono fun _ => asksAbout_of_reads
  intro session notes
  rw [update_eq, update_eq, hId]
  cases configured kind .update tracked.config with
  | error fault => exact adds_nothing _ _
  | ok wanted =>
      simp only
      rcases
          Object.diffConfigs kind tracked.config
            (tracked.state.getD []) with
        fault | _ | ⟨entry, rest⟩
      · exact adds_nothing _ _
      · exact hRead session notes
      · simp only [store_noted, Client.run_update_noted]
        have hAsks :
            AsksAbout kind id
              (.patch (address kind id)
                (PatchDocument.text (entry :: rest))) :=
          rfl
        rcases
            (Client.update engine.store kind id.namespaceName
              id.name
              (PatchDocument.text (entry :: rest))).run
                session with
          ⟨fault | reply, later⟩
        · exact adds_one hAsks _ _
        · exact Adds.of_append_one hAsks (hRead later _)

/- A deletion asks about the tracked object only. -/
theorem follows_delete
    (hId : tracked.objectId = .ok id) :
    Follows (AsksAbout kind id)
      ((engine.noted.delete kind).run tracked)
      ((engine.delete kind).run tracked) := by
  intro session notes
  rw [delete_eq, delete_eq, hId]
  simp only [store_noted, Client.run_delete_noted]
  have hAsks :
      AsksAbout kind id (.delete (address kind id)) :=
    rfl
  rcases
      (Client.delete engine.store kind id.namespaceName
        id.name).run session with
    ⟨fault | _, marked⟩
  · simp only
    split <;> exact adds_one hAsks _ _
  · refine Adds.of_append_one hAsks
      (?_ : Adds _ (notes ++ [(session.now, _)]) _ _)
    rcases
        ((engine.deletionWait tracked.timeouts).follows_run
          engine.timer (.ofId kind id) .delete engine.signal
          (engine.follows_observeDeletion kind id) marked
          (notes ++
            [(session.now,
              .delete (address kind id))])).mono
            fun _ => asksAbout_of_reads with
      ⟨rest, hRest, hLater⟩
    refine ⟨rest, hRest, ?_⟩
    simp only [deletionWait_noted, timer_noted, signal_noted,
      hLater]
    rcases
        ((engine.deletionWait tracked.timeouts).run
          engine.timer (.ofId kind id) .delete engine.signal
          (engine.observeDeletion kind id)).run marked with
      ⟨_ | _, _⟩ <;> rfl

/- A question asks for the tracked object. -/
theorem follows_probe
    (hId : tracked.objectId = .ok id) :
    Follows (Reads kind id)
      (engine.noted.probe kind tracked).run
      (engine.probe kind tracked).run := by
  intro session notes
  rw [probe_eq, probe_eq, hId]
  simp only [store_noted, Client.run_get_noted]
  rcases
      (Client.get engine.store kind id.namespaceName
        id.name).run session with
    ⟨fault | _, _⟩
  · simp only
    split <;> exact adds_one (reads_get kind id) _ _
  · exact adds_one (reads_get kind id) _ _

end Tracked

end Engine

end Converge
