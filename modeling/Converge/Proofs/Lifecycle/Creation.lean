import Converge.Proofs.Lifecycle.Atomic
import Converge.Proofs.Lifecycle.Wait
import Converge.Proofs.Lifecycle.Work

/-
  What the creation of a tracked object does.

  Until the store accepts the object nothing is written, and
  the tracked object is as it was. From then on the object is
  tracked with what the store answered, whatever becomes of
  the wait.

  Main declarations:
    * `Engine.create_of_accepted`: what becomes of an object
      that was accepted
    * `Engine.create_cases`: what a creation does
-/

namespace Converge

namespace Engine

open MemoryStore (OnlyRead Untouched Submitted address)

variable {kind : Kind}

/- A stored object is read as another. -/
def Stores
    (id : ObjectId)
    (object : Object kind)
    (store : MemoryStore) : Prop :=
  ∃ stored, store.stored? (address kind id) = some stored ∧
    Object.decode? kind stored.object = some object

/- An observation is one read of the store, and shows what is
   stored if it shows anything. -/
theorem observeCreation_outcome
    (engine : Engine MemoryStore)
    (hStore : engine.store = MemoryStore.store)
    (kind : Kind)
    (id : ObjectId)
    (session : Session MemoryStore) :
    let outcome :=
      (engine.observeCreation kind id).run session
    OnlyRead session.state outcome.2.state ∧
      ∀ observation value,
        outcome.1 = .ok observation →
          observation.value = some value →
            Stores id value outcome.2.state := by
  have hRead :=
    MemoryStore.onlyRead_get (address kind id) session.state
  simp only [run_observeCreation, hStore, Client.run_get]
  cases hGet : session.state.get (address kind id) with
  | mk answer after =>
      rw [hGet] at hRead
      cases hFound : Client.decoded kind answer with
      | error fault =>
          simp only [creationSeen]
          split
          · refine ⟨hRead, ?_⟩
            intro observation value hOk hValue
            cases hOk
            cases hValue
          · refine ⟨hRead, ?_⟩
            intro observation value hOk
            cases hOk
      | ok object =>
          rcases Client.decoded_eq_ok_iff.1 hFound with
            ⟨document, rfl, hDecode⟩
          rcases MemoryStore.get_eq_ok hGet with
            ⟨stored, hStored, rfl⟩
          simp only [creationSeen]
          split
          · refine ⟨hRead, ?_⟩
            intro observation value hOk
            cases hOk
          · refine ⟨hRead, ?_⟩
            intro observation value hOk hValue
            cases hOk
            cases hValue
            exact ⟨stored, hStored, hDecode⟩

/- The namespace is none of the mutable parts. -/
theorem sameMutable_inNamespace
    (engine : Engine MemoryStore)
    (object : Object kind) :
    (engine.inNamespace object).SameMutable object := by
  unfold inNamespace
  split <;> exact ⟨rfl, rfl, rfl⟩

/- What was accepted is tracked as it was submitted, or as it
   was found, and has the mutable parts that were asked
   for. -/
theorem create_of_accepted
    (engine : Engine MemoryStore)
    (hStore : engine.store = MemoryStore.store)
    {tracked : Tracked}
    {session between : Session MemoryStore}
    {wanted submitted : Object kind}
    {id : ObjectId}
    (hAccepted :
      engine.Accepted tracked session wanted id submitted
        between) :
    ∃ seen : Object kind, ∃ document result later,
      Submitted id submitted document session.state
          between.state ∧
        submitted.SameMutable wanted ∧
        OnlyRead between.state later.state ∧
        (seen = submitted ∨ Stores id seen later.state) ∧
        (engine.create kind).run tracked session =
          ((result, tracked.submitted id seen.flatten),
            later) := by
  have hReply := hAccepted.reply
  rw [hStore] at hReply
  rcases MemoryStore.create_submitted_as
      (engine.inNamespace wanted) session with
    ⟨fault, after, hRun, _⟩ |
      ⟨other, object, document, after, hRun, hNew, hSame⟩
  · rw [hRun] at hReply
    cases hReply
  · rw [hRun] at hReply
    cases hReply
    have hId : id = other :=
      Except.ok.inj
        (hAccepted.identity.symm.trans hNew.identity)
    subst hId
    have hWanted :=
      hSame.trans (engine.sameMutable_inNamespace wanted)
    have hOutcome :=
      (engine.creationWait tracked.timeouts).run_outcome
        engine.timer (.ofId kind id) .create engine.signal
        MemoryStore.OnlyRead.refl
        MemoryStore.OnlyRead.trans
        (engine.observeCreation_outcome hStore kind id)
        ⟨session.now, after⟩
    have hCreate := run_create_of_accepted hAccepted
    generalize
      ((engine.creationWait tracked.timeouts).run
        engine.timer (.ofId kind id) .create engine.signal
        (engine.observeCreation kind id)).run
          ⟨session.now, after⟩ = outcome at hOutcome hCreate
    rcases outcome with ⟨fault | _ | found, later⟩
    · exact ⟨_, document, _, later, hNew, hWanted,
        hOutcome.1, Or.inl rfl, hCreate⟩
    · exact ⟨_, document, _, later, hNew, hWanted,
        hOutcome.1, Or.inl rfl, hCreate⟩
    · exact ⟨found, document, _, later, hNew, hWanted,
        hOutcome.1, Or.inr (hOutcome.2 found rfl), hCreate⟩

/- A creation fails before anything is written, or the object
   is tracked as it was submitted, or as it was found. -/
theorem create_cases
    (engine : Engine MemoryStore)
    (hStore : engine.store = MemoryStore.store)
    (kind : Kind)
    (tracked : Tracked)
    (session : Session MemoryStore) :
    (∃ fault later,
        (engine.create kind).run tracked session =
            ((.error fault, tracked), later) ∧
          Untouched session.state later.state) ∨
      ∃ id, ∃ submitted seen : Object kind,
        ∃ document between result later,
          Submitted id submitted document session.state
              between ∧
            OnlyRead between later.state ∧
            (seen = submitted ∨
              Stores id seen later.state) ∧
            (engine.create kind).run tracked session =
              ((result,
                tracked.submitted id seen.flatten),
                later) := by
  cases hConfigured :
      configured kind .create tracked.config with
  | error fault =>
      rw [create_eq, hConfigured]
      exact Or.inl ⟨_, session, rfl, .refl _⟩
  | ok wanted =>
      rcases MemoryStore.create_submitted
          (engine.inNamespace wanted) session with
        ⟨fault, after, hRun, hUntouched⟩ |
          ⟨id, submitted, document, after, hRun, hNew⟩
      · rw [← hStore] at hRun
        rw [create_eq, hConfigured]
        simp only [hRun]
        exact Or.inl ⟨_, _, rfl, hUntouched⟩
      · rw [← hStore] at hRun
        rcases engine.create_of_accepted hStore
            ⟨hConfigured, hRun, hNew.identity⟩ with
          ⟨seen, written, result, later, hThere, _, hOnlyRead,
            hSeen, hDone⟩
        exact Or.inr ⟨id, submitted, seen, written, after,
          result, later, hThere, hOnlyRead, hSeen, hDone⟩

end Engine

end Converge
