import Converge.Proofs.Lifecycle.Convergence
import Converge.Proofs.Lifecycle.Requests
import Converge.Proofs.Lifecycle.Run

/-
  Applying the same configuration again.

  Once an object was created, and as long as only its status
  is set and it is only read, both its snapshot and whatever
  is stored of it have the mutable parts that were configured.
  So an update with the same configuration has nothing to
  send. The same holds of an object that was adopted, whose
  configuration is its snapshot.

  Key definitions:
    * `Engine.Applied`: an object that was created, with its
      status set and read since
    * `Engine.Upheld`: what holds of it all along
    * `Engine.Idle`: an update sends nothing

  Main declarations:
    * `Engine.Applied.upheld`
    * `Engine.update_idle`
-/

namespace Converge

namespace Engine

open MemoryStore (OnlyRead Untouched address)

variable {σ : Type} {kind : Kind}

------------------------------------------------------------
-- Updates without a Document
------------------------------------------------------------

/- There is no difference to send between the configuration
   and the snapshot. -/
def Agrees (kind : Kind) (tracked : Tracked) : Prop :=
  ∀ document,
    Object.diffConfigs kind tracked.config
        (tracked.state.getD []) = .ok document →
      document = []

/- An update with nothing to send fails without any call, or
   it is a read. -/
theorem update_of_agrees
    {tracked : Tracked}
    (hAgrees : Agrees kind tracked) :
    (∃ fault, ∀ {σ : Type} (engine : Engine σ) session,
        (engine.update kind).run tracked session =
          ((.error fault, tracked), session)) ∨
      ∃ id, tracked.objectId = .ok id ∧
        ∀ {σ : Type} (engine : Engine σ) session,
          (engine.update kind).run tracked session =
            (engine.readAs kind .update).run tracked
              session := by
  cases hId : tracked.objectId with
  | error fault =>
      left
      refine ⟨.identity fault, fun engine session => ?_⟩
      rw [update_eq, hId]
  | ok id =>
      cases hConfigured :
          configured kind .update tracked.config with
      | error fault =>
          left
          refine ⟨fault, fun engine session => ?_⟩
          rw [update_eq, hId, hConfigured]
      | ok wanted =>
          cases hDocument :
              Object.diffConfigs kind tracked.config
                (tracked.state.getD []) with
          | error fault =>
              left
              refine ⟨.schema kind .update fault,
                fun engine session => ?_⟩
              rw [update_eq, hId, hConfigured, hDocument]
          | ok document =>
              right
              cases hAgrees document hDocument
              refine ⟨id, rfl, fun engine session => ?_⟩
              rw [update_eq, hId, hConfigured, hDocument]

/- An update asks for reads only, and leaves everything in the
   store as it is. -/
structure Idle
    (engine : Engine MemoryStore)
    (kind : Kind)
    (tracked : Tracked)
    (session : Session MemoryStore) : Prop where
  asks :
    ∀ notes,
      Adds StoreRequest.IsRead notes
        ((engine.noted.update kind).run tracked
          (session.withNotes notes))
        ((engine.update kind).run tracked session)
  leaves :
    OnlyRead session.state
      ((engine.update kind).run tracked session).2.state

theorem idle_of_agrees
    (engine : Engine MemoryStore)
    (hStore : engine.store = MemoryStore.store)
    {tracked : Tracked}
    (hAgrees : Agrees kind tracked)
    (session : Session MemoryStore) :
    engine.Idle kind tracked session := by
  rcases update_of_agrees hAgrees with
    ⟨fault, hFailed⟩ | ⟨id, hId, hRead⟩
  · constructor
    · intro notes
      rw [hFailed, hFailed]
      exact adds_nothing _ _
    · rw [hFailed]
      exact .refl _
  · constructor
    · intro notes
      rw [hRead, hRead]
      exact (engine.follows_readAs kind .update hId session
        notes).mono fun request hReads => ⟨_, hReads⟩
    · rw [hRead, engine.run_readAs hStore kind .update hId]
      have hOnlyRead := MemoryStore.onlyRead_get
        (address kind id) session.state
      split <;> exact hOnlyRead

------------------------------------------------------------
-- Applied Configurations
------------------------------------------------------------

/-
  Tracked objects whose configuration was applied: the store
  accepted it, whatever became of the wait. Since then the
  status of any object may have been set, and all of them may
  have been read, by the engine or by anybody else.
-/
inductive Applied
    (engine : Engine MemoryStore)
    (kind : Kind) :
    Tracked → MemoryStore → Prop
  | created
      {tracked after : Tracked}
      {session between later : Session MemoryStore}
      {wanted submitted : Object kind}
      {id : ObjectId}
      {result : Except LifecycleError Unit} :
      engine.Accepted tracked session wanted id submitted
          between →
        (engine.create kind).run tracked session =
            ((result, after), later) →
          Applied engine kind after later.state
  | read
      {tracked after : Tracked}
      {session later : Session MemoryStore}
      {result : Except LifecycleError Unit} :
      Applied engine kind tracked session.state →
        (engine.read kind).run tracked session =
            ((result, after), later) →
          Applied engine kind after later.state
  | seen
      {tracked : Tracked}
      {store : MemoryStore}
      (coordinate : Coordinate) :
      Applied engine kind tracked store →
        Applied engine kind tracked (store.get coordinate).2
  | statusSet
      {tracked : Tracked}
      {store : MemoryStore}
      {status : Json}
      (coordinate : Coordinate) :
      Applied engine kind tracked store →
        status.IsCanonical →
          Applied engine kind tracked
            (store.setStatus coordinate status).2

/- The snapshot and what is stored have the mutable parts of
   the wanted object. -/
structure Upheld
    (wanted : Object kind)
    (tracked : Tracked)
    (store : MemoryStore) : Prop where
  configured :
    Object.expand kind tracked.config = .ok wanted
  snapshot :
    ∃ held : Object kind,
      tracked.state = some held.flatten ∧
        held.SameMutable wanted
  shown :
    ∀ id stored,
      tracked.objectId = .ok id →
        store.stored? (address kind id) = some stored →
          Object.Conforms kind stored.object ∧
            wanted.ShowsMutable stored.object

namespace Upheld

variable {wanted : Object kind}
variable {tracked : Tracked}
variable {store later : MemoryStore}

theorem agrees
    (hUpheld : Upheld wanted tracked store) :
    Agrees kind tracked := by
  intro document hDocument
  rcases hUpheld.snapshot with ⟨held, hState, hHeld⟩
  rw [hState] at hDocument
  exact Object.eq_nil_of_diffConfigs hUpheld.configured hHeld
    hDocument

/- Reads uphold what was applied. -/
theorem untouched
    (hUpheld : Upheld wanted tracked store)
    (hUntouched : Untouched store later) :
    Upheld wanted tracked later := by
  refine ⟨hUpheld.configured, hUpheld.snapshot, ?_⟩
  intro id stored hId hStored
  rcases hUntouched.stored _ stored hStored with
    ⟨earlier, hEarlier, hSame⟩
  rw [hSame]
  exact hUpheld.shown id earlier hId hEarlier

/- The snapshot may be any object with the wanted mutable
   parts. -/
theorem observed
    (hUpheld : Upheld wanted tracked store)
    {object : Object kind}
    (hSame : object.SameMutable wanted) :
    Upheld wanted (tracked.observed object.flatten) store :=
  ⟨hUpheld.configured, ⟨object, rfl, hSame⟩, hUpheld.shown⟩

/- A new status upholds what was applied. -/
theorem statusSet
    (hUpheld : Upheld wanted tracked store)
    (coordinate : Coordinate)
    {status : Json}
    (hStatus : status.IsCanonical) :
    Upheld wanted tracked
      (store.setStatus coordinate status).2 := by
  refine ⟨hUpheld.configured, hUpheld.snapshot, ?_⟩
  intro id after hId hAfter
  rw [MemoryStore.stored?_setStatus] at hAfter
  rcases Option.map_eq_some_iff.1 hAfter with
    ⟨stored, hStored, rfl⟩
  rcases hUpheld.shown id stored hId hStored with
    ⟨hConforms, hShown⟩
  split
  · have hSet := MemoryStore.statusSet_withStatus
      hConforms.canonical hConforms.metadata hStatus store
    exact ⟨hConforms.congr hSet.canonical hSet.metadata
      hSet.roots, hShown.congr hSet.roots⟩
  · exact ⟨hConforms, hShown⟩

end Upheld

/- An object that was accepted is upheld, whatever became of
   the wait. -/
theorem upheld_of_accepted
    (engine : Engine MemoryStore)
    (hStore : engine.store = MemoryStore.store)
    {tracked after : Tracked}
    {session between later : Session MemoryStore}
    {wanted submitted : Object kind}
    {id : ObjectId}
    {result : Except LifecycleError Unit}
    (hAccepted :
      engine.Accepted tracked session wanted id submitted
        between)
    (hRun :
      (engine.create kind).run tracked session =
        ((result, after), later)) :
    Upheld wanted after later.state := by
  rcases engine.create_of_accepted hStore hAccepted with
    ⟨seen, document, outcome, ended, hNew, hSame, hOnlyRead,
      hSeen, hDone⟩
  rw [hDone] at hRun
  cases hRun
  have hExpand :=
    (configured_eq_ok_iff.1 hAccepted.configured).2
  have hShown : wanted.ShowsMutable document :=
    hSame.symm.shows hNew.shown
  have hSubmitted :
      Upheld wanted (tracked.submitted id submitted.flatten)
        between.state := by
    refine ⟨hExpand, ⟨submitted, rfl, hSame⟩, ?_⟩
    intro other stored hOther hStored
    cases ObjectId.eq_of_parse_text hOther
    cases hNew.stored.symm.trans hStored
    exact ⟨hNew.conforms, hShown⟩
  have hEnded := hSubmitted.untouched hOnlyRead.toUntouched
  rcases hSeen with rfl | ⟨stored, hStored, hRead⟩
  · exact hEnded
  · rcases hOnlyRead.stored _ stored hStored with
      ⟨earlier, hEarlier, hObject⟩
    cases hNew.stored.symm.trans hEarlier
    rw [hObject] at hRead
    exact hEnded.observed
      (Object.sameMutable_of_decode hNew.conforms.canonical
        hNew.conforms.metadata hRead hShown)

/- A read upholds what was applied, also in the snapshot. -/
theorem Upheld.read
    {engine : Engine MemoryStore}
    (hStore : engine.store = MemoryStore.store)
    {wanted : Object kind}
    {tracked after : Tracked}
    {session later : Session MemoryStore}
    {result : Except LifecycleError Unit}
    (hUpheld : Upheld wanted tracked session.state)
    (hRun :
      (engine.read kind).run tracked session =
        ((result, after), later)) :
    Upheld wanted after later.state := by
  cases hId : tracked.objectId with
  | error fault =>
      unfold Engine.read at hRun
      rw [readAs_eq, hId] at hRun
      cases hRun
      exact hUpheld
  | ok id =>
      rcases engine.readAs_cases hStore kind .read hId session
        with ⟨store, hUntouched, hCases⟩
      have hAfter := hUpheld.untouched hUntouched
      rcases hCases with
        ⟨fault, hFailed⟩ |
          ⟨stored, object, hStored, hRead, hOk⟩
      · cases hFailed.symm.trans hRun
        exact hAfter
      · cases hOk.symm.trans hRun
        rcases hAfter.shown id stored hId hStored with
          ⟨hConforms, hShown⟩
        exact hAfter.observed
          (Object.sameMutable_of_decode hConforms.canonical
            hConforms.metadata hRead hShown)

/- All along, an applied configuration is upheld. The
   induction is on what happened since. -/
theorem Applied.upheld
    {engine : Engine MemoryStore}
    (hStore : engine.store = MemoryStore.store)
    {tracked : Tracked}
    {store : MemoryStore}
    (hApplied : Applied engine kind tracked store) :
    ∃ wanted : Object kind, Upheld wanted tracked store := by
  induction hApplied with
  | created hAccepted hRun =>
      exact ⟨_, engine.upheld_of_accepted hStore hAccepted
        hRun⟩
  | read hApplied hRun ih =>
      rcases ih with ⟨wanted, hUpheld⟩
      exact ⟨wanted, hUpheld.read hStore hRun⟩
  | seen coordinate hApplied ih =>
      rcases ih with ⟨wanted, hUpheld⟩
      exact ⟨wanted, hUpheld.untouched
        (MemoryStore.untouched_get coordinate _)⟩
  | statusSet coordinate hApplied hStatus ih =>
      rcases ih with ⟨wanted, hUpheld⟩
      exact ⟨wanted, hUpheld.statusSet coordinate hStatus⟩

------------------------------------------------------------
-- The Same Configuration Again
------------------------------------------------------------

/-
  An update with a configuration that was applied, or with
  that of an object that was adopted, asks for nothing but
  reads. No version is assigned, and whatever is stored, and
  not about to be deleted, stays stored as it is.
-/
theorem update_idle
    (engine : Engine MemoryStore)
    (hStore : engine.store = MemoryStore.store)
    (kind : Kind) :
    (∀ tracked session,
        Applied engine kind tracked session.state →
          engine.Idle kind tracked session) ∧
      ∀ written session adopted later,
        (engine.adopt kind written).run session =
            (.ok adopted, later) →
          ∀ now,
            engine.Idle kind adopted ⟨now, later.state⟩ := by
  constructor
  · intro tracked session hApplied
    rcases hApplied.upheld hStore with ⟨wanted, hUpheld⟩
    exact engine.idle_of_agrees hStore hUpheld.agrees session
  · intro written session adopted later hRun now
    rcases engine.adopt_atomic kind session written adopted
        later hRun with
      ⟨id, object, _, _, rfl⟩
    exact engine.idle_of_agrees hStore
      (fun _ => Object.eq_nil_of_diffConfigs_self) _

/- A task is created, gets a status and is adopted by
   somebody else; neither has anything to send. -/
theorem update_idle_described :
    ∃ tracked later adopted seen,
      (memoryEngine.create .task).run
            (.ofConfig (describedConfig "old"))
            (emptySession 0) =
          ((.ok (), tracked), later) ∧
        (memoryEngine.adopt .task "ci/build").run later =
          (.ok adopted, seen) ∧
        memoryEngine.Idle .task tracked
          ⟨0,
            (later.state.setStatus
              (address .task ⟨"ci", "build"⟩)
              (.obj [])).2⟩ ∧
        memoryEngine.Idle .task adopted ⟨0, seen.state⟩ := by
  have hConfigured :
      configured .task .create (describedConfig "old") =
        .ok (describedTask "old") :=
    Result.eq_ok_of_toOption (by decide +kernel)
  have hSubmitted :
      ((Client.create memoryEngine.store
        (memoryEngine.inNamespace
          (describedTask "old"))).run
            (emptySession 0)).1.toOption =
        some (submittedTask "old") := by
    decide +kernel
  have hId :
      ObjectId.ofMeta (submittedTask "old").metadata =
        .ok ⟨"ci", "build"⟩ :=
    Result.eq_ok_of_toOption (by decide +kernel)
  have hOk :
      ((memoryEngine.create .task).run
        (.ofConfig (describedConfig "old"))
        (emptySession 0)).1.1.toOption = some () := by
    decide +kernel
  have hAdopts :
      ((memoryEngine.adopt .task "ci/build").run
        ((memoryEngine.create .task).run
          (.ofConfig (describedConfig "old"))
          (emptySession 0)).2).1.isOk = true := by
    decide +kernel
  have hAccepted :
      memoryEngine.Accepted
        (.ofConfig (describedConfig "old")) (emptySession 0)
        (describedTask "old") ⟨"ci", "build"⟩
        (submittedTask "old") _ :=
    ⟨hConfigured,
      Prod.ext (Result.eq_ok_of_toOption hSubmitted) rfl,
      hId⟩
  have hIdle := memoryEngine.update_idle rfl .task
  rcases hCreate :
      (memoryEngine.create .task).run
        (.ofConfig (describedConfig "old"))
        (emptySession 0) with
    ⟨⟨result, tracked⟩, later⟩
  rw [hCreate] at hOk hAdopts
  have hResult : result = .ok () :=
    Result.eq_ok_of_toOption hOk
  rcases hAdopt :
      (memoryEngine.adopt .task "ci/build").run later with
    ⟨fault | adopted, seen⟩
  · rw [hAdopt] at hAdopts
    cases hAdopts
  · have hStatus : (Json.obj []).IsCanonical :=
      ⟨.nil, trivial⟩
    have hApplied :=
      (Applied.created hAccepted hCreate).statusSet
        (address .task ⟨"ci", "build"⟩) hStatus
    exact ⟨tracked, later, adopted, seen, hResult ▸ rfl,
      hAdopt, hIdle.1 tracked ⟨0, _⟩ hApplied,
      hIdle.2 _ _ _ _ hAdopt 0⟩

end Engine

end Converge
