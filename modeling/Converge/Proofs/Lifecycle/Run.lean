import Converge.Proofs.Lifecycle.Creation
import Converge.Proofs.Object.Identity

/-
  Runs of operations on one tracked object.

  A run goes on after operations that fail, and between its
  operations anything may happen but to the mutable parts of
  the tracked object. All along, what is stored of the object
  can be patched, and the snapshot shows it as long as all
  that was sent has been read back.

  Key definitions:
    * `Engine.Point`: where a run stands
    * `Engine.Step`, `Engine.Run`: operations on one tracked
      object, whatever becomes of them
    * `Engine.Sound`: what holds all along a run

  Main declarations:
    * `Engine.Sent.reaches`: what an update leads to
    * `Engine.Step.sound`, `Engine.Run.sound`
-/

namespace Converge

namespace Engine

open MemoryStore (Untouched Submitted address)

variable {kind : Kind}

------------------------------------------------------------
-- Runs
------------------------------------------------------------

/- Where a run stands: the tracked object, the session, and
   whether all that was sent has been read back. -/
structure Point where
  tracked : Tracked
  session : Session MemoryStore
  fresh : Bool

/- A document that was changed outside its mutable parts. -/
structure Spared (before after : Json) : Prop where
  canonical : before.IsCanonical → after.IsCanonical
  metadata : before.HasMetadata → after.HasMetadata
  roots :
    ∀ root, root ∈ Diff.mutableRoots →
      after.at? root = before.at? root

/- The mutable parts of a tracked object were not written. -/
def Unwritten
    (kind : Kind)
    (tracked : Tracked)
    (before after : MemoryStore) : Prop :=
  ∀ id later,
    tracked.objectId = .ok id →
      after.stored? (address kind id) = some later →
        ∃ earlier,
          before.stored? (address kind id) = some earlier ∧
            Spared earlier.object later.object

/-
  One step of a run. What an operation returned decides what
  is known of the snapshot. It is fresh after an operation
  that succeeded, and an update that fails after something
  was written leaves it behind. Between the operations time
  may pass, and everything may change but the mutable parts
  of the tracked object.
-/
inductive Step
    (engine : Engine MemoryStore)
    (kind : Kind) :
    Point → Point → Prop
  | configured
      (config : ConfigMap)
      (point : Point) :
      Step engine kind point
        { point with
          tracked := { point.tracked with config := config } }
  | created
      {point : Point}
      {result : Except LifecycleError Unit}
      {tracked : Tracked}
      {later : Session MemoryStore} :
      (engine.create kind).run point.tracked point.session =
          ((result, tracked), later) →
        Step engine kind point
          ⟨tracked, later, point.fresh || result.isOk⟩
  | read
      {point : Point}
      {result : Except LifecycleError Unit}
      {tracked : Tracked}
      {later : Session MemoryStore} :
      (engine.read kind).run point.tracked point.session =
          ((result, tracked), later) →
        Step engine kind point
          ⟨tracked, later, point.fresh || result.isOk⟩
  | updated
      {point : Point}
      {tracked : Tracked}
      {later : Session MemoryStore} :
      (engine.update kind).run point.tracked point.session =
          ((.ok (), tracked), later) →
        Step engine kind point ⟨tracked, later, true⟩
  | refused
      {point : Point}
      {fault : LifecycleError}
      {tracked : Tracked}
      {later : Session MemoryStore} :
      (engine.update kind).run point.tracked point.session =
          ((.error fault, tracked), later) →
        Untouched point.session.state later.state →
          Step engine kind point
            ⟨tracked, later, point.fresh⟩
  | lost
      {point : Point}
      {fault : LifecycleError}
      {tracked : Tracked}
      {later : Session MemoryStore} :
      (engine.update kind).run point.tracked point.session =
          ((.error fault, tracked), later) →
        Step engine kind point ⟨tracked, later, false⟩
  | elsewhere
      {point : Point}
      {later : Session MemoryStore} :
      Unwritten kind point.tracked point.session.state
          later.state →
        Step engine kind point { point with session := later }

/- Points that are reached from a tracked object of which
   nothing is stored yet. -/
inductive Run
    (engine : Engine MemoryStore)
    (kind : Kind) :
    Point → Prop
  | start
      {point : Point} :
      (∀ id, point.tracked.objectId = .ok id →
        point.session.state.stored? (address kind id) =
          none) →
        Run engine kind point
  | step
      {before after : Point} :
      Run engine kind before →
        Step engine kind before after →
          Run engine kind after

------------------------------------------------------------
-- What Stays Unwritten
------------------------------------------------------------

theorem Spared.refl (document : Json) :
    Spared document document :=
  ⟨id, id, fun _ _ => rfl⟩

/- Where no object was written, no mutable part was. -/
theorem unwritten_of_untouched
    (kind : Kind)
    (tracked : Tracked)
    {before after : MemoryStore}
    (h : Untouched before after) :
    Unwritten kind tracked before after := by
  intro id later _ hLater
  rcases h.stored _ later hLater with
    ⟨earlier, hEarlier, hSame⟩
  refine ⟨earlier, hEarlier, ?_⟩
  rw [hSame]
  exact .refl _

------------------------------------------------------------
-- What Holds All Along
------------------------------------------------------------

/- The snapshot of a tracked object has the mutable parts
   that a document shows. -/
def Mirrors
    (kind : Kind)
    (tracked : Tracked)
    (document : Json) : Prop :=
  ∃ held : Object kind,
    tracked.state = some held.flatten ∧
      held.ShowsMutable document

/- Whatever is stored of the tracked object can be patched,
   and a fresh snapshot shows it. -/
def Sound (kind : Kind) (point : Point) : Prop :=
  ∀ id stored,
    point.tracked.objectId = .ok id →
      point.session.state.stored? (address kind id) =
          some stored →
        Object.Conforms kind stored.object ∧
          (point.fresh = true →
            Mirrors kind point.tracked stored.object)

/- What is spared can be patched as before. -/
theorem conforms_of_spared
    {before after : Json}
    (hConforms : Object.Conforms kind before)
    (hSpared : Spared before after) :
    Object.Conforms kind after :=
  hConforms.congr (hSpared.canonical hConforms.canonical)
    (hSpared.metadata hConforms.metadata) hSpared.roots

/- Nothing else is known after the rest was written. -/
theorem Sound.unwritten
    {tracked : Tracked}
    {session later : Session MemoryStore}
    {fresh : Bool}
    (hSound : Sound kind ⟨tracked, session, fresh⟩)
    (hUnwritten :
      Unwritten kind tracked session.state later.state) :
    Sound kind ⟨tracked, later, fresh⟩ := by
  intro id stored hId hStored
  rcases hUnwritten id stored hId hStored with
    ⟨earlier, hEarlier, hSpared⟩
  rcases hSound id earlier hId hEarlier with
    ⟨hConforms, hMirrors⟩
  refine ⟨conforms_of_spared hConforms hSpared, ?_⟩
  intro hFresh
  rcases hMirrors hFresh with ⟨held, hState, hShown⟩
  exact ⟨held, hState, hShown.congr hSpared.roots⟩

/- The object that what is stored shows, and that a fresh
   snapshot was taken of. -/
theorem Sound.held
    {point : Point}
    {id : ObjectId}
    {stored : StoredObject}
    (hSound : Sound kind point)
    (hId : point.tracked.objectId = .ok id)
    (hStored :
      point.session.state.stored? (address kind id) =
        some stored) :
    Object.Conforms kind stored.object ∧
      ∃ held : Object kind,
        held.ShowsMutable stored.object ∧
          (point.fresh = true →
            point.tracked.state = some held.flatten) := by
  rcases hSound id stored hId hStored with
    ⟨hConforms, hMirrors⟩
  refine ⟨hConforms, ?_⟩
  by_cases hFresh : point.fresh = true
  · rcases hMirrors hFresh with ⟨held, hState, hShown⟩
    exact ⟨held, hShown, fun _ => hState⟩
  · rcases hConforms.shown with ⟨shown, hShown⟩
    exact ⟨shown, hShown, fun h => absurd h hFresh⟩

/- A snapshot may count as out of date. -/
theorem Sound.forgotten
    {tracked : Tracked}
    {session : Session MemoryStore}
    {fresh : Bool}
    (hSound : Sound kind ⟨tracked, session, fresh⟩) :
    Sound kind ⟨tracked, session, false⟩ := by
  intro id stored hId hStored
  exact ⟨(hSound id stored hId hStored).1, nofun⟩

/- What a document is read as is shown by it. -/
theorem showsMutable_of_decode
    {document : Json}
    {object : Object kind}
    (hConforms : Object.Conforms kind document)
    (hRead : Object.decode? kind document = some object) :
    object.ShowsMutable document := by
  rcases hConforms with ⟨hDocument, hMetadata, shown, hShown⟩
  exact (Object.sameMutable_of_decode hDocument hMetadata
    hRead hShown).shows hShown

/- A read leaves a fresh snapshot, or the one there was. -/
theorem readAs_sound
    (engine : Engine MemoryStore)
    (hStore : engine.store = MemoryStore.store)
    (operation : Operation)
    {point : Point}
    {result : Except LifecycleError Unit}
    {tracked : Tracked}
    {later : Session MemoryStore}
    (hSound : Sound kind point)
    (hRun :
      (engine.readAs kind operation).run point.tracked
          point.session =
        ((result, tracked), later)) :
    Sound kind
      ⟨tracked, later, point.fresh || result.isOk⟩ := by
  cases hId : point.tracked.objectId with
  | error fault =>
      unfold readAs at hRun
      simp only [Work.run_bind, run_identity, hId,
        Result.mapError_error] at hRun
      cases hRun
      intro id stored hOther
      rw [hId] at hOther
      cases hOther
  | ok id =>
      rcases engine.readAs_cases hStore kind operation hId
          point.session with
        ⟨after, hUntouched, hCases⟩
      have hAfter :
          Sound kind
            ⟨point.tracked, ⟨point.session.now, after⟩,
              point.fresh⟩ :=
        Sound.unwritten hSound
          (unwritten_of_untouched kind _ hUntouched)
      rcases hCases with
        ⟨fault, hFailed⟩ |
          ⟨stored, object, hStored, hRead, hOk⟩
      · rw [hFailed] at hRun
        cases hRun
        rw [Except.isOk, Except.toBool, Bool.or_false]
        exact hAfter
      · rw [hOk] at hRun
        cases hRun
        intro other found hOther hFound
        have hConforms := (hAfter other found hOther hFound).1
        refine ⟨hConforms, ?_⟩
        intro _
        have hSame : other = id :=
          Except.ok.inj (hOther.symm.trans hId)
        subst hSame
        have hEq := Option.some.inj (hFound.symm.trans hStored)
        subst hEq
        exact ⟨object, rfl,
          showsMutable_of_decode hConforms hRead⟩

/- A creation tracks what it submitted, or nothing new. -/
theorem create_sound
    (engine : Engine MemoryStore)
    (hStore : engine.store = MemoryStore.store)
    {point : Point}
    {result : Except LifecycleError Unit}
    {tracked : Tracked}
    {later : Session MemoryStore}
    (hSound : Sound kind point)
    (hRun :
      (engine.create kind).run point.tracked point.session =
        ((result, tracked), later)) :
    Sound kind
      ⟨tracked, later, point.fresh || result.isOk⟩ := by
  rcases engine.create_cases hStore kind point.tracked
      point.session with
    ⟨fault, after, hFailed, hUntouched⟩ |
      ⟨id, submitted, seen, document, between, outcome, after,
        hNew, hUntouched, hSeen, hDone⟩
  · rw [hFailed] at hRun
    cases hRun
    rw [Except.isOk, Except.toBool, Bool.or_false]
    exact Sound.unwritten hSound
      (unwritten_of_untouched kind _ hUntouched)
  · rw [hDone] at hRun
    cases hRun
    intro other stored hOther hStored
    have hSame := ObjectId.eq_of_parse_text hOther
    subst hSame
    rcases hUntouched.stored _ stored hStored with
      ⟨earlier, hEarlier, hObject⟩
    have hDocument : stored.object = document := by
      have hEq :=
        Option.some.inj (hEarlier.symm.trans hNew.stored)
      rw [hObject, hEq]
    rw [hDocument]
    refine ⟨hNew.conforms, ?_⟩
    intro _
    refine ⟨seen, rfl, ?_⟩
    rcases hSeen with rfl | ⟨found, hFound, hRead⟩
    · exact hNew.shown
    · have hEq := Option.some.inj (hFound.symm.trans hStored)
      rw [hEq, hDocument] at hRead
      exact showsMutable_of_decode hNew.conforms hRead

------------------------------------------------------------
-- What an Update Sends
------------------------------------------------------------

/- What is stored once an update has sent its document, by
   what was stored before. It is as wanted exactly when the
   document has an edit wherever the two differ. -/
theorem Sent.reaches
    {id : ObjectId}
    {wanted previous : Object kind}
    {session later : Session MemoryStore}
    {kept : StoredObject}
    (hSent : Sent id wanted previous session later)
    (hKept :
      later.state.stored? (address kind id) = some kept) :
    ∃ stored,
      session.state.stored? (address kind id) =
          some stored ∧
        (Object.Conforms kind stored.object →
          Object.Conforms kind kept.object ∧
            ∀ held : Object kind,
              held.ShowsMutable stored.object →
                (wanted.ShowsMutable kept.object ↔
                  Diff.Covers
                    (Diff.edits wanted.toJson
                      previous.toJson)
                    (Diff.edits wanted.toJson
                      held.toJson))) := by
  cases hSent with
  | nothing hEmpty =>
      refine ⟨kept, hKept, ?_⟩
      intro hConforms
      refine ⟨hConforms, ?_⟩
      intro held hHeld
      have hNone :
          Diff.edits wanted.toJson previous.toJson = [] :=
        List.map_eq_nil_iff.1 hEmpty
      have hApply :
          Patch.apply
              ((Diff.edits wanted.toJson previous.toJson).map
                Edit.instruction)
              kept.object = .ok kept.object := by
        rw [hNone]
        rfl
      exact (wanted.showsMutable_of_apply previous
        hConforms.canonical hConforms.metadata hHeld hApply).2
  | patch hSome hStored hApply =>
      rename_i stored made
      rw [MemoryStore.stored?_accept, if_pos rfl] at hKept
      cases hKept
      refine ⟨stored, hStored, ?_⟩
      intro hConforms
      rcases MemoryStore.conforms_revised hConforms hApply
          session.state with
        ⟨hRevised, hRoots⟩
      refine ⟨hRevised, ?_⟩
      intro held hHeld
      have hReaches := (wanted.showsMutable_of_apply previous
        hConforms.canonical hConforms.metadata hHeld hApply).2
      rw [← hReaches]
      constructor
      · intro hWanted
        exact hWanted.congr fun root hRoot =>
          (hRoots root hRoot).symm
      · intro hWanted
        exact hWanted.congr hRoots

/- Whatever an update sends, the object can be patched
   again. -/
theorem Sent.sound
    {id : ObjectId}
    {wanted previous : Object kind}
    {tracked : Tracked}
    {session later : Session MemoryStore}
    {fresh : Bool}
    (hId : tracked.objectId = .ok id)
    (hSent : Sent id wanted previous session later)
    (hSound : Sound kind ⟨tracked, session, fresh⟩) :
    Sound kind ⟨tracked, later, false⟩ := by
  intro other kept hOther hKept
  have hSame : other = id :=
    Except.ok.inj (hOther.symm.trans hId)
  subst hSame
  rcases hSent.reaches hKept with ⟨stored, hStored, hReaches⟩
  have hConforms := (hSound other stored hId hStored).1
  exact ⟨(hReaches hConforms).1, nofun⟩

/- An update leaves a fresh snapshot, or an object that can
   be patched again. -/
theorem update_sound
    (engine : Engine MemoryStore)
    (hStore : engine.store = MemoryStore.store)
    {point : Point}
    {result : Except LifecycleError Unit}
    {tracked : Tracked}
    {later : Session MemoryStore}
    (hSound : Sound kind point)
    (hRun :
      (engine.update kind).run point.tracked point.session =
        ((result, tracked), later)) :
    Sound kind ⟨tracked, later, result.isOk⟩ := by
  rcases engine.update_cases hStore kind point.tracked
      point.session with
    ⟨fault, hFailed⟩ |
      ⟨id, wanted, previous, between, hPrepared, hSent, hRest⟩
  · rw [hFailed] at hRun
    cases hRun
    exact Sound.forgotten hSound
  · have hBetween := hSent.sound hPrepared.identity hSound
    rcases hRest with ⟨fault, hFailed⟩ | hRead
    · rw [hFailed] at hRun
      cases hRun
      exact hBetween
    · rw [hRead] at hRun
      exact engine.readAs_sound hStore .update hBetween hRun

/- An update that fails leaves the tracked object as it
   was. -/
theorem tracked_of_update_error
    (engine : Engine MemoryStore)
    (hStore : engine.store = MemoryStore.store)
    {tracked after : Tracked}
    {session later : Session MemoryStore}
    {fault : LifecycleError}
    (hRun :
      (engine.update kind).run tracked session =
        ((.error fault, after), later)) :
    after = tracked := by
  rcases engine.update_cases hStore kind tracked session with
    ⟨other, hFailed⟩ |
      ⟨id, wanted, previous, between, hPrepared, _, hRest⟩
  · rw [hFailed] at hRun
    cases hRun
    rfl
  · rcases hRest with ⟨other, hFailed⟩ | hRead
    · rw [hFailed] at hRun
      cases hRun
      rfl
    · rw [hRead] at hRun
      rcases engine.readAs_cases hStore kind .update
          hPrepared.identity between with
        ⟨read, _, ⟨other, hFailed⟩ | ⟨_, _, _, _, hOk⟩⟩
      · rw [hFailed] at hRun
        cases hRun
        rfl
      · rw [hOk] at hRun
        cases hRun

------------------------------------------------------------
-- Steps and Runs
------------------------------------------------------------

/- Each step leaves what holds all along. -/
theorem Step.sound
    {engine : Engine MemoryStore}
    (hStore : engine.store = MemoryStore.store)
    {before after : Point}
    (hStep : Step engine kind before after)
    (hSound : Sound kind before) :
    Sound kind after := by
  cases hStep with
  | configured config => exact hSound
  | created hRun =>
      exact engine.create_sound hStore hSound hRun
  | read hRun =>
      exact engine.readAs_sound hStore .read hSound hRun
  | updated hRun =>
      exact engine.update_sound hStore hSound hRun
  | refused hRun hUntouched =>
      rw [engine.tracked_of_update_error hStore hRun]
      exact Sound.unwritten hSound
        (unwritten_of_untouched kind _ hUntouched)
  | lost hRun =>
      exact engine.update_sound hStore hSound hRun
  | elsewhere hUnwritten =>
      exact Sound.unwritten hSound hUnwritten

/- It holds all along a run. -/
theorem Run.sound
    {engine : Engine MemoryStore}
    (hStore : engine.store = MemoryStore.store)
    {point : Point}
    (hRun : Run engine kind point) :
    Sound kind point := by
  induction hRun with
  | start hNothing =>
      intro id stored hId hStored
      rw [hNothing id hId] at hStored
      cases hStored
  | step hBefore hStep ih => exact hStep.sound hStore ih

end Engine

end Converge
