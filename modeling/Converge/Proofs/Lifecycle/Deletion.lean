import Converge.Proofs.Lifecycle.Convergence
import Converge.Proofs.Lifecycle.Creation
import Converge.Proofs.Store.History

/-
  What the deletion of a tracked object leaves behind.

  A deletion waits until a read answers that nothing is
  there. An object that lingers is read until it is gone, but
  one that is still out of sight is answered for in the same
  way, and stays. So a deletion that succeeds is final unless
  it is about an object out of sight, in a store that lets
  deleted objects linger; such an object comes into sight
  later.

  Key definitions:
    * `MemoryStore.left?`: what an awaited deletion leaves

  Main declarations:
    * `Engine.delete_isGone_iff`
-/

namespace Converge

namespace MemoryStore

------------------------------------------------------------
-- Reading until Nothing Is Read
------------------------------------------------------------

/- What is left at an address once a read answers that nothing
   is there. -/
def left? : Option StoredObject → Option StoredObject
  | none => none
  | some stored =>
      match stored.hiddenReads with
      | 0 => none
      | hidden + 1 => some { stored with hiddenReads := hidden }

theorem left?_eq_none_iff
    {found : Option StoredObject} :
    left? found = none ↔
      ∀ stored, found = some stored →
        stored.hiddenReads = 0 := by
  cases found with
  | none => exact iff_of_true rfl nofun
  | some stored =>
      cases hHidden : stored.hiddenReads <;>
        simp [left?, hHidden]

/- What is left was out of sight. -/
theorem exists_of_left?
    {found : Option StoredObject}
    {kept : StoredObject}
    (h : left? found = some kept) :
    ∃ stored, found = some stored ∧
      0 < stored.hiddenReads ∧
      kept.lingeringReads = stored.lingeringReads := by
  cases found with
  | none => cases h
  | some stored =>
      refine ⟨stored, rfl, ?_⟩
      cases hHidden : stored.hiddenReads with
      | zero => simp [left?, hHidden] at h
      | succ hidden =>
          simp only [left?, hHidden, Option.some.injEq] at h
          exact ⟨Nat.succ_pos hidden, h ▸ rfl⟩

/- Nothing stands at an address but what was deleted. -/
def IsMarked
    (coordinate : Coordinate)
    (store : MemoryStore) :
    Prop :=
  ∀ stored, store.stored? coordinate = some stored →
    stored.lingeringReads ≠ none

/- A read of what was deleted answers that nothing is there,
   or leaves as much to be read away as before. -/
theorem get_marked_cases
    {coordinate : Coordinate}
    {store : MemoryStore}
    (hMarked : store.IsMarked coordinate) :
    ((store.get coordinate).1 =
          .error (.missing coordinate) ∧
        (store.get coordinate).2.stored? coordinate =
          left? (store.stored? coordinate)) ∨
      ∃ value,
        (store.get coordinate).1 = .ok value ∧
          (store.get coordinate).2.IsMarked coordinate ∧
          left? ((store.get coordinate).2.stored?
              coordinate) =
            left? (store.stored? coordinate) := by
  cases hStored : store.stored? coordinate with
  | none =>
      left
      rw [get_of_absent hStored, hStored]
      exact ⟨rfl, rfl⟩
  | some stored =>
      cases hHidden : stored.hiddenReads with
      | succ hidden =>
          left
          rw [get_of_hidden hStored hHidden]
          simp [left?, hHidden]
      | zero =>
          cases hLingering : stored.lingeringReads with
          | none =>
              exact absurd hLingering (hMarked stored hStored)
          | some remaining =>
              cases remaining with
              | zero =>
                  left
                  rw [get_of_lapsed hStored hHidden
                    hLingering]
                  simp [left?, hHidden]
              | succ remaining =>
                  right
                  rw [get_of_lingering hStored hHidden
                    hLingering]
                  refine ⟨_, rfl, ?_, ?_⟩
                  · intro later hLater
                    rw [stored?_keep, if_pos rfl] at hLater
                    cases hLater
                    exact nofun
                  · simp [left?, hHidden]

/- What stands at an address after a request for deletion. -/
theorem stored?_after_delete
    (coordinate : Coordinate)
    (store : MemoryStore) :
    (store.after (.delete coordinate)).stored? coordinate =
      if store.deletionDelay = 0 then none
      else
        (store.stored? coordinate).map
          (terminate store.clock store.deletionDelay) := by
  unfold after MemoryStore.delete
  cases hStored : store.stored? coordinate with
  | none => simp [hStored]
  | some stored =>
      by_cases hDelay : store.deletionDelay = 0 <;>
        simp [hStored, hDelay]

theorem hiddenReads_terminate
    (clock : Timestamp)
    (delay : Nat)
    (stored : StoredObject) :
    (terminate clock delay stored).hiddenReads =
      stored.hiddenReads := by
  unfold terminate
  split <;> rfl

/- An object still has to come into sight. -/
def IsOutOfSight
    (coordinate : Coordinate)
    (store : MemoryStore) :
    Prop :=
  ∃ stored, store.stored? coordinate = some stored ∧
    0 < stored.hiddenReads

/- A request for deletion leaves nothing behind that is not
   read away, unless objects linger and this one is out of
   sight. -/
theorem left?_after_delete_eq_none_iff
    {coordinate : Coordinate}
    {store : MemoryStore} :
    left? ((store.after (.delete coordinate)).stored?
        coordinate) = none ↔
      store.deletionDelay = 0 ∨
        ¬store.IsOutOfSight coordinate := by
  rw [stored?_after_delete, left?_eq_none_iff]
  by_cases hDelay : store.deletionDelay = 0
  · simp [hDelay]
  · simp only [hDelay, if_false, false_or, IsOutOfSight,
      Option.map_eq_some_iff, not_exists, not_and,
      forall_exists_index, and_imp, Nat.pos_iff_ne_zero,
      Decidable.not_not]
    constructor
    · intro hAll stored hStored
      rw [← hiddenReads_terminate store.clock
        store.deletionDelay]
      exact hAll _ stored hStored rfl
    · rintro hAll _ stored hStored rfl
      rw [hiddenReads_terminate]
      exact hAll stored hStored

/- A request for deletion finds nothing, or leaves nothing but
   what it marked. -/
theorem delete_cases
    (coordinate : Coordinate)
    (store : MemoryStore) :
    (store.stored? coordinate = none ∧
        store.delete coordinate =
          (.error (.missing coordinate), store)) ∨
      ∃ after,
        store.delete coordinate = (.ok (), after) ∧
          after.IsMarked coordinate := by
  unfold MemoryStore.delete
  split
  · rename_i hAbsent
    exact Or.inl ⟨hAbsent, rfl⟩
  · rename_i stored hStored
    right
    split
    · refine ⟨_, rfl, fun later hLater => ?_⟩
      rw [stored?_forget, if_pos rfl] at hLater
      cases hLater
    · refine ⟨_, rfl, fun later hLater => ?_⟩
      rw [stored?_keep, if_pos rfl] at hLater
      cases hLater
      unfold terminate
      cases hLingering : stored.lingeringReads with
      | none => exact nofun
      | some remaining =>
          rw [hLingering]
          exact nofun

end MemoryStore

namespace Engine

open MemoryStore (address left?)

variable {kind : Kind}

------------------------------------------------------------
-- Waiting for a Deletion
------------------------------------------------------------

/- A wait for a deletion that succeeded leaves what is left
   once nothing is read. -/
theorem deletionWait_of_ok
    (engine : Engine MemoryStore)
    (hStore : engine.store = MemoryStore.store)
    (kind : Kind)
    (id : ObjectId)
    (timeouts : Timeouts)
    (session : Session MemoryStore)
    (hMarked : session.state.IsMarked (address kind id)) :
    let outcome :=
      ((engine.deletionWait timeouts).run engine.timer
        (.ofId kind id) .delete engine.signal
        (engine.observeDeletion kind id)).run session
    ∀ value, outcome.1 = .ok value →
      outcome.2.state.stored? (address kind id) =
        left? (session.state.stored? (address kind id)) := by
  refine StateWait.run_of_ok _ _ _ _ _
    (fun store =>
      store.IsMarked (address kind id) ∧
        left? (store.stored? (address kind id)) =
          left? (session.state.stored? (address kind id)))
    (fun store =>
      store.stored? (address kind id) =
        left? (session.state.stored? (address kind id)))
    ?_ session ⟨hMarked, rfl⟩
  rintro session ⟨hMarked, hLeft⟩
  simp only [run_observeDeletion, hStore, Client.run_get]
  rcases MemoryStore.get_marked_cases hMarked with
    ⟨hMissing, hStored⟩ | ⟨value, hOk, hMarked, hSame⟩
  · refine ⟨?_, fun _ _ => hStored.trans hLeft⟩
    rw [hMissing]
    exact nofun
  · refine ⟨fun _ => ⟨hMarked, hSame.trans hLeft⟩, ?_⟩
    -- an object, or what cannot be read as one, ends no wait
    rw [hOk]
    intro found hVerdict
    simp only [Client.decoded, Except.bind, deletionSeen]
      at hVerdict
    cases hRead : Object.decode? kind value <;>
      rw [hRead] at hVerdict <;> cases hVerdict

------------------------------------------------------------
-- Deleting
------------------------------------------------------------

/- A deletion that succeeds was about an identity, which it
   clears. Nothing is left, unless the store marked the object
   and keeps it. -/
theorem delete_of_ok
    (engine : Engine MemoryStore)
    (hStore : engine.store = MemoryStore.store)
    {tracked after : Tracked}
    {session later : Session MemoryStore}
    (hRun :
      (engine.delete kind).run tracked session =
        ((.ok (), after), later)) :
    ∃ id, tracked.objectId = .ok id ∧ after = tracked.clear ∧
      later.state.stored? (address kind id) =
        left?
          ((session.state.after
            (.delete (address kind id))).stored?
              (address kind id)) := by
  rw [delete_eq, hStore] at hRun
  cases hId : tracked.objectId with
  | error fault =>
      rw [hId] at hRun
      cases hRun
  | ok id =>
      refine ⟨id, rfl, ?_⟩
      have hDelete :
          ∀ session : Session MemoryStore,
            (Client.delete MemoryStore.store kind
                id.namespaceName id.name).run session =
              ((session.state.delete (address kind id)).1,
                ⟨session.now,
                  (session.state.delete
                    (address kind id)).2⟩) :=
        fun _ => rfl
      simp only [hId, hDelete] at hRun
      change _ ∧ _ = left?
        ((session.state.delete (address kind id)).2.stored? _)
      rcases MemoryStore.delete_cases (address kind id)
          session.state with
        ⟨hAbsent, hMissing⟩ | ⟨marked, hMarks, hMarked⟩
      · rw [hMissing] at hRun ⊢
        cases hRun
        exact ⟨rfl, by simp only [hAbsent, left?]⟩
      · rw [hMarks] at hRun ⊢
        have hWait := engine.deletionWait_of_ok hStore kind id
          tracked.timeouts ⟨session.now, marked⟩ hMarked
        simp only at hRun
        generalize
          ((engine.deletionWait tracked.timeouts).run
            engine.timer (.ofId kind id) .delete engine.signal
            (engine.observeDeletion kind id)).run
              ⟨session.now, marked⟩ = outcome at hWait hRun
        rcases outcome with ⟨fault | value, ended⟩
        · cases hRun
        · cases hRun
          exact ⟨rfl, hWait value rfl⟩

/-
  A deletion that succeeds clears the identity. It leaves
  nothing at the address unless deleted objects linger and
  the object was still out of sight; and exactly when nothing
  is left, no later read finds the object again.
-/
theorem delete_isGone_iff
    (engine : Engine MemoryStore)
    (hStore : engine.store = MemoryStore.store)
    {tracked after : Tracked}
    {session later : Session MemoryStore}
    (hReachable : session.state.IsReachable)
    (hRun :
      (engine.delete kind).run tracked session =
        ((.ok (), after), later)) :
    ∃ id, tracked.objectId = .ok id ∧ after = tracked.clear ∧
      (later.state.stored? (address kind id) = none ↔
        session.state.deletionDelay = 0 ∨
          ¬session.state.IsOutOfSight (address kind id)) ∧
      (later.state.IsGone (address kind id) ↔
        later.state.stored? (address kind id) = none) := by
  rcases engine.delete_of_ok hStore hRun with
    ⟨id, hId, hAfter, hLeft⟩
  refine ⟨id, hId, hAfter, ?_, ?_,
    MemoryStore.isGone_of_absent⟩
  · rw [hLeft]
    exact MemoryStore.left?_after_delete_eq_none_iff
  · intro hGone
    cases hKept : later.state.stored? (address kind id) with
    | none => rfl
    | some kept =>
        rw [hKept] at hLeft
        rcases MemoryStore.exists_of_left? hLeft.symm with
          ⟨stored, hStored, hHidden, hLingering⟩
        have hLasting :=
          hReachable.lasts.after _ _ stored hStored hHidden
        rw [← hLingering] at hLasting
        exact absurd hGone
          (MemoryStore.not_isGone hKept hLasting)

/- A task that was created, and is still out of sight for
   three reads; once deleted, it lingers for two. -/
def hiddenSession : Session MemoryStore :=
  ⟨0,
    (MemoryStore.empty ⟨1, 1⟩ firstDay 3 2).afterTimes
      [ ⟨secondDay,
          .create Kind.task.resourceType "ci"
            (describedTask "old").prepareForCreate.toJson⟩ ]⟩

/- Its deletion succeeds, and it is read again later. -/
theorem delete_isGone_iff_hidden :
    ∃ after later,
      (memoryEngine.delete .task).run
            ⟨"ci/build", describedConfig "old", none,
              .standard⟩
            hiddenSession =
          ((.ok (), after), later) ∧
        after.id = "" ∧
        ¬later.state.IsGone
          (address .task ⟨"ci", "build"⟩) := by
  have hReachable : hiddenSession.state.IsReachable :=
    ⟨_, _, _, _, _, rfl⟩
  have hOk :
      ((memoryEngine.delete .task).run
          ⟨"ci/build", describedConfig "old", none, .standard⟩
          hiddenSession).1.1.toOption =
        some () := by
    decide +kernel
  have hOutOfSight :
      ((hiddenSession.state.stored?
          (address .task ⟨"ci", "build"⟩)).any fun stored =>
            decide (0 < stored.hiddenReads)) =
        true := by
    decide +kernel
  cases hRun :
      (memoryEngine.delete .task).run
        ⟨"ci/build", describedConfig "old", none, .standard⟩
        hiddenSession with
  | mk answer later =>
      rcases answer with ⟨result, after⟩
      rw [hRun] at hOk
      have hResult := Result.eq_ok_of_toOption hOk
      simp only at hResult
      subst hResult
      rcases delete_isGone_iff memoryEngine rfl hReachable hRun
        with ⟨id, hId, hAfter, hLeft, hGone⟩
      have hBuild :
          ObjectId.parse "ci/build" = .ok ⟨"ci", "build"⟩ :=
        Result.eq_ok_of_toOption (by decide +kernel)
      have hSame : id = ⟨"ci", "build"⟩ :=
        Except.ok.inj (hId.symm.trans hBuild)
      subst hSame
      refine ⟨after, later, rfl, by rw [hAfter]; rfl, ?_⟩
      rw [hGone, hLeft]
      rintro (hDelay | hInSight)
      · exact absurd hDelay (by decide +kernel)
      · rcases (Option.any_eq_true _ _).1 hOutOfSight with
          ⟨stored, hStored, hHidden⟩
        exact hInSight
          ⟨stored, hStored, of_decide_eq_true hHidden⟩

end Engine

end Converge
