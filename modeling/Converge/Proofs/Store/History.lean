import Converge.Proofs.Store.Memory

/-
  Histories of a store in memory.

  What stands at an address changes in few ways only: an
  object is created there, comes a read nearer to sight, is
  changed, is marked for deletion, lingers for a read less,
  or is gone. From these follows what holds after any number
  of calls, whatever time passes between them: an address
  stays empty until something is created there, and what
  stays out of sight was not about to go.

  Key definitions:
    * `MemoryStore.Call`, `MemoryStore.TimedCall`: calls, and
      calls at their times
    * `MemoryStore.afterTimes`: histories in which time passes
    * `MemoryStore.Passage`: what a call does at an address
    * `MemoryStore.IsReachable`: states with a history
    * `MemoryStore.IsGone`: nothing is read there any more

  Main declarations:
    * `MemoryStore.passage_after`: the ways of a call
    * `MemoryStore.isGone_of_absent`, `MemoryStore.not_isGone`
    * `MemoryStore.IsReachable.lasts`
-/

namespace Converge

namespace MemoryStore

------------------------------------------------------------
-- Calls
------------------------------------------------------------

/- A call of a store, or what a controller does to it. A
   document of a patch is a text: bytes that are none are
   refused in the way of a text that cannot be read. -/
inductive Call where
  | get (coordinate : Coordinate)
  | create
      (type : ResourceType)
      (namespaceName : String)
      (body : Json)
  | patch (coordinate : Coordinate) (document : String)
  | delete (coordinate : Coordinate)
  | setStatus (coordinate : Coordinate) (status : Json)

/- The store after a call. -/
def after (store : MemoryStore) : Call → MemoryStore
  | .get coordinate => (store.get coordinate).2
  | .create type namespaceName body =>
      (store.create type namespaceName body).2
  | .patch coordinate document =>
      (store.patch coordinate document).2
  | .delete coordinate => (store.delete coordinate).2
  | .setStatus coordinate status =>
      (store.setStatus coordinate status).2

/- A call, and the time that the store stamps then. -/
structure TimedCall where
  clock : Timestamp
  call : Call

/- The store at another time. -/
def atTime
    (clock : Timestamp)
    (store : MemoryStore) :
    MemoryStore :=
  { store with clock := clock }

/- The store after a call at its time. -/
def afterTimed
    (store : MemoryStore)
    (timed : TimedCall) :
    MemoryStore :=
  (store.atTime timed.clock).after timed.call

/- The store after a history of calls at their times. -/
def afterTimes
    (store : MemoryStore)
    (calls : List TimedCall) :
    MemoryStore :=
  calls.foldl afterTimed store

/- The address of the object that a call would create. -/
def Call.created?
    (store : MemoryStore) :
    Call → Option Coordinate
  | .create type namespaceName body =>
      match (chooseName body store.supply).1 with
      | .ok name => some ⟨type, namespaceName, name⟩
      | .error _ => none
  | _ => none

/- No call of a history creates an object at an address. -/
def NeverCreates
    (coordinate : Coordinate) :
    MemoryStore → List TimedCall → Prop
  | _, [] => True
  | store, timed :: rest =>
      timed.call.created? store ≠ some coordinate ∧
        NeverCreates coordinate (store.afterTimed timed) rest

/- Some history leads to the state of a store, from whatever
   supply of identifiers it began with. -/
def IsReachable (store : MemoryStore) : Prop :=
  ∃ supply clock visibilityDelay deletionDelay calls,
    store =
      (empty supply clock visibilityDelay
        deletionDelay).afterTimes calls

/- Unless something is created there, no later read of an
   address ever answers with an object, whenever it is
   made. -/
def IsGone
    (coordinate : Coordinate)
    (store : MemoryStore) :
    Prop :=
  ∀ calls, NeverCreates coordinate store calls →
    ((store.afterTimes calls).get coordinate).1 =
      .error (.missing coordinate)

------------------------------------------------------------
-- Reads
------------------------------------------------------------

section Reads

variable {coordinate : Coordinate}
variable {store : MemoryStore}
variable {stored : StoredObject}

theorem get_of_absent
    (hStored : store.stored? coordinate = none) :
    store.get coordinate =
      (.error (.missing coordinate), store) := by
  unfold get
  rw [hStored]

theorem get_of_hidden
    {hidden : Nat}
    (hStored : store.stored? coordinate = some stored)
    (hHidden : stored.hiddenReads = hidden + 1) :
    store.get coordinate =
      (.error (.missing coordinate),
        store.keep coordinate
          { stored with hiddenReads := hidden }) := by
  unfold get
  rw [hStored]
  simp only [hHidden]

/- A deleted object is read as long as it lingers. -/
theorem get_of_lingering
    {remaining : Nat}
    (hStored : store.stored? coordinate = some stored)
    (hHidden : stored.hiddenReads = 0)
    (hLingering :
      stored.lingeringReads = some (remaining + 1)) :
    store.get coordinate =
      (.ok stored.object,
        store.keep coordinate
          { stored with
            lingeringReads := some remaining }) := by
  unfold get
  rw [hStored]
  simp only [hHidden, hLingering]

theorem get_of_lapsed
    (hStored : store.stored? coordinate = some stored)
    (hHidden : stored.hiddenReads = 0)
    (hLapsed : stored.lingeringReads = some 0) :
    store.get coordinate =
      (.error (.missing coordinate),
        store.forget coordinate) := by
  unfold get
  rw [hStored]
  simp only [hHidden, hLapsed]

end Reads

------------------------------------------------------------
-- Passages
------------------------------------------------------------

/- What a call may do to what stands at an address. -/
inductive Passage
    (store : MemoryStore)
    (call : Call)
    (coordinate : Coordinate) :
    Option StoredObject → Option StoredObject → Prop where
  | kept
      {found : Option StoredObject} :
      Passage store call coordinate found found
  | removed
      {stored : StoredObject} :
      Passage store call coordinate (some stored) none
  | neared
      {stored : StoredObject}
      {hidden : Nat}
      (hHidden : stored.hiddenReads = hidden + 1) :
      Passage store call coordinate (some stored)
        (some { stored with hiddenReads := hidden })
  | lingered
      {stored : StoredObject}
      {remaining : Nat}
      (hHidden : stored.hiddenReads = 0) :
      Passage store call coordinate (some stored)
        (some
          { stored with lingeringReads := some remaining })
  | changed
      {stored : StoredObject}
      {object : Json} :
      Passage store call coordinate (some stored)
        (some { stored with object := object })
  | marked
      {stored : StoredObject}
      (hDelay : store.deletionDelay ≠ 0) :
      Passage store call coordinate (some stored)
        (some
          (terminate store.clock store.deletionDelay stored))
  | created
      {object : Json}
      (hCreated : call.created? store = some coordinate) :
      Passage store call coordinate none
        (some ⟨object, store.visibilityDelay, none⟩)

/- A call that stores something at one address. -/
theorem passage_keep
    {store : MemoryStore}
    {call : Call}
    {coordinate other : Coordinate}
    {found : Option StoredObject}
    {later : StoredObject}
    (hFound : store.stored? coordinate = found)
    (hThere :
      Passage store call coordinate found (some later)) :
    Passage store call other (store.stored? other)
      ((store.keep coordinate later).stored? other) := by
  rw [stored?_keep]
  split
  · rename_i hSame
    rw [hSame, hFound]
    exact hThere
  · exact .kept

theorem passage_get
    (store : MemoryStore)
    (coordinate other : Coordinate) :
    Passage store (.get coordinate) other
      (store.stored? other)
      ((store.get coordinate).2.stored? other) := by
  cases hStored : store.stored? coordinate with
  | none =>
      rw [get_of_absent hStored]
      exact .kept
  | some stored =>
      cases hHidden : stored.hiddenReads with
      | succ hidden =>
          rw [get_of_hidden hStored hHidden]
          exact passage_keep hStored (.neared hHidden)
      | zero =>
          cases hLingering : stored.lingeringReads with
          | none =>
              rw [get_of_visible hStored hHidden hLingering]
              exact .kept
          | some remaining =>
              cases remaining with
              | zero =>
                  rw [get_of_lapsed hStored hHidden
                    hLingering, stored?_forget]
                  split
                  · rename_i hSame
                    rw [hSame, hStored]
                    exact .removed
                  · exact .kept
              | succ remaining =>
                  rw [get_of_lingering hStored hHidden
                    hLingering]
                  exact passage_keep hStored
                    (.lingered hHidden)

theorem passage_create
    (store : MemoryStore)
    (type : ResourceType)
    (namespaceName : String)
    (body : Json)
    (other : Coordinate) :
    Passage store (.create type namespaceName body) other
      (store.stored? other)
      ((store.create type namespaceName body).2.stored?
        other) := by
  unfold MemoryStore.create
  split
  · cases hName : chooseName body store.supply with
    | mk chosen supply =>
        cases chosen with
        | error fault => exact .kept
        | ok name =>
            simp only [place]
            split
            · exact .kept
            · rename_i hFree
              refine passage_keep hFree (.created ?_)
              simp only [Call.created?, hName]
  · exact .kept

theorem passage_patch
    (store : MemoryStore)
    (coordinate : Coordinate)
    (document : String)
    (other : Coordinate) :
    Passage store (.patch coordinate document) other
      (store.stored? other)
      ((store.patch coordinate document).2.stored? other) := by
  unfold MemoryStore.patch
  split
  · exact .kept
  · split
    · exact .kept
    · rename_i stored hStored
      split
      · exact .kept
      · exact passage_keep hStored .changed

theorem passage_delete
    (store : MemoryStore)
    (coordinate other : Coordinate) :
    Passage store (.delete coordinate) other
      (store.stored? other)
      ((store.delete coordinate).2.stored? other) := by
  unfold MemoryStore.delete
  split
  · exact .kept
  · rename_i stored hStored
    split
    · simp only [stored?_forget]
      split
      · rename_i hSame
        rw [hSame, hStored]
        exact .removed
      · exact .kept
    · rename_i hDelay
      exact passage_keep hStored (.marked hDelay)

theorem passage_setStatus
    (store : MemoryStore)
    (coordinate : Coordinate)
    (status : Json)
    (other : Coordinate) :
    Passage store (.setStatus coordinate status) other
      (store.stored? other)
      ((store.setStatus coordinate status).2.stored?
        other) := by
  unfold setStatus
  split
  · exact .kept
  · rename_i stored hStored
    exact passage_keep hStored .changed

/- What a call does at an address. -/
theorem passage_after
    (store : MemoryStore)
    (call : Call)
    (coordinate : Coordinate) :
    Passage store call coordinate (store.stored? coordinate)
      ((store.after call).stored? coordinate) := by
  cases call with
  | get address => exact passage_get store address coordinate
  | create type namespaceName body =>
      exact passage_create store type namespaceName body
        coordinate
  | patch address document =>
      exact passage_patch store address document coordinate
  | delete address =>
      exact passage_delete store address coordinate
  | setStatus address status =>
      exact passage_setStatus store address status coordinate

------------------------------------------------------------
-- Absence
------------------------------------------------------------

/- An address stays empty through a call that creates nothing
   there. -/
theorem absent_after
    {store : MemoryStore}
    {call : Call}
    {coordinate : Coordinate}
    (hAbsent : store.stored? coordinate = none)
    (hCreated : call.created? store ≠ some coordinate) :
    (store.after call).stored? coordinate = none := by
  have hPassage := passage_after store call coordinate
  rw [hAbsent] at hPassage
  generalize (store.after call).stored? coordinate = later
    at hPassage
  cases hPassage with
  | kept => rfl
  | created hThere => exact absurd hThere hCreated

theorem absent_afterTimes
    {coordinate : Coordinate}
    (calls : List TimedCall)
    {store : MemoryStore}
    (hAbsent : store.stored? coordinate = none)
    (hNever : NeverCreates coordinate store calls) :
    (store.afterTimes calls).stored? coordinate = none := by
  induction calls generalizing store with
  | nil => exact hAbsent
  | cons timed rest ih =>
      have hNow :
          (store.atTime timed.clock).stored? coordinate =
            none :=
        hAbsent
      exact ih (absent_after hNow hNever.1) hNever.2

/- Where nothing is stored, nothing is read any more. -/
theorem isGone_of_absent
    {coordinate : Coordinate}
    {store : MemoryStore}
    (hAbsent : store.stored? coordinate = none) :
    store.IsGone coordinate := by
  intro calls hNever
  rw [get_of_absent (absent_afterTimes calls hAbsent hNever)]

/- What is stored is read sooner or later, unless it is to go
   with the next read. -/
theorem not_isGone
    {coordinate : Coordinate}
    {store : MemoryStore}
    {stored : StoredObject}
    (hStored : store.stored? coordinate = some stored)
    (hLasting : stored.lingeringReads ≠ some 0) :
    ¬store.IsGone coordinate := by
  suffices hSeen :
      ∀ hidden store stored,
        store.stored? coordinate = some stored →
          stored.lingeringReads ≠ some 0 →
            stored.hiddenReads = hidden →
              ∃ calls,
                NeverCreates coordinate store calls ∧
                  ((store.afterTimes calls).get
                      coordinate).1 = .ok stored.object by
    rcases hSeen _ store stored hStored hLasting rfl with
      ⟨calls, hNever, hOk⟩
    intro hGone
    rw [hGone calls hNever] at hOk
    cases hOk
  intro hidden
  induction hidden with
  | zero =>
      intro store stored hStored hLasting hHidden
      refine ⟨[], trivial, ?_⟩
      cases hLingering : stored.lingeringReads with
      | none =>
          exact congrArg Prod.fst
            (get_of_visible hStored hHidden hLingering)
      | some remaining =>
          cases remaining with
          | zero => exact absurd hLingering hLasting
          | succ remaining =>
              exact congrArg Prod.fst
                (get_of_lingering hStored hHidden hLingering)
  | succ hidden ih =>
      intro store stored hStored hLasting hHidden
      let read : TimedCall := ⟨store.clock, .get coordinate⟩
      have hAfter :
          (store.afterTimed read).stored? coordinate =
            some { stored with hiddenReads := hidden } := by
        have hNow :
            (store.atTime store.clock).stored? coordinate =
              some stored :=
          hStored
        simp only [read, afterTimed, after,
          get_of_hidden hNow hHidden, stored?_keep, if_true]
      rcases ih _ _ hAfter hLasting rfl with
        ⟨calls, hNever, hOk⟩
      exact ⟨read :: calls, ⟨nofun, hNever⟩, hOk⟩

------------------------------------------------------------
-- Reachable States
------------------------------------------------------------

/- No object that is still out of sight is to go with the next
   read. -/
def Lasts (store : MemoryStore) : Prop :=
  ∀ coordinate stored,
    store.stored? coordinate = some stored →
      0 < stored.hiddenReads →
        stored.lingeringReads ≠ some 0

theorem Lasts.after
    {store : MemoryStore}
    (hLasts : store.Lasts)
    (call : Call) :
    (store.after call).Lasts := by
  intro coordinate later hLater hHidden
  have hPassage := passage_after store call coordinate
  rw [hLater] at hPassage
  have hBefore := hLasts coordinate
  generalize store.stored? coordinate = found
    at hPassage hBefore
  cases hPassage with
  | kept => exact hBefore later rfl hHidden
  | @neared stored hidden hSteps =>
      exact hBefore stored rfl (by omega)
  | lingered hSeen => simp [hSeen] at hHidden
  | @changed stored => exact hBefore stored rfl hHidden
  | @marked stored hDelay =>
      unfold terminate at hHidden ⊢
      cases hLingering : stored.lingeringReads with
      | some remaining =>
          rw [hLingering] at hHidden
          simp only
          exact hBefore stored rfl hHidden
      | none =>
          intro hNext
          exact hDelay (Option.some.inj hNext)
  | created => exact nofun

theorem Lasts.afterTimes
    {store : MemoryStore}
    (hLasts : store.Lasts)
    (calls : List TimedCall) :
    (store.afterTimes calls).Lasts := by
  induction calls generalizing store with
  | nil => exact hLasts
  | cons timed rest ih =>
      have hNow : (store.atTime timed.clock).Lasts := hLasts
      exact ih (hNow.after timed.call)

/- In no state that has a history is an object out of sight
   and about to go. -/
theorem IsReachable.lasts
    {store : MemoryStore}
    (hReachable : store.IsReachable) :
    store.Lasts := by
  rcases hReachable with
    ⟨supply, clock, visibilityDelay, deletionDelay, calls,
      rfl⟩
  have hEmpty :
      (empty supply clock visibilityDelay
        deletionDelay).Lasts := by
    intro coordinate stored hStored
    cases hStored
  exact hEmpty.afterTimes calls

end MemoryStore

end Converge
