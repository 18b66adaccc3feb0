import Converge.Proofs.Store.Consistent

/-
  Failures of a store in memory, and its versions.

  A call that changes objects and fails leaves everything as
  it was. One that succeeds stamps an object with a version
  above all that were stamped before. And no call reaches
  beyond the address that it is about.

  Key definitions:
    * `MemoryStore.Call.target?`: what a call is about
    * `MemoryStore.stamped?`: the object that a call stamps
    * `MemoryStore.stampedAll`: those of a history

  Main declarations:
    * `MemoryStore.Effect.failed`: a failure changes nothing
    * `MemoryStore.Effect.stamping`: the version of a stamp
    * `MemoryStore.Effect.elsewhere`: other addresses
    * `MemoryStore.afterTimes_atomic`
-/

namespace Converge

namespace MemoryStore

------------------------------------------------------------
-- Calls
------------------------------------------------------------

/- Whether a call only reads. -/
def Call.IsRead : Call → Prop
  | .get _ => True
  | .create _ _ _ => False
  | .patch _ _ => False
  | .delete _ => False
  | .setStatus _ _ => False

/- Whether a call stamps an object, once it succeeds. -/
def Call.IsStamping : Call → Prop
  | .create _ _ _ => True
  | .patch _ _ => True
  | .setStatus _ _ => True
  | .get _ => False
  | .delete _ => False

/- The address that a call is about. A submission without a
   name is about none. -/
def Call.target?
    (store : MemoryStore)
    (call : Call) :
    Option Coordinate :=
  match call with
  | .get coordinate => some coordinate
  | .create _ _ _ => call.created? store
  | .patch coordinate _ => some coordinate
  | .delete coordinate => some coordinate
  | .setStatus coordinate _ => some coordinate

/- The object that a call with an answer stamped: the one
   that it answers with, or the one with the new status. -/
def stampedBy?
    (call : Call)
    (answer : Except StoreError Json)
    (later : MemoryStore) :
    Option Json :=
  match call, answer with
  | .create _ _ _, .ok object => some object
  | .patch _ _, .ok object => some object
  | .setStatus coordinate _, .ok _ =>
      (later.stored? coordinate).map StoredObject.object
  | _, _ => none

/- The object that a call stamps, if it does. -/
def stamped?
    (call : Call)
    (store : MemoryStore) :
    Option Json :=
  stampedBy? call (store.respond call).1 (store.after call)

/- The objects that the calls of a history stamp. -/
def stampedAll : List TimedCall → MemoryStore → List Json
  | [], _ => []
  | timed :: rest, store =>
      ((store.atTime timed.clock).stamped?
          timed.call).toList ++
        stampedAll rest (store.afterTimed timed)

------------------------------------------------------------
-- Single Calls
------------------------------------------------------------

/- What was written is found where it was written. -/
theorem stored?_accept_self
    (coordinate : Coordinate)
    (stored : StoredObject)
    (document : Json)
    (store : MemoryStore) :
    (store.accept coordinate stored document).stored?
        coordinate =
      some { stored with object := document } := by
  rw [stored?_accept, if_pos rfl]

theorem stored?_placed_self
    (coordinate : Coordinate)
    (document : Json)
    (supply : Supply)
    (store : MemoryStore) :
    (store.placed coordinate document supply).stored?
        coordinate =
      some ⟨document, store.visibilityDelay, none⟩ := by
  rw [stored?_placed, if_pos rfl]

namespace Effect

variable {store later : MemoryStore}
variable {call : Call}
variable {answer : Except StoreError Json}

/- A call that changes objects and fails changes none, and no
   count either. Only the supply that names are made from may
   be another. -/
theorem failed
    {fault : StoreError}
    (hEffect : Effect store call (.error fault) later)
    (hCall : ¬call.IsRead) :
    later = store.supplied later.supply := by
  cases hEffect with
  | getAbsent | getHidden | getLapsed =>
      exact absurd trivial hCall
  | createNoObject | createNameless | createTaken
  | patchUnread | patchAbsent | patchRefused | deleteAbsent
  | statusAbsent => rfl

/- A call that may stamp an object and succeeds stamps
   one. -/
theorem exists_stamped
    {value : Json}
    (hEffect : Effect store call (.ok value) later)
    (hCall : call.IsStamping) :
    ∃ document,
      stampedBy? call (.ok value) later = some document := by
  cases hEffect with
  | getVisible | getLingering | deleted | marked =>
      exact absurd hCall id
  | created | patched => exact ⟨_, rfl⟩
  | statusSet hStored =>
      simp only [stampedBy?, stored?_accept_self,
        Option.map_some]
      exact ⟨_, rfl⟩

/- What is stamped has the next version and stands at the
   address of the call afterwards. -/
theorem stamping
    (hConsistent : store.IsConsistent)
    {document : Json}
    (hEffect : Effect store call answer later)
    (hStamped : stampedBy? call answer later = some document) :
    HasVersion store.nextVersion document ∧
      later.nextVersion = store.nextVersion + 1 ∧
      ∃ coordinate stored,
        call.target? store = some coordinate ∧
          later.stored? coordinate = some stored ∧
          stored.object = document := by
  cases hEffect with
  | getAbsent | getHidden | getVisible | getLingering
  | getLapsed | createNoObject | createNameless | createTaken
  | patchUnread | patchAbsent | patchRefused | deleteAbsent
  | deleted | marked | statusAbsent => cases hStamped
  | @created type namespaceName name body supply left hName =>
      cases hStamped
      have hVersion := hasVersion_newObject
        (hasMetadata_of_chooseName hName) namespaceName name
        supply store
      have hTarget :
          (Call.create type namespaceName body).target?
              store =
            some ⟨type, namespaceName, name⟩ := by
        simp only [Call.target?, Call.created?, hName]
      exact ⟨hVersion, rfl, _, _, hTarget,
        stored?_placed_self _ _ left store, rfl⟩
  | patched hRead hStored hMade =>
      cases hStamped
      have hNames :=
        (hConsistent.names _ _ hStored).patched hMade
      exact
        ⟨hasVersion_versioned hNames.hasMetadata store, rfl,
          _, _, rfl, stored?_accept_self _ _ _ store, rfl⟩
  | @statusSet coordinate status stored hStored =>
      have hNames :=
        (hConsistent.names _ _ hStored).setStatus status
      have hThere := stored?_accept_self coordinate stored
        (store.withStatus status stored.object) store
      simp only [stampedBy?, hThere, Option.map_some,
        Option.some.injEq] at hStamped
      rw [← hStamped]
      exact
        ⟨hasVersion_versioned hNames.hasMetadata store, rfl,
          _, _, rfl, hThere, rfl⟩

/- A call leaves every other address as it is. -/
theorem elsewhere
    {other : Coordinate}
    (hEffect : Effect store call answer later)
    (hOther : call.target? store ≠ some other) :
    later.stored? other = store.stored? other := by
  have hNe :
      ∀ coordinate,
        call.target? store = some coordinate →
          other ≠ coordinate := by
    rintro coordinate hTarget rfl
    exact hOther hTarget
  cases hEffect with
  | getAbsent | getVisible | createNoObject | createNameless
  | createTaken | patchUnread | patchAbsent | patchRefused
  | deleteAbsent | statusAbsent => rfl
  | getHidden | getLingering | marked =>
      rw [stored?_keep, if_neg (hNe _ rfl)]
  | getLapsed | deleted =>
      rw [stored?_forget, if_neg (hNe _ rfl)]
  | patched | statusSet =>
      rw [stored?_accept, if_neg (hNe _ rfl)]
  | created hName =>
      rw [stored?_placed, if_neg (hNe _ _)]
      simp only [Call.target?, Call.created?, hName]

/- No version is assigned twice. -/
theorem nextVersion_le
    (hEffect : Effect store call answer later) :
    store.nextVersion ≤ later.nextVersion := by
  cases hEffect with
  | created | patched | statusSet => exact Nat.le_succ _
  | getAbsent | getHidden | getVisible | getLingering
  | getLapsed | createNoObject | createNameless | createTaken
  | patchUnread | patchAbsent | patchRefused | deleteAbsent
  | deleted | marked | statusAbsent => exact Nat.le_refl _

end Effect

------------------------------------------------------------
-- Histories
------------------------------------------------------------

theorem nextVersion_le_afterTimes
    (calls : List TimedCall)
    (store : MemoryStore) :
    store.nextVersion ≤
      (store.afterTimes calls).nextVersion := by
  induction calls generalizing store with
  | nil => exact Nat.le_refl _
  | cons timed rest ih =>
      have hStep :=
        (effect_respond (store.atTime timed.clock)
          timed.call).nextVersion_le
      exact Nat.le_trans hStep (ih (store.afterTimed timed))

/- Each object that was stamped has a version, and the next
   one is above it. -/
theorem version_stampedAll
    {store : MemoryStore}
    (hConsistent : store.IsConsistent)
    {calls : List TimedCall}
    {document : Json}
    (hDocument : document ∈ store.stampedAll calls) :
    ∃ number, HasVersion number document ∧
      number < (store.afterTimes calls).nextVersion := by
  induction calls generalizing store with
  | nil => cases hDocument
  | cons timed rest ih =>
      have hNow := hConsistent.atTime timed.clock
      rcases List.mem_append.1 hDocument with hFirst | hLater
      · have hStamped := Option.mem_toList.1 hFirst
        have hEffect :=
          effect_respond (store.atTime timed.clock) timed.call
        rcases hEffect.stamping hNow hStamped with
          ⟨hVersion, hNext, _⟩
        refine ⟨store.nextVersion, hVersion, ?_⟩
        have hLast :=
          nextVersion_le_afterTimes rest
            (store.afterTimed timed)
        exact Nat.lt_of_lt_of_le
          (Nat.lt_of_lt_of_eq (Nat.lt_succ_self _)
            hNext.symm)
          hLast
      · exact ih (hNow.after timed.call) hLater

/-
  In every state that a history leads to, whatever time
  passes and whatever identifiers are drawn: a call that
  changes objects and fails leaves all of them, their counts
  and the next version as they are; a call that stamps an
  object and succeeds leaves it stored with a version above
  all that were stamped before; and no call changes anything
  but what it is about.
-/
theorem afterTimes_atomic
    (supply : Supply)
    (clock : Timestamp)
    (visibilityDelay deletionDelay : Nat)
    (calls : List TimedCall)
    (timed : TimedCall) :
    let start :=
      empty supply clock visibilityDelay deletionDelay
    let store := (start.afterTimes calls).atTime timed.clock
    let call := timed.call
    let later := store.after call
    (∀ fault, (store.respond call).1 = .error fault →
        ¬call.IsRead →
          later.objects = store.objects ∧
            later.nextVersion = store.nextVersion ∧
            later = store.supplied later.supply) ∧
      (∀ value, (store.respond call).1 = .ok value →
        call.IsStamping →
          ∃ document number coordinate stored,
            store.stamped? call = some document ∧
              HasVersion number document ∧
              call.target? store = some coordinate ∧
              later.stored? coordinate = some stored ∧
              stored.object = document ∧
              ∀ earlier, earlier ∈ start.stampedAll calls →
                ∃ before, HasVersion before earlier ∧
                  before < number) ∧
      ∀ other, call.target? store ≠ some other →
        later.stored? other = store.stored? other := by
  intro start store call later
  have hStart : start.IsConsistent :=
    isConsistent_empty supply clock visibilityDelay
      deletionDelay
  have hConsistent : store.IsConsistent :=
    (hStart.afterTimes calls).atTime timed.clock
  have hEffect := effect_respond store call
  refine ⟨?_, ?_, ?_⟩
  · intro fault hAnswer hCall
    rw [hAnswer] at hEffect
    have hSame : later = store.supplied later.supply :=
      hEffect.failed hCall
    rw [hSame]
    exact ⟨rfl, rfl, rfl⟩
  · intro value hAnswer hCall
    have hOk := hEffect
    rw [hAnswer] at hOk
    rcases hOk.exists_stamped hCall with
      ⟨document, hDocument⟩
    have hStamped : store.stamped? call = some document := by
      rw [stamped?, hAnswer]
      exact hDocument
    rcases hEffect.stamping hConsistent hStamped with
      ⟨hVersion, _, coordinate, stored, hTarget, hStored,
        hObject⟩
    exact ⟨document, store.nextVersion, coordinate, stored,
      hStamped, hVersion, hTarget, hStored, hObject,
      fun earlier hEarlier =>
        version_stampedAll hStart hEarlier⟩
  · intro other hOther
    exact hEffect.elsewhere hOther

end MemoryStore

end Converge
