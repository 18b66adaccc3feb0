import Converge.Proofs.Store.Content

/-
  How long objects are out of sight, and how long they linger.

  Two counts stand beside each object. The reads of its
  address count down the one until the object is in sight;
  once it was deleted, further reads count down the other
  until it is gone. No other call has an effect on either
  count, but for the first deletion, which starts the second
  one. So the answer to a read depends on nothing but how
  many reads of the address there were before.

  Key definitions:
    * `MemoryStore.Turn`: what becomes of an entry
    * `MemoryStore.Counts`: the two counts at an address
    * `MemoryStore.readsIn`: how often a history reads one
    * `MemoryStore.Hides`, `MemoryStore.Shows`,
      `MemoryStore.Removes`: what the next read does
    * `MemoryStore.CountsDown`: the law of the answers

  Main declarations:
    * `MemoryStore.Effect.turn`: nothing else becomes of it
    * `MemoryStore.Counts.after`: calls that leave the counts
    * `MemoryStore.Counts.lasting`,
      `MemoryStore.Counts.lingering`: the counts after a
      history
    * `MemoryStore.countdowns_exact`
-/

namespace Converge

namespace MemoryStore

------------------------------------------------------------
-- What Becomes of an Entry
------------------------------------------------------------

/- What stands at an address after a call that does not read
   it, with the answer to that call. Unless the call writes
   there, it is what stood there before. -/
inductive Turn
    (store : MemoryStore)
    (coordinate : Coordinate)
    (stored : StoredObject) :
    Call → Except StoreError Json → Option StoredObject → Prop
    where
  | kept
      {call : Call}
      {answer : Except StoreError Json} :
      Turn store coordinate stored call answer (some stored)
  | patched
      {text : String}
      {object : Json} :
      Turn store coordinate stored (.patch coordinate text)
        (.ok object) (some { stored with object := object })
  | statusSet
      {status object : Json} :
      Turn store coordinate stored
        (.setStatus coordinate status) (.ok .null)
        (some { stored with object := object })
  | removed
      (hDelay : store.deletionDelay = 0) :
      Turn store coordinate stored (.delete coordinate)
        (.ok .null) none
  | marked
      (hDelay : store.deletionDelay ≠ 0) :
      Turn store coordinate stored (.delete coordinate)
        (.ok .null)
        (some
          (terminate store.clock store.deletionDelay stored))

section Turns

variable {store later : MemoryStore}
variable {coordinate : Coordinate}
variable {stored : StoredObject}
variable {call : Call}
variable {answer : Except StoreError Json}

/- A call that has an effect on one address leaves what
   stands at any other. -/
theorem turn_of_written
    {address : Coordinate}
    {written : Option StoredObject}
    (hStored : store.stored? coordinate = some stored)
    (hAfter :
      ∀ other, later.stored? other =
        if other = address then written
        else store.stored? other)
    (hWritten :
      coordinate = address →
        Turn store coordinate stored call answer written) :
    Turn store coordinate stored call answer
      (later.stored? coordinate) := by
  rw [hAfter]
  split
  · rename_i hSame
    exact hWritten hSame
  · rw [hStored]
    exact .kept

/- One case is for each way that a call may go. -/
theorem Effect.turn
    (hEffect : Effect store call answer later)
    (hStored : store.stored? coordinate = some stored)
    (hRead : call ≠ .get coordinate) :
    Turn store coordinate stored call answer
      (later.stored? coordinate) := by
  have hSame :
      Turn store coordinate stored call answer
        (store.stored? coordinate) := by
    rw [hStored]
    exact .kept
  cases hEffect with
  | getAbsent | getVisible | createNoObject | createNameless
  | createTaken | patchUnread | patchAbsent | patchRefused
  | deleteAbsent | statusAbsent => exact hSame
  | getHidden | getLingering =>
      refine turn_of_written hStored
        (fun other => stored?_keep _ other _ store) ?_
      rintro rfl
      exact absurd rfl hRead
  | getLapsed =>
      refine turn_of_written hStored
        (fun other => stored?_forget _ other store) ?_
      rintro rfl
      exact absurd rfl hRead
  | created _ hFree =>
      refine turn_of_written hStored
        (fun other => stored?_placed _ other _ _ store) ?_
      rintro rfl
      cases hFree.symm.trans hStored
  | patched _ hFound =>
      refine turn_of_written hStored
        (fun other => stored?_accept _ other _ _ store) ?_
      rintro rfl
      cases hStored.symm.trans hFound
      exact .patched
  | statusSet hFound =>
      refine turn_of_written hStored
        (fun other => stored?_accept _ other _ _ store) ?_
      rintro rfl
      cases hStored.symm.trans hFound
      exact .statusSet
  | deleted _ hDelay =>
      refine turn_of_written hStored
        (fun other => stored?_forget _ other store) ?_
      rintro rfl
      exact .removed hDelay
  | marked hFound hDelay =>
      refine turn_of_written hStored
        (fun other => stored?_keep _ other _ store) ?_
      rintro rfl
      cases hStored.symm.trans hFound
      exact .marked hDelay

end Turns

------------------------------------------------------------
-- Counts
------------------------------------------------------------

/- What stands at an address is out of sight for some reads,
   and lingers for some if it was deleted. -/
def Counts
    (coordinate : Coordinate)
    (hidden : Nat)
    (lingering : Option Nat)
    (store : MemoryStore) : Prop :=
  ∃ object,
    store.stored? coordinate =
      some ⟨object, hidden, lingering⟩

section Counts

variable {coordinate : Coordinate}
variable {hidden remaining : Nat}
variable {lingering : Option Nat}
variable {store : MemoryStore}

/- The counts are those of an entry. -/
theorem counts_of_stored
    {stored : StoredObject}
    (hStored : store.stored? coordinate = some stored) :
    Counts coordinate stored.hiddenReads
      stored.lingeringReads store :=
  ⟨stored.object, hStored⟩

/- Only a read of the address and its first deletion have an
   effect on the counts. -/
theorem Counts.after
    {call : Call}
    (hCounts : Counts coordinate hidden lingering store)
    (hRead : call ≠ .get coordinate)
    (hDelete :
      call = .delete coordinate →
        store.deletionDelay ≠ 0 ∧ lingering.isSome) :
    Counts coordinate hidden lingering (store.after call) := by
  rcases hCounts with ⟨object, hStored⟩
  have hTurn := (effect_respond store call).turn hStored hRead
  generalize (store.respond call).1 = answer at hTurn
  generalize hLater :
    (store.after call).stored? coordinate = later at hTurn
  cases hTurn with
  | kept => exact ⟨object, hLater⟩
  | patched | statusSet => exact ⟨_, hLater⟩
  | removed hNone => exact absurd hNone (hDelete rfl).1
  | marked =>
      rcases Option.isSome_iff_exists.1 (hDelete rfl).2 with
        ⟨left, rfl⟩
      exact ⟨object, hLater⟩

------------------------------------------------------------
-- Reads
------------------------------------------------------------

/- The next read of an address finds nothing, though an object
   is there and stays. -/
def Hides
    (coordinate : Coordinate)
    (store : MemoryStore) : Prop :=
  ∃ stored later,
    store.stored? coordinate = some stored ∧
      store.get coordinate =
        (.error (.missing coordinate), later) ∧
      (later.stored? coordinate).isSome

/- The next read of an address finds the object that is there,
   and leaves it. -/
def Shows
    (coordinate : Coordinate)
    (store : MemoryStore) : Prop :=
  ∃ stored later,
    store.stored? coordinate = some stored ∧
      store.get coordinate = (.ok stored.object, later) ∧
      (later.stored? coordinate).isSome

/- The next read of an address finds nothing, and takes away
   the object that was still there. -/
def Removes
    (coordinate : Coordinate)
    (store : MemoryStore) : Prop :=
  ∃ stored later,
    store.stored? coordinate = some stored ∧
      store.get coordinate =
        (.error (.missing coordinate), later) ∧
      later.stored? coordinate = none

/- A read of an object that is out of sight brings it a read
   nearer. -/
theorem stored?_get_hidden
    {object : Json}
    (hStored :
      store.stored? coordinate =
        some ⟨object, hidden + 1, lingering⟩) :
    (store.get coordinate).2.stored? coordinate =
      some ⟨object, hidden, lingering⟩ := by
  rw [get_of_hidden hStored rfl]
  exact (stored?_keep coordinate coordinate _ store).trans
    (if_pos rfl)

/- A read of an object that lingers lets it linger for a read
   less. -/
theorem stored?_get_lingering
    {object : Json}
    (hStored :
      store.stored? coordinate =
        some ⟨object, 0, some (remaining + 1)⟩) :
    (store.get coordinate).2.stored? coordinate =
      some ⟨object, 0, some remaining⟩ := by
  rw [get_of_lingering hStored rfl rfl]
  exact (stored?_keep coordinate coordinate _ store).trans
    (if_pos rfl)

/- An object in sight stays as it is. -/
theorem stored?_get_visible
    {object : Json}
    (hStored :
      store.stored? coordinate = some ⟨object, 0, none⟩) :
    (store.get coordinate).2.stored? coordinate =
      some ⟨object, 0, none⟩ := by
  rw [get_of_visible hStored rfl rfl]
  exact hStored

theorem Counts.get_hidden
    (hCounts :
      Counts coordinate (hidden + 1) lingering store) :
    Hides coordinate store ∧
      Counts coordinate hidden lingering
        (store.get coordinate).2 := by
  rcases hCounts with ⟨object, hStored⟩
  have hGet := get_of_hidden hStored rfl
  have hLater := stored?_get_hidden hStored
  rw [hGet] at hLater ⊢
  refine ⟨⟨_, _, hStored, hGet, ?_⟩, object, hLater⟩
  rw [hLater]
  rfl

theorem Counts.get_visible
    (hCounts : Counts coordinate 0 none store) :
    Shows coordinate store ∧
      Counts coordinate 0 none (store.get coordinate).2 := by
  rcases hCounts with ⟨object, hStored⟩
  have hGet := get_of_visible hStored rfl rfl
  have hLater := stored?_get_visible hStored
  rw [hGet] at hLater ⊢
  refine ⟨⟨_, _, hStored, hGet, ?_⟩, object, hLater⟩
  rw [hLater]
  rfl

theorem Counts.get_lingering
    (hCounts :
      Counts coordinate 0 (some (remaining + 1)) store) :
    Shows coordinate store ∧
      Counts coordinate 0 (some remaining)
        (store.get coordinate).2 := by
  rcases hCounts with ⟨object, hStored⟩
  have hGet := get_of_lingering hStored rfl rfl
  have hLater := stored?_get_lingering hStored
  rw [hGet] at hLater ⊢
  refine ⟨⟨_, _, hStored, hGet, ?_⟩, object, hLater⟩
  rw [hLater]
  rfl

/- An object that has lingered enough is gone with the next
   read. -/
theorem Counts.get_lapsed
    (hCounts : Counts coordinate 0 (some 0) store) :
    Removes coordinate store := by
  rcases hCounts with ⟨object, hStored⟩
  refine ⟨_, _, hStored, get_of_lapsed hStored rfl rfl, ?_⟩
  rw [stored?_forget, if_pos rfl]

------------------------------------------------------------
-- Deletions
------------------------------------------------------------

/- Without a delay a deletion takes the object away. -/
theorem Counts.delete_at_once
    (hCounts : Counts coordinate hidden lingering store)
    (hDelay : store.deletionDelay = 0) :
    (store.delete coordinate).1 = .ok () ∧
      (store.delete coordinate).2.stored? coordinate =
        none := by
  rcases hCounts with ⟨object, hStored⟩
  unfold delete
  simp only [hStored, hDelay, if_true, stored?_forget,
    and_self]

/- With a delay the first deletion lets the object linger. -/
theorem Counts.delete_first
    (hCounts : Counts coordinate hidden none store)
    (hDelay : store.deletionDelay ≠ 0) :
    (store.delete coordinate).1 = .ok () ∧
      Counts coordinate hidden (some store.deletionDelay)
        (store.delete coordinate).2 := by
  rcases hCounts with ⟨object, hStored⟩
  have hKept := stored?_keep coordinate coordinate
    (terminate store.clock store.deletionDelay
      ⟨object, hidden, none⟩)
    store
  rw [if_pos rfl] at hKept
  unfold delete
  simp only [hStored, hDelay, if_false, true_and]
  exact counts_of_stored hKept

end Counts

------------------------------------------------------------
-- Histories
------------------------------------------------------------

/- Whether a call reads an address. -/
def Call.reads (coordinate : Coordinate) : Call → Bool
  | .get other => other = coordinate
  | _ => false

theorem Call.reads_iff
    {coordinate : Coordinate}
    {call : Call} :
    call.reads coordinate = true ↔
      call = .get coordinate := by
  cases call <;> simp [reads]

/- How often a history reads an address. -/
def readsIn
    (coordinate : Coordinate)
    (calls : List TimedCall) :
    Nat :=
  calls.countP fun timed => timed.call.reads coordinate

/- No call of a history deletes what is at an address. -/
def NeverDeletes
    (coordinate : Coordinate)
    (calls : List TimedCall) : Prop :=
  ∀ timed ∈ calls, timed.call ≠ .delete coordinate

section Histories

variable {coordinate : Coordinate}
variable {hidden remaining : Nat}
variable {store : MemoryStore}
variable {timed : TimedCall}
variable {rest : List TimedCall}

theorem readsIn_cons_get
    (hGet : timed.call = .get coordinate) :
    readsIn coordinate (timed :: rest) =
      readsIn coordinate rest + 1 :=
  List.countP_cons_of_pos (Call.reads_iff.2 hGet)

theorem readsIn_cons_of_ne
    (hOther : timed.call ≠ .get coordinate) :
    readsIn coordinate (timed :: rest) =
      readsIn coordinate rest :=
  List.countP_cons_of_neg fun hReads =>
    hOther (Call.reads_iff.1 hReads)

/- What a read leaves, in a history. -/
theorem afterTimed_get
    (hGet : timed.call = .get coordinate)
    (store : MemoryStore) :
    store.afterTimed timed =
      ((store.atTime timed.clock).get coordinate).2 := by
  rw [afterTimed, hGet]
  rfl

/- As long as an object is not deleted, the reads of its
   address bring it to sight. The induction is on the
   history. -/
theorem Counts.lasting
    (calls : List TimedCall)
    (hNever : NeverDeletes coordinate calls)
    (hCounts : Counts coordinate hidden none store) :
    Counts coordinate (hidden - readsIn coordinate calls)
      none (store.afterTimes calls) := by
  induction calls generalizing store hidden with
  | nil => exact hCounts
  | cons timed rest ih =>
      rcases List.forall_mem_cons.1 hNever with
        ⟨hFirst, hRest⟩
      have hNow :
          Counts coordinate hidden none
            (store.atTime timed.clock) := hCounts
      by_cases hGet : timed.call = .get coordinate
      · have hAfter := afterTimed_get hGet store
        rw [readsIn_cons_get hGet]
        cases hidden with
        | zero =>
            have hStep := hNow.get_visible.2
            rw [← hAfter] at hStep
            have hEnd := ih hRest hStep
            rw [Nat.zero_sub] at hEnd ⊢
            exact hEnd
        | succ hidden =>
            have hStep := hNow.get_hidden.2
            rw [← hAfter] at hStep
            rw [Nat.add_sub_add_right]
            exact ih hRest hStep
      · rw [readsIn_cons_of_ne hGet]
        exact ih hRest
          (hNow.after hGet fun hSame => absurd hSame hFirst)

/- Once it was deleted, they bring it to sight first, and then
   count down how long it lingers, whatever else is called. -/
theorem Counts.lingering
    (calls : List TimedCall)
    (hDelay : store.deletionDelay ≠ 0)
    (hCounts :
      Counts coordinate hidden (some remaining) store)
    (hReads :
      readsIn coordinate calls ≤ hidden + remaining) :
    Counts coordinate (hidden - readsIn coordinate calls)
      (some
        (remaining - (readsIn coordinate calls - hidden)))
      (store.afterTimes calls) := by
  induction calls generalizing store hidden remaining with
  | nil =>
      have hNone : readsIn coordinate [] = 0 := rfl
      rw [hNone, Nat.zero_sub, Nat.sub_zero, Nat.sub_zero]
      exact hCounts
  | cons timed rest ih =>
      have hNow :
          Counts coordinate hidden (some remaining)
            (store.atTime timed.clock) := hCounts
      have hStill :
          (store.afterTimed timed).deletionDelay ≠ 0 := by
        rw [afterTimed, (delays_after _ timed.call).2]
        exact hDelay
      by_cases hGet : timed.call = .get coordinate
      · have hAfter := afterTimed_get hGet store
        rw [readsIn_cons_get hGet] at hReads ⊢
        cases hidden with
        | succ hidden =>
            have hStep := hNow.get_hidden.2
            rw [← hAfter] at hStep
            rw [Nat.add_sub_add_right, Nat.add_sub_add_right]
            exact ih hStill hStep (by omega)
        | zero =>
            cases remaining with
            | zero => omega
            | succ remaining =>
                have hStep := hNow.get_lingering.2
                rw [← hAfter] at hStep
                have hEnd := ih hStill hStep (by omega)
                rw [Nat.zero_sub] at hEnd ⊢
                rw [Nat.sub_zero] at hEnd ⊢
                rw [Nat.add_sub_add_right]
                exact hEnd
      · rw [readsIn_cons_of_ne hGet] at hReads ⊢
        exact ih hStill
          (hNow.after hGet fun _ => ⟨hDelay, rfl⟩) hReads

end Histories

------------------------------------------------------------
-- Answers
------------------------------------------------------------

/-
  How the reads of an address are answered after an object
  was created there. Until it is deleted, the visibility
  delay is the number of reads that find nothing, and all
  later ones find it. Without a deletion delay the first
  deletion takes it away. Else as many reads as were still to
  find nothing do so after the deletion, then as many as the
  deletion delay find it, and the next one takes it away.
  What else a history holds, deletions included, makes no
  difference.
-/
structure CountsDown
    (visibilityDelay deletionDelay : Nat)
    (coordinate : Coordinate)
    (start : MemoryStore) : Prop where
  hidden :
    ∀ calls, NeverDeletes coordinate calls →
      readsIn coordinate calls < visibilityDelay →
        Hides coordinate (start.afterTimes calls)
  shown :
    ∀ calls, NeverDeletes coordinate calls →
      visibilityDelay ≤ readsIn coordinate calls →
        Shows coordinate (start.afterTimes calls)
  gone :
    deletionDelay = 0 →
      ∀ calls clock, NeverDeletes coordinate calls →
        let before :=
          (start.afterTimes calls).atTime clock
        (before.delete coordinate).1 = .ok () ∧
          (before.delete coordinate).2.stored? coordinate =
            none
  lingering :
    deletionDelay ≠ 0 →
      ∀ earlier clock later,
        NeverDeletes coordinate earlier →
          let before :=
            (start.afterTimes earlier).atTime clock
          let deleted := before.delete coordinate
          let now := deleted.2.afterTimes later
          let unseen :=
            visibilityDelay - readsIn coordinate earlier
          let passed := readsIn coordinate later
          Counts coordinate unseen none before ∧
            deleted.1 = .ok () ∧
            (passed < unseen → Hides coordinate now) ∧
            (unseen ≤ passed →
              passed < unseen + deletionDelay →
                Shows coordinate now) ∧
            (passed = unseen + deletionDelay →
              Removes coordinate now)

/- What is created counts down from there. -/
theorem countsDown_of_counts
    {coordinate : Coordinate}
    {start : MemoryStore}
    (hCounts :
      Counts coordinate start.visibilityDelay none start) :
    CountsDown start.visibilityDelay start.deletionDelay
      coordinate start := by
  constructor
  · intro calls hNever hReads
    have hNow := hCounts.lasting calls hNever
    obtain ⟨left, hLeft⟩ := Nat.exists_eq_add_of_lt hReads
    rw [hLeft, Nat.add_assoc, Nat.add_sub_cancel_left] at hNow
    exact hNow.get_hidden.1
  · intro calls hNever hReads
    have hNow := hCounts.lasting calls hNever
    rw [Nat.sub_eq_zero_of_le hReads] at hNow
    exact hNow.get_visible.1
  · intro hDelay calls clock hNever before
    have hNow : Counts coordinate _ none before :=
      hCounts.lasting calls hNever
    refine hNow.delete_at_once ?_
    exact (delays_afterTimes calls start).2.trans hDelay
  · intro hDelay earlier clock later hNever before deleted
      now unseen passed
    have hNow : Counts coordinate unseen none before :=
      hCounts.lasting earlier hNever
    have hSame :
        before.deletionDelay = start.deletionDelay :=
      (delays_afterTimes earlier start).2
    rw [← hSame] at hDelay ⊢
    rcases hNow.delete_first hDelay with ⟨hOk, hMarked⟩
    have hStill : deleted.2.deletionDelay ≠ 0 := by
      have hAfter := (delays_after before
        (.delete coordinate)).2
      exact hAfter.symm ▸ hDelay
    have hLater := fun hReads =>
      hMarked.lingering later hStill hReads
    refine ⟨hNow, hOk, ?_, ?_, ?_⟩
    · intro hReads
      have hCounted := hLater (by omega)
      obtain ⟨left, hLeft⟩ := Nat.exists_eq_add_of_lt hReads
      rw [hLeft, Nat.add_assoc, Nat.add_sub_cancel_left]
        at hCounted
      exact hCounted.get_hidden.1
    · intro hSeen hReads
      have hCounted := hLater (by omega)
      rw [Nat.sub_eq_zero_of_le hSeen] at hCounted
      obtain ⟨left, hLeft⟩ :
          ∃ left,
            before.deletionDelay - (passed - unseen) =
              left + 1 :=
        ⟨before.deletionDelay - (passed - unseen) - 1,
          by omega⟩
      rw [hLeft] at hCounted
      exact hCounted.get_lingering.1
    · intro hReads
      have hCounted := hLater (by omega)
      rw [Nat.sub_eq_zero_of_le (by omega),
        Nat.sub_eq_zero_of_le (by omega)] at hCounted
      exact hCounted.get_lapsed

------------------------------------------------------------
-- Submissions
------------------------------------------------------------

/- A body that asks for the name of an address. -/
structure AsksFor
    (coordinate : Coordinate)
    (body : Json) : Prop where
  isObject : body.isObject = true
  named : coordinate.name ≠ ""
  name : metadataText "name" body = coordinate.name

section Submissions

variable {coordinate : Coordinate}
variable {body : Json}
variable {store : MemoryStore}

/- The name that a body asks for is chosen. -/
theorem AsksFor.chooseName
    (hAsks : AsksFor coordinate body)
    (supply : Supply) :
    chooseName body supply =
      (.ok coordinate.name, supply) := by
  unfold MemoryStore.chooseName
  simp only [hAsks.name, hAsks.named, ne_eq,
    not_false_eq_true, if_true]

/- It is refused as long as something is there, and nothing
   happens. -/
theorem AsksFor.create_taken
    (hAsks : AsksFor coordinate body)
    (hTaken : (store.stored? coordinate).isSome) :
    ∃ message,
      store.create coordinate.type coordinate.namespaceName
          body =
        (.error (.rejected 409 message), store) := by
  rcases Option.isSome_iff_exists.1 hTaken with
    ⟨stored, hStored⟩
  unfold create
  rw [if_pos hAsks.isObject, hAsks.chooseName]
  simp only [place]
  rw [show
      stored? coordinate { store with supply := store.supply }
          = some stored from hStored]
  exact ⟨_, rfl⟩

/- What is created has its name, and both delays to go. -/
theorem countsDown_of_create
    {type : ResourceType}
    {namespaceName : String}
    {object : Json}
    {after : MemoryStore}
    (hCreate :
      store.create type namespaceName body =
        (.ok object, after)) :
    CountsDown store.visibilityDelay store.deletionDelay
      ⟨type, namespaceName, metadataText "name" object⟩
      after := by
  have hEffect := effect_create store type namespaceName body
  rw [hCreate] at hEffect
  cases hEffect with
  | @created _ _ name _ supply left hName =>
      have hNames :=
        Names.newObject hName type namespaceName supply store
      have hCounts :
          Counts ⟨type, namespaceName, name⟩
            store.visibilityDelay none
            (store.placed ⟨type, namespaceName, name⟩
              (store.newObject namespaceName name supply body)
              left) :=
        ⟨_, by rw [stored?_placed, if_pos rfl]⟩
      rw [hNames.name]
      exact countsDown_of_counts hCounts

/- Where nothing is, what a body asks for is created. -/
theorem AsksFor.create_free
    (hAsks : AsksFor coordinate body)
    (hFree : store.stored? coordinate = none) :
    ∃ object after,
      store.create coordinate.type coordinate.namespaceName
          body =
        (.ok object, after) ∧
      metadataText "name" object = coordinate.name := by
  have hChosen := hAsks.chooseName store.supply
  rcases create_of_free hAsks.isObject hChosen hFree with
    ⟨left, hCreate⟩
  exact ⟨_, _, hCreate,
    (Names.newObject hChosen coordinate.type
      coordinate.namespaceName store.supply store).name⟩

end Submissions

/-
  Whatever the delays of a store, and whatever was called
  before: where an object is created, its two countdowns run
  their course, each read by read, over every history that
  follows. As long as something is at an address, a body that
  asks for its name is refused with a conflict, and nothing
  changes. Where nothing is, a read finds nothing, and such a
  body is created and counts down anew.
-/
theorem countdowns_exact (store : MemoryStore) :
    (∀ type namespaceName body object after,
        store.create type namespaceName body =
            (.ok object, after) →
          CountsDown store.visibilityDelay
            store.deletionDelay
            ⟨type, namespaceName, metadataText "name" object⟩
            after) ∧
      ∀ coordinate,
        ((store.stored? coordinate).isSome →
          ∀ body, AsksFor coordinate body →
            ∃ message,
              store.create coordinate.type
                  coordinate.namespaceName body =
                (.error (.rejected 409 message), store)) ∧
        (store.stored? coordinate = none →
          store.get coordinate =
              (.error (.missing coordinate), store) ∧
            ∀ body, AsksFor coordinate body →
              ∃ object after,
                store.create coordinate.type
                      coordinate.namespaceName body =
                    (.ok object, after) ∧
                  CountsDown store.visibilityDelay
                    store.deletionDelay coordinate
                    after) := by
  constructor
  · intro type namespaceName body object after hCreate
    exact countsDown_of_create hCreate
  · intro coordinate
    constructor
    · intro hTaken body hAsks
      exact hAsks.create_taken hTaken
    · intro hFree
      refine ⟨get_of_absent hFree, ?_⟩
      intro body hAsks
      rcases hAsks.create_free hFree with
        ⟨object, after, hCreate, hName⟩
      have hCounts := countsDown_of_create hCreate
      rw [hName] at hCounts
      exact ⟨object, after, hCreate, hCounts⟩

end MemoryStore

end Converge
