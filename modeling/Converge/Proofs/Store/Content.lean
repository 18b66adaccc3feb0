import Converge.Proofs.Store.Merging
import Converge.Proofs.Store.Stamped

/-
  What the version of an object stands for.

  A call that changes an object stamps it, so that the object
  at an address that has a version from before is the object
  that had it then. There is one exception: a deletion that
  lets an object linger marks it and leaves its version as it
  is. Two objects that were returned under one version are
  therefore the same, unless the object was marked in between
  with a time that it did not show.

  Key definitions:
    * `MemoryStore.returned?`: the object that a call returns
    * `MemoryStore.markedIn?`: when a history marks an object

  Main declarations:
    * `MemoryStore.Effect.origin`: where a stored object comes
      from
    * `MemoryStore.content_afterTimes`: what a version stands
      for in the end
    * `MemoryStore.version_identifies_iff`
-/

namespace Converge

namespace MemoryStore

------------------------------------------------------------
-- Marks
------------------------------------------------------------

/- Whether a call marks what is stored at an address: it is
   the first deletion of an object that will linger. -/
def marks
    (coordinate : Coordinate)
    (store : MemoryStore) :
    Call → Bool
  | .delete other =>
      other = coordinate && store.deletionDelay ≠ 0 &&
        (store.stored? coordinate).any fun stored =>
          stored.lingeringReads.isNone
  | _ => false

/- A document that a deletion marked, if one did. -/
def markedAt
    (time : Option Timestamp)
    (document : Json) :
    Json :=
  match time with
  | none => document
  | some time =>
      setMetadata "deletionTimestamp" (.str time.text) document

/- The time at which a history first marks what is stored at
   an address. -/
def markedIn?
    (coordinate : Coordinate) :
    List TimedCall → MemoryStore → Option Timestamp
  | [], _ => none
  | timed :: rest, store =>
      if store.marks coordinate timed.call then
        some timed.clock
      else markedIn? coordinate rest (store.afterTimed timed)

/- What is marked has its version still. -/
theorem hasVersion_markedAt_iff
    {document : Json}
    (hMetadata : document.HasMetadata)
    (time : Option Timestamp)
    (number : Nat) :
    HasVersion number (markedAt time document) ↔
      HasVersion number document := by
  cases time with
  | none => rfl
  | some time =>
      rw [HasVersion, HasVersion, markedAt,
        at?_setMetadata hMetadata, if_neg (by decide)]

/- A mark is seen unless the document showed its time. -/
theorem eq_markedAt_iff
    {document : Json}
    (hDocument : document.IsCanonical)
    (hMetadata : document.HasMetadata)
    (time : Option Timestamp) :
    document = markedAt time document ↔
      ∀ moment, time = some moment →
        document.at? ["metadata", "deletionTimestamp"] =
          some (.str moment.text) := by
  cases time with
  | none =>
      constructor
      · intro _ moment hNone
        cases hNone
      · intro _
        rfl
  | some moment =>
      have hShown :
          (markedAt (some moment) document).at?
              ["metadata", "deletionTimestamp"] =
            some (.str moment.text) := by
        rw [markedAt, at?_setMetadata hMetadata, if_pos rfl]
      constructor
      · rintro hSame other hOther
        cases hOther
        have hRead := congrArg
          (Json.at? ["metadata", "deletionTimestamp"]) hSame
        exact hRead.trans hShown
      · intro hThere
        have hRest := sameButMetadata_setMetadata hMetadata
          "deletionTimestamp" (.str moment.text)
        refine Json.eq_of_members hDocument
          (isCanonical_setMetadata hDocument hMetadata _
            trivial)
          hMetadata (hasMetadata_setMetadata hMetadata _ _)
          (fun key hKey => (hRest.members key hKey).symm) ?_
        intro key
        by_cases hKey : key = "deletionTimestamp"
        · subst hKey
          exact (hThere moment rfl).trans hShown.symm
        · exact (hRest.metadata key (by simpa using hKey)).symm

------------------------------------------------------------
-- Where Objects Come From
------------------------------------------------------------

/- What is stored at an address after a call was there before
   it, unmarked or marked by the call, or it has the version
   that the call assigned. -/
inductive Origin
    (store : MemoryStore)
    (call : Call)
    (coordinate : Coordinate)
    (found : StoredObject) : Prop where
  | kept
      {stored : StoredObject}
      (hStored : store.stored? coordinate = some stored)
      (hUnmarked : store.marks coordinate call = false)
      (hObject : found.object = stored.object)
      (hLingering :
        stored.lingeringReads.isSome →
          found.lingeringReads.isSome)
  | marked
      {stored : StoredObject}
      (hStored : store.stored? coordinate = some stored)
      (hMarks : store.marks coordinate call = true)
      (hLasting : stored.lingeringReads.isSome = false)
      (hObject :
        found.object =
          markedAt (some store.clock) stored.object)
      (hLingering : found.lingeringReads.isSome)
  | stamped
      (hVersion : HasVersion store.nextVersion found.object)

section Origins

variable {store later : MemoryStore}
variable {call : Call}
variable {answer : Except StoreError Json}
variable {coordinate : Coordinate}
variable {found : StoredObject}

/- A call that writes at one address leaves what is stored
   elsewhere, and marks nothing there. -/
theorem Origin.of_written
    {address : Coordinate}
    {written : StoredObject}
    (hAfter :
      ∀ other, later.stored? other =
        if other = address then some written
        else store.stored? other)
    (hElsewhere :
      coordinate ≠ address →
        store.marks coordinate call = false)
    (hWritten : Origin store call address written)
    (hFound : later.stored? coordinate = some found) :
    Origin store call coordinate found := by
  rw [hAfter] at hFound
  split at hFound
  · rename_i hSame
    cases hFound
    rw [hSame]
    exact hWritten
  · rename_i hOther
    exact .kept hFound (hElsewhere hOther) rfl id

/- A deletion marks nothing at another address. -/
theorem marks_delete_of_ne
    {address : Coordinate}
    (hOther : coordinate ≠ address) :
    store.marks coordinate (.delete address) = false := by
  simp [marks, Ne.symm hOther]

/- What a deletion leaves at its address comes from what it
   found there. -/
theorem origin_terminate
    {stored : StoredObject}
    (hStored : store.stored? coordinate = some stored)
    (hDelay : store.deletionDelay ≠ 0) :
    Origin store (.delete coordinate) coordinate
      (terminate store.clock store.deletionDelay stored) := by
  unfold terminate
  cases hLingering : stored.lingeringReads with
  | none =>
      refine .marked hStored ?_ ?_ rfl rfl
      · simp [marks, hStored, hLingering, hDelay]
      · rw [hLingering]
        rfl
  | some remaining =>
      refine .kept hStored ?_ rfl id
      simp [marks, hStored, hLingering]

/- Where a stored object comes from. One case is for each way
   that a call may go. -/
theorem Effect.origin
    (hEffect : Effect store call answer later)
    (hConsistent : store.IsConsistent)
    (hFound : later.stored? coordinate = some found) :
    Origin store call coordinate found := by
  cases hEffect with
  | getAbsent | getVisible | createNoObject | createNameless
  | createTaken | patchUnread | patchAbsent | patchRefused
  | statusAbsent => exact .kept hFound rfl rfl id
  | deleteAbsent hStored =>
      refine .kept hFound ?_ rfl id
      simp only [marks, hFound]
      grind
  | @getHidden address stored hidden hStored hHidden =>
      have hKept : Origin store (.get address) address
          { stored with hiddenReads := hidden } :=
        .kept hStored rfl rfl id
      exact .of_written
        (fun other => stored?_keep _ other _ store)
        (fun _ => rfl) hKept hFound
  | @getLingering address stored remaining hStored hHidden
      hLingering =>
      have hKept : Origin store (.get address) address
          { stored with lingeringReads := some remaining } :=
        .kept hStored rfl rfl fun _ => rfl
      exact .of_written
        (fun other => stored?_keep _ other _ store)
        (fun _ => rfl) hKept hFound
  | getLapsed =>
      rw [stored?_forget] at hFound
      split at hFound
      · cases hFound
      · exact .kept hFound rfl rfl id
  | deleted hStored hDelay =>
      rw [stored?_forget] at hFound
      split at hFound
      · cases hFound
      · rename_i hOther
        exact .kept hFound (marks_delete_of_ne hOther) rfl id
  | marked hStored hDelay =>
      exact .of_written
        (fun other => stored?_keep _ other _ store)
        marks_delete_of_ne (origin_terminate hStored hDelay)
        hFound
  | @created type namespaceName name body supply left hName
      hFree =>
      have hVersion := hasVersion_newObject
        (hasMetadata_of_chooseName hName) namespaceName name
        supply store
      exact .of_written
        (fun other => stored?_placed _ other _ _ store)
        (fun _ => rfl) (.stamped hVersion) hFound
  | patched hRead hStored hMade =>
      have hNames :=
        (hConsistent.names _ _ hStored).patched hMade
      exact .of_written
        (fun other => stored?_accept _ other _ _ store)
        (fun _ => rfl)
        (.stamped
          (hasVersion_versioned hNames.hasMetadata store))
        hFound
  | @statusSet address status stored hStored =>
      have hNames :=
        (hConsistent.names _ _ hStored).setStatus status
      exact .of_written
        (fun other => stored?_accept _ other _ _ store)
        (fun _ => rfl)
        (.stamped
          (hasVersion_versioned hNames.hasMetadata store))
        hFound

end Origins

/- What has a version from before a history was stored all
   the while, and was marked once at most. The induction is on
   the history; an object that lingers is never marked. -/
theorem content_afterTimes
    {coordinate : Coordinate}
    {number : Nat}
    {found : StoredObject}
    (calls : List TimedCall)
    {store : MemoryStore}
    (hConsistent : store.IsConsistent)
    (hNumber : number < store.nextVersion)
    (hFound :
      (store.afterTimes calls).stored? coordinate =
        some found)
    (hVersion : HasVersion number found.object) :
    ∃ stored, store.stored? coordinate = some stored ∧
      found.object =
        markedAt (markedIn? coordinate calls store)
          stored.object ∧
      (stored.lingeringReads.isSome →
        markedIn? coordinate calls store = none) := by
  induction calls generalizing store with
  | nil => exact ⟨found, hFound, rfl, fun _ => rfl⟩
  | cons timed rest ih =>
      have hNow := hConsistent.atTime timed.clock
      have hEffect :=
        effect_respond (store.atTime timed.clock) timed.call
      have hNext :
          number < (store.afterTimed timed).nextVersion :=
        Nat.lt_of_lt_of_le hNumber hEffect.nextVersion_le
      rcases ih (hNow.after timed.call) hNext hFound with
        ⟨middle, hMiddle, hObject, hLast⟩
      have hMetadata :=
        ((hNow.after timed.call).names _ _
          hMiddle).hasMetadata
      have hThere : HasVersion number middle.object := by
        rw [hObject] at hVersion
        exact (hasVersion_markedAt_iff hMetadata _ _).1
          hVersion
      cases hEffect.origin hNow hMiddle with
      | kept hStored hUnmarked hSame hLingering =>
          have hUnmarkedNow :
              store.marks coordinate timed.call = false :=
            hUnmarked
          simp only [markedIn?, hUnmarkedNow,
            Bool.false_eq_true, if_false]
          exact ⟨_, hStored, hSame ▸ hObject,
            fun hSome => hLast (hLingering hSome)⟩
      | marked hStored hMarks hLasting hSame hLingering =>
          have hMarksNow :
              store.marks coordinate timed.call = true :=
            hMarks
          simp only [markedIn?, hMarksNow, if_true]
          rw [hLast hLingering] at hObject
          refine ⟨_, hStored, hObject.trans hSame, ?_⟩
          intro hSome
          rw [hLasting] at hSome
          cases hSome
      | stamped hStamped =>
          exact absurd (hThere.unique hStamped)
            (Nat.ne_of_lt hNumber)

------------------------------------------------------------
-- Returned Objects
------------------------------------------------------------

/- Whether a call answers with an object, once it
   succeeds. -/
def Call.returns : Call → Bool
  | .get _ => true
  | .create _ _ _ => true
  | .patch _ _ => true
  | .delete _ => false
  | .setStatus _ _ => false

/- The object of an address that a call returns, if it
   returns one. -/
def returned?
    (coordinate : Coordinate)
    (store : MemoryStore)
    (timed : TimedCall) :
    Option Json :=
  let now := store.atTime timed.clock
  if timed.call.returns ∧
      timed.call.target? now = some coordinate then
    (now.respond timed.call).1.toOption
  else none

/- What a call returns is stored afterwards, and it was
   stored before unless the call stamped it. -/
theorem Effect.returned
    {store later : MemoryStore}
    {call : Call}
    {document : Json}
    {coordinate : Coordinate}
    (hEffect : Effect store call (.ok document) later)
    (hConsistent : store.IsConsistent)
    (hReturns : call.returns = true)
    (hTarget : call.target? store = some coordinate) :
    (∃ stored, later.stored? coordinate = some stored ∧
        stored.object = document) ∧
      ((∃ stored, store.stored? coordinate = some stored ∧
          stored.object = document) ∨
        HasVersion store.nextVersion document) := by
  have hStamping := fun
      (hSelf : stampedBy? call (.ok document) later =
        some document) =>
    hEffect.stamping hConsistent hSelf
  cases hEffect with
  | deleted | marked | statusSet => cases hReturns
  | getVisible hStored =>
      cases hTarget
      exact ⟨⟨_, hStored, rfl⟩, .inl ⟨_, hStored, rfl⟩⟩
  | getLingering hStored =>
      cases hTarget
      have hKept := stored?_keep coordinate coordinate
      exact ⟨⟨_, (hKept _ _).trans (if_pos rfl), rfl⟩,
        .inl ⟨_, hStored, rfl⟩⟩
  | created | patched =>
      rcases hStamping rfl with
        ⟨hVersion, _, other, stored, hOther, hStored, hObject⟩
      have hSame := Option.some.inj (hTarget.symm.trans hOther)
      rw [hSame]
      exact ⟨⟨stored, hStored, hObject⟩, .inr hVersion⟩

/- The same of a call at its time. -/
theorem stored_of_returned
    {store : MemoryStore}
    (hConsistent : store.IsConsistent)
    {coordinate : Coordinate}
    {timed : TimedCall}
    {document : Json}
    (hReturned :
      store.returned? coordinate timed = some document) :
    (∃ stored,
        (store.afterTimed timed).stored? coordinate =
          some stored ∧ stored.object = document) ∧
      ((∃ stored, store.stored? coordinate = some stored ∧
          stored.object = document) ∨
        HasVersion store.nextVersion document) := by
  simp only [returned?] at hReturned
  split at hReturned
  · rename_i hCall
    have hAnswer := Result.eq_ok_of_toOption hReturned
    have hEffect :=
      effect_respond (store.atTime timed.clock) timed.call
    rw [hAnswer] at hEffect
    exact hEffect.returned (hConsistent.atTime timed.clock)
      hCall.1 hCall.2
  · cases hReturned

/- Two objects that were returned for one address under one
   version. No call has assigned that version since, so that
   the later one is what a deletion may have made of the
   earlier one. -/
theorem markedAt_of_returned
    {store : MemoryStore}
    (hConsistent : store.IsConsistent)
    {coordinate : Coordinate}
    {first second : TimedCall}
    {between : List TimedCall}
    {left right : Json}
    (hLeft : store.returned? coordinate first = some left)
    (hRight :
      ((store.afterTimed first).afterTimes between).returned?
          coordinate second =
        some right)
    (hVersion :
      left.at? ["metadata", "resourceVersion"] =
        right.at? ["metadata", "resourceVersion"]) :
    (∃ stored,
        (store.afterTimed first).stored? coordinate =
          some stored ∧ stored.object = left) ∧
      right =
        markedAt
          (markedIn? coordinate between
            (store.afterTimed first)) left := by
  have hNow : (store.afterTimed first).IsConsistent :=
    (hConsistent.atTime first.clock).after first.call
  rcases (stored_of_returned hConsistent hLeft).1 with
    ⟨stored, hStored, rfl⟩
  refine ⟨⟨stored, hStored, rfl⟩, ?_⟩
  rcases (hNow.sound _ _ hStored).version with
    ⟨number, hNumber, hHas⟩
  have hAgain : HasVersion number right :=
    hVersion.symm.trans hHas
  rcases (stored_of_returned (hNow.afterTimes between)
      hRight).2 with
    ⟨found, hFound, rfl⟩ | hFresh
  · rcases content_afterTimes between hNow hNumber hFound
        hAgain with
      ⟨other, hOther, hObject, _⟩
    cases hStored.symm.trans hOther
    exact hObject
  · have hLater := nextVersion_le_afterTimes between
      (store.afterTimed first)
    have hSame := hAgain.unique hFresh
    omega

/- Whatever calls are made, at whatever times and with
   whatever delays: two objects that are returned for one
   address under one version differ only by the mark of a
   deletion, and they are equal unless a deletion in between
   marked the object with a time that it did not show. -/
theorem version_identifies_iff
    (supply : Supply)
    (clock : Timestamp)
    (visibilityDelay deletionDelay : Nat)
    (earlier between : List TimedCall)
    (first second : TimedCall)
    (hCalls :
      ∀ timed, timed ∈ earlier ++ [first] →
        timed.call.IsCanonical)
    (coordinate : Coordinate)
    (left right : Json) :
    let start :=
      empty supply clock visibilityDelay deletionDelay
    let before := start.afterTimes earlier
    let seen := before.afterTimed first
    let later := seen.afterTimes between
    before.returned? coordinate first = some left →
      later.returned? coordinate second = some right →
        left.at? ["metadata", "resourceVersion"] =
            right.at? ["metadata", "resourceVersion"] →
          right =
              markedAt (markedIn? coordinate between seen)
                left ∧
            (left = right ↔
              ∀ time,
                markedIn? coordinate between seen =
                    some time →
                  left.at? ["metadata", "deletionTimestamp"] =
                    some (.str time.text)) := by
  intro start before seen later hLeft hRight hVersion
  have hStart : start.IsConsistent :=
    isConsistent_empty supply clock visibilityDelay
      deletionDelay
  have hNothing : start.Identifies :=
    identifies_empty supply clock visibilityDelay
      deletionDelay
  have hSeen : start.afterTimes (earlier ++ [first]) = seen :=
    List.foldl_append
  have hIdentifies := hNothing.afterTimes hCalls
  rw [hSeen] at hIdentifies
  rcases markedAt_of_returned (hStart.afterTimes earlier)
      hLeft hRight hVersion with
    ⟨⟨stored, hStored, rfl⟩, hMarked⟩
  have hIdentified := hIdentifies _ _ hStored
  refine ⟨hMarked, ?_⟩
  rw [hMarked]
  exact eq_markedAt_iff hIdentified.canonical
    hIdentified.hasMetadata _

/- A task that lingers for one read is read, deleted the day
   after, and read again. -/
theorem version_identifies_iff_deleted :
    let today : Timestamp := .ofDay 2024 1 1
    let tomorrow : Timestamp := .ofDay 2024 1 2
    let build : Coordinate :=
      ⟨Kind.task.resourceType, "ci", "build"⟩
    let body : Json :=
      .obj [("metadata", .obj [("name", .str "build")])]
    let before :=
      (empty ⟨1, 1⟩ today 0 1).afterTimes
        [⟨today, .create build.type "ci" body⟩]
    let later :=
      (before.afterTimed ⟨today, .get build⟩).afterTimes
        [⟨tomorrow, .delete build⟩]
    ∃ left right,
      before.returned? build ⟨today, .get build⟩ =
          some left ∧
        later.returned? build ⟨tomorrow, .get build⟩ =
          some right ∧
        left.at? ["metadata", "resourceVersion"] =
          right.at? ["metadata", "resourceVersion"] ∧
        left ≠ right := by
  intro today tomorrow build body before later
  have hBody : body.IsCanonical :=
    ⟨List.pairwise_singleton _ _,
      ⟨List.pairwise_singleton _ _, trivial, trivial⟩,
      trivial⟩
  have hCalls :
      ∀ timed,
        timed ∈
            [⟨today, .create build.type "ci" body⟩] ++
              [(⟨today, .get build⟩ : TimedCall)] →
          timed.call.IsCanonical := by
    intro timed hTimed
    rcases List.mem_cons.1 hTimed with rfl | hRead
    · exact hBody
    · cases List.mem_singleton.1 hRead
      exact trivial
  have hLeft :
      (before.returned? build
        ⟨today, .get build⟩).isSome = true := by
    decide +kernel
  have hRight :
      (later.returned? build
        ⟨tomorrow, .get build⟩).isSome = true := by
    decide +kernel
  have hVersion :
      (before.returned? build ⟨today, .get build⟩).bind
          (Json.at? ["metadata", "resourceVersion"]) =
        (later.returned? build
          ⟨tomorrow, .get build⟩).bind
            (Json.at? ["metadata", "resourceVersion"]) := by
    decide +kernel
  have hUnmarked :
      (before.returned? build ⟨today, .get build⟩).bind
          (Json.at? ["metadata", "deletionTimestamp"]) =
        none := by
    decide +kernel
  have hMarked :
      markedIn? build [⟨tomorrow, .delete build⟩]
          (before.afterTimed ⟨today, .get build⟩) =
        some tomorrow := by
    decide +kernel
  rcases Option.isSome_iff_exists.1 hLeft with ⟨left, hLeft⟩
  rcases Option.isSome_iff_exists.1 hRight with
    ⟨right, hRight⟩
  rw [hLeft, hRight] at hVersion
  rw [hLeft] at hUnmarked
  refine ⟨left, right, hLeft, hRight, hVersion, ?_⟩
  intro hSame
  have hShown :=
    (version_identifies_iff ⟨1, 1⟩ today 0 1 _ _ _ _ hCalls
      build left right hLeft hRight hVersion).2.1 hSame tomorrow
      hMarked
  cases hUnmarked.symm.trans hShown

end MemoryStore

end Converge
