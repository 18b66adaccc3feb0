import Converge.Proofs.Store.Assignment
import Converge.Proofs.Text.Digits
import Mathlib.Data.List.Induction

/-
  What holds of a store in memory in every state.

  Each entry has the name of its address, counts within the
  delays of the store, and a version that was assigned to it
  alone. Every way that a call may go keeps this, whatever it
  is called with, and so does every history. An entry that
  lingers has done so since a delete. No call ever assigns to
  a member of something that is no object.

  Key definitions:
    * `MemoryStore.HasVersion`: the version of a document
    * `MemoryStore.IsSound`: what holds of one entry
    * `MemoryStore.IsConsistent`: what holds of all of them
    * `MemoryStore.LingersSinceDelete`: why an object lingers

  Main declarations:
    * `MemoryStore.IsConsistent.after`: a call keeps a store
      consistent
    * `MemoryStore.afterTimes_consistent`
-/

namespace Converge

namespace MemoryStore

------------------------------------------------------------
-- Versions
------------------------------------------------------------

/- A document with the version of a number. -/
def HasVersion
    (number : Nat)
    (document : Json) : Prop :=
  document.at? ["metadata", "resourceVersion"] =
    some (.str (toString number))

/- A document has one version at most. -/
theorem HasVersion.unique
    {left right : Nat}
    {document : Json}
    (hLeft : HasVersion left document)
    (hRight : HasVersion right document) :
    left = right := by
  have hTexts := Option.some.inj (hLeft.symm.trans hRight)
  exact Text.toString_injective (Json.str.inj hTexts)

/- The store stamps documents with the next version. -/
theorem hasVersion_versioned
    {document : Json}
    (hMetadata : document.HasMetadata)
    (store : MemoryStore) :
    HasVersion store.nextVersion
      (store.versioned document) := by
  rw [HasVersion, versioned, at?_setMetadata hMetadata,
    if_pos rfl]

theorem hasVersion_newObject
    {body : Json}
    (hMetadata : body.HasMetadata)
    (namespaceName name : String)
    (supply : Supply)
    (store : MemoryStore) :
    HasVersion store.nextVersion
      (store.newObject namespaceName name supply body) := by
  rw [HasVersion, at?_newObject hMetadata]
  rfl

------------------------------------------------------------
-- Names after a Change
------------------------------------------------------------

namespace Names

variable {coordinate : Coordinate}
variable {document after : Json}

/- A new object has the name that was chosen. -/
theorem newObject
    {body : Json}
    {supply left : Supply}
    {name : String}
    (hName : chooseName body supply = (.ok name, left))
    (type : ResourceType)
    (namespaceName : String)
    (assigned : Supply)
    (store : MemoryStore) :
    Names ⟨type, namespaceName, name⟩
      (store.newObject namespaceName name assigned body) := by
  have hFields := at?_newObject
    (hasMetadata_of_chooseName hName) namespaceName name
    assigned store
  refine ⟨chooseName_ne_empty hName, ?_, ?_⟩
  · apply metadataText_eq
    rw [hFields]
    rfl
  · apply metadataText_eq
    rw [hFields]
    rfl

/- What a patch may make of a document has its name still,
   whatever the patch does. -/
theorem patched
    (hNames : Names coordinate document)
    {patch : Patch}
    (hPatched :
      MemoryStore.patched coordinate patch document =
        .ok after) :
    Names coordinate after := by
  rcases patched_eq_ok_iff.1 hPatched with
    ⟨made, _, hName, hNamespace, rfl⟩
  have hMade : Names coordinate made :=
    ⟨hNames.named, hName, hNamespace⟩
  unfold MemoryStore.counted
  split
  · exact hMade
  · exact hMade.setMetadata (by decide) (by decide) _

theorem versioned
    (hNames : Names coordinate document)
    (store : MemoryStore) :
    Names coordinate (store.versioned document) :=
  hNames.setMetadata (by decide) (by decide) _

/- A status is no part of the metadata. -/
theorem setStatus
    (hNames : Names coordinate document)
    (status : Json) :
    Names coordinate (document.setMember "status" status) := by
  have hInside :
      ∀ key,
        (document.setMember "status" status).at?
            ["metadata", key] =
          document.at? ["metadata", key] := by
    intro key
    simp only [Json.at?,
      member?_setMember_of_ne
        (show "metadata" ≠ "status" by decide)]
  exact hNames.congr (hInside "name") (hInside "namespace")

end Names

------------------------------------------------------------
-- Entries
------------------------------------------------------------

/-
  What holds of what is stored at an address: it is an object
  with the name and the namespace of the address, its counts
  are within the delays, and its version was assigned before
  the next one.
-/
structure IsSound
    (visibilityDelay deletionDelay nextVersion : Nat)
    (coordinate : Coordinate)
    (stored : StoredObject) : Prop where
  named : coordinate.name ≠ ""
  isObject : stored.object.isObject = true
  hasMetadata : stored.object.HasMetadata
  name : metadataText "name" stored.object = coordinate.name
  namespaceName :
    metadataText "namespace" stored.object =
      coordinate.namespaceName
  hidden : stored.hiddenReads ≤ visibilityDelay
  lingering :
    ∀ remaining, stored.lingeringReads = some remaining →
      deletionDelay ≠ 0 ∧ remaining ≤ deletionDelay
  version :
    ∃ number, number < nextVersion ∧
      HasVersion number stored.object

namespace IsSound

variable {visibilityDelay deletionDelay nextVersion : Nat}
variable {coordinate : Coordinate}
variable {stored : StoredObject}

theorem names
    (hSound :
      IsSound visibilityDelay deletionDelay nextVersion
        coordinate stored) :
    Names coordinate stored.object :=
  ⟨hSound.named, hSound.name, hSound.namespaceName⟩

theorem mono
    (hSound :
      IsSound visibilityDelay deletionDelay nextVersion
        coordinate stored)
    {later : Nat}
    (hLater : nextVersion ≤ later) :
    IsSound visibilityDelay deletionDelay later coordinate
      stored := by
  rcases hSound.version with ⟨number, hNumber, hVersion⟩
  exact { hSound with
    version :=
      ⟨number, Nat.lt_of_lt_of_le hNumber hLater, hVersion⟩ }

/- Another document may stand in its place. -/
theorem replace
    (hSound :
      IsSound visibilityDelay deletionDelay nextVersion
        coordinate stored)
    {document : Json}
    (hNames : Names coordinate document)
    {later number : Nat}
    (hNumber : number < later)
    (hVersion : HasVersion number document) :
    IsSound visibilityDelay deletionDelay later coordinate
      { stored with object := document } :=
  ⟨hSound.named, isObject_of_hasMetadata hNames.hasMetadata,
    hNames.hasMetadata, hNames.name, hNames.namespaceName,
    hSound.hidden, hSound.lingering, number, hNumber,
    hVersion⟩

end IsSound

------------------------------------------------------------
-- All Entries
------------------------------------------------------------

/-
  What holds of a store in memory: no address is listed
  twice, so that what is found at the addresses is all there
  is; each entry is sound; and no two have the same version.
-/
structure IsConsistent (store : MemoryStore) : Prop where
  nodup : store.coordinates.Nodup
  sound :
    ∀ coordinate stored,
      store.stored? coordinate = some stored →
        IsSound store.visibilityDelay store.deletionDelay
          store.nextVersion coordinate stored
  versions :
    ∀ coordinate other stored found number,
      store.stored? coordinate = some stored →
        store.stored? other = some found →
          HasVersion number stored.object →
            HasVersion number found.object →
              coordinate = other

theorem isConsistent_empty
    (supply : Supply)
    (clock : Timestamp)
    (visibilityDelay deletionDelay : Nat) :
    (empty supply clock visibilityDelay
      deletionDelay).IsConsistent :=
  ⟨List.nodup_nil, nofun, nofun⟩

namespace IsConsistent

variable {store : MemoryStore}
variable {coordinate : Coordinate}

theorem names
    (hConsistent : store.IsConsistent)
    (coordinate : Coordinate)
    (stored : StoredObject)
    (hStored : store.stored? coordinate = some stored) :
    Names coordinate stored.object :=
  (hConsistent.sound coordinate stored hStored).names

theorem supplied
    (hConsistent : store.IsConsistent)
    (supply : Supply) :
    (store.supplied supply).IsConsistent :=
  ⟨hConsistent.nodup, hConsistent.sound,
    hConsistent.versions⟩

/- What is left of a consistent store is consistent. -/
theorem forget
    (hConsistent : store.IsConsistent)
    (coordinate : Coordinate) :
    (store.forget coordinate).IsConsistent := by
  have hBefore :
      ∀ other stored,
        (store.forget coordinate).stored? other =
            some stored →
          store.stored? other = some stored := by
    intro other stored hStored
    rw [stored?_forget] at hStored
    split at hStored
    · cases hStored
    · exact hStored
  refine
    ⟨Keyed.nodup_erase hConsistent.nodup coordinate, ?_, ?_⟩
  · intro other stored hStored
    exact hConsistent.sound other stored
      (hBefore other stored hStored)
  · intro left right stored found number hStored hFound
    exact hConsistent.versions left right stored found number
      (hBefore left stored hStored)
      (hBefore right found hFound)

/- An entry may become another sound one without a version
   of its own. -/
theorem keep
    (hConsistent : store.IsConsistent)
    {stored later : StoredObject}
    (hStored : store.stored? coordinate = some stored)
    (hSound :
      IsSound store.visibilityDelay store.deletionDelay
        store.nextVersion coordinate later)
    (hVersion :
      ∀ number, HasVersion number later.object →
        HasVersion number stored.object) :
    (store.keep coordinate later).IsConsistent := by
  -- Whatever is found has its version from before.
  have hBefore :
      ∀ other found,
        (store.keep coordinate later).stored? other =
            some found →
          ∃ earlier, store.stored? other = some earlier ∧
            ∀ number, HasVersion number found.object →
              HasVersion number earlier.object := by
    intro other found hFound
    rw [stored?_keep] at hFound
    split at hFound
    · rename_i hSame
      cases hFound
      exact ⟨stored, hSame ▸ hStored, hVersion⟩
    · exact ⟨found, hFound, fun _ hNumber => hNumber⟩
  refine
    ⟨Keyed.nodup_put hConsistent.nodup coordinate later, ?_,
      ?_⟩
  · intro other found hFound
    rw [stored?_keep] at hFound
    split at hFound
    · rename_i hSame
      cases hFound
      exact hSame ▸ hSound
    · exact hConsistent.sound other found hFound
  · intro left right first second number hFirst hSecond
      hLeft hRight
    rcases hBefore left first hFirst with
      ⟨before, hThere, hKept⟩
    rcases hBefore right second hSecond with
      ⟨other, hElse, hAlso⟩
    exact hConsistent.versions left right before other number
      hThere hElse (hKept number hLeft) (hAlso number hRight)

/- An entry with the next version may be put anywhere: all
   others have smaller ones. -/
theorem write
    (hConsistent : store.IsConsistent)
    (supply : Supply)
    {later : StoredObject}
    (hSound :
      IsSound store.visibilityDelay store.deletionDelay
        (store.nextVersion + 1) coordinate later)
    (hVersion : HasVersion store.nextVersion later.object) :
    ({ store with
        supply := supply
        nextVersion := store.nextVersion + 1 }.keep coordinate
      later).IsConsistent := by
  -- No entry from before has the version that is new.
  have hNew :
      ∀ other found,
        store.stored? other = some found →
          ¬HasVersion store.nextVersion found.object := by
    intro other found hFound hThere
    rcases (hConsistent.sound other found hFound).version with
      ⟨number, hNumber, hEarlier⟩
    exact Nat.ne_of_lt hNumber (hEarlier.unique hThere)
  have hAfter := fun other =>
    stored?_keep coordinate other later
      { store with
        supply := supply
        nextVersion := store.nextVersion + 1 }
  refine
    ⟨Keyed.nodup_put hConsistent.nodup coordinate later, ?_,
      ?_⟩
  · intro other found hFound
    rw [hAfter] at hFound
    split at hFound
    · rename_i hSame
      cases hFound
      exact hSame ▸ hSound
    · exact (hConsistent.sound other found hFound).mono
        (Nat.le_succ _)
  · intro left right first second number hFirst hSecond
      hLeft hRight
    rw [hAfter] at hFirst hSecond
    split at hFirst <;> split at hSecond
    · rename_i hSame hAlso
      exact hSame.trans hAlso.symm
    · cases hFirst
      cases hLeft.unique hVersion
      exact absurd hRight (hNew right second hSecond)
    · cases hSecond
      cases hRight.unique hVersion
      exact absurd hLeft (hNew left first hFirst)
    · exact hConsistent.versions left right first second
        number hFirst hSecond hLeft hRight

/- Another document with the next version may stand in the
   place of one. -/
theorem accept
    (hConsistent : store.IsConsistent)
    {stored : StoredObject}
    (hStored : store.stored? coordinate = some stored)
    {document : Json}
    (hNames : Names coordinate document)
    (hVersion : HasVersion store.nextVersion document) :
    (store.accept coordinate stored document).IsConsistent :=
  hConsistent.write store.supply
    ((hConsistent.sound coordinate stored hStored).replace
      hNames (Nat.lt_succ_self _) hVersion)
    hVersion

/- An object that is marked for deletion lingers as long as
   the store says, and keeps its version. -/
theorem marked
    (hConsistent : store.IsConsistent)
    {stored : StoredObject}
    (hStored : store.stored? coordinate = some stored)
    (hDelay : store.deletionDelay ≠ 0) :
    (store.keep coordinate
      (terminate store.clock store.deletionDelay
        stored)).IsConsistent := by
  have hSound := hConsistent.sound coordinate stored hStored
  unfold terminate
  cases hLingering : stored.lingeringReads with
  | some remaining =>
      exact hConsistent.keep hStored hSound fun _ h => h
  | none =>
      have hNames := hSound.names.setMetadata
        (show "deletionTimestamp" ≠ "name" by decide)
        (by decide) (.str store.clock.text)
      rcases hSound.version with ⟨number, hNumber, hVersion⟩
      have hSame :
          (setMetadata "deletionTimestamp"
              (.str store.clock.text) stored.object).at?
              ["metadata", "resourceVersion"] =
            stored.object.at?
              ["metadata", "resourceVersion"] := by
        rw [at?_setMetadata hSound.hasMetadata,
          if_neg (by decide)]
      have hMarked := hSound.replace hNames hNumber
        (hSame.trans hVersion)
      refine hConsistent.keep hStored
        { hMarked with lingering := ?_ } ?_
      · intro remaining hRemaining
        cases hRemaining
        exact ⟨hDelay, Nat.le_refl _⟩
      · intro number hThere
        exact hSame.symm.trans hThere

/- Whatever a call does, it keeps a store consistent. One
   case is for each way that a call may go. -/
theorem after
    (hConsistent : store.IsConsistent)
    (call : Call) :
    (store.after call).IsConsistent := by
  have hEffect := effect_respond store call
  generalize (store.respond call).1 = answer at hEffect
  generalize store.after call = later at hEffect
  cases hEffect with
  | getAbsent | getVisible | createNoObject
  | createNameless | patchUnread | patchAbsent | patchRefused
  | deleteAbsent | statusAbsent => exact hConsistent
  | getHidden hStored hHidden =>
      have hSound := hConsistent.sound _ _ hStored
      have hLess := hSound.hidden
      rw [hHidden] at hLess
      exact hConsistent.keep hStored
        { hSound with hidden := Nat.le_of_succ_le hLess }
        fun _ h => h
  | getLingering hStored hHidden hLingering =>
      have hSound := hConsistent.sound _ _ hStored
      refine hConsistent.keep hStored
        { hSound with lingering := ?_ } fun _ h => h
      intro remaining hRemaining
      cases hRemaining
      rcases hSound.lingering _ hLingering with
        ⟨hDelay, hLess⟩
      exact ⟨hDelay, Nat.le_of_succ_le hLess⟩
  | getLapsed | deleted => exact hConsistent.forget _
  | createTaken => exact hConsistent.supplied _
  | @created type namespaceName name body supply left hName =>
      have hNames :=
        Names.newObject hName type namespaceName supply store
      have hVersion := hasVersion_newObject
        (hasMetadata_of_chooseName hName) namespaceName name
        supply store
      refine hConsistent.write left ?_ hVersion
      exact ⟨hNames.named,
        isObject_of_hasMetadata hNames.hasMetadata,
        hNames.hasMetadata, hNames.name,
        hNames.namespaceName, Nat.le_refl _, nofun,
        store.nextVersion, Nat.lt_succ_self _, hVersion⟩
  | patched hRead hStored hMade =>
      have hNames :=
        (hConsistent.names _ _ hStored).patched hMade
      exact hConsistent.accept hStored
        (hNames.versioned store)
        (hasVersion_versioned hNames.hasMetadata store)
  | marked hStored hDelay =>
      exact hConsistent.marked hStored hDelay
  | @statusSet coordinate status stored hStored =>
      have hNames :=
        (hConsistent.names _ _ hStored).setStatus status
      exact hConsistent.accept hStored
        (hNames.versioned store)
        (hasVersion_versioned hNames.hasMetadata store)

/- What time it is makes no difference. -/
theorem atTime
    (hConsistent : store.IsConsistent)
    (clock : Timestamp) :
    (store.atTime clock).IsConsistent :=
  ⟨hConsistent.nodup, hConsistent.sound,
    hConsistent.versions⟩

theorem afterTimes
    (hConsistent : store.IsConsistent)
    (calls : List TimedCall) :
    (store.afterTimes calls).IsConsistent := by
  induction calls generalizing store with
  | nil => exact hConsistent
  | cons timed rest ih =>
      exact ih
        ((hConsistent.atTime timed.clock).after timed.call)

end IsConsistent

------------------------------------------------------------
-- Histories
------------------------------------------------------------

/- The delays of a store never change. -/
theorem delays_after
    (store : MemoryStore)
    (call : Call) :
    (store.after call).visibilityDelay =
        store.visibilityDelay ∧
      (store.after call).deletionDelay =
        store.deletionDelay := by
  have hEffect := effect_respond store call
  generalize (store.respond call).1 = answer at hEffect
  generalize store.after call = later at hEffect
  cases hEffect <;> exact ⟨rfl, rfl⟩

theorem delays_afterTimes
    (calls : List TimedCall)
    (store : MemoryStore) :
    (store.afterTimes calls).visibilityDelay =
        store.visibilityDelay ∧
      (store.afterTimes calls).deletionDelay =
        store.deletionDelay := by
  induction calls generalizing store with
  | nil => exact ⟨rfl, rfl⟩
  | cons timed rest ih =>
      rcases ih (store.afterTimed timed) with
        ⟨hVisibility, hDeletion⟩
      rcases delays_after (store.atTime timed.clock)
          timed.call with
        ⟨hSame, hAlso⟩
      exact ⟨hVisibility.trans hSame, hDeletion.trans hAlso⟩

@[simp] theorem afterTimes_append_singleton
    (calls : List TimedCall)
    (timed : TimedCall)
    (store : MemoryStore) :
    store.afterTimes (calls ++ [timed]) =
      (store.afterTimes calls).afterTimed timed :=
  List.foldl_append

/- An object that was deleted and is still there. -/
def Lingers
    (coordinate : Coordinate)
    (store : MemoryStore) : Prop :=
  ∃ stored remaining,
    store.stored? coordinate = some stored ∧
      stored.lingeringReads = some remaining

/-
  A history deletes an object of an address, and from then on
  the object lingers there after each call.
-/
def LingersSinceDelete
    (coordinate : Coordinate)
    (store : MemoryStore)
    (calls : List TimedCall) : Prop :=
  ∃ earlier clock later,
    calls = earlier ++ ⟨clock, .delete coordinate⟩ :: later ∧
      ((store.afterTimes earlier).stored?
        coordinate).isSome ∧
      ∀ passed, passed <+: later →
        (store.afterTimes
          (earlier ++
            ⟨clock, .delete coordinate⟩ :: passed)).Lingers
              coordinate

/- What lingers besides the entry that was written lingered
   before. -/
theorem lingers_elsewhere
    {store later : MemoryStore}
    {coordinate address : Coordinate}
    {written : StoredObject}
    (hAfter :
      ∀ other, later.stored? other =
        if other = address then some written
        else store.stored? other)
    (hLingers : later.Lingers coordinate) :
    store.Lingers coordinate ∨
      coordinate = address ∧
        written.lingeringReads.isSome := by
  rcases hLingers with
    ⟨found, remaining, hFound, hRemaining⟩
  rw [hAfter] at hFound
  split at hFound
  · rename_i hSame
    cases hFound
    rw [hRemaining]
    exact Or.inr ⟨hSame, rfl⟩
  · exact Or.inl ⟨found, remaining, hFound, hRemaining⟩

/- An entry that is written as lasting as it was lingers only
   where it lingered. -/
theorem lingers_of_written
    {store later : MemoryStore}
    {coordinate address : Coordinate}
    {stored written : StoredObject}
    (hStored : store.stored? address = some stored)
    (hAfter :
      ∀ other, later.stored? other =
        if other = address then some written
        else store.stored? other)
    (hWritten :
      written.lingeringReads.isSome →
        stored.lingeringReads.isSome)
    (hLingers : later.Lingers coordinate) :
    store.Lingers coordinate := by
  rcases lingers_elsewhere hAfter hLingers with
    hBefore | ⟨rfl, hSome⟩
  · exact hBefore
  · rcases Option.isSome_iff_exists.1 (hWritten hSome) with
      ⟨remaining, hRemaining⟩
    exact ⟨stored, remaining, hStored, hRemaining⟩

/- What lingers after a call lingered before it, unless the
   call deleted it. -/
theorem lingers_of_after
    {store : MemoryStore}
    {call : Call}
    {coordinate : Coordinate}
    (hAfter : (store.after call).Lingers coordinate) :
    store.Lingers coordinate ∨
      call = .delete coordinate ∧
        (store.stored? coordinate).isSome := by
  have hEffect := effect_respond store call
  generalize (store.respond call).1 = answer at hEffect
  generalize store.after call = later at hEffect hAfter
  cases hEffect with
  | getAbsent | getVisible | createNoObject
  | createNameless | patchUnread | patchAbsent | patchRefused
  | deleteAbsent | statusAbsent | createTaken =>
      exact Or.inl hAfter
  | getHidden hStored hHidden =>
      refine Or.inl (lingers_of_written hStored
        (fun other => stored?_keep _ other _ store) ?_ hAfter)
      exact id
  | getLingering hStored hHidden hLingering =>
      refine Or.inl (lingers_of_written hStored
        (fun other => stored?_keep _ other _ store) ?_ hAfter)
      intro _
      rw [hLingering]
      rfl
  | getLapsed | deleted =>
      rcases hAfter with
        ⟨found, remaining, hFound, hRemaining⟩
      rw [stored?_forget] at hFound
      split at hFound
      · cases hFound
      · exact Or.inl ⟨found, remaining, hFound, hRemaining⟩
  | created hName hFree =>
      rcases lingers_elsewhere
          (fun other => stored?_placed _ other _ _ store)
          hAfter with hBefore | ⟨_, hNew⟩
      · exact Or.inl hBefore
      · cases hNew
  | patched hRead hStored hMade =>
      refine Or.inl (lingers_of_written hStored
        (fun other => stored?_accept _ other _ _ store) ?_
        hAfter)
      exact id
  | marked hStored hDelay =>
      rcases lingers_elsewhere
          (fun other => stored?_keep _ other _ store)
          hAfter with hBefore | ⟨rfl, _⟩
      · exact Or.inl hBefore
      · exact Or.inr ⟨rfl, by rw [hStored]; rfl⟩
  | statusSet hStored =>
      refine Or.inl (lingers_of_written hStored
        (fun other => stored?_accept _ other _ _ store) ?_
        hAfter)
      exact id

/- What lingers in the end has lingered since a delete, if
   nothing lingered in the beginning. The induction is on the
   history, from its last call backwards. -/
theorem lingersSinceDelete
    {store : MemoryStore}
    {coordinate : Coordinate}
    (hFirst : ¬store.Lingers coordinate)
    (calls : List TimedCall)
    (hLast : (store.afterTimes calls).Lingers coordinate) :
    store.LingersSinceDelete coordinate calls := by
  induction calls using List.reverseRecOn with
  | nil => exact absurd hLast hFirst
  | append_singleton calls timed ih =>
      rcases timed with ⟨clock, call⟩
      have hAfter := hLast
      rw [afterTimes_append_singleton] at hAfter
      rcases lingers_of_after hAfter with
        hBefore | ⟨rfl, hThere⟩
      · rcases ih hBefore with
          ⟨earlier, deleted, later, rfl, hDeleted, hSince⟩
        refine ⟨earlier, deleted, later ++ [⟨clock, call⟩],
          List.append_assoc _ _ _, hDeleted, ?_⟩
        intro passed hPassed
        rcases List.prefix_concat_iff.1 hPassed with
          rfl | hPassed
        · simpa using hLast
        · exact hSince passed hPassed
      · refine ⟨calls, clock, [], rfl, hThere, ?_⟩
        intro passed hPassed
        rw [List.prefix_nil.1 hPassed]
        exact hLast

/-
  In every state that a history leads to, whatever time
  passes and whatever identifiers are drawn, a store is
  consistent within the delays that it began with, what
  lingers has done so since a delete, and no call assigns to
  a member of something that is no object.
-/
theorem afterTimes_consistent
    (supply : Supply)
    (clock : Timestamp)
    (visibilityDelay deletionDelay : Nat)
    (calls : List TimedCall) :
    let start :=
      empty supply clock visibilityDelay deletionDelay
    let store := start.afterTimes calls
    (store.visibilityDelay = visibilityDelay ∧
        store.deletionDelay = deletionDelay) ∧
      store.IsConsistent ∧
      (∀ coordinate, store.Lingers coordinate →
        start.LingersSinceDelete coordinate calls) ∧
      ∀ clock call,
        (store.atTime clock).respondInPlace? call =
          some ((store.atTime clock).respond call) := by
  have hConsistent :=
    (isConsistent_empty supply clock visibilityDelay
      deletionDelay).afterTimes calls
  refine ⟨delays_afterTimes calls _, hConsistent, ?_, ?_⟩
  · intro coordinate hLast
    apply lingersSinceDelete _ calls hLast
    rintro ⟨stored, _, hStored, _⟩
    cases hStored
  · intro now call
    exact respondInPlace?_eq
      (hConsistent.atTime now).names call

end MemoryStore

end Converge
