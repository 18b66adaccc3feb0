import Converge.Proofs.Json.Patch
import Converge.Proofs.Object.Mutable
import Converge.Store.Memory

/-
  What the calls of a store in memory do.

  Each call is described once: what it answers, what is
  stored afterwards at its address, and that nothing else is
  touched.

  Key definitions:
    * `MemoryStore.SameButMetadata`: documents that differ in
      members of their metadata
    * `MemoryStore.Untouched`: no object was written
    * `MemoryStore.OnlyRead`: and none was taken away

  Main declarations:
    * `MemoryStore.get_eq_ok`: what a read answers
    * `MemoryStore.patch_cases`: what a patch does
    * `MemoryStore.create_cases`: what a submission does
-/

namespace Converge

namespace MemoryStore

------------------------------------------------------------
-- Metadata
------------------------------------------------------------

/- Two documents differ in certain members of their metadata
   at most. -/
structure SameButMetadata
    (fields : List String)
    (left right : Json) : Prop where
  members :
    ∀ key, key ≠ "metadata" →
      right.member? key = left.member? key
  metadata :
    ∀ key, key ∉ fields →
      right.at? ["metadata", key] = left.at? ["metadata", key]

theorem SameButMetadata.refl
    (fields : List String)
    (document : Json) :
    SameButMetadata fields document document :=
  ⟨fun _ _ => rfl, fun _ _ => rfl⟩

theorem SameButMetadata.mono
    {fields others : List String}
    {left right : Json}
    (h : SameButMetadata fields left right)
    (hFields : ∀ key, key ∈ fields → key ∈ others) :
    SameButMetadata others left right :=
  ⟨h.members, fun key hKey =>
    h.metadata key fun hIn => hKey (hFields key hIn)⟩

theorem SameButMetadata.trans
    {fields : List String}
    {left middle right : Json}
    (hFirst : SameButMetadata fields left middle)
    (hSecond : SameButMetadata fields middle right) :
    SameButMetadata fields left right :=
  ⟨fun key hKey =>
      (hSecond.members key hKey).trans
        (hFirst.members key hKey),
    fun key hKey =>
      (hSecond.metadata key hKey).trans
        (hFirst.metadata key hKey)⟩

/- The mutable parts are the same, unless the labels or the
   annotations are among the members that differ. -/
theorem SameButMetadata.roots
    {fields : List String}
    {left right : Json}
    (h : SameButMetadata fields left right)
    (hLabels : "labels" ∉ fields)
    (hAnnotations : "annotations" ∉ fields) :
    ∀ root, root ∈ Diff.mutableRoots →
      right.at? root = left.at? root := by
  intro root hRoot
  simp only [Diff.mutableRoots, List.mem_cons,
    List.not_mem_nil, or_false] at hRoot
  rcases hRoot with rfl | rfl | rfl
  · exact h.metadata "labels" hLabels
  · exact h.metadata "annotations" hAnnotations
  · rw [Json.at?_singleton, Json.at?_singleton]
    exact h.members "spec" (by decide)

/- Setting a member leaves the others there. -/
theorem member?_setMember_of_ne
    {key other : String}
    (hOther : other ≠ key)
    (value document : Json) :
    (document.setMember key value).member? other =
      document.member? other := by
  cases document with
  | obj members =>
      simp [Json.setMember, Json.member?, hOther]
  | _ => rfl

theorem hasMetadata_setMember
    {key : String}
    (hKey : "metadata" ≠ key)
    (value : Json)
    {document : Json}
    (hMetadata : document.HasMetadata) :
    (document.setMember key value).HasMetadata := by
  rcases hMetadata with ⟨info, hInfo⟩
  exact ⟨info, (member?_setMember_of_ne hKey value _).trans hInfo⟩

theorem member?_setMetadata
    {document : Json}
    {info : List (String × Json)}
    (hInfo : document.member? "metadata" = some (.obj info))
    (field : String)
    (value : Json) :
    (setMetadata field value document).member? "metadata" =
      some (.obj (Keyed.insert field value info)) := by
  unfold setMetadata
  rw [hInfo]
  cases document with
  | obj members =>
      simp [Json.setMember, Json.member?]
  | _ => cases hInfo

theorem hasMetadata_setMetadata
    {document : Json}
    (hMetadata : document.HasMetadata)
    (field : String)
    (value : Json) :
    (setMetadata field value document).HasMetadata := by
  rcases hMetadata with ⟨info, hInfo⟩
  exact ⟨_, member?_setMetadata hInfo field value⟩

theorem at?_setMetadata
    {document : Json}
    (hMetadata : document.HasMetadata)
    (field : String)
    (value : Json)
    (key : String) :
    (setMetadata field value document).at?
        ["metadata", key] =
      if key = field then some value
      else document.at? ["metadata", key] := by
  rcases hMetadata with ⟨info, hInfo⟩
  rw [Json.at?_metadata
      (member?_setMetadata hInfo field value),
    Json.at?_metadata hInfo, Keyed.lookup_insert]

/- Setting a member of the metadata changes nothing else. -/
theorem sameButMetadata_setMetadata
    {document : Json}
    (hMetadata : document.HasMetadata)
    (field : String)
    (value : Json) :
    SameButMetadata [field] document
      (setMetadata field value document) := by
  constructor
  · intro key hKey
    cases document with
    | obj members =>
        simp [setMetadata, Json.setMember, Json.member?, hKey]
    | _ => rfl
  · intro key hKey
    rw [at?_setMetadata hMetadata, if_neg]
    simpa using hKey

theorem isCanonical_setMetadata
    {document : Json}
    (hDocument : document.IsCanonical)
    (hMetadata : document.HasMetadata)
    (field : String)
    {value : Json}
    (hValue : value.IsCanonical) :
    (setMetadata field value document).IsCanonical := by
  rcases hMetadata with ⟨info, hInfo⟩
  cases document with
  | obj members =>
      have hInside :=
        (hDocument.member hInfo).insert field hValue
      unfold setMetadata
      rw [hInfo]
      exact hDocument.setMember "metadata" hInside
  | _ => cases hInfo

/- The text of a member of the metadata. -/
theorem metadataText_eq
    {document : Json}
    {field text : String}
    (hText :
      document.at? ["metadata", field] = some (.str text)) :
    metadataText field document = text := by
  rw [metadataText, hText]
  rfl

------------------------------------------------------------
-- Addresses
------------------------------------------------------------

@[simp] theorem stored?_keep
    (coordinate other : Coordinate)
    (stored : StoredObject)
    (store : MemoryStore) :
    (store.keep coordinate stored).stored? other =
      if other = coordinate then some stored
      else store.stored? other := by
  unfold stored? keep
  split
  · rename_i hSame
    rw [hSame, Keyed.lookup_put_self]
  · rename_i hOther
    rw [Keyed.lookup_put_of_ne hOther]

@[simp] theorem stored?_forget
    (coordinate other : Coordinate)
    (store : MemoryStore) :
    (store.forget coordinate).stored? other =
      if other = coordinate then none
      else store.stored? other := by
  unfold stored? forget
  rw [Keyed.lookup_erase]

------------------------------------------------------------
-- Reading
------------------------------------------------------------

/- No object was written, although some may be gone. -/
structure Untouched (before after : MemoryStore) : Prop where
  version : after.nextVersion = before.nextVersion
  stored :
    ∀ coordinate later,
      after.stored? coordinate = some later →
        ∃ earlier, before.stored? coordinate = some earlier ∧
          later.object = earlier.object

theorem Untouched.refl (store : MemoryStore) :
    Untouched store store :=
  ⟨rfl, fun _ later hLater => ⟨later, hLater, rfl⟩⟩

theorem Untouched.trans
    {first second third : MemoryStore}
    (hFirst : Untouched first second)
    (hSecond : Untouched second third) :
    Untouched first third := by
  refine ⟨hSecond.version.trans hFirst.version, ?_⟩
  intro coordinate last hLast
  rcases hSecond.stored coordinate last hLast with
    ⟨later, hLater, hSame⟩
  rcases hFirst.stored coordinate later hLater with
    ⟨earlier, hEarlier, hAlso⟩
  exact ⟨earlier, hEarlier, hSame.trans hAlso⟩

/- Counting reads down writes no object. -/
theorem untouched_keep
    {coordinate : Coordinate}
    {earlier later : StoredObject}
    {store : MemoryStore}
    (hEarlier : store.stored? coordinate = some earlier)
    (hSame : later.object = earlier.object) :
    Untouched store (store.keep coordinate later) := by
  refine ⟨rfl, ?_⟩
  intro other found hFound
  rw [stored?_keep] at hFound
  split at hFound
  · rename_i hOther
    cases hFound
    rw [hOther]
    exact ⟨earlier, hEarlier, hSame⟩
  · exact ⟨found, hFound, rfl⟩

theorem untouched_forget
    (coordinate : Coordinate)
    (store : MemoryStore) :
    Untouched store (store.forget coordinate) := by
  refine ⟨rfl, ?_⟩
  intro other found hFound
  rw [stored?_forget] at hFound
  split at hFound
  · cases hFound
  · exact ⟨found, hFound, rfl⟩

/- A read writes nothing. -/
theorem untouched_get
    (coordinate : Coordinate)
    (store : MemoryStore) :
    Untouched store (store.get coordinate).2 := by
  unfold get
  split
  · exact .refl store
  · rename_i stored hStored
    split
    · exact untouched_keep hStored rfl
    · exact .refl store
    · exact untouched_forget coordinate store
    · exact untouched_keep hStored rfl

/- No object was written, and none is gone but such that were
   deleted before. -/
structure OnlyRead (before after : MemoryStore) : Prop
    extends Untouched before after where
  retained :
    ∀ coordinate earlier,
      before.stored? coordinate = some earlier →
        earlier.lingeringReads = none →
          ∃ later, after.stored? coordinate = some later ∧
            later.object = earlier.object ∧
            later.lingeringReads = none

theorem OnlyRead.refl (store : MemoryStore) :
    OnlyRead store store :=
  ⟨.refl store, fun _ earlier hEarlier hLasting =>
    ⟨earlier, hEarlier, rfl, hLasting⟩⟩

theorem OnlyRead.trans
    {first second third : MemoryStore}
    (hFirst : OnlyRead first second)
    (hSecond : OnlyRead second third) :
    OnlyRead first third := by
  refine ⟨hFirst.toUntouched.trans hSecond.toUntouched, ?_⟩
  intro coordinate earlier hEarlier hLasting
  rcases hFirst.retained coordinate earlier hEarlier hLasting
    with ⟨later, hLater, hSame, hStill⟩
  rcases hSecond.retained coordinate later hLater hStill with
    ⟨last, hLast, hAlso, hEver⟩
  exact ⟨last, hLast, hAlso.trans hSame, hEver⟩

/- A read writes nothing, and takes away nothing but what was
   deleted. -/
theorem onlyRead_get
    (coordinate : Coordinate)
    (store : MemoryStore) :
    OnlyRead store (store.get coordinate).2 := by
  refine ⟨untouched_get coordinate store, ?_⟩
  intro other earlier hEarlier hLasting
  unfold get
  split
  · exact ⟨earlier, hEarlier, rfl, hLasting⟩
  · rename_i stored hStored
    by_cases hSame : other = coordinate
    · subst hSame
      cases hEarlier.symm.trans hStored
      split
      · rw [stored?_keep, if_pos rfl]
        exact ⟨_, rfl, rfl, hLasting⟩
      · exact ⟨earlier, hEarlier, rfl, hLasting⟩
      · rename_i hLapsed
        rw [hLasting] at hLapsed
        cases hLapsed
      · rename_i hLingering
        rw [hLasting] at hLingering
        cases hLingering
    · have hElsewhere :
          ∀ found, (store.keep coordinate found).stored?
            other = some earlier := by
        intro found
        rw [stored?_keep, if_neg hSame]
        exact hEarlier
      split
      · exact ⟨earlier, hElsewhere _, rfl, hLasting⟩
      · exact ⟨earlier, hEarlier, rfl, hLasting⟩
      · rw [stored?_forget, if_neg hSame]
        exact ⟨earlier, hEarlier, rfl, hLasting⟩
      · exact ⟨earlier, hElsewhere _, rfl, hLasting⟩

/- A read answers with what is stored, and leaves it there. -/
theorem get_eq_ok
    {coordinate : Coordinate}
    {store after : MemoryStore}
    {value : Json}
    (hGet : store.get coordinate = (.ok value, after)) :
    ∃ stored, after.stored? coordinate = some stored ∧
      stored.object = value := by
  unfold get at hGet
  split at hGet
  · cases hGet
  · rename_i stored hStored
    split at hGet
    · cases hGet
    · cases hGet
      exact ⟨stored, hStored, rfl⟩
    · cases hGet
    · cases hGet
      rw [stored?_keep, if_pos rfl]
      exact ⟨_, rfl, rfl⟩

/- An object in sight is read as often as one likes. -/
theorem get_of_visible
    {coordinate : Coordinate}
    {store : MemoryStore}
    {stored : StoredObject}
    (hStored : store.stored? coordinate = some stored)
    (hHidden : stored.hiddenReads = 0)
    (hLasting : stored.lingeringReads = none) :
    store.get coordinate = (.ok stored.object, store) := by
  unfold get
  rw [hStored]
  simp only [hHidden, hLasting]

------------------------------------------------------------
-- Changing
------------------------------------------------------------

/- A document with the version that the store assigns
   next. -/
def versioned
    (store : MemoryStore)
    (document : Json) :
    Json :=
  setMetadata "resourceVersion"
    (.str (toString store.nextVersion)) document

/- A document whose specification is no longer another's
   counts as its next generation. -/
def counted
    (before document : Json) :
    Json :=
  if document.member? "spec" = before.member? "spec" then
    document
  else
    setMetadata "generation" (nextGeneration document) document

/- The store after it accepted a change of an object. -/
def accept
    (coordinate : Coordinate)
    (stored : StoredObject)
    (document : Json)
    (store : MemoryStore) :
    MemoryStore :=
  { store with nextVersion := store.nextVersion + 1 }.keep
    coordinate { stored with object := document }

@[simp] theorem stored?_accept
    (coordinate other : Coordinate)
    (stored : StoredObject)
    (document : Json)
    (store : MemoryStore) :
    (store.accept coordinate stored document).stored? other =
      if other = coordinate then
        some { stored with object := document }
      else store.stored? other :=
  stored?_keep coordinate other _ _

/- A patch is accepted when it can be carried out and leaves
   the object its name and its namespace. -/
theorem patched_eq_ok_iff
    {coordinate : Coordinate}
    {patch : Patch}
    {before changed : Json} :
    patched coordinate patch before = .ok changed ↔
      ∃ made,
        patch.apply before = .ok made ∧
          metadataText "name" made = coordinate.name ∧
          metadataText "namespace" made =
            coordinate.namespaceName ∧
          changed = counted before made := by
  unfold patched
  cases hApply : patch.apply before with
  | error fault => simp
  | ok made =>
      simp only [Except.ok.injEq, exists_eq_left']
      split
      · rename_i hMoved
        constructor
        · intro h
          cases h
        · rintro ⟨hName, hNamespace, _⟩
          rcases hMoved with hMoved | hMoved
          · exact absurd hName hMoved
          · exact absurd hNamespace hMoved
      · rename_i hKept
        simp only [not_or, Decidable.not_not] at hKept
        simp only [hKept, true_and, counted]
        split <;> simp [eq_comm]

/- A patch changes the object at its address, or nothing. -/
theorem patch_cases
    (coordinate : Coordinate)
    {text : String}
    {patch : Patch}
    (hRead : Patch.read? text = some patch)
    (store : MemoryStore) :
    (∃ fault,
        store.patch coordinate text = (.error fault, store)) ∨
      ∃ stored made,
        store.stored? coordinate = some stored ∧
          patched coordinate patch stored.object = .ok made ∧
          store.patch coordinate text =
            (.ok (store.versioned made),
              store.accept coordinate stored
                (store.versioned made)) := by
  unfold MemoryStore.patch
  rw [hRead]
  cases hStored : store.stored? coordinate with
  | none => exact Or.inl ⟨_, rfl⟩
  | some stored =>
      cases hMade :
          patched coordinate patch stored.object with
      | error fault =>
          left
          refine ⟨fault, ?_⟩
          simp only [hMade]
      | ok made =>
          right
          refine ⟨stored, made, rfl, hMade, ?_⟩
          simp only [hMade]
          rfl

------------------------------------------------------------
-- Creating
------------------------------------------------------------

/- Sets members of the metadata, one after the other. -/
def assign
    (members : List (String × Json))
    (document : Json) :
    Json :=
  members.foldl
    (fun object member =>
      setMetadata member.1 member.2 object)
    document

theorem hasMetadata_assign
    (members : List (String × Json)) :
    ∀ {document : Json}, document.HasMetadata →
      (assign members document).HasMetadata := by
  induction members with
  | nil =>
      intro document hMetadata
      exact hMetadata
  | cons member rest ih =>
      intro document hMetadata
      exact ih (hasMetadata_setMetadata hMetadata member.1
        member.2)

theorem isCanonical_assign
    {members : List (String × Json)}
    (hMembers :
      ∀ member, member ∈ members → member.2.IsCanonical) :
    ∀ {document : Json},
      document.IsCanonical → document.HasMetadata →
        (assign members document).IsCanonical := by
  induction members with
  | nil =>
      intro document hDocument _
      exact hDocument
  | cons member rest ih =>
      intro document hDocument hMetadata
      have hFirst := hMembers member List.mem_cons_self
      exact ih
        (fun other hOther =>
          hMembers other (List.mem_cons_of_mem _ hOther))
        (isCanonical_setMetadata hDocument hMetadata member.1
          hFirst)
        (hasMetadata_setMetadata hMetadata member.1 member.2)

/- What was set is found, and all else is as it was. -/
theorem at?_assign
    {members : List (String × Json)}
    (hNodup : (members.map fun member => member.1).Nodup)
    (key : String) :
    ∀ {document : Json}, document.HasMetadata →
      (assign members document).at? ["metadata", key] =
        (members.lookup key).or
          (document.at? ["metadata", key]) := by
  induction members with
  | nil =>
      intro document _
      rfl
  | cons member rest ih =>
      obtain ⟨field, value⟩ := member
      intro document hMetadata
      simp only [List.map_cons, List.nodup_cons] at hNodup
      have hAfter :=
        hasMetadata_setMetadata hMetadata field value
      have hRest := ih hNodup.2 hAfter
      change
        (assign rest (setMetadata field value document)).at?
          ["metadata", key] = _
      rw [hRest, at?_setMetadata hMetadata]
      by_cases hKey : key = field
      · have hAbsent : rest.lookup key = none := by
          apply Keyed.lookup_eq_none_of_forall_ne
          intro entry hEntry hEq
          exact hNodup.1
            (List.mem_map.2 ⟨entry, hEntry, hEq.trans hKey⟩)
        rw [hAbsent]
        simp [hKey]
      · have hKey' : (key == field) = false := by
          simpa using hKey
        simp [List.lookup_cons, hKey, hKey']

theorem member?_assign
    (members : List (String × Json))
    {key : String}
    (hKey : key ≠ "metadata") :
    ∀ {document : Json}, document.HasMetadata →
      (assign members document).member? key =
        document.member? key := by
  induction members with
  | nil =>
      intro document _
      rfl
  | cons member rest ih =>
      intro document hMetadata
      have hFirst := sameButMetadata_setMetadata hMetadata
        member.1 member.2
      exact (ih (hasMetadata_setMetadata hMetadata member.1
        member.2)).trans (hFirst.members key hKey)

/- What the store assigns to a new object. -/
def assignedMembers
    (namespaceName name : String)
    (supply : Supply)
    (store : MemoryStore) :
    List (String × Json) :=
  [ ("name", .str name),
    ("namespace", .str namespaceName),
    ("uid", .str supply.identifier),
    ("generation", .ofInt64 1),
    ("creationTimestamp", .str store.clock.text),
    ("resourceVersion", .str (toString store.nextVersion)) ]

/- A new object with everything that the store assigns. -/
def newObject
    (namespaceName name : String)
    (supply : Supply)
    (body : Json)
    (store : MemoryStore) :
    Json :=
  assign (store.assignedMembers namespaceName name supply) body

/- The store after it accepted a new object. -/
def placed
    (coordinate : Coordinate)
    (document : Json)
    (supply : Supply)
    (store : MemoryStore) :
    MemoryStore :=
  { store with
    supply := supply
    nextVersion := store.nextVersion + 1 }.keep coordinate
      ⟨document, store.visibilityDelay, none⟩

@[simp] theorem stored?_placed
    (coordinate other : Coordinate)
    (document : Json)
    (supply : Supply)
    (store : MemoryStore) :
    (store.placed coordinate document supply).stored? other =
      if other = coordinate then
        some ⟨document, store.visibilityDelay, none⟩
      else store.stored? other :=
  stored?_keep coordinate other _ _

theorem isCanonical_newObject
    {body : Json}
    (hBody : body.IsCanonical)
    (hMetadata : body.HasMetadata)
    (namespaceName name : String)
    (supply : Supply)
    (store : MemoryStore) :
    (store.newObject namespaceName name supply
      body).IsCanonical := by
  refine isCanonical_assign ?_ hBody hMetadata
  simp [assignedMembers, Json.IsCanonical, Json.ofInt64]

/- The metadata of a new object is what the store assigns,
   and what was submitted beyond that. -/
theorem at?_newObject
    {body : Json}
    (hMetadata : body.HasMetadata)
    (namespaceName name : String)
    (supply : Supply)
    (store : MemoryStore)
    (key : String) :
    (store.newObject namespaceName name supply body).at?
        ["metadata", key] =
      ((store.assignedMembers namespaceName name
        supply).lookup key).or
        (body.at? ["metadata", key]) := by
  refine at?_assign ?_ key hMetadata
  simp [assignedMembers]

theorem chooseName_ne_empty
    {body : Json}
    {supply left : Supply}
    {name : String}
    (hName : chooseName body supply = (.ok name, left)) :
    name ≠ "" := by
  unfold chooseName at hName
  simp only at hName
  split at hName
  · rename_i hGiven
    cases hName
    exact hGiven
  · split at hName
    · cases hName
    · rename_i hStem
      cases hName
      intro hEmpty
      exact hStem (String.append_eq_empty_iff.1 hEmpty).1

/- A submission puts a new object at a free address, or
   nothing. -/
theorem create_cases
    (type : ResourceType)
    (namespaceName : String)
    (body : Json)
    (store : MemoryStore) :
    (∃ fault after,
        store.create type namespaceName body =
          (.error fault, after) ∧
        Untouched store after) ∨
      ∃ name supply left,
        name ≠ "" ∧
          store.stored? ⟨type, namespaceName, name⟩ = none ∧
          store.create type namespaceName body =
            (.ok
                (store.newObject namespaceName name supply
                  body),
              store.placed ⟨type, namespaceName, name⟩
                (store.newObject namespaceName name supply
                  body)
                left) := by
  unfold MemoryStore.create
  split
  · cases hName : chooseName body store.supply with
    | mk chosen supply =>
        cases chosen with
        | error fault =>
            exact Or.inl ⟨fault, store, rfl, .refl store⟩
        | ok name =>
            have hNonempty := chooseName_ne_empty hName
            simp only [place]
            cases hStored :
                store.stored? ⟨type, namespaceName, name⟩ with
            | some stored =>
                have hTaken :
                    stored? ⟨type, namespaceName, name⟩
                      { store with supply := supply } =
                      some stored := hStored
                left
                refine ⟨_, { store with supply := supply },
                  by rw [hTaken], rfl, ?_⟩
                intro coordinate later hLater
                exact ⟨later, hLater, rfl⟩
            | none =>
                have hFree :
                    stored? ⟨type, namespaceName, name⟩
                      { store with supply := supply } =
                      none := hStored
                right
                refine ⟨name, supply,
                  { supply with
                    identifiers := supply.identifiers + 1 },
                  hNonempty, hStored, ?_⟩
                rw [hFree]
                rfl
  · exact Or.inl ⟨_, store, rfl, .refl store⟩

end MemoryStore

end Converge
