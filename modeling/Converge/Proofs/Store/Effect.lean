import Converge.Proofs.Store.Identified

/-
  What each call of a store in memory answers and does.

  There is one case for each way that a call may go, with
  what leads there. What holds of a store after any call is
  read off these cases, so that no proof has to open the
  calls again.

  Key definitions:
    * `MemoryStore.respond`: answer and effect of a call
    * `MemoryStore.Effect`: the ways that a call may go

  Main declarations:
    * `MemoryStore.effect_respond`: there are no others
-/

namespace Converge

namespace MemoryStore

/- What a call answers, and the store after it. Calls that
   have nothing to answer with answer null. -/
def respond
    (call : Call)
    (store : MemoryStore) :
    Except StoreError Json × MemoryStore :=
  match call with
  | .get coordinate => store.get coordinate
  | .create type namespaceName body =>
      store.create type namespaceName body
  | .patch coordinate document =>
      store.patch coordinate document
  | .delete coordinate =>
      let made := store.delete coordinate
      (made.1.map fun _ => .null, made.2)
  | .setStatus coordinate status =>
      let made := store.setStatus coordinate status
      (made.1.map fun _ => .null, made.2)

/- A store with another supply of identifiers. -/
def supplied
    (supply : Supply)
    (store : MemoryStore) :
    MemoryStore :=
  { store with supply := supply }

/- The ways that a call may go: its answer and the store
   after it. -/
inductive Effect
    (store : MemoryStore) :
    Call → Except StoreError Json → MemoryStore → Prop where
  | getAbsent
      {coordinate : Coordinate}
      (hStored : store.stored? coordinate = none) :
      Effect store (.get coordinate)
        (.error (.missing coordinate)) store
  | getHidden
      {coordinate : Coordinate}
      {stored : StoredObject}
      {hidden : Nat}
      (hStored : store.stored? coordinate = some stored)
      (hHidden : stored.hiddenReads = hidden + 1) :
      Effect store (.get coordinate)
        (.error (.missing coordinate))
        (store.keep coordinate
          { stored with hiddenReads := hidden })
  | getVisible
      {coordinate : Coordinate}
      {stored : StoredObject}
      (hStored : store.stored? coordinate = some stored)
      (hHidden : stored.hiddenReads = 0)
      (hLasting : stored.lingeringReads = none) :
      Effect store (.get coordinate) (.ok stored.object) store
  | getLingering
      {coordinate : Coordinate}
      {stored : StoredObject}
      {remaining : Nat}
      (hStored : store.stored? coordinate = some stored)
      (hHidden : stored.hiddenReads = 0)
      (hLingering :
        stored.lingeringReads = some (remaining + 1)) :
      Effect store (.get coordinate) (.ok stored.object)
        (store.keep coordinate
          { stored with lingeringReads := some remaining })
  | getLapsed
      {coordinate : Coordinate}
      {stored : StoredObject}
      (hStored : store.stored? coordinate = some stored)
      (hHidden : stored.hiddenReads = 0)
      (hLapsed : stored.lingeringReads = some 0) :
      Effect store (.get coordinate)
        (.error (.missing coordinate))
        (store.forget coordinate)
  | createNoObject
      {type : ResourceType}
      {namespaceName : String}
      {body : Json}
      (hBody : body.isObject = false) :
      Effect store (.create type namespaceName body)
        (.error (.rejected 400 "object body expected")) store
  | createNameless
      {type : ResourceType}
      {namespaceName : String}
      {body : Json}
      {fault : StoreError}
      (hName : (chooseName body store.supply).1 = .error fault) :
      Effect store (.create type namespaceName body)
        (.error fault) store
  | createTaken
      {type : ResourceType}
      {namespaceName name : String}
      {body : Json}
      {supply : Supply}
      {stored : StoredObject}
      (hName :
        chooseName body store.supply = (.ok name, supply))
      (hStored :
        store.stored? ⟨type, namespaceName, name⟩ =
          some stored) :
      Effect store (.create type namespaceName body)
        (.error
          (.rejected 409
            (type.plural ++ " \"" ++ name ++
              "\" already exists")))
        (store.supplied supply)
  | created
      {type : ResourceType}
      {namespaceName name : String}
      {body : Json}
      {supply left : Supply}
      (hName :
        chooseName body store.supply = (.ok name, supply))
      (hFree :
        store.stored? ⟨type, namespaceName, name⟩ = none) :
      Effect store (.create type namespaceName body)
        (.ok
          (store.newObject namespaceName name supply body))
        (store.placed ⟨type, namespaceName, name⟩
          (store.newObject namespaceName name supply body)
          left)
  | patchUnread
      {coordinate : Coordinate}
      {text : String}
      (hRead : Patch.read? text = none) :
      Effect store (.patch coordinate text)
        (.error
          (.rejected 400
            "invalid JSON Patch: not a list of operations"))
        store
  | patchAbsent
      {coordinate : Coordinate}
      {text : String}
      {document : Patch}
      (hRead : Patch.read? text = some document)
      (hStored : store.stored? coordinate = none) :
      Effect store (.patch coordinate text)
        (.error (.missing coordinate)) store
  | patchRefused
      {coordinate : Coordinate}
      {text : String}
      {document : Patch}
      {stored : StoredObject}
      {fault : StoreError}
      (hRead : Patch.read? text = some document)
      (hStored : store.stored? coordinate = some stored)
      (hFault :
        patched coordinate document stored.object =
          .error fault) :
      Effect store (.patch coordinate text) (.error fault)
        store
  | patched
      {coordinate : Coordinate}
      {text : String}
      {document : Patch}
      {stored : StoredObject}
      {made : Json}
      (hRead : Patch.read? text = some document)
      (hStored : store.stored? coordinate = some stored)
      (hMade :
        patched coordinate document stored.object =
          .ok made) :
      Effect store (.patch coordinate text)
        (.ok (store.versioned made))
        (store.accept coordinate stored
          (store.versioned made))
  | deleteAbsent
      {coordinate : Coordinate}
      (hStored : store.stored? coordinate = none) :
      Effect store (.delete coordinate)
        (.error (.missing coordinate)) store
  | deleted
      {coordinate : Coordinate}
      {stored : StoredObject}
      (hStored : store.stored? coordinate = some stored)
      (hDelay : store.deletionDelay = 0) :
      Effect store (.delete coordinate) (.ok .null)
        (store.forget coordinate)
  | marked
      {coordinate : Coordinate}
      {stored : StoredObject}
      (hStored : store.stored? coordinate = some stored)
      (hDelay : store.deletionDelay ≠ 0) :
      Effect store (.delete coordinate) (.ok .null)
        (store.keep coordinate
          (terminate store.clock store.deletionDelay stored))
  | statusAbsent
      {coordinate : Coordinate}
      {status : Json}
      (hStored : store.stored? coordinate = none) :
      Effect store (.setStatus coordinate status)
        (.error (.missing coordinate)) store
  | statusSet
      {coordinate : Coordinate}
      {status : Json}
      {stored : StoredObject}
      (hStored : store.stored? coordinate = some stored) :
      Effect store (.setStatus coordinate status) (.ok .null)
        (store.accept coordinate stored
          (store.withStatus status stored.object))

------------------------------------------------------------
-- Each Call
------------------------------------------------------------

theorem effect_get
    (store : MemoryStore)
    (coordinate : Coordinate) :
    Effect store (.get coordinate)
      (store.get coordinate).1 (store.get coordinate).2 := by
  cases hStored : store.stored? coordinate with
  | none =>
      rw [get_of_absent hStored]
      exact .getAbsent hStored
  | some stored =>
      cases hHidden : stored.hiddenReads with
      | succ hidden =>
          rw [get_of_hidden hStored hHidden]
          exact .getHidden hStored hHidden
      | zero =>
          cases hLingering : stored.lingeringReads with
          | none =>
              rw [get_of_visible hStored hHidden hLingering]
              exact .getVisible hStored hHidden hLingering
          | some remaining =>
              cases remaining with
              | zero =>
                  rw [get_of_lapsed hStored hHidden
                    hLingering]
                  exact .getLapsed hStored hHidden hLingering
              | succ remaining =>
                  rw [get_of_lingering hStored hHidden
                    hLingering]
                  exact .getLingering hStored hHidden
                    hLingering

theorem effect_create
    (store : MemoryStore)
    (type : ResourceType)
    (namespaceName : String)
    (body : Json) :
    Effect store (.create type namespaceName body)
      (store.create type namespaceName body).1
      (store.create type namespaceName body).2 := by
  unfold MemoryStore.create
  cases hBody : body.isObject with
  | false => exact .createNoObject hBody
  | true =>
      simp only [if_true]
      cases hName : chooseName body store.supply with
      | mk chosen supply =>
          cases chosen with
          | error fault =>
              exact .createNameless (congrArg Prod.fst hName)
          | ok name =>
              cases hStored :
                  store.stored?
                    ⟨type, namespaceName, name⟩ with
              | some stored =>
                  have hTaken :
                      (store.supplied supply).stored?
                          ⟨type, namespaceName, name⟩ =
                        some stored := hStored
                  simp only [place]
                  rw [← supplied, hTaken]
                  exact .createTaken hName hStored
              | none =>
                  have hFree :
                      (store.supplied supply).stored?
                          ⟨type, namespaceName, name⟩ =
                        none := hStored
                  simp only [place]
                  rw [← supplied, hFree]
                  exact .created hName hStored

/- A body is put at a free address. -/
theorem create_of_free
    {type : ResourceType}
    {namespaceName name : String}
    {body : Json}
    {supply : Supply}
    {store : MemoryStore}
    (hBody : body.isObject = true)
    (hName : chooseName body store.supply = (.ok name, supply))
    (hFree :
      store.stored? ⟨type, namespaceName, name⟩ = none) :
    ∃ left,
      store.create type namespaceName body =
        (.ok (store.newObject namespaceName name supply body),
          store.placed ⟨type, namespaceName, name⟩
            (store.newObject namespaceName name supply body)
            left) := by
  have hSupplied :
      (store.supplied supply).stored?
          ⟨type, namespaceName, name⟩ =
        none :=
    hFree
  unfold create
  rw [if_pos hBody, hName]
  simp only [place]
  rw [← supplied, hSupplied]
  exact ⟨_, rfl⟩

theorem effect_patch
    (store : MemoryStore)
    (coordinate : Coordinate)
    (text : String) :
    Effect store (.patch coordinate text)
      (store.patch coordinate text).1
      (store.patch coordinate text).2 := by
  unfold MemoryStore.patch
  cases hRead : Patch.read? text with
  | none => exact .patchUnread hRead
  | some document =>
      cases hStored : store.stored? coordinate with
      | none => exact .patchAbsent hRead hStored
      | some stored =>
          cases hMade :
              patched coordinate document stored.object with
          | error fault =>
              simp only [hMade]
              exact .patchRefused hRead hStored hMade
          | ok made =>
              simp only [hMade]
              exact .patched hRead hStored hMade

theorem effect_delete
    (store : MemoryStore)
    (coordinate : Coordinate) :
    Effect store (.delete coordinate)
      ((store.delete coordinate).1.map fun _ => .null)
      (store.delete coordinate).2 := by
  unfold MemoryStore.delete
  cases hStored : store.stored? coordinate with
  | none => exact .deleteAbsent hStored
  | some stored =>
      by_cases hDelay : store.deletionDelay = 0
      · simp only [hDelay, if_true]
        exact .deleted hStored hDelay
      · simp only [hDelay, if_false]
        exact .marked hStored hDelay

theorem effect_setStatus
    (store : MemoryStore)
    (coordinate : Coordinate)
    (status : Json) :
    Effect store (.setStatus coordinate status)
      ((store.setStatus coordinate status).1.map
        fun _ => .null)
      (store.setStatus coordinate status).2 := by
  unfold MemoryStore.setStatus
  cases hStored : store.stored? coordinate with
  | none => exact .statusAbsent hStored
  | some stored => exact .statusSet hStored

/- Every call goes one of these ways. -/
theorem effect_respond
    (store : MemoryStore)
    (call : Call) :
    Effect store call (store.respond call).1
      (store.after call) := by
  cases call with
  | get coordinate => exact effect_get store coordinate
  | create type namespaceName body =>
      exact effect_create store type namespaceName body
  | patch coordinate text =>
      exact effect_patch store coordinate text
  | delete coordinate => exact effect_delete store coordinate
  | setStatus coordinate status =>
      exact effect_setStatus store coordinate status

end MemoryStore

end Converge
