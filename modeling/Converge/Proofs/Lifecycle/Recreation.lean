import Converge.Proofs.Lifecycle.Addressed
import Converge.Proofs.Store.Submission

/-
  An adopted object can be made anew.

  The configuration of an adopted object states all that was
  found, the parts that the store owns as well. Once the
  object is deleted, the same configuration is submitted
  without these parts, so that the store takes it as a new
  object with all that clients ask for of the old one.

  Key definitions:
    * `Object.Renews`: an object made anew of another

  Main declarations:
    * `Engine.adopt_of_inSight`: what can be adopted
    * `Engine.accepted_of_flatten`: a configuration of an
      object is accepted
    * `Engine.recreate_renews`
-/

namespace Converge

------------------------------------------------------------
-- Renewed Objects
------------------------------------------------------------

namespace Object

variable {kind : Kind}

/- One object is made anew of another: it is of its kind, and
   has all that clients ask for of the other, but nothing
   that came of that one. -/
structure Renews (original renewed : Object kind) : Prop where
  apiVersion :
    renewed.apiVersion = kind.resourceType.apiVersion
  typeName : renewed.typeName = kind.name
  name : renewed.metadata.name = original.metadata.name
  generateName :
    renewed.metadata.generateName =
      original.metadata.generateName
  namespaceName :
    renewed.metadata.namespaceName =
      original.metadata.namespaceName
  labels : renewed.metadata.labels = original.metadata.labels
  annotations :
    renewed.metadata.annotations =
      original.metadata.annotations
  spec : renewed.spec = original.spec
  status : renewed.content.2.2 = kind.observations.zero
  deletion : renewed.metadata.deletionTimestamp = none
  generation : renewed.metadata.generation = 1

end Object

namespace Engine

open MemoryStore (address)
open ObjectId (separator)

variable {kind : Kind}

------------------------------------------------------------
-- Adoption
------------------------------------------------------------

/- A read of what is stored gives the object there, if it
   gives one. -/
theorem eq_of_get
    {id : ObjectId}
    {session later : Session MemoryStore}
    {stored : StoredObject}
    {object found : Object kind}
    (hStored :
      session.state.stored? (address kind id) = some stored)
    (hObject :
      Object.decode? kind stored.object = some object)
    (hGet :
      (Client.get MemoryStore.store kind id.namespaceName
        id.name).run session = (.ok found, later)) :
    found = object := by
  rw [Client.run_get] at hGet
  have hFound := congrArg Prod.fst hGet
  rcases Client.decoded_eq_ok_iff.1 hFound with
    ⟨value, hValue, hDecode⟩
  rcases MemoryStore.get_eq_ok (Prod.ext hValue rfl) with
    ⟨kept, hKept, rfl⟩
  rcases (MemoryStore.untouched_get (address kind id)
      session.state).stored _ kept hKept with
    ⟨earlier, hEarlier, hSame⟩
  cases hStored.symm.trans hEarlier
  rw [hSame] at hDecode
  exact Option.some.inj (hDecode.symm.trans hObject)

/- An object in sight can be adopted. -/
theorem adopt_of_inSight
    (engine : Engine MemoryStore)
    (hStore : engine.store = MemoryStore.store)
    {id : ObjectId}
    {written : String}
    {session : Session MemoryStore}
    {stored : StoredObject}
    {object : Object kind}
    (hId : ObjectId.parse written = .ok id)
    (hStored :
      session.state.stored? (address kind id) = some stored)
    (hObject :
      Object.decode? kind stored.object = some object)
    (hInSight : MemoryStore.InSight 1 stored) :
    ∃ later,
      (engine.adopt kind written).run session =
        (.ok
            ⟨written, object.flatten, some object.flatten,
              .standard⟩,
          later) := by
  rcases MemoryStore.get_of_inSight hStored hInSight with
    ⟨_, after, hGet, _⟩
  have hDecoded := Client.decoded_eq_ok_iff.2
    ⟨stored.object, rfl, hObject⟩
  rw [adopt_eq, hId, hStore]
  simp only [Client.run_get, hGet, hDecoded]
  exact ⟨_, rfl⟩

------------------------------------------------------------
-- Recreation
------------------------------------------------------------

/- The configuration of an object is accepted where the
   address of the object is free, and what is stored then is
   made anew of the object. -/
theorem accepted_of_flatten
    (engine : Engine MemoryStore)
    (hStore : engine.store = MemoryStore.store)
    {id : ObjectId}
    {tracked : Tracked}
    {object : Object kind}
    (hFilled : object.Filled)
    (hId : ObjectId.ofMeta object.metadata = .ok id)
    (hConfig : tracked.config = object.flatten)
    (session : Session MemoryStore)
    (hFree :
      session.state.stored? (address kind id) = none) :
    ∃ renewed between,
      engine.Accepted tracked session object.settled id
          renewed between ∧
        object.Renews renewed := by
  have hNonempty := ObjectId.nonempty_of_ofMeta hId
  have hSame := ObjectId.eq_of_ofMeta hId
  subst hSame
  have hSurvives := object.survives_flatten
  have hConfigured :
      configured kind .create tracked.config =
        .ok object.settled := by
    rw [hConfig]
    exact configured_eq_ok_iff.2
      ⟨hSurvives.2.1.2 hFilled, hSurvives.2.2.1 hFilled⟩
  have hInNamespace :
      engine.inNamespace object.settled = object.settled :=
    if_neg hNonempty.1
  have hSubmit :
      Client.create engine.store
          (engine.inNamespace object.settled) =
        Client.create MemoryStore.store object.settled := by
    rw [hInNamespace, hStore]
  have hName := MemoryStore.chooseName_toJson
    object.settled.prepareForCreate hNonempty.2
    session.state.supply
  rcases MemoryStore.run_create_of_chosen object.settled
      hNonempty.1 hName hFree with
    ⟨_, after, hRun, _⟩
  rw [← hSubmit] at hRun
  exact
    ⟨_, _, ⟨hConfigured, hRun, hId⟩,
      ⟨rfl, rfl, rfl, rfl, rfl, rfl, rfl, rfl, rfl, rfl,
        rfl⟩⟩

/-
  An object of a store is read with all its required strings,
  and its namespace is not empty; the separator is in neither
  part of its identity. Then it can be adopted while it is in
  sight. Whatever else happens, once the adopted object was
  deleted and its address is free, its configuration is
  accepted again, and what is stored then was made anew of
  the object.
-/
theorem recreate_renews
    (engine : Engine MemoryStore)
    (hStore : engine.store = MemoryStore.store)
    {id : ObjectId}
    {session : Session MemoryStore}
    {stored : StoredObject}
    {object : Object kind}
    (hWritten : session.state.IsWritten)
    (hStored :
      session.state.stored? (address kind id) = some stored)
    (hObject :
      Object.decode? kind stored.object = some object)
    (hFilled : object.Filled)
    (hNamespace : id.namespaceName ≠ "")
    (hApart :
      separator ∉ id.namespaceName.toList ∧
        separator ∉ id.name.toList) :
    (MemoryStore.InSight 1 stored →
        ∃ adopted later,
          (engine.adopt kind id.text).run session =
            (.ok adopted, later)) ∧
      ∀ adopted later,
        (engine.adopt kind id.text).run session =
            (.ok adopted, later) →
          ∀ before cleared after,
            (engine.delete kind).run adopted before =
                ((.ok (), cleared), after) →
              after.state.stored? (address kind id) = none →
                let made :=
                  (engine.create kind).run cleared after
                ∃ wanted renewed between kept,
                  engine.Accepted cleared after wanted id
                      renewed between ∧
                    object.Renews renewed ∧
                    made.1.2.id = id.text ∧
                    made.2.state.stored? (address kind id) =
                      some kept ∧
                    Object.decode? kind kept.object =
                      some renewed := by
  have hIdentified :=
    hWritten.identifies (address kind id) stored hStored
  have hNamed := hIdentified.named
  have hTexts := Object.metadataText_of_decode
    hIdentified.canonical hIdentified.hasMetadata hObject
  have hName : object.metadata.name = id.name :=
    hTexts.1.symm.trans hIdentified.name
  have hSpace :
      object.metadata.namespaceName = id.namespaceName :=
    hTexts.2.1.symm.trans hIdentified.namespaceName
  have hId : ObjectId.ofMeta object.metadata = .ok id := by
    rw [ObjectId.ofMeta, hSpace, hName, if_neg hNamespace]
    exact if_neg hNamed
  have hParse : ObjectId.parse id.text = .ok id :=
    ObjectId.parse_text_eq_ok_iff.2
      ⟨hNamespace, hNamed, hApart.1, hApart.2, rfl⟩
  constructor
  · intro hInSight
    rcases engine.adopt_of_inSight hStore hParse hStored
        hObject hInSight with
      ⟨later, hRun⟩
    exact ⟨_, later, hRun⟩
  · intro adopted later hAdopt before cleared after hDelete
      hFree made
    rcases engine.adopt_atomic kind session id.text adopted
        later hAdopt with
      ⟨other, found, hOther, hGet, rfl⟩
    cases hOther.symm.trans hParse
    rw [hStore] at hGet
    have hFound := eq_of_get hStored hObject hGet
    subst hFound
    have hCleared := (engine.delete_atomic kind _ before).2
      (by rw [hDelete])
    rw [hDelete] at hCleared
    have hConfig : cleared.config = found.flatten :=
      congrArg Tracked.config hCleared
    rcases engine.accepted_of_flatten hStore hFilled hId
        hConfig after hFree with
      ⟨renewed, between, hAccepted, hRenews⟩
    rcases engine.create_of_accepted hStore hAccepted with
      ⟨seen, document, result, final, hNew, _, hOnlyRead, _,
        hRun⟩
    have hMade :
        made =
          ((result, cleared.submitted id seen.flatten),
            final) :=
      hRun
    rcases hOnlyRead.retained _ _ hNew.stored rfl with
      ⟨kept, hKept, hSame, _⟩
    rw [hMade]
    refine ⟨_, renewed, between, kept, hAccepted, hRenews,
      rfl, hKept, ?_⟩
    rw [hSame]
    exact hNew.read

/- A task run with a label, which its controller has placed
   on a pod. -/
def placedSession : Session MemoryStore :=
  ⟨0,
    (emptySession 0).state.afterTimes
      [ ⟨secondDay,
          .create Kind.taskRun.resourceType "ci"
            (Json.obj
              [ ("metadata",
                  .obj
                    [ ("name", .str "build"),
                      ("labels", .obj [("app", .str "web")])
                    ]) ]).canonical⟩,
        ⟨thirdDay,
          .setStatus (address .taskRun ⟨"ci", "build"⟩)
            (Json.obj
              [("podName", .str "build-pod")]).canonical⟩ ]⟩

/- It is adopted, deleted, and created again without its
   status. -/
theorem recreate_renews_placed :
    ∃ stored object adopted later cleared after,
      placedSession.state.IsWritten ∧
        placedSession.state.stored?
            (address .taskRun ⟨"ci", "build"⟩) = some stored ∧
        Object.decode? .taskRun stored.object = some object ∧
        object.Filled ∧
        (memoryEngine.adopt .taskRun "ci/build").run
            placedSession = (.ok adopted, later) ∧
        (memoryEngine.delete .taskRun).run adopted later =
          ((.ok (), cleared), after) ∧
        ∃ wanted renewed between kept,
          memoryEngine.Accepted cleared after wanted
              ⟨"ci", "build"⟩ renewed between ∧
            object.Renews renewed ∧
            ((memoryEngine.create .taskRun).run cleared
                after).2.state.stored?
              (address .taskRun ⟨"ci", "build"⟩) =
                some kept ∧
            Object.decode? .taskRun kept.object =
              some renewed := by
  have hWritten : placedSession.state.IsWritten := by
    refine ⟨⟨1, 1⟩, firstDay, 0, 0, _, ?_, rfl⟩
    simp [MemoryStore.Call.IsCanonical,
      Json.isCanonical_canonical]
  have hShown :
      (placedSession.state.stored?
            (address .taskRun ⟨"ci", "build"⟩)).map
          (fun stored =>
            (stored.hiddenReads, stored.lingeringReads,
              (Object.decode? .taskRun stored.object).map
                fun object =>
                  (Object.validate .taskRun
                    object.flatten).toOption)) =
        some (0, none, some (some ())) := by
    decide +kernel
  rcases Option.map_eq_some_iff.1 hShown with
    ⟨stored, hStored, hParts⟩
  rw [Prod.mk.injEq, Prod.mk.injEq] at hParts
  rcases Option.map_eq_some_iff.1 hParts.2.2 with
    ⟨object, hObject, hValid⟩
  have hFilled : object.Filled :=
    object.validate_flatten.exists_ok_iff.1
      ⟨(), Result.eq_ok_of_toOption hValid⟩
  have hInSight : MemoryStore.InSight 1 stored :=
    ⟨hParts.1, by simp [hParts.2.1]⟩
  have hRecreate := recreate_renews memoryEngine rfl hWritten
    hStored hObject hFilled (by decide) (by decide +kernel)
  rcases hRecreate.1 hInSight with ⟨adopted, later, hAdopt⟩
  have hBuild :
      ObjectId.text ⟨"ci", "build"⟩ = "ci/build" := by
    decide +kernel
  rw [hBuild] at hAdopt hRecreate
  have hGone :
      (match
          (memoryEngine.adopt .taskRun "ci/build").run
            placedSession with
        | (.ok adopted, later) =>
            let done :=
              (memoryEngine.delete .taskRun).run adopted later
            (done.1.1.toOption,
              done.2.state.stored?
                (address .taskRun ⟨"ci", "build"⟩))
        | (.error _, _) => (none, none)) =
        (some (), none) := by
    decide +kernel
  rw [hAdopt, Prod.mk.injEq] at hGone
  rcases hDelete :
      (memoryEngine.delete .taskRun).run adopted later with
    ⟨⟨result, cleared⟩, after⟩
  rw [hDelete] at hGone
  have hOk := Result.eq_ok_of_toOption hGone.1
  simp only at hOk
  subst hOk
  rcases hRecreate.2 adopted later hAdopt later cleared after
      hDelete hGone.2 with
    ⟨wanted, renewed, between, kept, hAccepted, hRenews, _,
      hKept, hRead⟩
  exact ⟨stored, object, adopted, later, cleared, after,
    hWritten, hStored, hObject, hFilled, hAdopt, hDelete,
    wanted, renewed, between, kept, hAccepted, hRenews, hKept,
    hRead⟩

end Engine

end Converge
