import Mathlib.Data.Nat.Digits.Defs
import Converge.Proofs.Store.Countdown
import Converge.Proofs.Store.Noted

/-
  What a client submits, and what it holds afterwards.

  A client sends what it owns of the object that it holds,
  and nothing else, in one request; without a namespace it
  sends nothing. It then holds what the answer is read as, or
  still what it held before. A store in memory answers with
  what it stored, so that the client holds what reads of the
  address give, for as long as nothing is written there.

  Key definitions:
    * `Object.OwnedBy`, `Object.SentAs`: what is sent
    * `Client.Holds`: what is held after an answer
    * `Client.SubmitsOnce`: a submission to any store
    * `MemoryStore.NothingWritten`: histories without writes
    * `Client.Mirrors`: what is held of a store in memory

  Main declarations:
    * `Object.sentAs_toJson`: nothing the store owns is sent
    * `MemoryStore.run_create_of_chosen`,
      `MemoryStore.chosen_of_run_create`: which submissions
      are accepted
    * `MemoryStore.stored?_afterTimes`: what stays stored
    * `Client.submit_exact`
-/

namespace Converge

------------------------------------------------------------
-- Names in Documents
------------------------------------------------------------

/- A text that is read off a member is the text there. -/
theorem Leaf.text_of_decode
    {slot : Option Json}
    {content : String}
    (hRead : Leaf.decode? .text slot = some content) :
    (slot.bind Json.asString?).getD "" = content := by
  cases slot with
  | none => exact Option.some.inj hRead
  | some value =>
      have hText : value.asString? = some content := hRead
      rw [Option.bind_some, hText]
      rfl

namespace Object

variable {kind : Kind}

/- A document names the object that is read off it. -/
theorem metadataText_of_decode
    {document : Json}
    {object : Object kind}
    (hDocument : document.IsCanonical)
    (hMetadata : document.HasMetadata)
    (hObject : decode? kind document = some object) :
    MemoryStore.metadataText "name" document =
        object.metadata.name ∧
      MemoryStore.metadataText "namespace" document =
        object.metadata.namespaceName ∧
      MemoryStore.metadataText "generateName" document =
        object.metadata.generateName := by
  rcases hMetadata with ⟨info, hInfo⟩
  rcases decodes_metadata hDocument hInfo hObject with
    ⟨hName, hStem, hNamespace, _⟩
  unfold MemoryStore.metadataText
  rw [Json.at?_metadata hInfo, Json.at?_metadata hInfo,
    Json.at?_metadata hInfo]
  exact ⟨Leaf.text_of_decode hName,
    Leaf.text_of_decode hNamespace,
    Leaf.text_of_decode hStem⟩

------------------------------------------------------------
-- What Is Sent
------------------------------------------------------------

/- The members of metadata that only the store may assign. -/
def assignedNames : List String :=
  ["uid", "resourceVersion", "generation",
    "creationTimestamp", "deletionTimestamp"]

/- An object is what a client owns of another: it is stated to
   be of its kind, and nothing is left of what the store
   assigns or reports. -/
structure OwnedBy (held owned : Object kind) : Prop where
  apiVersion :
    owned.apiVersion = kind.resourceType.apiVersion
  typeName : owned.typeName = kind.name
  name : owned.metadata.name = held.metadata.name
  generateName :
    owned.metadata.generateName = held.metadata.generateName
  namespaceName :
    owned.metadata.namespaceName =
      held.metadata.namespaceName
  labels : owned.metadata.labels = held.metadata.labels
  annotations :
    owned.metadata.annotations = held.metadata.annotations
  assigned :
    owned.metadata.2.2.2.2.2 =
      ("", "", (0 : Int64), none, none, ())
  spec : owned.spec = held.spec
  status : owned.content.2.2 = kind.observations.zero

/- A body states what a client owns of an object, and has no
   member for anything else. -/
structure SentAs
    (held : Object kind)
    (body : Json) : Prop where
  read :
    ∃ owned, decode? kind body = some owned ∧
      held.OwnedBy owned
  assigned :
    ∀ name, name ∈ assignedNames →
      body.at? ["metadata", name] = none
  status : body.member? "status" = none

/- An object without observations is written without a
   status. -/
theorem member?_status
    {object : Object kind}
    (hZero : object.content.2.2 = kind.observations.zero) :
    object.toJson.member? "status" = none := by
  rcases object with ⟨apiVersion, typeName, info, spec, seen⟩
  cases hZero
  rw [toJson_eq]
  cases kind with
  | task | pipeline =>
      have hLookup := Fields.lookup_canonicalMembers_encode
        (Kind.isWellFormed_declaration _)
        (toRecord ⟨apiVersion, typeName, info, spec, ()⟩)
        "status"
      refine hLookup.trans ?_
      rw [Fields.lookup_encode_eq_none _ _ (by decide)]
      rfl
  | taskRun | pipelineRun =>
      have hWrites := Fields.writes_encode _
        (toRecord ⟨apiVersion, typeName, info, spec, none, ()⟩)
        (Kind.isWellFormed_declaration _)
      rcases hWrites with ⟨_, _, _, _, hStatus, _⟩
      exact hStatus

/- What is prepared for submission is sent as what the client
   owns. -/
theorem sentAs_toJson (held : Object kind) :
    held.SentAs held.prepareForCreate.toJson := by
  have hWrites := kind.declaration.writes_encode
    held.prepareForCreate.toRecord
    kind.isWellFormed_declaration
  rcases hWrites with ⟨_, _, hMetadata, _⟩
  have hInfo :
      held.prepareForCreate.toJson.member? "metadata" =
        some (.obj (Json.canonicalMembers
          (Catalog.metadata.encode
            held.prepareForCreate.metadata))) := by
    rw [toJson_eq]
    exact hMetadata
  have hInside := Catalog.metadata.writes_encode
    held.prepareForCreate.metadata (by decide +kernel)
  rcases hInside with
    ⟨_, _, _, _, _, hUid, hVersion, hGeneration, hCreation,
      hDeletion, _⟩
  refine ⟨⟨_, decode?_toJson _, ?_⟩, ?_, member?_status rfl⟩
  · exact ⟨rfl, rfl, rfl, rfl, rfl, rfl, rfl, rfl, rfl, rfl⟩
  · intro name hName
    rw [Json.at?_metadata hInfo]
    simp only [assignedNames, List.mem_cons, List.not_mem_nil,
      or_false] at hName
    rcases hName with rfl | rfl | rfl | rfl | rfl
    · exact hUid
    · exact hVersion
    · exact hGeneration
    · exact hCreation
    · exact hDeletion

end Object

------------------------------------------------------------
-- What Is Held
------------------------------------------------------------

namespace Client

variable {kind : Kind}

/- What a client answers and holds after the store answered a
   submission: what was stored, if it can be read, and what it
   held before otherwise. -/
inductive Holds (held : Object kind) :
    Except StoreError Json →
      Except StoreError Unit × Object kind → Prop where
  | refused
      (fault : StoreError) :
      Holds held (.error fault) (.error fault, held)
  | unread
      {value : Json}
      (hUnread : Object.decode? kind value = none) :
      Holds held (.ok value)
        (.error
            (.encoding ("not a readable " ++ kind.name)),
          held)
  | stored
      {value : Json}
      {found : Object kind}
      (hRead : Object.decode? kind value = some found) :
      Holds held (.ok value) (.ok (), found)

/- What is held changes with success only. -/
theorem Holds.eq_of_error
    {held after : Object kind}
    {answer : Except StoreError Json}
    {fault : StoreError}
    (hHolds : Holds held answer (.error fault, after)) :
    after = held := by
  cases hHolds with
  | refused | unread => rfl

section Submissions

variable {σ : Type}

/- A submission in place is a submission whose object is held
   from then on. -/
theorem run_submit
    (store : Store σ)
    (held : Object kind)
    (session : Session σ) :
    (submit store).run held session =
      let made := (create store held).run session
      ((made.1.map fun _ => (), made.1.toOption.getD held),
        made.2) := by
  have hStep :
      (submit store).run held session =
        (StateT.lift (create store held).run).bind
          (ExceptT.bindCont fun stored => set stored) held
          session :=
    rfl
  rw [hStep]
  simp only [StateT.bind, StateT.lift, bind]
  rcases (create store held).run session with
    ⟨fault | stored, after⟩ <;>
      rfl

/- What an answer is read as is held. -/
theorem holds_decoded
    (held : Object kind)
    (answer : Except StoreError Json) :
    Holds held answer
      ((decoded kind answer).map fun _ => (),
        (decoded kind answer).toOption.getD held) := by
  cases answer with
  | error fault => exact .refused fault
  | ok value =>
      cases hRead : Object.decode? kind value with
      | none =>
          simp only [decoded, Except.bind, hRead]
          exact .unread hRead
      | some found =>
          simp only [decoded, Except.bind, hRead]
          exact .stored hRead

/-
  A submission of what a client holds to a store. Without a
  namespace the store is asked for nothing. Otherwise it is
  asked once, to create what the client owns of the object,
  and its answer decides on what is held.
-/
structure SubmitsOnce
    (store : Store σ)
    (held : Object kind)
    (session : Session σ)
    (notes : Notes) : Prop where
  unasked :
    held.metadata.namespaceName = "" →
      (submit store.noted).run held
          (session.withNotes notes) =
        ((.error
              (.client (kind.name ++ " has no namespace")),
            held),
          session.withNotes notes)
  sent :
    held.metadata.namespaceName ≠ "" →
      ∃ body made, held.SentAs body ∧
        let asked :=
          (store.create kind.resourceType
            held.metadata.namespaceName body).run session
        Holds held asked.1 made ∧
          (submit store.noted).run held
              (session.withNotes notes) =
            (made,
              asked.2.withNotes
                (notes ++
                  [(session.now,
                    .create kind.resourceType
                      held.metadata.namespaceName body)]))
  failed :
    ∀ fault after later,
      (submit store.noted).run held
            (session.withNotes notes) =
          ((.error fault, after), later) →
        after = held

theorem submitsOnce
    (store : Store σ)
    (held : Object kind)
    (session : Session σ)
    (notes : Notes) :
    SubmitsOnce store held session notes := by
  have hUnasked :
      held.metadata.namespaceName = "" →
        (submit store.noted).run held
            (session.withNotes notes) =
          ((.error
                (.client (kind.name ++ " has no namespace")),
              held),
            session.withNotes notes) := by
    intro hEmpty
    have hPrepared :
        held.prepareForCreate.metadata.namespaceName = "" :=
      hEmpty
    rw [run_submit, create_eq, if_pos hPrepared]
    rfl
  have hSent :
      held.metadata.namespaceName ≠ "" →
        let body := held.prepareForCreate.toJson
        let asked :=
          (store.create kind.resourceType
            held.metadata.namespaceName body).run session
        ∃ made, Holds held asked.1 made ∧
          (submit store.noted).run held
              (session.withNotes notes) =
            (made,
              asked.2.withNotes
                (notes ++
                  [(session.now,
                    .create kind.resourceType
                      held.metadata.namespaceName
                      body)])) := by
    intro hNamespace body asked
    have hPrepared :
        held.prepareForCreate.metadata.namespaceName ≠ "" :=
      hNamespace
    refine ⟨_, holds_decoded held asked.1, ?_⟩
    rw [run_submit, run_create_noted store hPrepared,
      create_eq, if_neg hPrepared]
    rfl
  refine ⟨hUnasked, ?_, ?_⟩
  · intro hNamespace
    rcases hSent hNamespace with ⟨made, hHolds, hRun⟩
    exact ⟨_, made, held.sentAs_toJson, hHolds, hRun⟩
  · intro fault after later hFailed
    by_cases hEmpty : held.metadata.namespaceName = ""
    · cases (hUnasked hEmpty).symm.trans hFailed
      rfl
    · rcases hSent hEmpty with ⟨made, hHolds, hRun⟩
      cases hRun.symm.trans hFailed
      exact hHolds.eq_of_error

end Submissions

end Client

------------------------------------------------------------
-- Names of New Objects
------------------------------------------------------------

/- An ending of a generated name has five digits. -/
theorem Supply.length_ending (supply : Supply) :
    supply.ending.length = 5 := by
  have hLength :
      (Nat.toDigits 16
        (supply.endings % endingCount)).length ≤ 5 :=
    Nat.toDigits_length 16 _ 5 (by decide)
      (Nat.mod_lt _ (by decide))
  simp only [ending, hexadecimal, String.length_ofList,
    List.length_append, List.length_replicate]
  omega

namespace MemoryStore

variable {kind : Kind}

/- The name of an object that has one is kept. -/
theorem chooseName_toJson
    (object : Object kind)
    (hName : object.metadata.name ≠ "")
    (supply : Supply) :
    chooseName object.toJson supply =
      (.ok object.metadata.name, supply) := by
  have hText := (Object.metadataText_of_decode
    object.isCanonical_toJson object.showsMutable_toJson.1
    object.decode?_toJson).1
  unfold chooseName
  simp only
  rw [hText, if_pos hName]

/- An object without a name gets one with its stem. -/
theorem eq_of_chooseName_toJson
    {object : Object kind}
    (hNameless : object.metadata.name = "")
    {supply left : Supply}
    {name : String}
    (hName :
      chooseName object.toJson supply = (.ok name, left)) :
    name = object.metadata.generateName ++ supply.ending := by
  rcases Object.metadataText_of_decode
    object.isCanonical_toJson object.showsMutable_toJson.1
    object.decode?_toJson with
    ⟨hText, _, hStem⟩
  unfold chooseName at hName
  simp only [hText, hStem, hNameless, ne_eq, not_true_eq_false,
    if_false] at hName
  split at hName
  · cases hName
  · cases hName
    rfl

------------------------------------------------------------
-- Accepted Submissions
------------------------------------------------------------

/- Where the address with the chosen name is free, a
   submission is accepted. -/
theorem run_create_of_chosen
    (object : Object kind)
    (hNamespace : object.metadata.namespaceName ≠ "")
    {session : Session MemoryStore}
    {name : String}
    {supply : Supply}
    (hName :
      chooseName object.prepareForCreate.toJson
          session.state.supply =
        (.ok name, supply))
    (hFree :
      session.state.stored?
          (address kind
            ⟨object.metadata.namespaceName, name⟩) =
        none) :
    ∃ document after,
      (Client.create store object).run session =
          (.ok
              (session.state.newTyped object.prepareForCreate
                object.metadata.namespaceName name supply),
            ⟨session.now, after⟩) ∧
        Submitted ⟨object.metadata.namespaceName, name⟩
          (session.state.newTyped object.prepareForCreate
            object.metadata.namespaceName name supply)
          document session.state after := by
  have hSame :
      object.prepareForCreate.metadata.namespaceName =
        object.metadata.namespaceName :=
    rfl
  have hBody :
      object.prepareForCreate.toJson.isObject = true :=
    rfl
  have hAddress :
      session.state.stored?
          ⟨kind.resourceType, object.metadata.namespaceName,
            name⟩ =
        none :=
    hFree
  rcases create_of_free hBody hName hAddress with
    ⟨left, hCreate⟩
  have hSubmitted := submitted_placed object.prepareForCreate
    hNamespace (chooseName_ne_empty hName) supply left hFree
  have hDecoded := Client.decoded_eq_ok_iff.2
    ⟨_, rfl, hSubmitted.read⟩
  refine ⟨_, _, ?_, hSubmitted⟩
  rw [Client.run_create, hSame, if_neg hNamespace, hCreate,
    hDecoded]
  rfl

/- No other submission is. -/
theorem chosen_of_run_create
    {object found : Object kind}
    {session after : Session MemoryStore}
    (hRun :
      (Client.create store object).run session =
        (.ok found, after)) :
    object.metadata.namespaceName ≠ "" ∧
      ∃ name supply,
        chooseName object.prepareForCreate.toJson
            session.state.supply =
          (.ok name, supply) ∧
        session.state.stored?
            (address kind
              ⟨object.metadata.namespaceName, name⟩) =
          none := by
  rw [Client.run_create] at hRun
  split at hRun
  · cases hRun
  · rename_i hNamespace
    refine ⟨hNamespace, ?_⟩
    have hDecoded := congrArg Prod.fst hRun
    rcases Client.decoded_eq_ok_iff.1 hDecoded with
      ⟨value, hValue, _⟩
    have hEffect := effect_create session.state
      kind.resourceType
      object.prepareForCreate.metadata.namespaceName
      object.prepareForCreate.toJson
    rw [hValue] at hEffect
    generalize
      (session.state.create kind.resourceType
        object.prepareForCreate.metadata.namespaceName
        object.prepareForCreate.toJson).2 = later at hEffect
    cases hEffect with
    | created hName hFree => exact ⟨_, _, hName, hFree⟩

------------------------------------------------------------
-- Histories without Writes
------------------------------------------------------------

/- Whether a call asks to change or to delete what is at an
   address. -/
def Call.writes (coordinate : Coordinate) : Call → Bool
  | .patch other _ => other = coordinate
  | .delete other => other = coordinate
  | .setStatus other _ => other = coordinate
  | _ => false

/- No call of a history changes or deletes what is at an
   address; it may be asked to in vain. -/
def NothingWritten
    (coordinate : Coordinate) :
    List TimedCall → MemoryStore → Prop
  | [], _ => True
  | timed :: rest, store =>
      (timed.call.writes coordinate = true →
          ∃ fault,
            ((store.atTime timed.clock).respond
              timed.call).1 = .error fault) ∧
        NothingWritten coordinate rest
          (store.afterTimed timed)

section Histories

variable {coordinate : Coordinate}
variable {store : MemoryStore}
variable {object : Json}

/- A call that neither reads nor writes leaves what is at an
   address. -/
theorem stored?_after_of_unwritten
    {stored : StoredObject}
    {call : Call}
    (hStored : store.stored? coordinate = some stored)
    (hRead : call ≠ .get coordinate)
    (hUnwritten :
      call.writes coordinate = true →
        ∃ fault, (store.respond call).1 = .error fault) :
    (store.after call).stored? coordinate = some stored := by
  have hTurn := (effect_respond store call).turn hStored hRead
  generalize (store.respond call).1 = answer
    at hTurn hUnwritten
  generalize (store.after call).stored? coordinate = later
    at hTurn ⊢
  cases hTurn with
  | kept => rfl
  | patched | statusSet | removed | marked =>
      rcases hUnwritten (decide_eq_true rfl) with ⟨fault, hNo⟩
      cases hNo

/- A history that writes nothing leaves the object, and counts
   down the reads that do not find it. The induction is on the
   history. -/
theorem stored?_afterTimes
    (calls : List TimedCall)
    {hidden : Nat}
    (hUnwritten : NothingWritten coordinate calls store)
    (hStored :
      store.stored? coordinate = some ⟨object, hidden, none⟩) :
    (store.afterTimes calls).stored? coordinate =
      some
        ⟨object, hidden - readsIn coordinate calls, none⟩ := by
  induction calls generalizing store hidden with
  | nil => exact hStored
  | cons timed rest ih =>
      rcases hUnwritten with ⟨hFirst, hRest⟩
      have hNow :
          (store.atTime timed.clock).stored? coordinate =
            some ⟨object, hidden, none⟩ := hStored
      by_cases hGet : timed.call = .get coordinate
      · have hAfter := afterTimed_get hGet store
        rw [readsIn_cons_get hGet]
        cases hidden with
        | zero =>
            have hStep := stored?_get_visible hNow
            rw [← hAfter] at hStep
            have hEnd := ih hRest hStep
            rw [Nat.zero_sub] at hEnd ⊢
            exact hEnd
        | succ hidden =>
            have hStep := stored?_get_hidden hNow
            rw [← hAfter] at hStep
            rw [Nat.add_sub_add_right]
            exact ih hRest hStep
      · rw [readsIn_cons_of_ne hGet]
        exact ih hRest
          (stored?_after_of_unwritten hNow hGet hFirst)

end Histories

end MemoryStore

------------------------------------------------------------
-- Objects Held of a Store in Memory
------------------------------------------------------------

namespace Client

open MemoryStore (NothingWritten readsIn)

variable {kind : Kind}

/-
  An object that is held after a submission to a store in
  memory. It has all that was asked for, and its own name or
  a generated one. It is what is read at its address as long
  as nothing is written there, once it is in sight.
-/
structure Mirrors
    (held found : Object kind)
    (delay : Nat)
    (after : MemoryStore) : Prop where
  generateName :
    found.metadata.generateName = held.metadata.generateName
  namespaceName :
    found.metadata.namespaceName =
      held.metadata.namespaceName
  labels : found.metadata.labels = held.metadata.labels
  annotations :
    found.metadata.annotations = held.metadata.annotations
  spec : found.spec = held.spec
  named :
    held.metadata.name ≠ "" →
      found.metadata.name = held.metadata.name
  generated :
    held.metadata.name = "" →
      ∃ ending : String, ending.length = 5 ∧
        found.metadata.name =
          held.metadata.generateName ++ ending
  read :
    let address :=
      coordinate kind found.metadata.namespaceName
        found.metadata.name
    ∀ calls moment, NothingWritten address calls after →
      ((get MemoryStore.store kind
          found.metadata.namespaceName
          found.metadata.name).run
            ⟨moment, after.afterTimes calls⟩).1 =
        if readsIn address calls < delay then
          .error (.missing address)
        else .ok found

theorem mirrors_of_submitted
    (object : Object kind)
    {name : String}
    {supply : Supply}
    {document : Json}
    {before after : MemoryStore}
    (hName :
      MemoryStore.chooseName object.prepareForCreate.toJson
          before.supply =
        (.ok name, supply))
    (hSubmitted :
      MemoryStore.Submitted
        ⟨object.metadata.namespaceName, name⟩
        (before.newTyped object.prepareForCreate
          object.metadata.namespaceName name supply)
        document before after) :
    Mirrors object
      (before.newTyped object.prepareForCreate
        object.metadata.namespaceName name supply)
      before.visibilityDelay after := by
  refine ⟨rfl, rfl, rfl, rfl, rfl, ?_, ?_, ?_⟩
  · intro hNamed
    have hChosen := MemoryStore.chooseName_toJson
      object.prepareForCreate hNamed before.supply
    cases hChosen.symm.trans hName
    rfl
  · intro hNameless
    have hPrepared :
        object.prepareForCreate.metadata.name = "" :=
      hNameless
    exact ⟨_, before.supply.length_ending,
      MemoryStore.eq_of_chooseName_toJson hPrepared hName⟩
  · intro address calls moment hUnwritten
    have hStored := MemoryStore.stored?_afterTimes calls
      hUnwritten hSubmitted.stored
    have hDecoded := decoded_eq_ok_iff.2
      ⟨document, rfl, hSubmitted.read⟩
    rw [run_get]
    change decoded kind (MemoryStore.get address _).1 = _
    split
    · rename_i hReads
      obtain ⟨left, hLeft⟩ := Nat.exists_eq_add_of_lt hReads
      have hHidden :
          before.visibilityDelay - readsIn address calls =
            left + 1 := by
        omega
      rw [MemoryStore.get_of_hidden hStored hHidden]
      rfl
    · rename_i hReads
      have hVisible :
          before.visibilityDelay - readsIn address calls =
            0 :=
        Nat.sub_eq_zero_of_le (Nat.not_lt.1 hReads)
      rw [MemoryStore.get_of_visible hStored hVisible rfl]
      exact hDecoded

/-
  Whatever object a client holds. Any store is asked at most
  once for it, with nothing but what the client owns of the
  object, and after a fault the object is held as it was. A
  store in memory accepts it exactly where it has a namespace
  and the name that is chosen for it is free; what is held
  then mirrors what is stored.
-/
theorem submit_exact (held : Object kind) :
    (∀ {σ : Type} (store : Store σ) session notes,
        SubmitsOnce store held session notes) ∧
      ∀ session : Session MemoryStore,
        ((∃ found after,
            (submit MemoryStore.store).run held session =
              ((.ok (), found), after)) ↔
          held.metadata.namespaceName ≠ "" ∧
            ∃ name supply,
              MemoryStore.chooseName
                  held.prepareForCreate.toJson
                  session.state.supply =
                (.ok name, supply) ∧
              session.state.stored?
                  (coordinate kind
                    held.metadata.namespaceName name) =
                none) ∧
          ∀ found after,
            (submit MemoryStore.store).run held session =
                ((.ok (), found), after) →
              Mirrors held found session.state.visibilityDelay
                after.state := by
  have hAccepted :
      ∀ {session : Session MemoryStore} {found after},
        (submit MemoryStore.store).run held session =
            ((.ok (), found), after) →
          (create MemoryStore.store held).run session =
            (.ok found, after) := by
    intro session found after hRun
    rw [run_submit] at hRun
    rcases hMade :
        (create MemoryStore.store held).run session with
      ⟨fault | stored, later⟩
    · rw [hMade] at hRun
      cases hRun
    · rw [hMade] at hRun
      cases hRun
      rfl
  refine ⟨fun store => submitsOnce store held, ?_⟩
  intro session
  refine ⟨⟨?_, ?_⟩, ?_⟩
  · rintro ⟨found, after, hRun⟩
    exact MemoryStore.chosen_of_run_create (hAccepted hRun)
  · rintro ⟨hNamespace, name, supply, hName, hFree⟩
    rcases MemoryStore.run_create_of_chosen held hNamespace
        hName hFree with
      ⟨document, after, hRun, _⟩
    rw [run_submit, hRun]
    exact ⟨_, _, rfl⟩
  · intro found after hRun
    have hCreate := hAccepted hRun
    rcases MemoryStore.chosen_of_run_create hCreate with
      ⟨hNamespace, name, supply, hName, hFree⟩
    rcases MemoryStore.run_create_of_chosen held hNamespace
        hName hFree with
      ⟨document, later, hMade, hSubmitted⟩
    cases hMade.symm.trans hCreate
    exact mirrors_of_submitted held hName hSubmitted

end Client

end Converge
