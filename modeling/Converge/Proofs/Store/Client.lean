import Converge.Proofs.Result
import Converge.Proofs.Store.Memory
import Converge.Proofs.Time.Timestamp
import Converge.Store.Client

/-
  What a client is answered.

  Every call of a client is one call of the store, and gives
  the object of the answer. An object that a client submits
  to a store in memory is stored with the mutable parts that
  it was submitted with, and is always read back.

  Key definitions:
    * `Client.decoded`: the object of an answer
    * `Object.Conforms`: what a client relies on

  Main declarations:
    * `Client.get_eq`, `Client.update_eq`,
      `Client.create_eq`: calls as functions of a store
    * `Client.run_get`, `Client.run_update`,
      `Client.run_create`: the same for a store in memory
    * `MemoryStore.create_submitted_as`,
      `MemoryStore.create_submitted`: what a submission does
-/

namespace Converge

namespace Calls

variable {σ ε α β : Type}

/- Calls one after the other. -/
theorem run_bind
    (calls : Calls σ ε α)
    (next : α → Calls σ ε β)
    (session : Session σ) :
    (calls >>= next).run session =
      match calls.run session with
      | (.ok value, after) => (next value).run after
      | (.error fault, after) => (.error fault, after) := by
  unfold ExceptT.run
  simp only [bind, ExceptT.bind, ExceptT.mk, StateT.bind,
    ExceptT.bindCont]
  cases calls session with
  | mk result after => cases result <;> rfl

end Calls

namespace Client

variable {kind : Kind}

------------------------------------------------------------
-- Calls
------------------------------------------------------------

/- The object of an answer, or the fault. -/
def decoded
    (kind : Kind)
    (answer : Except StoreError Json) :
    Except StoreError (Object kind) :=
  answer.bind fun value =>
    match Object.decode? kind value with
    | some object => .ok object
    | none =>
        .error
          (.encoding ("not a readable " ++ kind.name))

theorem decoded_eq_ok_iff
    {answer : Except StoreError Json}
    {object : Object kind} :
    decoded kind answer = .ok object ↔
      ∃ value, answer = .ok value ∧
        Object.decode? kind value = some object := by
  cases answer with
  | error fault => simp [decoded, Except.bind]
  | ok value =>
      cases hFound : Object.decode? kind value <;>
        simp [decoded, Except.bind, hFound]

section Calls

variable {σ : Type}

/- A call of a store, and the object of its answer. -/
theorem run_decode
    (kind : Kind)
    (calls : Calls σ StoreError Json)
    (session : Session σ) :
    (calls >>= decode kind).run session =
      (decoded kind (calls.run session).1,
        (calls.run session).2) := by
  rw [Calls.run_bind]
  rcases calls.run session with ⟨fault | value, after⟩
  · rfl
  · simp only [decode, decoded, Except.bind]
    cases Object.decode? kind value <;> rfl

theorem get_eq
    (store : Store σ)
    (kind : Kind)
    (namespaceName name : String)
    (session : Session σ) :
    (get store kind namespaceName name).run session =
      (decoded kind
          ((store.get
            (coordinate kind namespaceName name)).run
              session).1,
        ((store.get
          (coordinate kind namespaceName name)).run
            session).2) :=
  run_decode kind _ session

theorem update_eq
    (store : Store σ)
    (kind : Kind)
    (namespaceName name document : String)
    (session : Session σ) :
    (update store kind namespaceName name document).run
        session =
      (decoded kind
          ((store.patch
            (coordinate kind namespaceName name)
            document).run session).1,
        ((store.patch
          (coordinate kind namespaceName name)
          document).run session).2) :=
  run_decode kind _ session

/- Without a namespace the store is not asked. -/
theorem create_eq
    (store : Store σ)
    (object : Object kind)
    (session : Session σ) :
    (create store object).run session =
      if object.prepareForCreate.metadata.namespaceName = ""
        then
        (.error (.client (kind.name ++ " has no namespace")),
          session)
      else
        (decoded kind
            ((store.create kind.resourceType
              object.prepareForCreate.metadata.namespaceName
              object.prepareForCreate.toJson).run session).1,
          ((store.create kind.resourceType
            object.prepareForCreate.metadata.namespaceName
            object.prepareForCreate.toJson).run
              session).2) := by
  unfold create
  by_cases hEmpty :
      object.prepareForCreate.metadata.namespaceName = ""
  · simp only [hEmpty, if_true]
    rfl
  · simp only [hEmpty, if_false]
    exact run_decode kind _ session

end Calls

/- A read of a store in memory. -/
theorem run_get
    (namespaceName name : String)
    (session : Session MemoryStore) :
    (get MemoryStore.store kind namespaceName name).run
        session =
      (decoded kind
          (session.state.get
            (coordinate kind namespaceName name)).1,
        ⟨session.now,
          (session.state.get
            (coordinate kind namespaceName name)).2⟩) :=
  get_eq MemoryStore.store kind namespaceName name session

/- A patch of a store in memory. -/
theorem run_update
    (namespaceName name document : String)
    (session : Session MemoryStore) :
    (update MemoryStore.store kind namespaceName name
        document).run session =
      (decoded kind
          (session.state.patch
            (coordinate kind namespaceName name)
            document).1,
        ⟨session.now,
          (session.state.patch
            (coordinate kind namespaceName name)
            document).2⟩) :=
  update_eq MemoryStore.store kind namespaceName name document
    session

/- A submission to a store in memory. -/
theorem run_create
    (object : Object kind)
    (session : Session MemoryStore) :
    (create MemoryStore.store object).run session =
      if object.prepareForCreate.metadata.namespaceName = ""
        then
        (.error (.client (kind.name ++ " has no namespace")),
          session)
      else
        (decoded kind
            (session.state.create kind.resourceType
              object.prepareForCreate.metadata.namespaceName
              object.prepareForCreate.toJson).1,
          ⟨session.now,
            (session.state.create kind.resourceType
              object.prepareForCreate.metadata.namespaceName
              object.prepareForCreate.toJson).2⟩) :=
  create_eq MemoryStore.store object session

end Client

------------------------------------------------------------
-- Documents of a Kind
------------------------------------------------------------

/- What a client relies on in a document: it is in canonical
   form, and its mutable parts are those of some object. -/
structure Object.Conforms
    (kind : Kind)
    (document : Json) : Prop where
  canonical : document.IsCanonical
  metadata : document.HasMetadata
  shown : ∃ object : Object kind, object.ShowsMutable document

theorem Object.Conforms.congr
    {kind : Kind}
    {left right : Json}
    (h : Object.Conforms kind left)
    (hCanonical : right.IsCanonical)
    (hMetadata : right.HasMetadata)
    (hRoots :
      ∀ root, root ∈ Diff.mutableRoots →
        right.at? root = left.at? root) :
    Object.Conforms kind right := by
  rcases h.shown with ⟨object, hShown⟩
  exact ⟨hCanonical, hMetadata, object, hShown.congr hRoots⟩

namespace MemoryStore

variable {kind : Kind}

/- The address of an object of a kind. -/
abbrev address (kind : Kind) (id : ObjectId) : Coordinate :=
  Client.coordinate kind id.namespaceName id.name

------------------------------------------------------------
-- Submitted Objects
------------------------------------------------------------

/- What came of a submission that the store accepted. -/
structure Submitted
    (id : ObjectId)
    (object : Object kind)
    (document : Json)
    (before after : MemoryStore) : Prop where
  free : before.stored? (address kind id) = none
  stored :
    after.stored? (address kind id) =
      some ⟨document, before.visibilityDelay, none⟩
  elsewhere :
    ∀ other, other ≠ address kind id →
      after.stored? other = before.stored? other
  nextVersion : after.nextVersion = before.nextVersion + 1
  read : Object.decode? kind document = some object
  identity : ObjectId.ofMeta object.metadata = .ok id
  conforms : Object.Conforms kind document
  shown : object.ShowsMutable document
  name :
    document.at? ["metadata", "name"] = some (.str id.name)
  namespaceName :
    document.at? ["metadata", "namespace"] =
      some (.str id.namespaceName)
  version :
    document.at? ["metadata", "resourceVersion"] =
      some (.str (toString before.nextVersion))

/- A submitted object with what the store assigns. -/
def newTyped
    (object : Object kind)
    (namespaceName name : String)
    (supply : Supply)
    (store : MemoryStore) :
    Object kind :=
  object.withMetadata
    (name, object.metadata.generateName, namespaceName,
      object.metadata.labels, object.metadata.annotations,
      supply.identifier, toString store.nextVersion,
      (1 : Int64), some store.clock,
      object.metadata.deletionTimestamp, ())

/- A new object is read as what was submitted, with what the
   store assigned. -/
theorem decode?_newObject
    (object : Object kind)
    (namespaceName name : String)
    (supply : Supply)
    (store : MemoryStore) :
    Object.decode? kind
        (store.newObject namespaceName name supply
          object.toJson) =
      some
        (store.newTyped object namespaceName name supply) := by
  have hBody := object.isCanonical_toJson
  have hMetadata := object.showsMutable_toJson.1
  have hAfter := isCanonical_newObject hBody hMetadata
    namespaceName name supply store
  have hFields := at?_newObject hMetadata namespaceName name
    supply store
  have hMembers :
      ∀ key, key ≠ "metadata" → key ≠ "spec" →
        (store.newObject namespaceName name supply
            object.toJson).member? key =
          object.toJson.member? key :=
    fun key hKey _ => member?_assign _ hKey hMetadata
  have hSpec :
      (store.newObject namespaceName name supply
          object.toJson).member? "spec" =
        object.toJson.member? "spec" :=
    member?_assign _ (by decide) hMetadata
  rcases hasMetadata_assign
      (store.assignedMembers namespaceName name supply)
      hMetadata with
    ⟨info, hInfo⟩
  rcases hMetadata with ⟨before, hBefore⟩
  have hLookup :
      ∀ key, info.lookup key =
        ((store.assignedMembers namespaceName name
          supply).lookup key).or (before.lookup key) := by
    intro key
    rw [← Json.at?_metadata hInfo, ← Json.at?_metadata hBefore]
    exact hFields key
  have hRead := Object.decodes_metadata hBody hBefore
    object.decode?_toJson
  rcases hRead with
    ⟨_, hGenerate, _, hLabels, hAnnotations, _, _, _, _,
      hDeletion, _⟩
  have hSpecRead :
      (Shape.part kind.spec).decode?
          (object.toJson.member? "spec") =
        some object.spec := by
    have hShown := object.showsMutable_toJson.2.spec
    rw [Json.at?_singleton] at hShown
    exact (Shape.part kind.spec).decode?_of_shows object.spec
      _ kind.isWellFormed_specPart hShown
  rw [← hSpec] at hSpecRead
  have hTime :
      Leaf.decode? .timestamp (some (.str store.clock.text)) =
        some (some store.clock) := by
    simp only [Leaf.decode?, Leaf.decodePresent?,
      Leaf.decodeTimestamp?, Timestamp.read?_text,
      Option.map_some]
    rfl
  refine Object.decode?_of_same_members hBody hAfter hMembers
    object.decode?_toJson hInfo ?_ hSpecRead
  refine ⟨?_, ?_, ?_, ?_, ?_, ?_, ?_, ?_, ?_, ?_, trivial⟩
  · rw [hLookup]
    rfl
  · rw [hLookup]
    exact hGenerate
  · rw [hLookup]
    rfl
  · rw [hLookup]
    exact hLabels
  · rw [hLookup]
    exact hAnnotations
  · rw [hLookup]
    rfl
  · rw [hLookup]
    rfl
  · rw [hLookup]
    rfl
  · rw [hLookup]
    exact hTime
  · rw [hLookup]
    exact hDeletion

/- What was submitted is stored at its address. -/
theorem submitted_placed
    (object : Object kind)
    {namespaceName name : String}
    (hNamespace : namespaceName ≠ "")
    (hName : name ≠ "")
    (supply left : Supply)
    {store : MemoryStore}
    (hFree :
      store.stored? (address kind ⟨namespaceName, name⟩) =
        none) :
    Submitted ⟨namespaceName, name⟩
      (store.newTyped object namespaceName name supply)
      (store.newObject namespaceName name supply
        object.toJson)
      store
      (store.placed (address kind ⟨namespaceName, name⟩)
        (store.newObject namespaceName name supply
          object.toJson)
        left) := by
  have hBody := object.showsMutable_toJson
  have hFields := at?_newObject hBody.1 namespaceName name
    supply store
  have hRead := decode?_newObject object namespaceName name
    supply store
  have hCanonical := isCanonical_newObject
    object.isCanonical_toJson hBody.1 namespaceName name
    supply store
  have hMetadata := hasMetadata_assign
    (store.assignedMembers namespaceName name supply) hBody.1
  have hRoots :
      ∀ root, root ∈ Diff.mutableRoots →
        (store.newObject namespaceName name supply
            object.toJson).at? root =
          object.toJson.at? root := by
    intro root hRoot
    simp only [Diff.mutableRoots, List.mem_cons,
      List.not_mem_nil, or_false] at hRoot
    rcases hRoot with rfl | rfl | rfl
    · rw [hFields]
      rfl
    · rw [hFields]
      rfl
    · rw [Json.at?_singleton, Json.at?_singleton]
      exact member?_assign _ (by decide) hBody.1
  have hStored := hBody.2.congr hRoots
  refine
    { free := hFree
      stored := ?_
      elsewhere := ?_
      nextVersion := rfl
      read := hRead
      identity := ?_
      conforms := ⟨hCanonical, hMetadata, object, hStored⟩
      shown := ⟨hStored.labels, hStored.annotations,
        hStored.spec⟩
      name := ?_
      namespaceName := ?_
      version := ?_ }
  · rw [stored?_placed, if_pos rfl]
  · intro other hOther
    rw [stored?_placed, if_neg hOther]
  · change
      (if namespaceName = "" then _
        else if name = "" then _
        else _) = _
    rw [if_neg hNamespace, if_neg hName]
    rfl
  · rw [hFields]
    rfl
  · rw [hFields]
    rfl
  · rw [hFields]
    rfl

/- A submission is accepted, and what was submitted can be
   read back, or nothing is written. -/
theorem create_submitted_as
    (object : Object kind)
    (session : Session MemoryStore) :
    (∃ fault after,
        (Client.create store object).run session =
          (.error fault, ⟨session.now, after⟩) ∧
        Untouched session.state after) ∨
      ∃ id submitted document after,
        (Client.create store object).run session =
          (.ok submitted, ⟨session.now, after⟩) ∧
        Submitted id submitted document session.state after ∧
        submitted.SameMutable object := by
  rw [Client.run_create]
  split
  · exact Or.inl ⟨_, session.state, rfl, .refl _⟩
  · rename_i hNamespace
    rcases create_cases kind.resourceType
        object.prepareForCreate.metadata.namespaceName
        object.prepareForCreate.toJson session.state with
      ⟨fault, after, hCreate, hUntouched⟩ |
        ⟨name, supply, left, hName, hFree, hCreate⟩
    · rw [hCreate]
      exact Or.inl ⟨fault, after, rfl, hUntouched⟩
    · have hSubmitted := submitted_placed
        object.prepareForCreate hNamespace hName supply left
        hFree
      have hDecoded := Client.decoded_eq_ok_iff.2
        ⟨_, rfl, hSubmitted.read⟩
      right
      refine ⟨_, _, _, _, ?_, hSubmitted, ⟨rfl, rfl, rfl⟩⟩
      rw [hCreate, hDecoded]
      rfl

theorem create_submitted
    (object : Object kind)
    (session : Session MemoryStore) :
    (∃ fault after,
        (Client.create store object).run session =
          (.error fault, ⟨session.now, after⟩) ∧
        Untouched session.state after) ∨
      ∃ id submitted document after,
        (Client.create store object).run session =
          (.ok submitted, ⟨session.now, after⟩) ∧
        Submitted id submitted document session.state
          after := by
  rcases create_submitted_as object session with
    hFailed |
      ⟨id, submitted, document, after, hRun, hSubmitted, _⟩
  · exact Or.inl hFailed
  · exact Or.inr
      ⟨id, submitted, document, after, hRun, hSubmitted⟩

end MemoryStore

end Converge
