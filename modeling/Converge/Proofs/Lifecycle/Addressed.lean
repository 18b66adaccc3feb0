import Converge.Proofs.Lifecycle.Convergence
import Converge.Proofs.Lifecycle.Requests
import Converge.Proofs.Lifecycle.Run

/-
  Whether a created object can be addressed.

  A creation tracks the object under its written identity,
  and every other operation reads that identity back. It is
  read back as the object's own, and leads to its address,
  unless a part of it holds the separator. A store accepts
  such an object all the same; then no operation gets as far
  as the store.

  Key definitions:
    * `Engine.Reaches`: operations go to one address
    * `Engine.IsLost`: operations go nowhere

  Main declarations:
    * `Engine.create_addressed_iff`
-/

namespace Converge

/- An identity of metadata has both its parts. -/
theorem ObjectId.nonempty_of_ofMeta
    {info : ObjectMeta}
    {id : ObjectId}
    (hId : ObjectId.ofMeta info = .ok id) :
    id.namespaceName ≠ "" ∧ id.name ≠ "" := by
  unfold ObjectId.ofMeta at hId
  split at hId
  · cases hId
  · rename_i hNamespace
    split at hId
    · cases hId
    · rename_i hName
      cases hId
      exact ⟨hNamespace, hName⟩

/- They are the two parts of the metadata. -/
theorem ObjectId.eq_of_ofMeta
    {info : ObjectMeta}
    {id : ObjectId}
    (hId : ObjectId.ofMeta info = .ok id) :
    id = ⟨info.namespaceName, info.name⟩ := by
  unfold ObjectId.ofMeta at hId
  split at hId
  · cases hId
  · split at hId
    · cases hId
    · exact (Except.ok.inj hId).symm

namespace Engine

open MemoryStore (Untouched Submitted address)
open ObjectId (separator)

variable {σ : Type} {kind : Kind}

------------------------------------------------------------
-- Operations by Identity
------------------------------------------------------------

/- All that operations on a tracked object ask for is at one
   address. -/
structure Reaches
    (engine : Engine σ)
    (kind : Kind)
    (tracked : Tracked)
    (id : ObjectId) : Prop where
  read :
    Follows (Reads kind id)
      ((engine.noted.read kind).run tracked)
      ((engine.read kind).run tracked)
  update :
    Follows (AsksAbout kind id)
      ((engine.noted.update kind).run tracked)
      ((engine.update kind).run tracked)
  delete :
    Follows (AsksAbout kind id)
      ((engine.noted.delete kind).run tracked)
      ((engine.delete kind).run tracked)
  probe :
    Follows (Reads kind id)
      (engine.noted.probe kind tracked).run
      (engine.probe kind tracked).run

/- Operations on a tracked object end with a fault of its
   identity, before the store is asked. -/
structure IsLost
    (engine : Engine σ)
    (kind : Kind)
    (tracked : Tracked)
    (fault : ObjectError) : Prop where
  read :
    ∀ session,
      (engine.read kind).run tracked session =
        ((.error (.identity fault), tracked), session)
  update :
    ∀ session,
      (engine.update kind).run tracked session =
        ((.error (.identity fault), tracked), session)
  delete :
    ∀ session,
      (engine.delete kind).run tracked session =
        ((.error (.identity fault), tracked), session)
  probe :
    ∀ session,
      (engine.probe kind tracked).run session =
        ((false, some (.identity fault)), session)

theorem reaches_of_objectId
    (engine : Engine σ)
    (kind : Kind)
    {tracked : Tracked}
    {id : ObjectId}
    (hId : tracked.objectId = .ok id) :
    engine.Reaches kind tracked id :=
  ⟨engine.follows_readAs kind .read hId,
    engine.follows_update kind hId,
    engine.follows_delete kind hId,
    engine.follows_probe kind hId⟩

theorem isLost_of_objectId
    (engine : Engine σ)
    (kind : Kind)
    {tracked : Tracked}
    {fault : ObjectError}
    (hId : tracked.objectId = .error fault) :
    engine.IsLost kind tracked fault := by
  constructor
  · intro session
    unfold read
    rw [readAs_eq, hId]
  · intro session
    rw [update_eq, hId]
  · intro session
    rw [delete_eq, hId]
  · intro session
    rw [probe_eq, hId]

------------------------------------------------------------
-- Created Objects
------------------------------------------------------------

/-
  A creation writes nothing and tracks nothing new, or the
  store keeps an object, and its identity is tracked. That
  identity is read back, and leads to the object, exactly
  when the separator is in neither part; otherwise it is
  never read as an identity, and no operation gets as far as
  the store.
-/
theorem create_addressed_iff
    (engine : Engine MemoryStore)
    (hStore : engine.store = MemoryStore.store)
    (kind : Kind)
    (tracked : Tracked)
    (session : Session MemoryStore) :
    let made := (engine.create kind).run tracked session
    (made.1.2 = tracked ∧
        Untouched session.state made.2.state) ∨
      ∃ id, ∃ submitted : Object kind,
        ∃ document between stored,
          Submitted id submitted document session.state
              between ∧
            made.2.state.stored? (address kind id) =
              some stored ∧
            stored.object = document ∧
            made.1.2.id = id.text ∧
            (made.1.2.objectId = .ok id ↔
              separator ∉ id.namespaceName.toList ∧
                separator ∉ id.name.toList) ∧
            (made.1.2.objectId = .ok id →
              engine.Reaches kind made.1.2 id) ∧
            (made.1.2.objectId ≠ .ok id →
              ∃ fault, made.1.2.objectId = .error fault ∧
                engine.IsLost kind made.1.2 fault) := by
  intro made
  rcases engine.create_cases hStore kind tracked session with
    ⟨fault, later, hRun, hUntouched⟩ |
      ⟨id, submitted, seen, document, between, result, later,
        hNew, hOnlyRead, _, hRun⟩
  · have hMade : made = ((.error fault, tracked), later) :=
      hRun
    rw [hMade]
    exact Or.inl ⟨rfl, hUntouched⟩
  · have hMade :
        made =
          ((result, tracked.submitted id seen.flatten),
            later) :=
      hRun
    rw [hMade]
    right
    rcases hOnlyRead.retained _ _ hNew.stored rfl with
      ⟨stored, hStored, hDocument, _⟩
    have hNonempty :=
      ObjectId.nonempty_of_ofMeta hNew.identity
    have hReadBack :
        ∀ other,
          (tracked.submitted id seen.flatten).objectId =
              .ok other ↔
            separator ∉ id.namespaceName.toList ∧
              separator ∉ id.name.toList ∧ other = id := by
      intro other
      have hParse :
          ObjectId.parse id.text = .ok other ↔ _ :=
        ObjectId.parse_text_eq_ok_iff
      simp only [hNonempty, ne_eq, not_false_eq_true,
        true_and] at hParse
      exact hParse
    refine ⟨id, submitted, document, between, stored, hNew,
      hStored, hDocument, rfl, ?_, ?_, ?_⟩
    · rw [hReadBack]
      simp only [and_true]
    · exact engine.reaches_of_objectId kind
    · intro hOther
      cases hId :
          (tracked.submitted id seen.flatten).objectId with
      | error fault =>
          exact ⟨fault, rfl,
            engine.isLost_of_objectId kind hId⟩
      | ok other =>
          rw [((hReadBack other).1 hId).2.2] at hId
          exact absurd hId hOther

/- A configuration of a task with a separator in its name. -/
def splitConfig : ConfigMap :=
  [ ("metadata",
      .map
        [ ("name", .str "a/b"),
          ("namespace", .str "ci") ]),
    ("spec", .map []) ]

/- It is created well, and cannot be addressed any more. -/
theorem create_addressed_iff_split :
    ∃ fault,
      let made :=
        (memoryEngine.create .task).run
          (.ofConfig splitConfig) (emptySession 0)
      made.1.1.toOption = some () ∧
        made.1.2.id = "ci/a/b" ∧
        (made.2.state.stored?
            (address .task ⟨"ci", "a/b"⟩)).isSome = true ∧
        memoryEngine.IsLost .task made.1.2 fault := by
  have hMade :
      let made :=
        (memoryEngine.create .task).run
          (.ofConfig splitConfig) (emptySession 0)
      made.1.1.toOption = some () ∧
        made.1.2.id = "ci/a/b" ∧
        (made.2.state.stored?
            (address .task ⟨"ci", "a/b"⟩)).isSome = true ∧
        made.1.2.objectId.toOption = none := by
    decide +kernel
  rcases hMade with ⟨hOk, hId, hStored, hUnread⟩
  rcases memoryEngine.create_addressed_iff rfl .task
      (.ofConfig splitConfig) (emptySession 0) with
    ⟨hSame, _⟩ | ⟨id, _, _, _, _, _, _, _, _, _, _, hLost⟩
  · rw [hSame] at hId
    exact absurd hId (by decide)
  · have hOther :
        ((memoryEngine.create .task).run
          (.ofConfig splitConfig)
          (emptySession 0)).1.2.objectId ≠ .ok id := by
      intro hRead
      rw [hRead] at hUnread
      cases hUnread
    rcases hLost hOther with ⟨fault, _, hLost⟩
    exact ⟨fault, hOk, hId, hStored, hLost⟩

end Engine

end Converge
