import Converge.Proofs.Lifecycle.Work
import Converge.Proofs.Store.Managed
import Converge.Proofs.Store.Submission

/-
  Updates converge.

  An update of a managed object whose snapshot is up to date
  always succeeds. Afterwards the object has the labels, the
  annotations and the specification of its configuration, and
  nothing else of it has changed but what the store counts
  on.

  Key definitions:
    * `Engine.Converged`: what an update leaves behind

  Main declarations:
    * `Engine.update_converges`
-/

namespace Converge

namespace Engine

open MemoryStore (Managed Kept address)

variable {kind : Kind}

/- Members of the metadata that an update may change. -/
def updatedFields : List String :=
  ["labels", "annotations", "generation", "resourceVersion"]

/-
  What an update leaves behind where `found` was stored: a
  document that is read as `reached`, with the mutable parts
  of `wanted`. The generation counts changes of the
  specification, and the version is the given one if
  something was sent at all.
-/
structure Converged
    (wanted found reached : Object kind)
    (version : String)
    (before after : Json) : Prop where
  read : Object.decode? kind after = some reached
  reaches : reached.SameMutable wanted
  members :
    ∀ key, key ≠ "metadata" → key ≠ "spec" →
      after.member? key = before.member? key
  metadata :
    ∀ key, key ∉ updatedFields →
      after.at? ["metadata", key] =
        before.at? ["metadata", key]
  generation :
    reached.metadata.generation =
      if reached.spec = found.spec then
        found.metadata.generation
      else found.metadata.generation + 1
  idle : wanted.diff found = [] → after = before
  version :
    wanted.diff found ≠ [] →
      reached.metadata.resourceVersion = version

/- The version that the store assigns next was never that of
   a managed object. -/
theorem version_ne_next
    {id : ObjectId}
    {nextVersion : Nat}
    {document : Json}
    {found : Object kind}
    (hKept : Kept kind id nextVersion document)
    (hFound : Object.decode? kind document = some found) :
    found.metadata.resourceVersion ≠ toString nextVersion := by
  rcases hKept.version with ⟨number, hNumber, hVersion⟩
  rcases hKept.conforms.metadata with ⟨info, hInfo⟩
  rw [Json.at?_metadata hInfo] at hVersion
  have hRead := Object.decodes_metadata
    hKept.conforms.canonical hInfo hFound
  rcases hRead with ⟨_, _, _, _, _, _, hText, _⟩
  rw [hVersion] at hText
  have hSame :
      toString number = found.metadata.resourceVersion :=
    Option.some.inj hText
  intro hNext
  have hEq := Text.toString_injective (hSame.trans hNext)
  omega

/- An empty document leaves an object that is as wanted. -/
theorem converged_of_idle
    {wanted found : Object kind}
    {document made : Json}
    (version : String)
    (hDocument : document.IsCanonical)
    (hMetadata : document.HasMetadata)
    (hFound : Object.decode? kind document = some found)
    (hEmpty : wanted.diff found = [])
    (hApply :
      Patch.apply
          ((Diff.edits wanted.toJson found.toJson).map
            Edit.instruction)
          document = .ok made)
    (hWanted : wanted.ShowsMutable made) :
    Converged wanted found found version document
      document := by
  have hSame :=
    Object.eq_of_apply_of_diff_eq_nil hEmpty hApply
  subst hSame
  exact
    { read := hFound
      reaches := Object.sameMutable_of_decode hDocument
        hMetadata hFound hWanted
      members := fun _ _ _ => rfl
      metadata := fun _ _ => rfl
      generation := (if_pos rfl).symm
      idle := fun _ => rfl
      version := fun hSome => absurd hEmpty hSome }

/- What a document that is sent leads to. -/
theorem converged_of_patch
    {wanted found : Object kind}
    {document made : Json}
    (store : MemoryStore)
    (hDocument : document.IsCanonical)
    (hMetadata : document.HasMetadata)
    (hFound : Object.decode? kind document = some found)
    (hShown : found.ShowsMutable document)
    (hSome : wanted.diff found ≠ [])
    (hApply :
      Patch.apply
          ((Diff.edits wanted.toJson found.toJson).map
            Edit.instruction)
          document = .ok made)
    (hWanted : wanted.ShowsMutable made) :
    ∃ reached,
      Converged wanted found reached
        (toString store.nextVersion) document
        (store.revised document made) := by
  rcases (Diff.apply_edits_iff wanted.isCanonical_toJson
      hDocument hMetadata).1 hApply with
    ⟨hMade, hMadeMetadata, hElsewhere, _⟩
  have hRead := Object.decode?_of_sameElsewhere hDocument
    hMade hMetadata hMadeMetadata hElsewhere hFound hWanted
  have hRevised := MemoryStore.decode?_revised document hMade
    hMadeMetadata hRead store
  have hSame := MemoryStore.sameButMetadata_revised document
    hMadeMetadata store
  -- the store compares specifications as values, and these
  -- are the same exactly when the objects' are
  have hSpec :
      made.member? "spec" = document.member? "spec" ↔
        wanted.spec = found.spec := by
    have hMember :
        made.member? "spec" = document.member? "spec" ↔
          made.at? ["spec"] = document.at? ["spec"] := by
      rw [Json.at?_singleton, Json.at?_singleton]
    rw [hMember]
    constructor
    · intro hEq
      have hBoth := hWanted.spec
      rw [hEq] at hBoth
      exact Option.some.inj
        (((Shape.part kind.spec).decode?_of_shows wanted.spec
            _ kind.isWellFormed_specPart hBoth).symm.trans
          ((Shape.part kind.spec).decode?_of_shows found.spec
            _ kind.isWellFormed_specPart hShown.spec))
    · intro hEq
      exact Object.at?_spec_of_apply hDocument hMetadata hEq
        hApply
  refine ⟨_,
    { read := hRevised
      reaches := ⟨rfl, rfl, rfl⟩
      members := ?_
      metadata := ?_
      generation := ?_
      idle := fun hEmpty => absurd hEmpty hSome
      version := fun _ => rfl }⟩
  · intro key hNotMetadata hNotSpec
    rw [hSame.members key hNotMetadata]
    exact hElsewhere.members key hNotMetadata hNotSpec
  · intro key hKey
    simp only [updatedFields, List.mem_cons, List.not_mem_nil,
      or_false, not_or] at hKey
    have hNotCounted :
        key ∉ MemoryStore.countedFields := by
      simp [MemoryStore.countedFields, hKey]
    rw [hSame.metadata key hNotCounted]
    exact hElsewhere.metadata key hKey.1 hKey.2.1
  · by_cases hEq : wanted.spec = found.spec
    · have hKeptSpec := hSpec.2 hEq
      simp only [hKeptSpec, if_true]
      exact (if_pos hEq).symm
    · have hNewSpec := mt hSpec.1 hEq
      simp only [hNewSpec, if_false]
      exact (if_neg hEq).symm

/-
  An update of a managed object in sight, whose snapshot is
  what is stored, succeeds for every configuration that is
  accepted. It leaves the object as wanted, and the snapshot
  as the object is then.
-/
theorem update_converges
    (engine : Engine MemoryStore)
    (hStore : engine.store = MemoryStore.store)
    {id : ObjectId}
    {tracked : Tracked}
    {session : Session MemoryStore}
    {stored : StoredObject}
    {found wanted : Object kind}
    (hManaged : Managed kind id session.state)
    (hStored :
      session.state.stored? (address kind id) = some stored)
    (hHidden : stored.hiddenReads = 0)
    (hLasting : stored.lingeringReads = none)
    (hFound :
      Object.decode? kind stored.object = some found)
    (hFilled : found.Filled)
    (hId : tracked.objectId = .ok id)
    (hState : tracked.state = some found.flatten)
    (hValid : Object.validate kind tracked.config = .ok ())
    (hWanted :
      Object.expand kind tracked.config = .ok wanted) :
    ∃ document reached after,
      (engine.update kind).run tracked session =
          ((.ok (), tracked.observed reached.flatten),
            ⟨session.now, after⟩) ∧
        after.stored? (address kind id) =
          some { stored with object := document } ∧
        (∀ other, other ≠ address kind id →
          after.stored? other =
            session.state.stored? other) ∧
        Converged wanted found reached
          (toString session.state.nextVersion) stored.object
          document ∧
        found.metadata.resourceVersion ≠
          toString session.state.nextVersion := by
  have hKept := hManaged.kept hStored
  rcases hKept.conforms with ⟨hDocument, hMetadata, shown, hShows⟩
  have hShown : found.ShowsMutable stored.object :=
    (Object.sameMutable_of_decode hDocument hMetadata hFound
      hShows).shows hShows
  have hFresh := version_ne_next hKept hFound
  have hPrepared :
      Prepared tracked id wanted found.settled := by
    refine ⟨hId, hValid, hWanted, ?_⟩
    rw [hState]
    exact found.expand_flatten.ok hFilled
  have hRun := engine.run_update hStore hPrepared session
  have hDiff := wanted.diff_congr found.sameMutable_settled
  rw [hDiff] at hRun
  rcases wanted.exists_apply_edits hDocument hMetadata
      hShown with
    ⟨made, hApply, hReaches⟩
  by_cases hEmpty : wanted.diff found = []
  · have hRead := MemoryStore.get_of_visible hStored hHidden
      hLasting
    rw [if_pos hEmpty, engine.run_readAs hStore kind .update
      hId, hRead,
      Client.decoded_eq_ok_iff.2 ⟨_, rfl, hFound⟩] at hRun
    exact ⟨stored.object, found, session.state, hRun, hStored,
      fun _ _ => rfl,
      converged_of_idle _ hDocument hMetadata hFound hEmpty
        hApply hReaches,
      hFresh⟩
  · rcases (Diff.apply_edits_iff wanted.isCanonical_toJson
        hDocument hMetadata).1 hApply with
      ⟨_, _, hElsewhere, _⟩
    have hName :=
      (hElsewhere.metadata "name" (by decide)
        (by decide)).trans hKept.name
    have hNamespace :=
      (hElsewhere.metadata "namespace" (by decide)
        (by decide)).trans hKept.namespaceName
    have hSent := MemoryStore.update_of_apply wanted found
      hStored hApply (MemoryStore.metadataText_eq hName)
      (MemoryStore.metadataText_eq hNamespace)
    rcases converged_of_patch session.state hDocument
        hMetadata hFound hShown hEmpty hApply hReaches with
      ⟨reached, hConverged⟩
    have hLater :
        (session.state.accept (address kind id) stored
            (session.state.revised stored.object
              made)).stored? (address kind id) =
          some { stored with
            object :=
              session.state.revised stored.object made } := by
      rw [MemoryStore.stored?_accept, if_pos rfl]
    have hRead := MemoryStore.get_of_visible hLater hHidden
      hLasting
    have hReached := Client.decoded_eq_ok_iff.2
      ⟨_, rfl, hConverged.read⟩
    rw [if_neg hEmpty, hSent, hReached] at hRun
    simp only at hRun
    rw [engine.run_readAs hStore kind .update hId, hRead,
      hReached] at hRun
    refine ⟨_, reached, _, hRun, hLater, ?_, hConverged,
      hFresh⟩
    intro other hOther
    rw [MemoryStore.stored?_accept, if_neg hOther]

------------------------------------------------------------
-- A Described Task
------------------------------------------------------------

/- A configuration that names a task and describes it. -/
def describedConfig (description : String) : ConfigMap :=
  [ ("metadata",
      .map
        [ ("name", .str "build"),
          ("namespace", .str "ci") ]),
    ("spec", .map [("description", .str description)]) ]

/- The task of that configuration. -/
def describedTask (description : String) : Object .task :=
  ⟨"", "",
    (("build", "", "ci", SortedMap.empty, SortedMap.empty,
        "", "", (0 : Int64), none, none, ()),
      ("", description, [], [], none, [], [], [], ()), ())⟩

/- Three days in a row, on which the examples take place. -/
def firstDay : Timestamp := .ofDay 2024 1 1
def secondDay : Timestamp := .ofDay 2024 1 2
def thirdDay : Timestamp := .ofDay 2024 1 3

/- A store without objects, in which a new object stays out
   of sight for some reads. -/
def emptySession (visibilityDelay : Nat) :
    Session MemoryStore :=
  ⟨0, .empty ⟨1, 1⟩ firstDay visibilityDelay 0⟩

/- An engine that waits for nothing. -/
def memoryEngine : Engine MemoryStore :=
  ⟨MemoryStore.store, "ci", .zero, .standard, .never⟩

/- The described task as the store answers it. -/
def submittedTask (description : String) : Object .task :=
  (emptySession 0).state.newTyped
    (describedTask description).prepareForCreate "ci" "build"
    ⟨1, 1⟩

/- The described task is accepted by a store without
   objects. -/
theorem submitted_described (description : String) :
    ∃ document after,
      (Client.create MemoryStore.store
            (describedTask description)).run
            (emptySession 0) =
          (.ok (submittedTask description), ⟨0, after⟩) ∧
        MemoryStore.Submitted ⟨"ci", "build"⟩
          (submittedTask description) document
          (emptySession 0).state after := by
  have hNamespace :
      (describedTask description).metadata.namespaceName ≠
        "" :=
    (by decide : "ci" ≠ "")
  have hName := MemoryStore.chooseName_toJson
    (describedTask description).prepareForCreate
    (by decide : "build" ≠ "") ⟨1, 1⟩
  exact MemoryStore.run_create_of_chosen
    (describedTask description) hNamespace hName rfl

/- The configuration of what it then holds is without a
   defect. -/
theorem filled_submittedTask :
    (submittedTask "old").Filled :=
  (submittedTask "old").validate_flatten.exists_ok_iff.1
    ⟨(), Result.eq_ok_of_toOption (by decide +kernel)⟩

/- A task is submitted with one description and updated to
   another. -/
theorem update_converges_description :
    ∃ submitted later document reached after,
      (Client.create MemoryStore.store
            (describedTask "old")).run (emptySession 0) =
          (.ok submitted, later) ∧
        (memoryEngine.update .task).run
            ⟨"ci/build", describedConfig "new",
              some submitted.flatten, .standard⟩
            later =
          ((.ok (),
              ⟨"ci/build", describedConfig "new",
                some reached.flatten, .standard⟩),
            ⟨later.now, after⟩) ∧
        Object.decode? .task document = some reached ∧
        reached.SameMutable (describedTask "new") := by
  rcases submitted_described "old" with
    ⟨document, after, hRun, hNew⟩
  let tracked : Tracked :=
    ⟨"ci/build", describedConfig "new",
      some (submittedTask "old").flatten, .standard⟩
  have hTracked : tracked.objectId = .ok ⟨"ci", "build"⟩ :=
    Result.eq_ok_of_toOption (by decide +kernel)
  have hChecked :
      Object.validate .task tracked.config = .ok () :=
    Result.eq_ok_of_toOption (by decide +kernel)
  have hWanted :
      Object.expand .task tracked.config =
        .ok (describedTask "new") :=
    Result.eq_ok_of_toOption (by decide +kernel)
  rcases update_converges memoryEngine rfl
      (.submitted _ hRun hNew.identity) hNew.stored rfl rfl
      hNew.read filled_submittedTask hTracked rfl hChecked
      hWanted with
    ⟨changed, reached, after', hUpdate, _, _, hConverged, _⟩
  exact ⟨_, _, changed, reached, after', hRun, hUpdate,
    hConverged.read, hConverged.reaches⟩

end Engine

end Converge
