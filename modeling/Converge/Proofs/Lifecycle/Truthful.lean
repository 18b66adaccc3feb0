import Converge.Proofs.Lifecycle.Convergence
import Converge.Proofs.Lifecycle.Run

/-
  When updates are truthful.

  An update compares the configuration with the snapshot, and
  a snapshot is taken of what a read returns. Where a patch
  was accepted and the object could not be read back, the
  snapshot is out of date. An update that succeeds later
  leaves the object as configured exactly when its document
  has an edit wherever the stored object differs from the
  configuration.

  Key definitions:
    * `Engine.Truthful`: a document is as configured

  Main declarations:
    * `Engine.update_truthful_iff`
-/

namespace Converge

namespace Engine

open MemoryStore (address)

variable {kind : Kind}

------------------------------------------------------------
-- Truthful Updates
------------------------------------------------------------

/- A document has the labels, the annotations and the
   specification of an object. -/
def Truthful
    (wanted : Object kind)
    (document : Json) : Prop :=
  ∃ reached,
    Object.decode? kind document = some reached ∧
      reached.SameMutable wanted

/- Where a document can be read, this is what it shows. -/
theorem truthful_iff
    {wanted reached : Object kind}
    {document : Json}
    (hConforms : Object.Conforms kind document)
    (hRead : Object.decode? kind document = some reached) :
    Truthful wanted document ↔
      wanted.ShowsMutable document := by
  constructor
  · rintro ⟨other, hOther, hSame⟩
    have hShown := showsMutable_of_decode hConforms hOther
    exact hSame.symm.shows hShown
  · intro hShown
    exact ⟨reached, hRead, Object.sameMutable_of_decode
      hConforms.canonical hConforms.metadata hRead hShown⟩

/- A snapshot that mirrors what is stored has the edits of
   what is stored. -/
theorem edits_of_mirrors
    {id : ObjectId}
    {tracked : Tracked}
    {wanted previous held : Object kind}
    (hPrepared : Prepared tracked id wanted previous)
    (hState : tracked.state = some held.flatten) :
    Diff.edits wanted.toJson previous.toJson =
      Diff.edits wanted.toJson held.toJson := by
  have hExpand := hPrepared.previous
  rw [hState] at hExpand
  have hSettled := held.expand_flatten.eq_of_ok hExpand
  rw [hSettled]
  exact wanted.edits_congr held.sameMutable_settled

/-
  An update of a run that succeeds leaves the object with the
  labels, the annotations and the specification of its
  configuration exactly when the edits from the snapshot to
  the configuration cover those from the object that was
  stored. They do whenever the snapshot is fresh.
-/
theorem update_truthful_iff
    (engine : Engine MemoryStore)
    (hStore : engine.store = MemoryStore.store)
    {point : Point}
    {tracked : Tracked}
    {later : Session MemoryStore}
    (hRun : Run engine kind point)
    (hUpdate :
      (engine.update kind).run point.tracked point.session =
        ((.ok (), tracked), later)) :
    ∃ id, ∃ wanted snapshot held : Object kind,
      ∃ stored kept,
        Prepared point.tracked id wanted snapshot ∧
          point.session.state.stored? (address kind id) =
              some stored ∧
            held.ShowsMutable stored.object ∧
          later.state.stored? (address kind id) =
              some kept ∧
            (Truthful wanted kept.object ↔
              Diff.Covers
                (Diff.edits wanted.toJson snapshot.toJson)
                (Diff.edits wanted.toJson held.toJson)) ∧
          (point.fresh = true →
            Truthful wanted kept.object) := by
  have hSound := hRun.sound hStore
  rcases engine.update_cases hStore kind point.tracked
      point.session with
    ⟨fault, hFailed⟩ |
      ⟨id, wanted, snapshot, between, hPrepared, hSent, hRest⟩
  · rw [hFailed] at hUpdate
    cases hUpdate
  · have hBetween := hSent.sound hPrepared.identity hSound
    rcases hRest with ⟨fault, hFailed⟩ | hReading
    · rw [hFailed] at hUpdate
      cases hUpdate
    · rw [hReading] at hUpdate
      rcases engine.readAs_cases hStore kind .update
          hPrepared.identity between with
        ⟨read, hUntouched, ⟨fault, hFailed⟩ |
          ⟨kept, reached, hKept, hRead, hOk⟩⟩
      · rw [hFailed] at hUpdate
        cases hUpdate
      · rw [hOk] at hUpdate
        cases hUpdate
        rcases hUntouched.stored _ kept hKept with
          ⟨sent, hSentStored, hObject⟩
        rcases hSent.reaches hSentStored with
          ⟨stored, hStored, hReaches⟩
        rcases hSound.held hPrepared.identity hStored with
          ⟨hConforms, held, hHeld, hState⟩
        rcases hReaches hConforms with ⟨hAfter, hIff⟩
        rw [← hObject] at hAfter hIff
        have hTruthful :
            Truthful wanted kept.object ↔
              Diff.Covers
                (Diff.edits wanted.toJson snapshot.toJson)
                (Diff.edits wanted.toJson held.toJson) :=
          (truthful_iff hAfter hRead).trans (hIff held hHeld)
        refine ⟨id, wanted, snapshot, held, stored, kept,
          hPrepared, hStored, hHeld, hKept, hTruthful, ?_⟩
        intro hFresh
        apply hTruthful.2
        rw [edits_of_mirrors hPrepared (hState hFresh)]
        exact .refl _

------------------------------------------------------------
-- A Lost Update
------------------------------------------------------------

/- What an operation returned, and where it leads. -/
def Point.after
    (point : Point)
    (fresh : Bool)
    (work : Work MemoryStore Unit) :
    Except LifecycleError Unit × Point :=
  let outcome := work.run point.tracked point.session
  (outcome.1.1, ⟨outcome.1.2, outcome.2, fresh⟩)

/- The same point with another configuration. -/
def Point.describe
    (point : Point)
    (description : String) :
    Point :=
  { point with
    tracked :=
      { point.tracked with
        config := describedConfig description } }

/- A creation goes on from a fresh snapshot. -/
theorem Run.create
    {engine : Engine MemoryStore}
    {point : Point}
    (hRun : Run engine kind point)
    (hFresh : point.fresh = true) :
    Run engine kind
      (point.after true (engine.create kind)).2 := by
  have hAfter :
      Run engine kind
        ⟨(point.after true (engine.create kind)).2.tracked,
          (point.after true (engine.create kind)).2.session,
          point.fresh ||
            (point.after true (engine.create kind)).1.isOk⟩ :=
    hRun.step (.created rfl)
  rw [hFresh, Bool.true_or] at hAfter
  exact hAfter

/- An update that fails is lost. -/
theorem Run.lose
    {engine : Engine MemoryStore}
    {point : Point}
    (hRun : Run engine kind point)
    (hFailed :
      (point.after false (engine.update kind)).1.isOk =
        false) :
    Run engine kind
      (point.after false (engine.update kind)).2 := by
  cases hResult :
      (point.after false (engine.update kind)).1 with
  | ok value =>
      rw [hResult] at hFailed
      cases hFailed
  | error fault =>
      apply hRun.step
      apply Step.lost
      rw [← hResult]
      rfl

/- A task that is to be created out of sight, without any
   time to wait for it. -/
def hiddenPoint : Point :=
  ⟨⟨"", describedConfig "old", none, ⟨.zero, .zero⟩⟩,
    emptySession 2, true⟩

/- The task is created, and is to be described anew. -/
def changedPoint : Point :=
  (hiddenPoint.after true
    (memoryEngine.create .task)).2.describe "new"

/- The update is accepted but not read back, and the first
   description is wanted again. -/
def lostPoint : Point :=
  (changedPoint.after false
    (memoryEngine.update .task)).2.describe "old"

/- What a task is described as. -/
def description (task : Object .task) : String :=
  task.spec.2.1

theorem run_lostPoint :
    Run memoryEngine .task lostPoint := by
  have hHidden : Run memoryEngine .task hiddenPoint :=
    .start fun _ _ => rfl
  have hChanged : Run memoryEngine .task changedPoint :=
    (hHidden.create rfl).step (.configured _ _)
  have hFailed :
      (changedPoint.after false
        (memoryEngine.update .task)).1.isOk = false := by
    decide +kernel
  exact (hChanged.lose hFailed).step (.configured _ _)

/- The update towards it succeeds, and leaves the task with
   the other description. -/
theorem update_truthful_iff_lost :
    Run memoryEngine .task lostPoint ∧
      ∃ tracked later,
        (memoryEngine.update .task).run lostPoint.tracked
              lostPoint.session =
            ((.ok (), tracked), later) ∧
          ∃ snapshot held : Object .task, ∃ kept,
            Prepared lostPoint.tracked ⟨"ci", "build"⟩
                (describedTask "old") snapshot ∧
              later.state.stored?
                  (address .task ⟨"ci", "build"⟩) =
                some kept ∧
              ¬Truthful (describedTask "old") kept.object ∧
              ¬Diff.Covers
                (Diff.edits (describedTask "old").toJson
                  snapshot.toJson)
                (Diff.edits (describedTask "old").toJson
                  held.toJson) := by
  refine ⟨run_lostPoint, ?_⟩
  have hOk :
      ((memoryEngine.update .task).run lostPoint.tracked
        lostPoint.session).1.1.toOption = some () := by
    decide +kernel
  have hDescription :
      (((memoryEngine.update .task).run lostPoint.tracked
          lostPoint.session).2.state.stored?
            (address .task ⟨"ci", "build"⟩)).bind
          (fun kept =>
            (Object.decode? .task kept.object).map
              description) =
        some "new" := by
    decide +kernel
  have hId :
      lostPoint.tracked.objectId = .ok ⟨"ci", "build"⟩ :=
    Result.eq_ok_of_toOption (by decide +kernel)
  have hWanted :
      Object.expand .task lostPoint.tracked.config =
        .ok (describedTask "old") :=
    Result.eq_ok_of_toOption (by decide +kernel)
  cases hRun :
      (memoryEngine.update .task).run lostPoint.tracked
        lostPoint.session with
  | mk answer later =>
      rcases answer with ⟨result, tracked⟩
      rw [hRun] at hOk hDescription
      have hResult := Result.eq_ok_of_toOption hOk
      simp only at hResult
      subst hResult
      rcases update_truthful_iff memoryEngine rfl
          run_lostPoint hRun with
        ⟨id, wanted, snapshot, held, stored, kept, hPrepared,
          _, _, hKept, hIff, _⟩
      have hSameId :=
        Except.ok.inj (hPrepared.identity.symm.trans hId)
      subst hSameId
      have hSameWanted :=
        Except.ok.inj (hPrepared.wanted.symm.trans hWanted)
      subst hSameWanted
      have hOther :
          ¬Truthful (describedTask "old") kept.object := by
        rintro ⟨reached, hRead, hSame⟩
        have hText :
            description reached =
              description (describedTask "old") := by
          unfold description
          rw [hSame.spec]
        simp only [hKept, Option.bind_some, hRead,
          Option.map_some, hText] at hDescription
        exact absurd hDescription (by decide)
      exact ⟨_, _, rfl, snapshot, held, kept, hPrepared,
        hKept, hOther, mt hIff.2 hOther⟩

end Engine

end Converge
