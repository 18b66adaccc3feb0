import Converge.Proofs.Command.Errand
import Converge.Proofs.Command.TrackingFile
import Converge.Proofs.Lifecycle.Addressed
import Converge.Proofs.Lifecycle.CreationOutcome
import Converge.Proofs.Schema.TreeNesting
import Converge.Proofs.Yaml.Reader

/-
  What commands leave that fail, and what they ask a store
  for.

  A command writes its file at its very end, and only where
  its errand succeeded, but for an object that the store
  accepted. Such an object is lost to the file where the
  program ends while it waits. All that a command asks a store
  for is about objects of one kind: the one that is asked for,
  or the one that the file tells of.

  Key definitions:
    * `Command.Accepts`: the store took the object of a
      command
    * `Command.Refused`: files stand in the way of a command
    * `Command.kindIn?`: the kind that a command is about

  Main declarations:
    * `Errand.files_of_fault`: what a failed errand leaves
    * `Errand.isOf_carriedOut`: what errands ask for
    * `CommandLine.perform_careful_iff`
-/

namespace Converge

variable {σ : Type}

------------------------------------------------------------
-- Requests
------------------------------------------------------------

namespace StoreRequest

/- The type of the objects that are asked for. -/
def type : StoreRequest → ResourceType
  | .get coordinate => coordinate.type
  | .create type _ _ => type
  | .patch coordinate _ => coordinate.type
  | .delete coordinate => coordinate.type

/- What is asked for is of a kind. -/
def IsOf (kind : Kind) (request : StoreRequest) : Prop :=
  request.type = kind.resourceType

theorem isOf_of_asksAbout
    {kind : Kind}
    {id : ObjectId}
    {request : StoreRequest}
    (hAsks : Engine.AsksAbout kind id request) :
    request.IsOf kind := by
  cases request with
  | get coordinate | patch coordinate _ | delete coordinate =>
      exact congrArg Coordinate.type (Option.some.inj hAsks)
  | create => cases hAsks

theorem isOf_of_submits
    {kind : Kind}
    {request : StoreRequest}
    (hSubmits : Engine.Submits kind request) :
    request.IsOf kind := by
  rcases hSubmits with ⟨object, rfl⟩ | ⟨id, rfl⟩ <;> rfl

end StoreRequest

open StoreRequest (IsOf isOf_of_asksAbout isOf_of_submits)

/- What follows from a run follows a run with notes, too. -/
theorem Adds.map
    {α β : Type}
    {sort : StoreRequest → Prop}
    {notes : Notes}
    {noted : α × Session (Noted σ)}
    {plain : α × Session σ}
    (h : Adds sort notes noted plain)
    (f : α → β) :
    Adds sort notes (f noted.1, noted.2)
      (f plain.1, plain.2) := by
  rcases h with ⟨made, hMade, rfl⟩
  exact ⟨made, hMade, rfl⟩

namespace Engine

variable (engine : Engine σ)
variable (kind : Kind)
variable (tracked : Tracked)

/- An operation on a tracked object asks for objects of its
   kind, or does not get as far as the store. -/
theorem follows_of_objectId
    {α : Type}
    {noted : Session (Noted σ) → α × Session (Noted σ)}
    {plain : Session σ → α × Session σ}
    (hAsks :
      ∀ id, tracked.objectId = .ok id →
        Follows (AsksAbout kind id) noted plain)
    (hLost :
      ∀ fault, tracked.objectId = .error fault →
        ∃ ending,
          (∀ session, noted session = (ending, session)) ∧
            ∀ session, plain session = (ending, session)) :
    Follows (IsOf kind) noted plain := by
  intro session notes
  cases hId : tracked.objectId with
  | ok id =>
      exact (hAsks id hId session notes).mono
        fun _ => isOf_of_asksAbout
  | error fault =>
      rcases hLost fault hId with ⟨ending, hNoted, hPlain⟩
      rw [hNoted, hPlain]
      exact adds_nothing ending session

theorem isOf_create :
    Follows (IsOf kind)
      ((engine.noted.create kind).run tracked)
      ((engine.create kind).run tracked) :=
  fun session notes =>
    (engine.follows_create kind tracked session notes).mono
      fun _ => isOf_of_submits

theorem isOf_readAs (operation : Operation) :
    Follows (IsOf kind)
      ((engine.noted.readAs kind operation).run tracked)
      ((engine.readAs kind operation).run tracked) := by
  apply follows_of_objectId kind tracked
  · intro id hId session notes
    exact (engine.follows_readAs kind operation hId session
      notes).mono fun _ => asksAbout_of_reads
  · intro fault hId
    refine ⟨(.error (.identity fault), tracked), ?_, ?_⟩ <;>
      intro session <;>
        rw [readAs_eq, hId]

theorem isOf_update :
    Follows (IsOf kind)
      ((engine.noted.update kind).run tracked)
      ((engine.update kind).run tracked) := by
  apply follows_of_objectId kind tracked
  · intro id hId
    exact engine.follows_update kind hId
  · intro fault hId
    exact ⟨_,
      (engine.noted.isLost_of_objectId kind hId).update,
      (engine.isLost_of_objectId kind hId).update⟩

theorem isOf_delete :
    Follows (IsOf kind)
      ((engine.noted.delete kind).run tracked)
      ((engine.delete kind).run tracked) := by
  apply follows_of_objectId kind tracked
  · intro id hId
    exact engine.follows_delete kind hId
  · intro fault hId
    exact ⟨_,
      (engine.noted.isLost_of_objectId kind hId).delete,
      (engine.isLost_of_objectId kind hId).delete⟩

theorem isOf_probe :
    Follows (IsOf kind)
      (engine.noted.probe kind tracked).run
      (engine.probe kind tracked).run := by
  apply follows_of_objectId kind tracked
  · intro id hId session notes
    exact (engine.follows_probe kind hId session notes).mono
      fun _ => asksAbout_of_reads
  · intro fault hId
    exact ⟨_,
      (engine.noted.isLost_of_objectId kind hId).probe,
      (engine.isLost_of_objectId kind hId).probe⟩

/- An adoption is a read, whose object is wanted as it is. -/
theorem isOf_adopt (written : String) :
    Follows (IsOf kind)
      (engine.noted.adopt kind written).run
      (engine.adopt kind written).run := by
  intro session notes
  let adopted
      (made : Except LifecycleError Unit × Tracked) :
      Except LifecycleError Tracked :=
    made.1.map fun _ =>
      { made.2 with
        config := made.2.state.getD made.2.config }
  exact (engine.isOf_readAs kind (.ofId written) .adopt
    session notes).map adopted

end Engine

------------------------------------------------------------
-- Errands
------------------------------------------------------------

namespace Errand

variable (engine : Engine σ)
variable (format : OutputFormat)
variable (timeouts : Timeouts)
variable (path : String)
variable (desk : Desk)
variable (errand : Errand)

/- An errand asks for objects of its kind. -/
theorem isOf_carriedOut
    (session : Session σ)
    (notes : Notes) :
    Adds (IsOf errand.kind) notes
      (errand.carriedOut engine.noted format timeouts path
        desk (session.withNotes notes))
      (errand.carriedOut engine format timeouts path desk
        session) := by
  cases errand with
  | create kind wanted =>
      exact (engine.isOf_create kind wanted session
        notes).map fun made =>
          (desk.created path kind made).agreed
  | update kind wanted =>
      exact (engine.isOf_update kind wanted session
        notes).map fun made =>
          (desk.updated path kind wanted.id made).agreed
  | read file =>
      exact (engine.isOf_readAs file.kind file.tracked .read
        session notes).map fun made =>
          (desk.shown path file.kind file.tracked.id format
            made).agreed
  | delete file =>
      simp only [carriedOut]
      by_cases hId : file.tracked.id = ""
      · rw [if_pos hId, if_pos hId]
        exact adds_nothing _ session
      · rw [if_neg hId, if_neg hId]
        exact (engine.isOf_delete file.kind file.tracked
          session notes).map fun made =>
            (desk.deleted path file.kind file.tracked.id
              made).agreed
  | probe file =>
      exact (engine.isOf_probe file.kind file.tracked session
        notes).map fun seen => desk.probed file seen
  | adopt kind id =>
      exact (engine.isOf_adopt kind id session notes).map
        fun made =>
          (desk.adopted path kind id timeouts made).agreed

end Errand

------------------------------------------------------------
-- Failed Errands
------------------------------------------------------------

/- A command ends with the program exactly where its operation
   does. -/
theorem CommandError.ofFault_eq_panicked_iff
    {verb : String}
    {kind : Kind}
    {id : Option String}
    {lapse : LifecycleError} :
    ofFault verb kind id lapse = .panicked ↔
      lapse = .panicked := by
  cases lapse <;> simp [ofFault]

/- A written identity is never empty. -/
theorem ObjectId.text_ne_empty (id : ObjectId) :
    id.text ≠ "" := by
  intro hEmpty
  have hChars := congrArg String.toList hEmpty
  simp [text] at hChars

namespace Desk

variable (desk : Desk)
variable (path : String)

/- Nothing is kept of an operation that failed. -/
theorem recorded_of_fault
    {verb : String}
    {kind : Kind}
    {id : String}
    {line? : Tracked → Option String}
    {result : Except LifecycleError Tracked}
    {fault : CommandError}
    (hFault :
      (desk.recorded path verb kind id line?
        result).agreed.1 = .error fault) :
    (desk.recorded path verb kind id line? result).agreed.2 =
      desk := by
  cases result with
  | error _ => rfl
  | ok tracked => cases hFault

/- A question writes no file. -/
theorem files_probed
    (file : TrackingFile)
    (seen : Bool × Option LifecycleError) :
    (desk.probed file seen).2.files = desk.files := by
  rcases seen with ⟨_ | _, _ | _⟩ <;> rfl

/- What is left of a creation that failed. -/
theorem created_of_error
    (kind : Kind)
    (lapse : LifecycleError)
    (tracked : Tracked) :
    desk.created path kind (.error lapse, tracked) =
      (.error (.ofFault "create" kind none lapse),
        if lapse = .panicked ∨ tracked.id = "" then desk
        else desk.saved path ⟨kind, tracked⟩) := by
  by_cases hNew : tracked.id = ""
  · cases lapse <;>
      simp only [created, CommandError.ofFault, hNew, if_true,
        or_true]
  · cases lapse <;>
      simp only [created, CommandError.ofFault, hNew,
        if_false, reduceCtorEq, or_false, if_true]

/- A creation that failed leaves files as they were, unless
   an object was accepted, and the program did not end. -/
theorem created_of_fault
    {engine : Engine σ}
    {kind : Kind}
    {wanted : Tracked}
    {session : Session σ}
    {fault : CommandError}
    (hNew : wanted.id = "")
    (hFault :
      (desk.created path kind
        ((engine.create kind).run wanted
          session).1).agreed.1 = .error fault) :
    let left :=
      (desk.created path kind
        ((engine.create kind).run wanted session).1).agreed.2
    ∃ lapse,
      ((engine.create kind).run wanted session).1.1 =
          .error lapse ∧
      (lapse = .panicked ↔ fault = .panicked) ∧
        (left.files = desk.files ∧
            (∀ object id between, ∀ submitted : Object kind,
              ¬engine.Accepted wanted session object id
                submitted between) ∨
          ∃ object id between, ∃ submitted : Object kind,
            engine.Accepted wanted session object id submitted
                between ∧
              left =
                if fault = .panicked then desk
                else
                  desk.saved path
                    ⟨kind,
                      wanted.submitted id
                        submitted.flatten⟩) := by
  have hAtomic := engine.create_atomic kind wanted session
  generalize (engine.create kind).run wanted session = made
    at hAtomic hFault ⊢
  intro left
  rcases made with ⟨⟨lapse | _, tracked⟩, later⟩
  · have hCreated :=
      desk.created_of_error path kind lapse tracked
    have hLeft :
        left =
          if lapse = .panicked ∨ tracked.id = "" then desk
          else desk.saved path ⟨kind, tracked⟩ :=
      congrArg Prod.snd hCreated
    have hEnd : lapse = .panicked ↔ fault = .panicked := by
      rw [hCreated] at hFault
      cases hFault
      exact CommandError.ofFault_eq_panicked_iff.symm
    refine ⟨lapse, rfl, hEnd, ?_⟩
    rcases hAtomic.2 lapse rfl with
      ⟨hSame, hRefused⟩ |
        ⟨object, id, between, submitted, hAccepted, hSame⟩
    · left
      have hUntracked : tracked.id = "" :=
        (congrArg Tracked.id hSame).trans hNew
      rw [hLeft, if_pos (Or.inr hUntracked)]
      exact ⟨rfl, fun object id between submitted =>
        hRefused object id between submitted⟩
    · right
      have hId : tracked.id ≠ "" := by
        intro hEmpty
        exact id.text_ne_empty
          ((congrArg Tracked.id hSame).symm.trans hEmpty)
      refine
        ⟨object, id, between, submitted, hAccepted, ?_⟩
      rw [hLeft]
      simp only [hId, or_false, hEnd]
      exact congrArg
        (fun kept =>
          if fault = .panicked then desk
          else desk.saved path ⟨kind, kept⟩)
        hSame
  · cases hFault

end Desk

/- An errand that failed leaves files as they were, unless it
   creates an object. -/
theorem Errand.files_of_fault
    {engine : Engine σ}
    {format : OutputFormat}
    {timeouts : Timeouts}
    {path : String}
    {desk : Desk}
    {session : Session σ}
    {errand : Errand}
    {fault : CommandError}
    (hFault :
      (errand.carriedOut engine format timeouts path desk
        session).1.1 = .error fault)
    (hOther :
      ∀ kind wanted, errand ≠ .create kind wanted) :
    (errand.carriedOut engine format timeouts path desk
      session).1.2.files = desk.files := by
  cases errand with
  | create kind wanted => exact absurd rfl (hOther kind wanted)
  | update kind wanted =>
      simp only [carriedOut, Desk.updated] at hFault ⊢
      rw [desk.recorded_of_fault path hFault]
  | read file =>
      simp only [carriedOut, Desk.shown] at hFault ⊢
      rw [desk.recorded_of_fault path hFault]
  | delete file =>
      simp only [carriedOut, Desk.deleted] at hFault ⊢
      by_cases hId : file.tracked.id = ""
      · rw [if_pos hId] at hFault
        cases hFault
      · rw [if_neg hId] at hFault ⊢
        rw [desk.recorded_of_fault path hFault]
  | probe file => exact desk.files_probed file _
  | adopt kind id =>
      simp only [carriedOut, Desk.adopted] at hFault ⊢
      rw [desk.recorded_of_fault path hFault]

------------------------------------------------------------
-- Accepted Objects
------------------------------------------------------------

/- A configuration has no key twice if that is so of those
   that are read from YAML. -/
theorem Files.hasDistinctKeys_of_configuration
    {readYaml? : String → Option ConfigMap}
    (hDistinct :
      ∀ content config, readYaml? content = some config →
        (Tree.map config).HasDistinctKeys)
    {files : Files}
    {path : String}
    {config : ConfigMap}
    (hConfig :
      files.configuration readYaml? path = .ok config) :
    (Tree.map config).HasDistinctKeys := by
  unfold configuration at hConfig
  split at hConfig
  · cases hConfig
  · split at hConfig
    · split at hConfig
      · rename_i found hFound
        cases hConfig
        rcases Option.bind_eq_some_iff.1 hFound with
          ⟨value, _, hMap⟩
        exact Tree.hasDistinctKeys_of_mapOfJson? hMap
      · cases hConfig
    · split at hConfig
      · rename_i found hFound
        cases hConfig
        exact hDistinct _ _ hFound
      · cases hConfig

/- A file that a kind may be tracked in under an empty identity
   tracks no identity. -/
theorem Files.id_eq_of_tracking
    {files : Files}
    {kind : Kind}
    {timeouts : Timeouts}
    {path : String}
    {tracked : Tracked}
    {file : TrackingFile}
    (hTracked :
      files.trackedFor kind timeouts path = .ok tracked)
    (hFile : files.tracking path = .ok file) :
    file.tracked.id = tracked.id := by
  rcases Result.bind_eq_ok_iff.1 hFile with
    ⟨_ | found, hFound, hSame⟩
  · cases hSame
  · cases hSame
    rw [trackedFor, hFound] at hTracked
    simp only [Except.bind] at hTracked
    split at hTracked
    · cases hTracked
      rfl
    · cases hTracked

namespace Command

/- The store accepts the object that a command applies for
   the first time, which this file tells of; and it goes on in
   this session. -/
inductive Accepts
    (readYaml? : String → Option ConfigMap)
    (engine : Engine σ)
    (timeouts : Timeouts)
    (files : Files)
    (session : Session σ) :
    Command → TrackingFile → Session σ → Prop
  | intro
      {kind : Kind}
      {source path : String}
      {config : ConfigMap}
      {tracked : Tracked}
      {wanted submitted : Object kind}
      {id : ObjectId}
      {between : Session σ}
      (hConfig :
        files.configuration readYaml? source = .ok config)
      (hTracked :
        files.trackedFor kind timeouts path = .ok tracked)
      (hNew : tracked.id = "")
      (hAccepted :
        engine.Accepted { tracked with config := config }
          session wanted id submitted between) :
      Accepts readYaml? engine timeouts files session
        (.apply kind source path)
        ⟨kind,
          ⟨id.text, config, some submitted.flatten,
            tracked.timeouts⟩⟩
        between

variable {readYaml? : String → Option ConfigMap}
variable {engine : Engine σ}
variable {timeouts : Timeouts}
variable {files : Files}
variable {session between : Session σ}
variable {command : Command}
variable {file : TrackingFile}

/- The file of an accepted object is read back. -/
theorem Accepts.isStorable
    (h :
      command.Accepts readYaml? engine timeouts files session
        file between)
    (hDistinct :
      ∀ content config, readYaml? content = some config →
        (Tree.map config).HasDistinctKeys) :
    file.tracked.IsStorable := by
  rcases h with ⟨hConfig, _, _, hAccepted⟩
  have hConfigured :=
    Engine.configured_eq_ok_iff.1 hAccepted.configured
  refine ⟨?_, ?_⟩
  · exact Object.nests_of_validate hConfigured.1
      (Files.hasDistinctKeys_of_configuration hDistinct
        hConfig)
  · intro state hState
    cases hState
    exact Object.nests_flatten _

/- The file is not there before. -/
theorem Accepts.tracking_ne
    (h :
      command.Accepts readYaml? engine timeouts files session
        file between) :
    files.tracking command.statePath ≠ .ok file := by
  rcases h with ⟨_, hTracked, hNew, _⟩
  intro hFile
  exact ObjectId.text_ne_empty _
    ((Files.id_eq_of_tracking hTracked hFile).trans hNew)

theorem accepts_iff :
    command.Accepts readYaml? engine timeouts files session
        file between ↔
      ∃ kind wanted,
        command.errand readYaml? timeouts files =
            .ok (.create kind wanted) ∧
          ∃ object id, ∃ submitted : Object kind,
            engine.Accepted wanted session object id submitted
                between ∧
              file =
                ⟨kind,
                  wanted.submitted id submitted.flatten⟩ := by
  constructor
  · rintro ⟨hConfig, hTracked, hNew, hAccepted⟩
    exact ⟨_, _,
      errand_of_sends (.create hConfig hTracked hNew),
      _, _, _, hAccepted, rfl⟩
  · rintro ⟨kind, wanted, hErrand, object, id, submitted,
      hAccepted, rfl⟩
    cases sends_of_errand hErrand with
    | create hConfig hTracked hNew =>
        have hAccepts := Accepts.intro hConfig hTracked hNew
          hAccepted
        exact hAccepts

/- Where a command creates nothing, nothing is accepted. -/
theorem not_accepts
    (hErrand :
      ∀ kind wanted,
        command.errand readYaml? timeouts files ≠
          .ok (.create kind wanted))
    (file : TrackingFile)
    (between : Session σ) :
    ¬command.Accepts readYaml? engine timeouts files session
      file between := by
  intro hAccepts
  rcases accepts_iff.1 hAccepts with ⟨kind, wanted, hCreate, _⟩
  exact hErrand kind wanted hCreate

/- A command that failed left files as they were, unless an
   object was accepted. That one is tracked then, unless the
   program ended because the clock could not tell a moment. -/
theorem performed_of_fault
    {format : OutputFormat}
    {desk : Desk}
    {fault : CommandError}
    (hFault :
      (command.performed readYaml? engine format timeouts desk
        session).1.1 = .error fault) :
    let left :=
      (command.performed readYaml? engine format timeouts desk
        session).1.2
    (left.files = desk.files ∧
        ∀ file between,
          ¬command.Accepts readYaml? engine timeouts
            desk.files session file between) ∨
      ∃ file between,
        command.Accepts readYaml? engine timeouts desk.files
            session file between ∧
          (left =
            if fault = .panicked then desk
            else desk.saved command.statePath file) ∧
          let deadline :=
            between.now +
              file.tracked.timeouts.create.nanoseconds
          (engine.timer.last < deadline →
              fault = .panicked) ∧
            (fault = .panicked →
              engine.timer.last <
                deadline +
                  max 1 engine.pollInterval.nanoseconds) := by
  unfold performed at hFault ⊢
  cases hErrand :
      command.errand readYaml? timeouts desk.files with
  | error lapse =>
      exact Or.inl ⟨rfl, not_accepts (by simp [hErrand])⟩
  | ok errand =>
      simp only [hErrand] at hFault ⊢
      by_cases hCreate :
          ∃ kind wanted, errand = .create kind wanted
      · rcases hCreate with ⟨kind, wanted, rfl⟩
        have hUntracked : wanted.id = "" := by
          cases sends_of_errand hErrand with
          | create _ _ hNew => exact hNew
        rcases desk.created_of_fault command.statePath
            hUntracked hFault with
          ⟨lapse, hLapse, hEnd, ⟨hSame, hRefused⟩ |
            ⟨object, id, between, submitted, hAccepted,
              hKept⟩⟩
        · refine Or.inl ⟨hSame, ?_⟩
          intro file between hAccepts
          rcases accepts_iff.1 hAccepts with
            ⟨_, _, hOther, object, id, submitted, hAccepted,
              _⟩
          cases hErrand.symm.trans hOther
          exact hRefused object id between submitted hAccepted
        · refine Or.inr ⟨_, between,
            accepts_iff.2
              ⟨kind, wanted, hErrand, object, id, submitted,
                hAccepted, rfl⟩,
            hKept, ?_⟩
          have hBounds :=
            Engine.panicked_of_accepted hAccepted hLapse
          rw [hEnd] at hBounds
          exact hBounds
      · have hOther :
            ∀ kind wanted, errand ≠ .create kind wanted :=
          fun kind wanted hSame =>
            hCreate ⟨kind, wanted, hSame⟩
        exact Or.inl ⟨Errand.files_of_fault hFault hOther,
          not_accepts fun kind wanted hSame =>
            hOther kind wanted
              (Except.ok.inj (hErrand.symm.trans hSame))⟩

------------------------------------------------------------
-- Commands on Files
------------------------------------------------------------

/- Files stand in the way of a command: its configuration
   cannot be read, or its file tracks something else. -/
inductive Refused
    (readYaml? : String → Option ConfigMap)
    (files : Files) :
    Command → Prop
  | noConfiguration
      {kind : Kind}
      {source path : String}
      {fault : CommandError}
      (hConfig :
        files.configuration readYaml? source = .error fault) :
      Refused readYaml? files (.apply kind source path)
  | otherKind
      {kind : Kind}
      {source path : String}
      {file : TrackingFile}
      (hFile : files.findTracking path = .ok (some file))
      (hOther : file.kind ≠ kind) :
      Refused readYaml? files (.apply kind source path)
  | occupied
      {kind : Kind}
      {id path : String}
      {file : TrackingFile}
      (hFile : files.findTracking path = .ok (some file))
      (hTracks : file.tracked.id ≠ "") :
      Refused readYaml? files (.adopt kind id path)

/- A command that files stand in the way of has no errand. -/
theorem Refused.errand_eq_error
    (h : command.Refused readYaml? files)
    (timeouts : Timeouts) :
    ∃ fault,
      command.errand readYaml? timeouts files =
        .error fault := by
  cases h with
  | noConfiguration hConfig =>
      exact ⟨_, by rw [errand, hConfig]; rfl⟩
  | @otherKind kind source path file hFile hOther =>
      have hTracked :
          files.trackedFor kind timeouts path =
            .error (.otherKind file.kind kind) := by
        rw [Files.trackedFor, hFile]
        exact if_neg hOther
      rw [errand, hTracked]
      cases files.configuration readYaml? source with
      | error fault => exact ⟨fault, rfl⟩
      | ok config => exact ⟨_, rfl⟩
  | @occupied kind id path file hFile hTracks =>
      refine ⟨.occupied path file.tracked.id, ?_⟩
      rw [errand, hFile]
      exact if_neg hTracks

/- The kind that a command is about: the one that is asked
   for, or the one that the file tells of. -/
def kindIn? (files : Files) : Command → Option Kind
  | .apply kind _ _ => some kind
  | .get path => kindOf? path
  | .delete path => kindOf? path
  | .probe path => kindOf? path
  | .adopt kind _ _ => some kind
where
  kindOf? (path : String) : Option Kind :=
    (files.tracking path).toOption.map fun file => file.kind

theorem kindIn?_of_errand
    {errand : Errand}
    (hErrand :
      command.errand readYaml? timeouts files = .ok errand) :
    command.kindIn? files = some errand.kind := by
  have hKindOf :
      ∀ {path : String} {file : TrackingFile},
        files.tracking path = .ok file →
          kindIn?.kindOf? files path = some file.kind := by
    intro path file hFile
    rw [kindIn?.kindOf?, hFile]
    rfl
  cases sends_of_errand hErrand with
  | create | update | adopt => rfl
  | read hFile => exact hKindOf hFile
  | delete hFile => exact hKindOf hFile
  | probe hFile => exact hKindOf hFile

end Command

/- A command notes requests about its kind only. -/
theorem Command.notes_performed
    (command : Command)
    (readYaml? : String → Option ConfigMap)
    (engine : Engine σ)
    (format : OutputFormat)
    (timeouts : Timeouts)
    (desk : Desk)
    (session : Session σ) :
    let done :=
      command.performed readYaml? engine format timeouts desk
        session
    ∃ notes,
      command.performed readYaml? engine.noted format timeouts
            desk (session.withNotes []) =
          (done.1, done.2.withNotes notes) ∧
        ∀ note ∈ notes,
          ∃ kind, command.kindIn? desk.files = some kind ∧
            note.2.type = kind.resourceType := by
  unfold performed
  cases hErrand :
      command.errand readYaml? timeouts desk.files with
  | error fault => exact ⟨[], rfl, nofun⟩
  | ok errand =>
      rcases errand.isOf_carriedOut engine format timeouts
          command.statePath desk session [] with
        ⟨notes, hNotes, hNoted⟩
      refine ⟨notes, hNoted, ?_⟩
      intro note hNote
      exact ⟨errand.kind, kindIn?_of_errand hErrand,
        hNotes note hNote⟩

/- A document that names a run of a task. -/
def runDocument : String :=
  "metadata:\n  name: build\n  namespace: ci\n" ++
    "spec:\n  task_ref:\n    name: compile\n"

/- It is read as the configuration of the run. -/
theorem Yaml.read?_runDocument :
    read? runDocument = some Engine.runConfig := by
  have hRead :
      (read? runDocument).map Tree.mapToJson =
        some (Tree.mapToJson Engine.runConfig) := by
    decide +kernel
  have hKeys : (Tree.map Engine.runConfig).HasDistinctKeys := by
    simp [Engine.runConfig, Tree.HasDistinctKeys,
      Tree.EntriesHaveDistinctKeys]
  rcases Option.map_eq_some_iff.1 hRead with
    ⟨config, hConfig, hSame⟩
  have hBack :=
    Tree.mapOfJson?_mapToJson (hasDistinctKeys_of_read? hConfig)
  rw [hSame, Tree.mapOfJson?_mapToJson hKeys] at hBack
  rw [hConfig, hBack]

/- The document, in a folder without any other file. -/
def runDesk : Desk :=
  ⟨[("run.yaml", runDocument)], []⟩

/- The document is applied for the first time. -/
def runLine : CommandLine where
  command := .apply .taskRun "run.yaml" "state.json"
  config := none
  endpoint := none
  token := none
  namespaceName := none
  format := .yaml

end Converge
