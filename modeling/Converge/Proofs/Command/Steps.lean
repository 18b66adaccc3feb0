import Converge.Command.Run

/-
  What the parts of a command do.

  Each part of a command is described by what comes of it: a
  result or a fault, the desk, and the session. Parts that
  look at files alone leave both as they are.

  Key definitions:
    * `Files.findTracking`, `Files.tracking`,
      `Files.configuration`, `Files.trackedFor`: what is
      found in files
    * `Desk.saved`, `Desk.printed`: what is written
    * `Job.exec`: what comes of a part

  Main declarations:
    * `Job.exec_bind`: one part after the other
    * `Job.exec_findTracking`, `Job.exec_tracking`,
      `Job.exec_configuration`, `Job.exec_trackedFor`
-/

namespace Converge

variable {σ α β : Type}

------------------------------------------------------------
-- What Is Found in Files
------------------------------------------------------------

namespace Files

/- The tracked object of a file, if the file is there. -/
def findTracking
    (path : String)
    (files : Files) :
    Except CommandError (Option TrackingFile) :=
  match files.find? path with
  | none =>
      if isFolder path then .error (.noTracking path)
      else .ok none
  | some content =>
      match TrackingFile.read? content with
      | some file => .ok (some file)
      | none => .error (.unreadableTracking path)

/- The tracked object of a file that is there. -/
def tracking
    (path : String)
    (files : Files) :
    Except CommandError TrackingFile :=
  (files.findTracking path).bind fun
    | some file => .ok file
    | none => .error (.noTracking path)

/- The configuration of a file. -/
def configuration
    (readYaml? : String → Option ConfigMap)
    (path : String)
    (files : Files) :
    Except CommandError ConfigMap :=
  match files.find? path with
  | none => .error (.noConfig path)
  | some content =>
      if Text.lower (Settings.extension path) = "json" then
        match
            (Json.readNested? content).bind Tree.mapOfJson?
          with
        | some config => .ok config
        | none => .error (.unreadableConfig .json)
      else
        match readYaml? content with
        | some config => .ok config
        | none => .error (.unreadableConfig .yaml)

/- What is tracked for a kind; a new file starts with the
   timeouts of the settings. -/
def trackedFor
    (kind : Kind)
    (timeouts : Timeouts)
    (path : String)
    (files : Files) :
    Except CommandError Tracked :=
  (files.findTracking path).bind fun
    | none =>
        .ok { (default : Tracked) with timeouts := timeouts }
    | some file =>
        if file.kind = kind then .ok file.tracked
        else .error (.otherKind file.kind kind)

end Files

------------------------------------------------------------
-- What Is Written
------------------------------------------------------------

namespace Desk

/- The desk once a tracked object was saved. -/
def saved
    (path : String)
    (file : TrackingFile)
    (desk : Desk) :
    Desk :=
  { desk with files := desk.files.write path file.text }

/- The desk once a line was printed. -/
def printed (line : String) (desk : Desk) : Desk :=
  { desk with lines := desk.lines ++ [line] }

end Desk

namespace Job

------------------------------------------------------------
-- Parts in General
------------------------------------------------------------

/- What comes of a part of a command. -/
def exec
    (job : Job σ α)
    (desk : Desk)
    (session : Session σ) :
    (Except CommandError α × Desk) × Session σ :=
  ((ExceptT.run job).run desk).run session

/- One part after the other. -/
theorem exec_bind
    (job : Job σ α)
    (next : α → Job σ β)
    (desk : Desk)
    (session : Session σ) :
    exec (job >>= next) desk session =
      match exec job desk session with
      | ((.ok value, desk), session) =>
          exec (next value) desk session
      | ((.error fault, desk), session) =>
          ((.error fault, desk), session) := by
  have hStep :
      exec (job >>= next) desk session =
        ((ExceptT.bindCont next
            (exec job desk session).1.1).run
              (exec job desk session).1.2).run
                (exec job desk session).2 :=
    rfl
  rw [hStep]
  rcases exec job desk session with
    ⟨⟨fault | value, later⟩, after⟩ <;> rfl

/- A part that found something in files, and the next one. -/
theorem exec_bind_of_found
    {job : Job σ α}
    {found : Except CommandError α}
    {desk : Desk}
    {session : Session σ}
    {next : α → Job σ β} :
    exec job desk session = ((found, desk), session) →
      exec (job >>= next) desk session =
        match found with
        | .error fault => ((.error fault, desk), session)
        | .ok value => exec (next value) desk session := by
  intro hFound
  rw [exec_bind, hFound]
  cases found <;> rfl

@[simp] theorem exec_save
    (path : String)
    (file : TrackingFile)
    (desk : Desk)
    (session : Session σ) :
    exec (save path file) desk session =
      ((.ok (), desk.saved path file), session) :=
  rfl

@[simp] theorem exec_content?
    (path : String)
    (desk : Desk)
    (session : Session σ) :
    exec (content? path) desk session =
      ((.ok (desk.files.find? path), desk), session) :=
  rfl

@[simp] theorem exec_ofSession
    (calls : StateM (Session σ) α)
    (desk : Desk)
    (session : Session σ) :
    exec (ofSession calls) desk session =
      ((.ok (calls.run session).1, desk),
        (calls.run session).2) :=
  rfl

@[simp] theorem exec_track
    (work : Work σ Unit)
    (tracked : Tracked)
    (desk : Desk)
    (session : Session σ) :
    exec (track work tracked) desk session =
      ((survived (work.run tracked session).1, desk),
        (work.run tracked session).2) :=
  rfl

------------------------------------------------------------
-- Looking at Files
------------------------------------------------------------

variable (desk : Desk)
variable (session : Session σ)

theorem exec_findTracking (path : String) :
    exec (findTracking path) desk session =
      ((desk.files.findTracking path, desk), session) := by
  simp only [findTracking, exec_bind, exec_content?,
    Files.findTracking]
  cases desk.files.find? path with
  | none =>
      simp only
      split <;> rfl
  | some content =>
      simp only
      cases TrackingFile.read? content <;> rfl

theorem exec_tracking (path : String) :
    exec (tracking path) desk session =
      ((desk.files.tracking path, desk), session) := by
  simp only [tracking, exec_bind, exec_findTracking,
    Files.tracking]
  rcases desk.files.findTracking path with
    fault | _ | file <;> rfl

theorem exec_configuration
    (readYaml? : String → Option ConfigMap)
    (path : String) :
    exec (configuration readYaml? path) desk session =
      ((desk.files.configuration readYaml? path, desk),
        session) := by
  simp only [configuration, exec_bind, exec_content?,
    Files.configuration]
  cases desk.files.find? path with
  | none => rfl
  | some content =>
      simp only
      split
      · cases (Json.readNested? content).bind
            Tree.mapOfJson? <;> rfl
      · cases readYaml? content <;> rfl

theorem exec_trackedFor
    (kind : Kind)
    (timeouts : Timeouts)
    (path : String) :
    exec (trackedFor kind timeouts path) desk session =
      ((desk.files.trackedFor kind timeouts path, desk),
        session) := by
  simp only [trackedFor, exec_bind, exec_findTracking,
    Files.trackedFor]
  rcases desk.files.findTracking path with
    fault | _ | file
  · rfl
  · rfl
  · simp only [Except.bind]
    split <;> rfl

end Job

end Converge
