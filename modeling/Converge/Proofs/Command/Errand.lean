import Converge.Proofs.Command.Steps
import Converge.Proofs.Result

/-
  What commands have the engine do.

  A command looks at files, has the engine carry out one
  operation at most, and only then writes its file. What it
  has the engine do is told by the files alone, and what it
  writes by what came of the operation.

  Key definitions:
    * `Errand`: the operation of a command
    * `Command.errand`: the errand of a command on files
    * `Command.Sends`: what files show of a command and its
      errand
    * `Errand.carriedOut`: what comes of an errand

  Main declarations:
    * `CommandLine.exec_perform`: a command is its errand
    * `CommandLine.exec_job`: a whole command
-/

namespace Converge

variable {σ : Type}

------------------------------------------------------------
-- Errands
------------------------------------------------------------

/- An operation that a command has the engine carry out. -/
inductive Errand where
  | create (kind : Kind) (wanted : Tracked)
  | update (kind : Kind) (wanted : Tracked)
  | read (file : TrackingFile)
  | delete (file : TrackingFile)
  | probe (file : TrackingFile)
  | adopt (kind : Kind) (id : String)

namespace Errand

/- The kind of the objects that an errand is about. -/
def kind : Errand → Kind
  | .create kind _ => kind
  | .update kind _ => kind
  | .read file => file.kind
  | .delete file => file.kind
  | .probe file => file.kind
  | .adopt kind _ => kind

end Errand

namespace Command

/- The path of the file in which a command tracks its
   object. -/
def statePath : Command → String
  | .apply _ _ path => path
  | .get path => path
  | .delete path => path
  | .probe path => path
  | .adopt _ _ path => path

/- The errand of a command, unless files stand in its
   way. -/
def errand
    (readYaml? : String → Option ConfigMap)
    (timeouts : Timeouts)
    (files : Files) :
    Command → Except CommandError Errand
  | .apply kind file path =>
      (files.configuration readYaml? file).bind fun config =>
        (files.trackedFor kind timeouts path).map
          fun tracked =>
            let wanted := { tracked with config := config }
            if wanted.id = "" then .create kind wanted
            else .update kind wanted
  | .get path =>
      (files.tracking path).bind fun file =>
        if file.tracked.id = "" then .error .untracked
        else .ok (.read file)
  | .delete path => (files.tracking path).map .delete
  | .probe path => (files.tracking path).map .probe
  | .adopt kind id path =>
      (files.findTracking path).bind fun
        | none => .ok (.adopt kind id)
        | some file =>
            if file.tracked.id = "" then
              .ok (.adopt kind id)
            else .error (.occupied path file.tracked.id)

/- A command gets as far as an errand, by what is found in
   files. -/
inductive Sends
    (readYaml? : String → Option ConfigMap)
    (timeouts : Timeouts)
    (files : Files) :
    Command → Errand → Prop
  | create
      {kind : Kind}
      {source path : String}
      {config : ConfigMap}
      {tracked : Tracked}
      (hConfig :
        files.configuration readYaml? source = .ok config)
      (hTracked :
        files.trackedFor kind timeouts path = .ok tracked)
      (hNew : tracked.id = "") :
      Sends readYaml? timeouts files (.apply kind source path)
        (.create kind { tracked with config := config })
  | update
      {kind : Kind}
      {source path : String}
      {config : ConfigMap}
      {tracked : Tracked}
      (hConfig :
        files.configuration readYaml? source = .ok config)
      (hTracked :
        files.trackedFor kind timeouts path = .ok tracked)
      (hTracks : tracked.id ≠ "") :
      Sends readYaml? timeouts files (.apply kind source path)
        (.update kind { tracked with config := config })
  | read
      {path : String}
      {file : TrackingFile}
      (hFile : files.tracking path = .ok file)
      (hTracks : file.tracked.id ≠ "") :
      Sends readYaml? timeouts files (.get path) (.read file)
  | delete
      {path : String}
      {file : TrackingFile}
      (hFile : files.tracking path = .ok file) :
      Sends readYaml? timeouts files (.delete path)
        (.delete file)
  | probe
      {path : String}
      {file : TrackingFile}
      (hFile : files.tracking path = .ok file) :
      Sends readYaml? timeouts files (.probe path) (.probe file)
  | adopt
      {kind : Kind}
      {id path : String}
      {found : Option TrackingFile}
      (hFound : files.findTracking path = .ok found)
      (hFree :
        ∀ file, found = some file → file.tracked.id = "") :
      Sends readYaml? timeouts files (.adopt kind id path)
        (.adopt kind id)

section

variable {readYaml? : String → Option ConfigMap}
variable {timeouts : Timeouts}
variable {files : Files}
variable {command : Command}
variable {errand : Errand}

theorem errand_of_sends
    (h :
      command.Sends readYaml? timeouts files errand) :
    command.errand readYaml? timeouts files = .ok errand := by
  cases h with
  | create hConfig hTracked hState
  | update hConfig hTracked hState =>
      rw [Command.errand, hConfig, hTracked]
      simp only [Except.bind, Except.map, hState, if_true,
        if_false]
  | read hFile hTracks =>
      rw [Command.errand, hFile]
      exact if_neg hTracks
  | delete hFile | probe hFile =>
      rw [Command.errand, hFile]
      rfl
  | @adopt _ _ _ found hFound hFree =>
      rw [Command.errand, hFound]
      cases found with
      | none => rfl
      | some file => exact if_pos (hFree file rfl)

theorem sends_of_errand
    (hErrand :
      command.errand readYaml? timeouts files =
        .ok errand) :
    command.Sends readYaml? timeouts files errand := by
  cases command with
  | apply kind source path =>
      rcases Result.bind_eq_ok_iff.1 hErrand with
        ⟨config, hConfig, hNext⟩
      rcases Result.map_eq_ok_iff.1 hNext with
        ⟨tracked, hTracked, hMade⟩
      by_cases hNew : tracked.id = ""
      · rw [if_pos hNew] at hMade
        cases hMade
        exact .create hConfig hTracked hNew
      · rw [if_neg hNew] at hMade
        cases hMade
        exact .update hConfig hTracked hNew
  | get path =>
      rcases Result.bind_eq_ok_iff.1 hErrand with
        ⟨file, hFile, hNext⟩
      split at hNext
      · cases hNext
      · rename_i hTracks
        cases hNext
        exact .read hFile hTracks
  | delete path =>
      rcases Result.map_eq_ok_iff.1 hErrand with
        ⟨file, hFile, rfl⟩
      exact .delete hFile
  | probe path =>
      rcases Result.map_eq_ok_iff.1 hErrand with
        ⟨file, hFile, rfl⟩
      exact .probe hFile
  | adopt kind id path =>
      rcases Result.bind_eq_ok_iff.1 hErrand with
        ⟨_ | file, hFound, hNext⟩
      · cases hNext
        exact .adopt hFound nofun
      · simp only at hNext
        split at hNext
        · rename_i hFree
          cases hNext
          refine .adopt hFound ?_
          rintro _ ⟨⟩
          exact hFree
        · cases hNext

end

end Command

------------------------------------------------------------
-- What Comes of Errands
------------------------------------------------------------

/- How a part of a command ends, and the desk that it
   leaves. -/
abbrev Ending (α : Type) := Except CommandError α × Desk

/- The snapshot of a tracked object, as it is printed. -/
def Tracked.shown?
    (format : OutputFormat)
    (tracked : Tracked) :
    Option String :=
  tracked.state.map fun state =>
    Text.trimEnd
      (match format with
        | .json => (Tree.mapToJson state).pretty
        | .yaml => Yaml.write state)

/- The tracked object that an operation left, if it
   succeeded. -/
def Tracked.left
    (made : Except LifecycleError Unit × Tracked) :
    Except LifecycleError Tracked :=
  made.1.map fun _ => made.2

/- What was asked for is so, unless it failed. -/
def Ending.agreed (ending : Ending Unit) : Ending Bool :=
  (ending.1.map fun _ => true, ending.2)

namespace Desk

variable (desk : Desk)

/- What comes of a creation. An object that is tracked is
   kept, whatever else failed, unless the program ended. -/
def created
    (path : String)
    (kind : Kind)
    (made : Except LifecycleError Unit × Tracked) :
    Ending Unit :=
  let kept :=
    if made.2.id = "" then desk
    else desk.saved path ⟨kind, made.2⟩
  match made.1 with
  | .error .panicked => (.error .panicked, desk)
  | .error fault =>
      (.error (.ofFault "create" kind none fault), kept)
  | .ok _ =>
      (.ok (),
        kept.printed
          ("✓ " ++
            ("Created " ++ kind.name ++ " " ++ made.2.id)))

/- What comes of an operation whose object is kept where it
   succeeded, and told of by a line. -/
def recorded
    (path : String)
    (verb : String)
    (kind : Kind)
    (id : String)
    (line? : Tracked → Option String)
    (result : Except LifecycleError Tracked) :
    Ending Unit :=
  match result with
  | .error fault =>
      (.error (.ofFault verb kind (some id) fault), desk)
  | .ok tracked =>
      let kept := desk.saved path ⟨kind, tracked⟩
      (.ok (), ((line? tracked).map kept.printed).getD kept)

/- What comes of an update. -/
def updated
    (path : String)
    (kind : Kind)
    (id : String)
    (made : Except LifecycleError Unit × Tracked) :
    Ending Unit :=
  desk.recorded path "update" kind id
    (fun tracked =>
      some
        ("✓ " ++
          ("Updated " ++ kind.name ++ " " ++ tracked.id)))
    (Tracked.left made)

/- What comes of a read. -/
def shown
    (path : String)
    (kind : Kind)
    (id : String)
    (format : OutputFormat)
    (made : Except LifecycleError Unit × Tracked) :
    Ending Unit :=
  desk.recorded path "read" kind id (Tracked.shown? format)
    (Tracked.left made)

/- What comes of a deletion. -/
def deleted
    (path : String)
    (kind : Kind)
    (id : String)
    (made : Except LifecycleError Unit × Tracked) :
    Ending Unit :=
  desk.recorded path "delete" kind id
    (fun _ =>
      some ("✓ " ++ ("Deleted " ++ kind.name ++ " " ++ id)))
    (Tracked.left made)

/- What comes of an adoption. -/
def adopted
    (path : String)
    (kind : Kind)
    (id : String)
    (timeouts : Timeouts)
    (made : Except LifecycleError Tracked) :
    Ending Unit :=
  desk.recorded path "import" kind id
    (fun _ =>
      some ("✓ " ++ ("Imported " ++ kind.name ++ " " ++ id)))
    (made.map fun tracked =>
      { tracked with timeouts := timeouts })

/- What comes of a question. -/
def probed
    (file : TrackingFile)
    (seen : Bool × Option LifecycleError) :
    Ending Bool :=
  let id := file.tracked.id
  match seen.2 with
  | some fault =>
      (.error (.ofFault "check" file.kind (some id) fault),
        if seen.1 then
          desk.printed
            ("! " ++ (id ++ " may exist; the check failed"))
        else desk)
  | none =>
      (.ok seen.1,
        desk.printed
          (file.kind.name ++ " " ++ id ++ " " ++
            if seen.1 then "exists" else "does not exist"))

end Desk

/- What comes of an errand. -/
def Errand.carriedOut
    (engine : Engine σ)
    (format : OutputFormat)
    (timeouts : Timeouts)
    (path : String)
    (desk : Desk)
    (session : Session σ) :
    Errand → Ending Bool × Session σ
  | .create kind wanted =>
      let made := (engine.create kind).run wanted session
      ((desk.created path kind made.1).agreed, made.2)
  | .update kind wanted =>
      let made := (engine.update kind).run wanted session
      ((desk.updated path kind wanted.id made.1).agreed,
        made.2)
  | .read file =>
      let id := file.tracked.id
      let made :=
        (engine.read file.kind).run file.tracked session
      ((desk.shown path file.kind id format made.1).agreed,
        made.2)
  | .delete file =>
      let id := file.tracked.id
      if id = "" then
        ((.ok true,
            desk.printed
              ("! " ++
                "State file does not track an object; nothing to delete")),
          session)
      else
        let made :=
          (engine.delete file.kind).run file.tracked session
        ((desk.deleted path file.kind id made.1).agreed,
          made.2)
  | .probe file =>
      let seen :=
        (engine.probe file.kind file.tracked).run session
      (desk.probed file seen.1, seen.2)
  | .adopt kind id =>
      let made := (engine.adopt kind id).run session
      ((desk.adopted path kind id timeouts made.1).agreed,
        made.2)

------------------------------------------------------------
-- Operations in Commands
------------------------------------------------------------

namespace Job

variable (engine : Engine σ)
variable (kind : Kind)
variable (path : String)
variable (wanted : Tracked)
variable (desk : Desk)
variable (session : Session σ)

/- A part that is carried out to the end. -/
theorem exec_agreed (job : Job σ Unit) :
    exec
        (do
          job
          return true)
        desk session =
      let done := exec job desk session
      (Ending.agreed done.1, done.2) := by
  rw [exec_bind]
  rcases exec job desk session with
    ⟨⟨_ | _, later⟩, after⟩ <;> rfl

theorem exec_create :
    exec (create engine kind path wanted) desk session =
      let made := (engine.create kind).run wanted session
      (desk.created path kind made.1, made.2) := by
  unfold create
  rw [exec_bind, exec_track]
  rcases (engine.create kind).run wanted session with
    ⟨⟨result, tracked⟩, later⟩
  by_cases hId : tracked.id = ""
  · rcases result with fault | _
    · cases fault <;>
        simp only [survived, Desk.created, hId, ne_eq,
          not_true, if_false, if_true] <;>
        rfl
    · simp only [survived, Desk.created, hId, ne_eq,
        not_true, if_false, if_true]
      rfl
  · rcases result with fault | _
    · cases fault <;>
        simp only [survived, Desk.created, hId, ne_eq,
          not_false_iff, if_true, if_false] <;>
        rfl
    · simp only [survived, Desk.created, hId, ne_eq,
        not_false_iff, if_true, if_false]
      rfl

theorem exec_update :
    exec (update engine kind path wanted) desk session =
      let made := (engine.update kind).run wanted session
      (desk.updated path kind wanted.id made.1, made.2) := by
  unfold update
  rw [exec_bind, exec_track]
  rcases (engine.update kind).run wanted session with
    ⟨⟨fault | _, tracked⟩, later⟩
  · cases fault <;> rfl
  · rfl

end Job

------------------------------------------------------------
-- Commands as Errands
------------------------------------------------------------

/- What comes of a command: nothing unless its errand is
   known, and else what comes of the errand. -/
def Command.performed
    (readYaml? : String → Option ConfigMap)
    (engine : Engine σ)
    (format : OutputFormat)
    (timeouts : Timeouts)
    (desk : Desk)
    (session : Session σ)
    (command : Command) :
    Ending Bool × Session σ :=
  match command.errand readYaml? timeouts desk.files with
  | .error fault => ((.error fault, desk), session)
  | .ok errand =>
      errand.carriedOut engine format timeouts
        command.statePath desk session

namespace Job

variable (readYaml? : String → Option ConfigMap)
variable (engine : Engine σ)
variable (format : OutputFormat)
variable (timeouts : Timeouts)
variable (kind : Kind)
variable (path : String)
variable (desk : Desk)
variable (session : Session σ)

theorem exec_apply (file : String) :
    exec
        (do
          apply readYaml? engine timeouts kind file path
          return true)
        desk session =
      (Command.apply kind file path).performed readYaml?
        engine format timeouts desk session := by
  rw [exec_agreed, apply,
    exec_bind_of_found
      (exec_configuration desk session readYaml? file),
    Command.performed, Command.errand]
  cases desk.files.configuration readYaml? file with
  | error fault => rfl
  | ok config =>
      simp only [Except.bind]
      rw [exec_bind_of_found
        (exec_trackedFor desk session kind timeouts path)]
      cases desk.files.trackedFor kind timeouts path with
      | error fault => rfl
      | ok tracked =>
          simp only [Except.map]
          by_cases hId : tracked.id = ""
          · simp only [hId, if_true, exec_create]
            rfl
          · simp only [hId, if_false, exec_update]
            rfl

theorem exec_get :
    exec
        (do
          get engine format path
          return true)
        desk session =
      (Command.get path).performed readYaml? engine format
        timeouts desk session := by
  rw [exec_agreed, get,
    exec_bind_of_found (exec_tracking desk session path),
    Command.performed, Command.errand]
  cases desk.files.tracking path with
  | error fault => rfl
  | ok file =>
      simp only [Except.bind]
      by_cases hId : file.tracked.id = ""
      · simp only [hId, if_true]
        rfl
      · simp only [hId, if_false, exec_bind, exec_track,
          Errand.carriedOut]
        rcases (engine.read file.kind).run file.tracked
            session with
          ⟨⟨fault | _, _, _, _ | _, _⟩, _⟩
        · cases fault <;> rfl
        · cases fault <;> rfl
        · rfl
        · cases format <;> rfl

theorem exec_delete :
    exec
        (do
          delete engine path
          return true)
        desk session =
      (Command.delete path).performed readYaml? engine format
        timeouts desk session := by
  rw [exec_agreed, delete,
    exec_bind_of_found (exec_tracking desk session path),
    Command.performed, Command.errand]
  cases desk.files.tracking path with
  | error fault => rfl
  | ok file =>
      simp only [Except.map, Errand.carriedOut]
      by_cases hId : file.tracked.id = ""
      · simp only [hId, if_true]
        rfl
      · simp only [hId, if_false, exec_bind, exec_track]
        rcases (engine.delete file.kind).run file.tracked
            session with
          ⟨⟨fault | _, _⟩, _⟩
        · cases fault <;> rfl
        · rfl

theorem exec_probe :
    exec (probe engine path) desk session =
      (Command.probe path).performed readYaml? engine format
        timeouts desk session := by
  rw [probe,
    exec_bind_of_found (exec_tracking desk session path),
    Command.performed, Command.errand]
  cases desk.files.tracking path with
  | error fault => rfl
  | ok file =>
      simp only [Except.map, Errand.carriedOut, exec_bind,
        exec_ofSession]
      rcases (engine.probe file.kind file.tracked).run
          session with
        ⟨⟨_ | _, _ | _⟩, _⟩ <;> rfl

/- Gets an object, and starts to track it. -/
def adoption (id : String) : Job σ Unit := do
  let result ← ofSession (engine.adopt kind id).run
  let tracked ← orFail "import" kind (some id) result
  save path ⟨kind, { tracked with timeouts := timeouts }⟩
  printSuccess ("Imported " ++ kind.name ++ " " ++ id)

theorem exec_adoption (id : String) :
    exec
        (do
          adoption engine timeouts kind path id
          return true)
        desk session =
      (Errand.adopt kind id).carriedOut engine format timeouts
        path desk session := by
  have hRun :
      StateT.run (engine.adopt kind id).run session =
        (engine.adopt kind id).run session :=
    rfl
  rw [exec_agreed, adoption, exec_bind, exec_ofSession, hRun,
    Errand.carriedOut]
  rcases (engine.adopt kind id).run session with
    ⟨_ | _, _⟩ <;> rfl

theorem exec_adopt (id : String) :
    exec
        (do
          adopt engine timeouts kind id path
          return true)
        desk session =
      (Command.adopt kind id path).performed readYaml? engine
        format timeouts desk session := by
  rw [exec_agreed, adopt,
    exec_bind_of_found (exec_findTracking desk session path),
    Command.performed, Command.errand]
  cases desk.files.findTracking path with
  | error fault => rfl
  | ok found =>
      cases found with
      | none =>
          rw [← exec_agreed]
          exact exec_adoption engine format timeouts kind path
            desk session id
      | some file =>
          simp only [Except.bind]
          by_cases hId : file.tracked.id = ""
          · rw [if_pos hId, if_neg (not_not_intro hId),
              ← exec_agreed]
            exact exec_adoption engine format timeouts kind
              path desk session id
          · rw [if_neg hId, if_pos hId]
            rfl

end Job

namespace CommandLine

variable (line : CommandLine)
variable (desk : Desk)
variable (session : Session σ)

/- A command is its errand. -/
theorem exec_perform
    (readYaml? : String → Option ConfigMap)
    (engine : Engine σ)
    (timeouts : Timeouts) :
    Job.exec (line.perform readYaml? engine timeouts) desk
        session =
      line.command.performed readYaml? engine line.format
        timeouts desk session := by
  unfold perform
  cases line.command with
  | apply kind file path => apply Job.exec_apply
  | get path => apply Job.exec_get
  | delete path => apply Job.exec_delete
  | probe path => apply Job.exec_probe
  | adopt kind id path => apply Job.exec_adopt

/- The settings of a command are told by files. -/
theorem exec_settings
    (readYaml? : String → Option Setting)
    (environment : List (String × String)) :
    ∃ found : Except CommandError Settings,
      Job.exec (line.settings readYaml? environment) desk
          session =
        ((found, desk), session) := by
  have hGet :
      Job.exec (get : Job σ Desk) desk session =
        ((.ok desk, desk), session) :=
    rfl
  rw [settings, Job.exec_bind_of_found hGet]
  simp only
  cases Settings.load readYaml? desk.files line.config
      environment with
  | error fault => exact ⟨.error _, rfl⟩
  | ok loaded =>
      simp only
      cases (line.override loaded).fault? with
      | some fault => exact ⟨.error _, rfl⟩
      | none => exact ⟨.ok _, rfl⟩

/- A whole command fails before there is a way to the store,
   or is carried out on one. -/
theorem exec_job
    (readers : YamlReaders)
    (environment : List (String × String))
    (link : Link σ) :
    let whole :=
      Job.exec (line.job readers environment link) desk session
    (∃ fault, whole = ((.error fault, desk), session)) ∨
      ∃ engine timeouts,
        whole =
          Job.exec
            (line.perform readers.config? engine timeouts)
            desk session := by
  intro whole
  unfold whole
  rcases line.exec_settings desk session readers.settings?
      environment with
    ⟨fault | settings, hSettings⟩
  · exact Or.inl
      ⟨fault, by rw [job, Job.exec_bind_of_found hSettings]⟩
  · rw [job, Job.exec_bind_of_found hSettings]
    simp only
    cases RemoteStore.connect settings.remoteOptions with
    | error fault => exact Or.inl ⟨_, rfl⟩
    | ok remote => exact Or.inr ⟨_, _, rfl⟩

end CommandLine

end Converge
