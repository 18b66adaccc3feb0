import Converge.Command.Error
import Converge.Command.Line
import Converge.Command.TrackingFile
import Converge.Lifecycle.Engine
import Converge.Yaml.Printer

/-
  Carrying out commands.

  A command reads files, works on a store, writes the file in
  which it tracks its object, and prints lines. A command
  that fails leaves that file as it was, save for an object
  that the store accepted and that then did not get ready.
  Nothing is written once the program has panicked.

  How YAML documents are read is left to readers that a
  command is given.

  Key definitions:
    * `Desk`: files, and the lines printed
    * `YamlReaders`: the readers of YAML documents
    * `Job`: a part of a command
    * `Job.apply`, `Job.get`, `Job.delete`, `Job.probe`,
      `Job.adopt`: the commands on a store
    * `CommandLine.run`: a whole command
-/

namespace Converge

/- The content of files by their paths, and the lines that
   were printed. -/
structure Desk where
  files : Files
  lines : List String
deriving DecidableEq

/- What becomes of the text of a YAML document, where it is a
   file of settings, and where it is a configuration. -/
structure YamlReaders where
  settings? : String → Option Setting
  config? : String → Option ConfigMap

/- Readers of plain documents. -/
def YamlReaders.plain : YamlReaders where
  settings? := Settings.ofYaml?
  config? := Yaml.read?

/- A part of a command. -/
abbrev Job (σ : Type) :=
  ExceptT CommandError (StateT Desk (StateM (Session σ)))

namespace Job

variable {σ α : Type}

------------------------------------------------------------
-- Files and Lines
------------------------------------------------------------

def print (line : String) : Job σ Unit :=
  modify fun desk => { desk with lines := desk.lines ++ [line] }

/- What could be done. -/
def printSuccess (message : String) : Job σ Unit :=
  print ("✓ " ++ message)

/- What was left open. -/
def printWarning (message : String) : Job σ Unit :=
  print ("! " ++ message)

/- The content of a file, if it is there. -/
def content? (path : String) : Job σ (Option String) := do
  return (← get).files.find? path

/- Writes the file of a tracked object. -/
def save
    (path : String)
    (file : TrackingFile) :
    Job σ Unit :=
  modify fun desk =>
    { desk with files := desk.files.write path file.text }

/- Reads the file of a tracked object, if it is there. -/
def findTracking
    (path : String) :
    Job σ (Option TrackingFile) := do
  match ← content? path with
  | none =>
      if Files.isFolder path then throw (.noTracking path)
      else return none
  | some content =>
      match TrackingFile.read? content with
      | some file => return some file
      | none => throw (.unreadableTracking path)

/- Reads the file of a tracked object. -/
def tracking (path : String) : Job σ TrackingFile := do
  match ← findTracking path with
  | some file => return file
  | none => throw (.noTracking path)

/- Reads a configuration: JSON if the name of the file says
   so, else YAML. -/
def configuration
    (readYaml? : String → Option ConfigMap)
    (path : String) :
    Job σ ConfigMap := do
  match ← content? path with
  | none => throw (.noConfig path)
  | some content =>
      if Text.lower (Settings.extension path) = "json" then
        match
            (Json.readNested? content).bind Tree.mapOfJson?
          with
        | some config => return config
        | none => throw (.unreadableConfig .json)
      else
        match readYaml? content with
        | some config => return config
        | none => throw (.unreadableConfig .yaml)

------------------------------------------------------------
-- Operations
------------------------------------------------------------

/- Calls to the store, as part of a command. -/
def ofSession (calls : StateM (Session σ) α) : Job σ α :=
  ExceptT.mk fun desk session =>
    let (result, session) := calls.run session
    ((.ok result, desk), session)

/- How an operation ended and what is tracked then, unless
   the program ended with it. -/
def survived
    (made : Except LifecycleError Unit × Tracked) :
    Except CommandError
      (Except LifecycleError Unit × Tracked) :=
  match made.1 with
  | .error .panicked => .error .panicked
  | _ => .ok made

/- Works on a tracked object. -/
def track
    (work : Work σ Unit)
    (tracked : Tracked) :
    Job σ (Except LifecycleError Unit × Tracked) := do
  let made ← ofSession ((ExceptT.run work).run tracked)
  ExceptT.mk (pure (survived made))

/- Fails as an operation did. -/
def orFail
    (verb : String)
    (kind : Kind)
    (id : Option String)
    (result : Except LifecycleError α) :
    Job σ α :=
  ExceptT.mk
    (pure (result.mapError (.ofFault verb kind id)))

/- The object that a file tracks; a new file starts with
   the timeouts of the settings. -/
def trackedFor
    (kind : Kind)
    (timeouts : Timeouts)
    (path : String) :
    Job σ Tracked := do
  match ← findTracking path with
  | none =>
      return { (default : Tracked) with timeouts := timeouts }
  | some file =>
      if file.kind = kind then return file.tracked
      else throw (.otherKind file.kind kind)

/- Creates the configured object. An accepted object is
   tracked even if waiting for it failed. -/
def create
    (engine : Engine σ)
    (kind : Kind)
    (path : String)
    (wanted : Tracked) :
    Job σ Unit := do
  let (result, tracked) ← track (engine.create kind) wanted
  if tracked.id ≠ "" then
    save path ⟨kind, tracked⟩
  orFail "create" kind none result
  printSuccess ("Created " ++ kind.name ++ " " ++ tracked.id)

/- Updates the tracked object towards its configuration. -/
def update
    (engine : Engine σ)
    (kind : Kind)
    (path : String)
    (wanted : Tracked) :
    Job σ Unit := do
  let (result, tracked) ← track (engine.update kind) wanted
  orFail "update" kind (some wanted.id) result
  save path ⟨kind, tracked⟩
  printSuccess ("Updated " ++ kind.name ++ " " ++ tracked.id)

/- Creates the object of a configuration file, or updates it
   when it is tracked already. -/
def apply
    (readYaml? : String → Option ConfigMap)
    (engine : Engine σ)
    (timeouts : Timeouts)
    (kind : Kind)
    (file : String)
    (path : String) :
    Job σ Unit := do
  let config ← configuration readYaml? file
  let tracked ← trackedFor kind timeouts path
  let wanted := { tracked with config := config }
  if wanted.id = "" then create engine kind path wanted
  else update engine kind path wanted

/- Reads the tracked object, and prints it. -/
def get
    (engine : Engine σ)
    (format : OutputFormat)
    (path : String) :
    Job σ Unit := do
  let file ← tracking path
  let id := file.tracked.id
  if id = "" then throw .untracked
  let (result, tracked) ←
    track (engine.read file.kind) file.tracked
  orFail "read" file.kind (some id) result
  save path ⟨file.kind, tracked⟩
  match tracked.state with
  | none => return ()
  | some state =>
      let shown :=
        match format with
        | .json => (Tree.mapToJson state).pretty
        | .yaml => Yaml.write state
      print (Text.trimEnd shown)

/- Deletes the tracked object, and waits until it is gone. -/
def delete
    (engine : Engine σ)
    (path : String) :
    Job σ Unit := do
  let file ← tracking path
  let id := file.tracked.id
  if id = "" then
    printWarning
      "State file does not track an object; nothing to delete"
  else
    let (result, tracked) ←
      track (engine.delete file.kind) file.tracked
    orFail "delete" file.kind (some id) result
    save path ⟨file.kind, tracked⟩
    printSuccess ("Deleted " ++ file.kind.name ++ " " ++ id)

/- Prints whether the tracked object is there. -/
def probe
    (engine : Engine σ)
    (path : String) :
    Job σ Bool := do
  let file ← tracking path
  let id := file.tracked.id
  let (isThere, fault) ←
    ofSession (engine.probe file.kind file.tracked)
  match fault with
  | some fault =>
      if isThere then
        printWarning (id ++ " may exist; the check failed")
      throw (.ofFault "check" file.kind (some id) fault)
  | none =>
      let found :=
        if isThere then "exists" else "does not exist"
      print (file.kind.name ++ " " ++ id ++ " " ++ found)
      return isThere

/- Starts to track an object that is there, in a file that
   tracks none. -/
def adopt
    (engine : Engine σ)
    (timeouts : Timeouts)
    (kind : Kind)
    (id : String)
    (path : String) :
    Job σ Unit := do
  match ← findTracking path with
  | some file =>
      if file.tracked.id ≠ "" then
        throw (.occupied path file.tracked.id)
  | none => pure ()
  let result ← ofSession (engine.adopt kind id).run
  let tracked ← orFail "import" kind (some id) result
  save path ⟨kind, { tracked with timeouts := timeouts }⟩
  printSuccess ("Imported " ++ kind.name ++ " " ++ id)

end Job

------------------------------------------------------------
-- Whole Commands
------------------------------------------------------------

/- How a command ended: the code of its exit, what it said of
   a fault, and what it left on the desk. -/
structure CommandOutcome where
  exitCode : Nat
  complaint : Option String
  desk : Desk
deriving DecidableEq

namespace CommandLine

variable {σ : Type}

/- Carries out a command on a store. The answer is whether
   what it asked for is so. -/
def perform
    (readYaml? : String → Option ConfigMap)
    (engine : Engine σ)
    (timeouts : Timeouts)
    (line : CommandLine) :
    Job σ Bool := do
  match line.command with
  | .apply kind file path =>
      Job.apply readYaml? engine timeouts kind file path
      return true
  | .get path =>
      Job.get engine line.format path
      return true
  | .delete path =>
      Job.delete engine path
      return true
  | .probe path => Job.probe engine path
  | .adopt kind id path =>
      Job.adopt engine timeouts kind id path
      return true

/- The paths of all files that a command may read. -/
def paths (line : CommandLine) : List String :=
  let own :=
    match line.command with
    | .apply _ file state => [file, state]
    | .get state => [state]
    | .delete state => [state]
    | .probe state => [state]
    | .adopt _ _ state => [state]
  line.config.getD Settings.standardPath :: own

/- Settings with what the command line says instead. -/
def override
    (line : CommandLine)
    (settings : Settings) :
    Settings :=
  { settings with
    endpoint := line.endpoint.getD settings.endpoint
    token := line.token.or settings.token
    namespaceName :=
      line.namespaceName.getD settings.namespaceName }

/- The settings of a command. -/
def settings
    (line : CommandLine)
    (readYaml? : String → Option Setting)
    (environment : List (String × String)) :
    Job σ Settings := do
  let files := (← get).files
  match
      Settings.load readYaml? files line.config environment
    with
  | .error fault => throw (.settings fault)
  | .ok loaded =>
      let settings := line.override loaded
      match settings.fault? with
      | some fault => throw (.options fault)
      | none => return settings

/- Carries out a command, over a way to the server. -/
def job
    (line : CommandLine)
    (readers : YamlReaders)
    (environment : List (String × String))
    (link : Link σ) :
    Job σ Bool := do
  let settings ← line.settings readers.settings? environment
  match RemoteStore.connect settings.remoteOptions with
  | .error fault => throw (.endpoint fault)
  | .ok remote =>
      let engine : Engine σ :=
        ⟨remote.store link, settings.namespaceName,
          settings.interval, .standard, .never⟩
      line.perform readers.config? engine settings.timeouts

/- Carries out a command and tells how it ended. -/
def run
    (line : CommandLine)
    (readers : YamlReaders)
    (environment : List (String × String))
    (link : Link σ)
    (desk : Desk)
    (session : Session σ) :
    CommandOutcome × Session σ :=
  let job := line.job readers environment link
  let ((result, desk), session) :=
    ((ExceptT.run job).run desk).run session
  match result with
  | .ok true => (⟨0, none, desk⟩, session)
  | .ok false => (⟨2, none, desk⟩, session)
  | .error .panicked =>
      (⟨101, some CommandError.panicked.text, desk⟩, session)
  | .error fault =>
      (⟨1, some ("✗ " ++ fault.text), desk⟩, session)

end CommandLine

end Converge
