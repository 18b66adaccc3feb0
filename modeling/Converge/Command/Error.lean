import Converge.Lifecycle.Error
import Converge.Settings.Sources

/-
  Why commands fail.

  Key definitions:
    * `CommandError`: a cause, or the end of the program
    * `CommandError.messages`: its text, and the texts of the
      causes behind it
-/

namespace Converge

/- The format of a configuration file. -/
inductive FileFormat where
  | json
  | yaml
deriving DecidableEq

namespace FileFormat

def name : FileFormat → String
  | .json => "JSON"
  | .yaml => "YAML"

end FileFormat

/- Why a command failed. The last cause ends the program on
   the spot, before anything else is written. -/
inductive CommandError where
  | settings (source : SettingsError)
  | options (source : Settings.Fault)
  | endpoint (source : StoreError)
  | noConfig (path : String)
  | unreadableConfig (format : FileFormat)
  | noTracking (path : String)
  | unreadableTracking (path : String)
  | otherKind (tracked : Kind) (requested : Kind)
  | untracked
  | occupied (path : String) (id : String)
  | operation
      (verb : String)
      (kind : Kind)
      (id : Option String)
      (source : LifecycleError)
  | panicked
deriving DecidableEq

namespace CommandError

/- Fails as an operation did. The end of the program is not
   wrapped. -/
def ofFault
    (verb : String)
    (kind : Kind)
    (id : Option String) :
    LifecycleError → CommandError
  | .panicked => .panicked
  | fault => .operation verb kind id fault

/- The operation that failed, on an object whose identity may
   not be given yet. -/
def attempted
    (verb : String)
    (kind : Kind)
    (id : Option String) :
    String :=
  let object := (id.map fun id => " " ++ id).getD ""
  "Failed to " ++ verb ++ " " ++ kind.name ++ object

/- The text of a cause and of each cause behind it. -/
def messages : CommandError → List String
  | .settings source =>
      ["Failed to load configuration", source.message]
  | .options source =>
      ["Invalid configuration", source.message]
  | .endpoint source =>
      ["Failed to set up the API client", source.message]
  | .noConfig path =>
      ["Failed to read configuration: " ++ path,
        Files.absence path]
  | .unreadableConfig format =>
      ["Invalid " ++ format.name ++ " configuration",
        "no map of plain values"]
  | .noTracking path =>
      ["Failed to read state file: " ++ path,
        Files.absence path]
  | .unreadableTracking path =>
      ["Invalid state file: " ++ path,
        "no record of a tracked object"]
  | .otherKind tracked requested =>
      ["State file tracks a " ++ tracked.name ++ ", not a " ++
        requested.name]
  | .untracked => ["State file does not track an object"]
  | .occupied path id =>
      [path ++ " already tracks " ++ id ++
        "; delete it or choose another state file"]
  | .operation verb kind id source =>
      attempted verb kind id :: source.messages
  | .panicked => LifecycleError.panicked.messages

/- The text of a cause with those behind it. -/
def text (error : CommandError) : String :=
  ": ".intercalate error.messages

end CommandError

end Converge
