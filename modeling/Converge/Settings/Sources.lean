import Converge.Files
import Converge.Json.Reader
import Converge.Settings.Basic
import Converge.Settings.Path
import Converge.Toml.Reader
import Converge.Yaml.Reader

/-
  Where settings come from: a file, and variables of the
  environment, which win over the file.

  The variable `TEKTON__POLL__INTERVAL` sets the field
  `interval` of the section `poll`. Case does not matter in
  names of variables.

  Key definitions:
    * `SettingsError`: why there are no settings
    * `Settings.ofSources`: settings of a file and variables
    * `Settings.load`: likewise, the file found by its path
-/

namespace Converge

/- Why settings could not be had. -/
inductive SettingsError where
  | missing (path : String)
  | unreadable (path : String)
  | unfit
  | faulty (fault : Settings.Fault)
deriving DecidableEq

def SettingsError.message : SettingsError → String
  | missing path => "config file not found: " ++ path
  | unreadable path =>
      "config build error: cannot read " ++ path
  | unfit =>
      "config deserialize error: a value of another kind " ++
        "was expected"
  | faulty fault => fault.message

namespace Settings

/- The file that is read unless another one is named. -/
def standardPath : String :=
  "tekton.toml"

------------------------------------------------------------
-- Files
------------------------------------------------------------

/- The part of a file's name after its last point. -/
def extension (path : String) : String :=
  let name := (Text.parts '/' path).getLast?.getD ""
  match (Text.parts '.' name).reverse with
  | last :: [first] => if first = "" then "" else last
  | last :: _ :: _ => last
  | _ => ""

/- Reads the map of a plain YAML document. -/
def ofYaml? (content : String) : Option Setting :=
  (Yaml.read? content).map fun map =>
    Setting.ofJson (Tree.mapToJson map)

/- Reads the table that a file holds, in the format that
   its name tells. A mark of the byte order may lead it. How
   YAML is read is not settled here. -/
def ofFile?
    (readYaml? : String → Option Setting)
    (path : String)
    (content : String) :
    Option Setting :=
  let content := Text.dropOrderMark content
  let kind := extension path
  if kind = "toml" then
    (Toml.read? content).map fun entries =>
      Setting.ofToml (.table .header entries)
  else if kind = "json" then
    match Json.readNested? content with
    | some (.obj members) =>
        some (Setting.ofJson (Json.obj members).canonical)
    | _ => none
  else if kind = "yaml" || kind = "yml" then
    readYaml? content
  else none

------------------------------------------------------------
-- Variables
------------------------------------------------------------

/- The beginning of the names of variables that count. -/
def variableStart : String :=
  "tekton__"

/- The name of a variable in lower case. The sign of the
   kelvin is a letter, too. -/
def variableName (name : String) : String :=
  Text.lower
    (String.ofList
      (Text.replaceChar '\u212a' ['k'] name.toList))

/- The path that the name of a variable leads to. -/
def variablePath?
    (name : String) :
    Option (List Setting.Step) :=
  let name := variableName name
  if name.startsWith variableStart then
    let key :=
      String.ofList
        (name.toList.drop variableStart.length)
    Setting.path? (".".intercalate (key.splitOn "__"))
  else none

/- Sets what a variable says. -/
def setVariable
    (target : Setting)
    (assignment : String × String) :
    Setting :=
  match variablePath? assignment.1 with
  | some path => (Setting.ofText assignment.2).set target path
  | none => target

/- Sets an entry of a file; its key may be a path. -/
def setEntry
    (target : Setting)
    (entry : String × Setting) :
    Setting :=
  match Setting.path? entry.1 with
  | some path => entry.2.set target path
  | none => target

------------------------------------------------------------
-- Loading
------------------------------------------------------------

/- Settings of the content of a file and of variables. -/
def ofSources
    (file : Setting)
    (environment : List (String × String)) :
    Except SettingsError Settings :=
  let fromFile := file.entries.foldl setEntry (.table [])
  let merged := environment.foldl setVariable fromFile
  match ofRecord? Setting.recordFormat merged with
  | none => .error .unfit
  | some settings =>
      match settings.fault? with
      | some fault => .error (.faulty fault)
      | none => .ok settings

/-
  Settings of the file at a path, which has to be there, or
  of the standard file, which need not be, and of variables.
-/
def load
    (readYaml? : String → Option Setting)
    (files : Files)
    (path : Option String)
    (environment : List (String × String)) :
    Except SettingsError Settings :=
  let used := path.getD standardPath
  match files.find? used, path with
  | none, some path =>
      if Files.isFolder path then .error (.unreadable path)
      else .error (.missing path)
  | none, none => ofSources (.table []) environment
  | some content, _ =>
      match ofFile? readYaml? used content with
      | none => .error (.unreadable used)
      | some file => ofSources file environment

end Settings

end Converge
