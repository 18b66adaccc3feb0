import Converge.Json.Record
import Converge.Lifecycle.Tracked
import Converge.Store.Remote

/-
  Settings of a host: where the store is, how often to poll,
  and how long to wait.

  Key definitions:
    * `Settings`, `Settings.standard`: the settings
    * `Settings.ofRecord?`, `Settings.toJson`: written form
    * `Settings.fault?`: what makes settings unusable
    * `Settings.remoteOptions`: how to reach the store
-/

namespace Converge

/- The settings of a host. -/
structure Settings where
  endpoint : String
  token : Option String
  skipVerification : Bool
  requestTimeout : Duration
  namespaceName : String
  interval : Duration
  timeouts : Timeouts
  level : String
deriving DecidableEq

namespace Settings

/- What holds unless something else is set. -/
def standard : Settings :=
  ⟨"https://127.0.0.1:6443", none, false,
    ⟨30000000000, by decide⟩, "default",
    ⟨5000000000, by decide⟩, .standard, "info"⟩

instance : Inhabited Settings :=
  ⟨standard⟩

------------------------------------------------------------
-- Written Form
------------------------------------------------------------

section

variable {α : Type}
variable (format : RecordFormat α)

/- A duration, written as a text. -/
def duration? (value : α) : Option Duration :=
  (format.text? value).bind Duration.read?

/- Reads where and how the store is reached. -/
def readStore?
    (value : Option α)
    (settings : Settings) :
    Option Settings := do
  let names :=
    ["endpoint", "token", "insecure_skip_tls_verify",
      "request_timeout"]
  match ← format.section? names value with
  | [endpoint, token, skipVerification, requestTimeout] =>
      let endpoint ←
        RecordFormat.fieldOr format.text? settings.endpoint
          endpoint
      let token ←
        RecordFormat.fieldOr format.openText? settings.token
          token
      let skipVerification ←
        RecordFormat.fieldOr format.flag?
          settings.skipVerification skipVerification
      let requestTimeout ←
        RecordFormat.fieldOr (duration? format)
          settings.requestTimeout requestTimeout
      some
        { settings with
          endpoint := endpoint
          token := token
          skipVerification := skipVerification
          requestTimeout := requestTimeout }
  | _ => none

/- Reads a section with a single field. -/
def readSingle?
    {β : Type}
    (read? : α → Option β)
    (name : String)
    (other : β)
    (value : Option α) :
    Option β := do
  match ← format.section? [name] value with
  | [field] => RecordFormat.fieldOr read? other field
  | _ => none

/- Reads settings off their record of sections. -/
def ofRecord? (value : α) : Option Settings := do
  let names :=
    ["store", "defaults", "poll", "timeouts", "logging"]
  match ← format.record? names value with
  | [store, defaults, poll, timeouts, logging] =>
      let settings ← readStore? format store standard
      let namespaceName ←
        readSingle? format format.text? "namespace"
          settings.namespaceName defaults
      let interval ←
        readSingle? format (duration? format) "interval"
          settings.interval poll
      let timeouts ← Timeouts.ofRecord? format timeouts
      let level ←
        readSingle? format format.text? "level"
          settings.level logging
      some
        { settings with
          namespaceName := namespaceName
          interval := interval
          timeouts := timeouts
          level := level }
  | _ => none

end

def toJson (settings : Settings) : Json :=
  let token :=
    match settings.token with
    | none => Json.null
    | some token => .str token
  .obj
    [ ("store",
        .obj
          [ ("endpoint", .str settings.endpoint),
            ("token", token),
            ("insecure_skip_tls_verify",
              .bool settings.skipVerification),
            ("request_timeout",
              .str settings.requestTimeout.text) ]),
      ("defaults",
        .obj [("namespace", .str settings.namespaceName)]),
      ("poll",
        .obj [("interval", .str settings.interval.text)]),
      ("timeouts", settings.timeouts.toJson),
      ("logging", .obj [("level", .str settings.level)]) ]

------------------------------------------------------------
-- Faults
------------------------------------------------------------

/- What makes settings unusable. -/
inductive Fault where
  | emptyEndpoint
  | foreignEndpoint
  | noRequestTimeout
  | emptyNamespace
  | noInterval
  | noTimeout
  | longInterval
  | unknownLevel
deriving DecidableEq

/- The levels of the log, in lower case. -/
def levels : List String :=
  ["trace", "debug", "info", "warn", "error", "off"]

def Fault.message : Fault → String
  | emptyEndpoint => "store.endpoint must not be empty"
  | foreignEndpoint => "store.endpoint must be an http(s) URL"
  | noRequestTimeout => "store.request_timeout must be > 0"
  | emptyNamespace => "defaults.namespace must not be empty"
  | noInterval => "poll.interval must be > 0"
  | noTimeout => "timeouts must be > 0"
  | longInterval =>
      "poll.interval must not exceed the operation timeouts"
  | unknownLevel =>
      "logging.level must be one of [" ++
        ", ".intercalate
          (levels.map fun level => "\"" ++ level ++ "\"") ++
        "]"

/- The tests that settings have to pass, in the order in
   which they are made. -/
def tests (settings : Settings) : List (Bool × Fault) :=
  let timeouts := settings.timeouts
  let exceeds (limit : Duration) : Bool :=
    limit.nanoseconds < settings.interval.nanoseconds
  [ (!Text.isBlank settings.endpoint, .emptyEndpoint),
    (settings.endpoint.startsWith "http://" ||
      settings.endpoint.startsWith "https://",
        .foreignEndpoint),
    (!settings.requestTimeout.isZero, .noRequestTimeout),
    (!Text.isBlank settings.namespaceName, .emptyNamespace),
    (!settings.interval.isZero, .noInterval),
    (!timeouts.create.isZero && !timeouts.delete.isZero,
      .noTimeout),
    (!exceeds timeouts.create && !exceeds timeouts.delete,
      .longInterval),
    (levels.contains (Text.lower settings.level),
      .unknownLevel) ]

/- The fault that the first failing test finds. -/
def fault? (settings : Settings) : Option Fault :=
  (settings.tests.find? fun test => !test.1).map Prod.snd

/- How the store is reached; an empty token is none. -/
def remoteOptions (settings : Settings) : RemoteOptions :=
  ⟨settings.endpoint,
    settings.token.filter fun token => token ≠ "",
    settings.skipVerification,
    settings.requestTimeout⟩

end Settings

end Converge
