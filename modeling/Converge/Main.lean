import Std.Async.DNS
import Std.Async.TCP
import Std.Internal.UV.System
import Converge.Command.Run
import Converge.Web.Message
import Converge.Web.Transcript

/-
  The program: files, environment, connections and clock
  around a command, which itself is a function.

  A command is carried out over the exchanges made so far. If
  it asks for one more, that is made, and the command is
  carried out again.
-/

open Converge

open Std.Async

------------------------------------------------------------
-- Connections
------------------------------------------------------------

/- Receives until the other side has sent all. -/
partial def receiveAll
    (client : TCP.Socket.Client)
    (received : ByteArray) :
    Async ByteArray := do
  match ← client.recv? 65536 with
  | none => return received
  | some bytes => receiveAll client (received ++ bytes)

/- Sends a request to an address, and receives the reply. -/
def exchangeWith
    (address : Std.Net.IPAddr)
    (port : UInt16)
    (request : HttpRequest) :
    Async (Except HttpFault HttpReply) := do
  let client ← TCP.Socket.Client.mk
  client.connect
    (match address with
      | .v4 address => .v4 ⟨address, port⟩
      | .v6 address => .v6 ⟨address, port⟩)
  client.send request.written.toUTF8
  let received ← receiveAll client ByteArray.empty
  return HttpReply.read received.toList

/- Sends a request and receives the reply. -/
def exchange
    (request : HttpRequest) :
    IO (Except HttpFault HttpReply) := do
  let host :=
    (request.server.host.getD "").toList.filter fun c =>
      c ≠ '[' && c ≠ ']'
  if request.server.scheme ≠ "http" then
    return .error (.unanswered "no secure connections")
  try
    let addresses ←
      (DNS.getAddrInfo (String.ofList host) "").block
    match addresses[0]? with
    | none => return .error (.unanswered "unknown host")
    | some address =>
        let port := (request.server.port.getD 80).toUInt16
        (exchangeWith address port request).block
  catch fault =>
    return .error (.unanswered (toString fault))

/- Waits for a result until a moment has passed. -/
partial def awaitUntil
    (task : Task (Except IO.Error (Except HttpFault HttpReply)))
    (deadline : Nat) :
    IO (Except HttpFault HttpReply) := do
  if ← IO.hasFinished task then
    match task.get with
    | .ok result => return result
    | .error fault =>
        return .error (.unanswered (toString fault))
  else if deadline ≤ (← IO.monoNanosNow) then
    return .error (.unanswered "the operation timed out")
  else
    IO.sleep 2
    awaitUntil task deadline

------------------------------------------------------------
-- Commands
------------------------------------------------------------

/- Carries a command out, making the exchanges that it asks
   for. -/
partial def carryOut
    (line : CommandLine)
    (environment : List (String × String))
    (desk : Desk)
    (start : Nat)
    (exchanges : List Exchange) :
    IO CommandOutcome := do
  let (outcome, session) :=
    line.run .plain environment Link.replayed desk
      ⟨0, Transcript.ofExchanges exchanges⟩
  match session.state.wanted with
  | none => return outcome
  | some (request, moment) =>
      let passed := (← IO.monoNanosNow) - start
      IO.sleep ((moment - passed) / 1000000).toUInt32
      let task ← IO.asTask (exchange request)
      let limit := request.timeout.nanoseconds
      let result ←
        awaitUntil task ((← IO.monoNanosNow) + limit)
      let finished := (← IO.monoNanosNow) - start
      carryOut line environment desk start
        (exchanges ++ [⟨result, finished⟩])

/- The files of some paths that can be read. -/
def readFiles (paths : List String) : IO Files := do
  let found ← paths.mapM fun (path : String) => do
    try
      let content ← IO.FS.readFile path
      return some (Files.nameAt path, content)
    catch _ => return none
  return found.filterMap fun file => file

/- Writes what is not in the files as they were. -/
def writeFiles (before after : Files) : IO Unit :=
  after.forM fun (path, content) => do
    if before.lookup path ≠ some content then
      IO.FS.writeFile path content

def main (arguments : List String) : IO UInt32 := do
  let environment :=
    (← Std.Internal.UV.System.osEnviron).toList
  match CommandLine.parse arguments environment with
  | .error fault =>
      IO.eprintln ("error: " ++ fault.message)
      return 2
  | .ok line =>
      let files ← readFiles line.paths
      let start ← IO.monoNanosNow
      let outcome ←
        carryOut line environment ⟨files, []⟩ start []
      writeFiles files outcome.desk.files
      outcome.desk.lines.forM IO.println
      outcome.complaint.toList.forM IO.eprintln
      return outcome.exitCode.toUInt32
