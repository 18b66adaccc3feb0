import Converge.Json.Printer
import Converge.Json.Reader
import Converge.Store.Basic
import Converge.Web.Http

/-
  A store behind the interface of a cluster's server.

  Objects live under a path of groups, versions, namespaces
  and plural names. Every call is one request, and the
  status of the reply decides what it means.

  Key definitions:
    * `RemoteStore.connect`: a store at an endpoint
    * `RemoteStore.segments`: the path of an object
    * `RemoteStore.answer`: the meaning of a reply
    * `RemoteStore.store`: the calls as a store
-/

namespace Converge

/- How to reach a server. -/
structure RemoteOptions where
  endpoint : String
  token : Option String
  skipVerification : Bool
  timeout : Duration
deriving DecidableEq

/- A server: its address, the path under which it serves, the
   token that opens it, and how long it may take. -/
structure RemoteStore where
  address : Address
  root : List String
  token : Option String
  timeout : Duration
deriving DecidableEq

namespace RemoteStore

/- The text that a server reads a patch document by. -/
def patchType : String := "application/json-patch+json"

def jsonType : String := "application/json"

------------------------------------------------------------
-- Connecting
------------------------------------------------------------

/- A fault of an endpoint. -/
def invalidEndpoint
    (endpoint : String)
    (detail : String) :
    StoreError :=
  .client ("invalid endpoint '" ++ endpoint ++ "': " ++ detail)

/- The store at an endpoint, whose path can be extended. -/
def connect
    (options : RemoteOptions) :
    Except StoreError RemoteStore :=
  match Address.parse options.endpoint with
  | .error fault =>
      .error (invalidEndpoint options.endpoint fault.message)
  | .ok address =>
      match address.segments? with
      | none =>
          .error
            (invalidEndpoint options.endpoint "not a base URL")
      | some segments =>
          .ok
            ⟨address, Address.withoutEmptyEnd segments,
              options.token, options.timeout⟩

------------------------------------------------------------
-- Requests
------------------------------------------------------------

/- The parts of a path to the objects of a type, or to one of
   them. -/
def parts
    (type : ResourceType)
    (namespaceName : String)
    (name : Option String) :
    List String :=
  let start :=
    if type.group = "" then ["api", type.version]
    else ["apis", type.group, type.version]
  start ++ ["namespaces", namespaceName, type.plural] ++
    name.toList

/- The segments of that path on a server. -/
def segments
    (remote : RemoteStore)
    (type : ResourceType)
    (namespaceName : String)
    (name : Option String) :
    List String :=
  Address.pushAll remote.root (parts type namespaceName name)

/- A request to a server. -/
def request
    (remote : RemoteStore)
    (method : HttpMethod)
    (segments : List String)
    (contentType : Option String)
    (body : Option String) :
    HttpRequest where
  method := method
  server := remote.address
  target := remote.address.target segments
  accept := jsonType
  authorization :=
    remote.token.map fun token => "Bearer " ++ token
  contentType := contentType
  body := body
  timeout := remote.timeout

/- The request for an object. -/
def objectRequest
    (remote : RemoteStore)
    (method : HttpMethod)
    (coordinate : Coordinate)
    (contentType : Option String)
    (body : Option String) :
    HttpRequest :=
  remote.request method
    (remote.segments coordinate.type coordinate.namespaceName
      (some coordinate.name))
    contentType body

/- The request that creates an object. -/
def createRequest
    (remote : RemoteStore)
    (type : ResourceType)
    (namespaceName : String)
    (body : Json) :
    HttpRequest :=
  remote.request .post
    (remote.segments type namespaceName none)
    (some jsonType) (some body.compact)

------------------------------------------------------------
-- Replies
------------------------------------------------------------

/- The text of a refusal: the message of the status object
   that came with it, or else all that came. -/
def refusal (body : String) : String :=
  let told := do
    let value ← Json.readNested? body
    (← value.canonical.member? "message").asString?
  told.getD body

/- The meaning of a reply, for an object if the request named
   one. -/
def answer
    (coordinate : Option Coordinate)
    (reply : HttpReply) :
    Except StoreError Json :=
  if reply.isSuccess then
    if Text.isBlank reply.body then .ok .null
    else
      match Json.readNested? reply.body with
      | some value => .ok value.canonical
      | none => .error (.encoding "the reply is not JSON")
  else
    let rejected : StoreError :=
      if reply.status = 401 ∨ reply.status = 403 then
        .client
          ("not authorized (HTTP " ++ toString reply.status ++
            "): " ++ refusal reply.body)
      else .rejected reply.status (refusal reply.body)
    match coordinate with
    | some coordinate =>
        if reply.status = 404 then .error (.missing coordinate)
        else .error rejected
    | none => .error rejected

------------------------------------------------------------
-- As a Store
------------------------------------------------------------

variable {σ : Type}

/- Sends a request, unless its headers cannot be written, and
   reads the reply. -/
def send
    (link : Link σ)
    (coordinate : Option Coordinate)
    (request : HttpRequest) :
    Calls σ StoreError Json := do
  let header := request.authorization.getD ""
  if header.toList.all isHeaderChar then
    let reply ←
      (link request).mapError fun fault =>
        .client fault.message
    MonadExcept.ofExcept (answer coordinate reply)
  else
    let fault : HttpFault := .unanswered "invalid header"
    throw (.client fault.message)

/- The name of the backend. -/
def backendName : String := "kubernetes"

/- The store behind a server. -/
def store
    (remote : RemoteStore)
    (link : Link σ) :
    Store σ where
  name := backendName
  get coordinate :=
    send link (some coordinate)
      (remote.objectRequest .get coordinate none none)
  create type namespaceName body :=
    send link none
      (remote.createRequest type namespaceName body)
  patch coordinate document :=
    send link (some coordinate)
      (remote.objectRequest .patch coordinate
        (some patchType) (some document))
  delete coordinate := do
    let _ ←
      send link (some coordinate)
        (remote.objectRequest .delete coordinate none none)

end RemoteStore

end Converge
