import Converge.Calls
import Converge.Time.Duration
import Converge.Web.Address

/-
  Requests to a server and its replies.

  Key definitions:
    * `HttpRequest`, `HttpReply`: the two halves of an
      exchange
    * `HttpFault`: how an exchange may fail
    * `Link`: the way to a server
-/

namespace Converge

/- What a request asks for. -/
inductive HttpMethod where
  | get
  | post
  | patch
  | delete
deriving DecidableEq

namespace HttpMethod

def text : HttpMethod → String
  | .get => "GET"
  | .post => "POST"
  | .patch => "PATCH"
  | .delete => "DELETE"

end HttpMethod

/- A request: where it goes, what it names there, what it
   carries, and how long its reply may take. -/
structure HttpRequest where
  method : HttpMethod
  server : Address
  target : String
  accept : String
  authorization : Option String
  contentType : Option String
  body : Option String
  timeout : Duration
deriving DecidableEq

/- A complete reply. -/
structure HttpReply where
  status : Nat
  body : String
deriving DecidableEq

namespace HttpReply

def isSuccess (reply : HttpReply) : Bool :=
  200 ≤ reply.status && reply.status < 300

end HttpReply

/- An exchange fails before a reply comes, or while its body
   does. -/
inductive HttpFault where
  | unanswered (detail : String)
  | broken (detail : String)
deriving DecidableEq

namespace HttpFault

def message : HttpFault → String
  | .unanswered detail => "request failed: " ++ detail
  | .broken detail => "failed to read response: " ++ detail

end HttpFault

/- The way to a server: each request is answered or fails. -/
abbrev Link (σ : Type) :=
  HttpRequest → Calls σ HttpFault HttpReply

namespace Link

/- A way on which nothing gets through. -/
def severed {σ : Type} : Link σ :=
  fun _ => throw (.unanswered "no connection")

end Link

/- Whether a character may stand in the value of a header. -/
def isHeaderChar (c : Char) : Bool :=
  c = '\t' || (32 ≤ c.toNat && c.toNat ≠ 127)

end Converge
