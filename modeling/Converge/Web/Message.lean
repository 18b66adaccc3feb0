import Converge.Web.Http

/-
  Requests and replies as they are written on a connection
  that serves one exchange.

  The body of a reply ends after a length that its headers
  give, after an empty chunk, or where the connection ends.

  Key definitions:
    * `HttpRequest.written`: what is sent
    * `HttpReply.read`: the meaning of what was received
-/

namespace Converge

------------------------------------------------------------
-- Requests
------------------------------------------------------------

namespace Address

/- Host and port, as a request names them. -/
def authority (address : Address) : String :=
  let host := address.host.getD ""
  match address.port with
  | none => host
  | some port => host ++ ":" ++ toString port

end Address

namespace HttpRequest

/- The lines of the headers. -/
def headerLines (request : HttpRequest) : List String :=
  let given (name : String) (value : Option String) :=
    (value.map fun value => name ++ ": " ++ value).toList
  let length :=
    request.body.map fun body => toString body.utf8ByteSize
  [ "host: " ++ request.server.authority,
    "accept: " ++ request.accept,
    "connection: close" ] ++
    given "authorization" request.authorization ++
    given "content-type" request.contentType ++
    given "content-length" length

/- What is sent. -/
def written (request : HttpRequest) : String :=
  let first :=
    request.method.text ++ " " ++ request.target ++ " HTTP/1.1"
  let lines := first :: request.headerLines ++ ["", ""]
  "\x0d\n".intercalate lines ++ request.body.getD ""

end HttpRequest

------------------------------------------------------------
-- Replies
------------------------------------------------------------

namespace HttpReply

/- The status of a reply and its headers, whose names are in
   lower case. -/
structure Head where
  status : Nat
  headers : List (String × String)

/- Splits off the lines before an empty one. -/
def splitHead? :
    List UInt8 → Option (List UInt8 × List UInt8)
  | 13 :: 10 :: 13 :: 10 :: rest => some ([], rest)
  | byte :: rest =>
      (splitHead? rest).map fun (head, rest) =>
        (byte :: head, rest)
  | [] => none

/- A line of a header. -/
def header? (line : String) : Option (String × String) :=
  match line.splitOn ":" with
  | name :: first :: more =>
      some
        (Text.lower (Text.trim name),
          Text.trim (":".intercalate (first :: more)))
  | _ => none

/- Bytes as characters of the same codes. -/
def charsOf (bytes : List UInt8) : String :=
  String.ofList (bytes.map fun byte => Char.ofNat byte.toNat)

/- Reads the lines of status and headers. -/
def head? (bytes : List UInt8) : Option Head :=
  match (charsOf bytes).splitOn "\x0d\n" with
  | first :: lines =>
      match first.splitOn " " with
      | _ :: status :: _ =>
          status.toNat?.map fun status =>
            ⟨status, lines.filterMap header?⟩
      | _ => none
  | [] => none

/- Splits off a line. -/
def splitLine? : List UInt8 → Option (List UInt8 × List UInt8)
  | 13 :: 10 :: rest => some ([], rest)
  | byte :: rest =>
      (splitLine? rest).map fun (line, rest) =>
        (byte :: line, rest)
  | [] => none

/- The size of a chunk, which stands in a line of its own. -/
def chunkSize? (line : List UInt8) : Option Nat :=
  Text.inBase? 16
    ((charsOf line).toList.takeWhile fun c =>
      (Text.hexValue? c).isSome)

/- Joins chunks up to the empty one. Every chunk takes fuel,
   of which the number of bytes is enough. -/
def joinChunks? :
    Nat → List UInt8 → Option (List UInt8)
  | 0, _ => none
  | fuel + 1, bytes => do
      let (line, rest) ← splitLine? bytes
      let size ← chunkSize? line
      if size = 0 then return []
      else if rest.length < size + 2 then none
      else
        let more ← joinChunks? fuel (rest.drop (size + 2))
        return rest.take size ++ more

/- The bytes of a body, if all of them came. -/
def body?
    (head : Head)
    (bytes : List UInt8) :
    Option (List UInt8) :=
  let coding := (head.headers.lookup "transfer-encoding").map
    Text.lower
  let length :=
    (head.headers.lookup "content-length").bind String.toNat?
  if head.status = 204 || head.status = 304 then some []
  else if coding = some "chunked" then
    joinChunks? (bytes.length + 1) bytes
  else
    match length with
    | none => some bytes
    | some length =>
        if bytes.length < length then none
        else some (bytes.take length)

/- The meaning of all that was received. -/
def read (bytes : List UInt8) : Except HttpFault HttpReply :=
  let head :=
    (splitHead? bytes).bind fun (head, rest) =>
      (head? head).map fun head => (head, rest)
  match head with
  | none => .error (.unanswered "the connection was closed")
  | some (head, rest) =>
      let text :=
        (body? head rest).bind fun body =>
          String.fromUTF8? ⟨body.toArray⟩
      match text with
      | none => .error (.broken "the body is incomplete")
      | some body => .ok ⟨head.status, body⟩

end HttpReply

end Converge
