import Converge.Web.Host

/-
  Addresses of servers and of what they serve.

  An address is read once, and then extended segment by
  segment. Common schemes always have a host and a path that
  starts at a root; other addresses may have neither.

  Key definitions:
    * `Address`: scheme, host, port, path and query
    * `Address.parse`: reading an address
    * `Address.push`: one more segment
    * `Address.target`: what a request names
-/

namespace Converge

/- The path of an address: segments under a root, or a text
   of its own that cannot be extended. -/
inductive AddressPath where
  | segments (segments : List String)
  | rootless (text : String)
deriving DecidableEq

/- The parts of an address. Segments and query are
   percent-encoded. -/
structure Address where
  scheme : String
  host : Option String
  port : Option Nat
  path : AddressPath
  query : Option String
deriving DecidableEq

namespace Address

------------------------------------------------------------
-- Characters
------------------------------------------------------------

/- Characters that are passed over wherever they stand. -/
def isSkipped (c : Char) : Bool :=
  c = '\t' || c = '\n' || c = '\r'

/- Characters that are cut off at both ends. -/
def isOuter (c : Char) : Bool :=
  c.toNat ≤ 32

/- The characters of an address that count. -/
def relevant (chars : List Char) : List Char :=
  (Text.dropEndWhile isOuter (chars.dropWhile isOuter)).filter
    fun c => !isSkipped c

/- Schemes whose addresses have a host and a root. -/
def isCommon (scheme : String) : Bool :=
  ["http", "https", "ws", "wss", "ftp"].contains scheme

/- Whether a backslash is as good as a slash. -/
def isSlash
    (common : Bool)
    (c : Char) :
    Bool :=
  c = '/' || (common && c = '\\')

/- Whether a character ends the part with host and port. -/
def endsAuthority
    (common : Bool)
    (c : Char) :
    Bool :=
  isSlash common c || c = '?' || c = '#'

------------------------------------------------------------
-- Scheme
------------------------------------------------------------

def isSchemeChar (c : Char) : Bool :=
  c.isAlphanum || c = '+' || c = '-' || c = '.'

/- The scheme in lower case, and what follows its colon. -/
def splitScheme?
    (chars : List Char) :
    Option (String × List Char) :=
  let name := chars.takeWhile isSchemeChar
  match name, chars.dropWhile isSchemeChar with
  | first :: _, ':' :: rest =>
      if first.isAlpha then
        some (Text.lower (String.ofList name), rest)
      else none
  | _, _ => none

------------------------------------------------------------
-- Host and Port
------------------------------------------------------------

/- What follows the name and password of a user, and whether
   there was any. -/
def dropUser
    (common : Bool)
    (chars : List Char) :
    Except AddressError (Bool × List Char) :=
  let part := chars.takeWhile fun c => !endsAuthority common c
  let tail := chars.drop part.length
  if part.contains '@' then
    let host :=
      (part.reverse.takeWhile fun c => c ≠ '@').reverse
    let user := part.length - host.length - 1
    if user = 0 && host.isEmpty && !tail.isEmpty then
      .error .emptyHost
    else .ok (0 < user, host ++ tail)
  else .ok (false, chars)

/- The characters of a host: up to a port or the end of the
   part; colons within brackets belong to it. -/
def hostChars (common : Bool) :
    Bool → List Char → List Char
  | _, [] => []
  | inside, c :: rest =>
      if endsAuthority common c || (c = ':' && !inside) then []
      else
        c ::
          hostChars common
            (c = '[' || (inside && c ≠ ']')) rest

/- The host, and what follows it. -/
def takeHost
    (common : Bool)
    (chars : List Char) :
    Except AddressError (String × List Char) := do
  let part := hostChars common false chars
  let rest := chars.drop part.length
  if common && part.isEmpty then .error .emptyHost
  else
    let host ←
      if common then Host.parse part
      else Host.parseForeign part
    return (host, rest)

/- The port, if one is given, and what follows it. -/
def takePort :
    List Char → Except AddressError (Option Nat × List Char)
  | ':' :: chars =>
      let digits := chars.takeWhile Char.isDigit
      let rest := chars.dropWhile Char.isDigit
      let ended :=
        match rest with
        | [] => true
        | c :: _ => endsAuthority true c
      if !ended || 65535 < Text.digitsValue digits then
        .error .invalidPort
      else if digits.isEmpty then .ok (none, rest)
      else .ok (some (Text.digitsValue digits), rest)
  | chars => .ok (none, chars)

------------------------------------------------------------
-- Path and Query
------------------------------------------------------------

/- The spellings of a segment that stays where it is. -/
def isSelf (segment : String) : Bool :=
  [".", "%2e"].contains (Text.lower segment)

/- The spellings of a segment that goes back by one. -/
def isParent (segment : String) : Bool :=
  ["..", "%2e.", ".%2e", "%2e%2e"].contains
    (Text.lower segment)

/- Follows a segment. At the end of a path, a segment that
   moves leaves an empty one behind. -/
def follow
    (reached : List String)
    (last : Bool)
    (segment : String) :
    List String :=
  let closing := if last then [""] else []
  if isParent segment then reached.dropLast ++ closing
  else if isSelf segment then reached ++ closing
  else reached ++ [segment]

/- Follows segments one after the other. -/
def followAll
    (reached : List String) :
    List String → List String
  | [] => reached
  | [segment] => follow reached true segment
  | segment :: segments =>
      followAll (follow reached false segment) segments

/- Splits characters at their slashes. -/
def splitPath
    (common : Bool) :
    List Char → List (List Char)
  | [] => [[]]
  | c :: rest =>
      if isSlash common c then [] :: splitPath common rest
      else
        match splitPath common rest with
        | [] => [[c]]
        | part :: parts => (c :: part) :: parts

/- The segments of a path without its first slash. -/
def readSegments
    (common : Bool)
    (chars : List Char) :
    List String :=
  followAll []
    ((splitPath common chars).map fun part =>
      String.ofList
        (Percent.encode Percent.reservedInPath part))

/- The path before a query or a fragment. A common address
   has at least a root. -/
def readPath
    (common : Bool) :
    List Char → List String
  | [] => if common then [""] else []
  | c :: rest =>
      if isSlash common c then readSegments common rest
      else readSegments common (c :: rest)

/- The query, without its mark and the fragment. -/
def readQuery : List Char → Option String
  | '?' :: rest =>
      some
        (String.ofList
          (Percent.encode Percent.reservedInQuery
            (rest.takeWhile fun c => c ≠ '#')))
  | _ => none

/- Whether a character starts a query or a fragment. -/
def endsPath (c : Char) : Bool :=
  c = '?' || c = '#'

/- An address of what precedes its path, and the rest. -/
def withRest
    (scheme : String)
    (host : Option String)
    (port : Option Nat)
    (rest : List Char) :
    Address :=
  let common := isCommon scheme || scheme = "file"
  let path := rest.takeWhile fun c => !endsPath c
  ⟨scheme, host, port,
    .segments (readPath common path),
    readQuery (rest.drop path.length)⟩

/- Reads what follows the slashes before a host. -/
def readAuthority
    (scheme : String)
    (chars : List Char) :
    Except AddressError Address := do
  let common := isCommon scheme
  let (user, chars) ← dropUser common chars
  let (host, rest) ← takeHost common chars
  if host = "" && (user || rest.head? = some ':') then
    .error .emptyHost
  let (port, rest) ← takePort rest
  return withRest scheme (some host) port rest

/- Reads an address of a local file. -/
def readFile (chars : List Char) : Except AddressError Address :=
  match chars with
  | first :: second :: rest =>
      if isSlash true first && isSlash true second then do
        let part :=
          rest.takeWhile fun c => !endsAuthority true c
        let host ←
          if part.isEmpty then pure none
          else (Host.parse part).map some
        return withRest "file" host none
          (rest.drop part.length)
      else .ok (withRest "file" none none chars)
  | _ => .ok (withRest "file" none none chars)

/- Reads an address. -/
def parse (text : String) : Except AddressError Address :=
  match splitScheme? (relevant text.toList) with
  | none => .error .relative
  | some (scheme, rest) =>
      if scheme = "file" then readFile rest
      else if isCommon scheme then
        readAuthority scheme (rest.dropWhile (isSlash true))
      else
        match rest with
        | '/' :: '/' :: rest => readAuthority scheme rest
        | '/' :: _ => .ok (withRest scheme none none rest)
        | _ =>
            let path := rest.takeWhile fun c => !endsPath c
            .ok
              ⟨scheme, none, none,
                .rootless (String.ofList path),
                readQuery (rest.drop path.length)⟩

------------------------------------------------------------
-- Extending
------------------------------------------------------------

/- The segments of a path that can be extended. -/
def segments? (address : Address) : Option (List String) :=
  match address.path with
  | .segments segments => some segments
  | .rootless _ => none

/- The segments without an empty one at their end. -/
def withoutEmptyEnd (segments : List String) : List String :=
  if segments.getLast? = some "" then segments.dropLast
  else segments

/-
  One more segment of a path. Segments that move are not
  pushed. The lone empty segment of a root gives way.
-/
def push
    (segments : List String)
    (segment : String) :
    List String :=
  if segment = "." || segment = ".." then segments
  else
    let kept := segment.toList.filter fun c => !isSkipped c
    let written :=
      String.ofList (Percent.encode Percent.reservedInSegment
        kept)
    let reached := if segments = [""] then [] else segments
    if written = ".." then reached.dropLast ++ [""]
    else if written = "." then reached ++ [""]
    else reached ++ [written]

/- The segments after pushing several. -/
def pushAll
    (segments : List String)
    (added : List String) :
    List String :=
  added.foldl push segments

------------------------------------------------------------
-- Writing
------------------------------------------------------------

/- Segments, each after a slash. -/
def pathText (segments : List String) : String :=
  String.join (segments.map fun segment => "/" ++ segment)

/- What a request for a path names: the path and the query of
   the address. -/
def target
    (address : Address)
    (segments : List String) :
    String :=
  let path := pathText segments
  match address.query with
  | none => path
  | some query => path ++ "?" ++ query

end Address

end Converge
