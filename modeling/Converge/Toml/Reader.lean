import Converge.Toml.Scalar
import Converge.Toml.Token

/-
  Reading TOML documents.

  A document consists of lines, but values may go on over
  several of them. The reader takes one token at a time. It
  keeps the entries so far, the header that lines stand
  under, the containers that are still open, innermost first,
  and what may come next.

  Key definitions:
    * `Toml.Reader`: the state between two tokens
    * `Toml.read?`: the entries of a document
-/

namespace Converge

namespace Toml

------------------------------------------------------------
-- Drafts
------------------------------------------------------------

/- A document between two lines: its entries, and the path
   of the header that lines stand under. -/
structure Draft where
  entries : Entries
  header : List String

namespace Draft

/- Sets the value of a key. -/
def assign?
    (key : List String)
    (value : Toml)
    (draft : Draft) :
    Option Draft :=
  (under? (Toml.assign? value key) draft.header
      draft.entries).map
    fun (entries : Entries) => ⟨entries, draft.header⟩

/- Goes on under a header, which is double or single. -/
def enter?
    (isDouble : Bool)
    (path : List String)
    (draft : Draft) :
    Option Draft := do
  let key ← path.getLast?
  let open? := if isDouble then openItem? else openTable?
  let entries ←
    under? (open? key) path.dropLast draft.entries
  return ⟨entries, path⟩

end Draft

------------------------------------------------------------
-- Open Containers
------------------------------------------------------------

/- Something that waits for a value: a line, an array, or a
   table in braces. Items are in reverse order. -/
inductive Frame where
  | line (key : List String)
  | array (items : List Toml)
  | braces (entries : Entries) (key : List String)

/- What a key is for: a line, a header, or an entry of a
   table in braces. -/
inductive KeyUse where
  | line
  | header (isDouble : Bool)
  | braces (entries : Entries)

/- What may come next. The parts of a key are in reverse
   order, and so is the text of a scalar. -/
inductive Await where
  | line
  | lineEnd
  | header
  | keyPart (use : KeyUse) (parts : List String)
  | afterPart (use : KeyUse) (parts : List String)
  | secondBracket (path : List String)
  | value
  | scalar (text : List Char)
  | spaced (text : List Char)
  | item (items : List Toml)
  | afterItem (items : List Toml)
  | entry (entries : Entries)
  | afterEntry (entries : Entries)

/- A reader between two tokens. -/
structure Reader where
  draft : Draft
  frames : List Frame
  await : Await

/- How deeply arrays and tables in braces may nest, and how
   many parts a key may have. -/
def maxDepth : Nat := 80

namespace Reader

/- Before the first token. -/
def initial : Reader :=
  ⟨⟨[], []⟩, [], .line⟩

/- Hands a complete value to the innermost container. -/
def complete?
    (draft : Draft)
    (value : Toml) :
    List Frame → Option Reader
  | [] => none
  | .line key :: frames =>
      (draft.assign? key value).map fun draft =>
        ⟨draft, frames, .lineEnd⟩
  | .array items :: frames =>
      some ⟨draft, frames, .afterItem (value :: items)⟩
  | .braces entries key :: frames =>
      (assign? value key entries).map
        fun (entries : Entries) =>
          ⟨draft, frames, .afterEntry entries⟩

/- Opens a container, unless that nests too deeply. The
   outermost frame is a line. -/
def enter?
    (draft : Draft)
    (frames : List Frame)
    (await : Await) :
    Option Reader :=
  if frames.length ≤ maxDepth then
    some ⟨draft, frames, await⟩
  else none

/- Reads the first token of a value. -/
def startValue?
    (draft : Draft)
    (frames : List Frame) :
    Token → Option Reader
  | .bare chars => some ⟨draft, frames, .scalar chars.reverse⟩
  | .quoted chars _ =>
      complete? draft (.text (String.ofList chars)) frames
  | .openBracket => enter? draft frames (.item [])
  | .openBrace => enter? draft frames (.entry [])
  | _ => none

/- The part of a key that a token is. -/
def part? : Token → Option String
  | .bare chars =>
      if chars.all fun c => c ≠ '+' && c ≠ ':' then
        some (String.ofList chars)
      else none
  | .quoted chars false => some (String.ofList chars)
  | _ => none

/- Reads a part of a key. -/
def readPart?
    (reader : Reader)
    (use : KeyUse)
    (parts : List String)
    (token : Token) :
    Option Reader :=
  if parts.length < maxDepth then
    (part? token).map fun part =>
      { reader with await := .afterPart use (part :: parts) }
  else none

/- Reads the token that ends a key. -/
def endKey?
    (reader : Reader)
    (path : List String)
    (token : Token) :
    KeyUse → Option Reader
  | .line =>
      if token = .equals then
        some ⟨reader.draft, [.line path], .value⟩
      else none
  | .braces entries =>
      if token = .equals then
        some
          ⟨reader.draft, .braces entries path :: reader.frames,
            .value⟩
      else none
  | .header isDouble =>
      if token = .closeBracket then
        if isDouble then
          some { reader with await := .secondBracket path }
        else
          (reader.draft.enter? false path).map fun draft =>
            ⟨draft, [], .lineEnd⟩
      else none

/- What is passed over between the items of containers. -/
def isGap : Token → Bool
  | .blank _ => true
  | .newline => true
  | _ => false

/- Reads a token that is not part of a scalar. -/
def next?
    (reader : Reader)
    (token : Token) :
    Option Reader :=
  let ⟨draft, frames, await⟩ := reader
  match await, token with
  | .line, .newline => some reader
  | .lineEnd, .newline => some ⟨draft, frames, .line⟩
  | .header, .openBracket =>
      some ⟨draft, frames, .keyPart (.header true) []⟩
  | .header, .blank _ =>
      some ⟨draft, frames, .keyPart (.header false) []⟩
  | .header, token =>
      readPart? reader (.header false) [] token
  | .secondBracket path, .closeBracket =>
      (draft.enter? true path).map fun draft =>
        ⟨draft, [], .lineEnd⟩
  | .secondBracket _, _ => none
  | .item items, .closeBracket =>
      complete? draft (.list items.reverse) frames
  | .item items, token =>
      if isGap token then some reader
      else startValue? draft (.array items :: frames) token
  | .afterItem items, .closeBracket =>
      complete? draft (.list items.reverse) frames
  | .afterItem items, .comma =>
      some ⟨draft, frames, .item items⟩
  | .afterItem _, token =>
      if isGap token then some reader else none
  | .entry entries, .closeBrace =>
      complete? draft (.table .braces entries) frames
  | .entry entries, token =>
      if isGap token then some reader
      else readPart? reader (.braces entries) [] token
  | .afterEntry entries, .closeBrace =>
      complete? draft (.table .braces entries) frames
  | .afterEntry entries, .comma =>
      some ⟨draft, frames, .entry entries⟩
  | .afterEntry _, token =>
      if isGap token then some reader else none
  | _, .blank _ => some reader
  | .line, .openBracket => some ⟨draft, frames, .header⟩
  | .line, token => readPart? reader .line [] token
  | .keyPart use parts, token =>
      readPart? reader use parts token
  | .afterPart use parts, .point =>
      some ⟨draft, frames, .keyPart use parts⟩
  | .afterPart use parts, token =>
      endKey? reader parts.reverse token use
  | .value, token => startValue? draft frames token
  | _, _ => none

/- Ends a scalar, if one is being read. -/
def endScalar? (reader : Reader) : Option Reader :=
  match reader.await with
  | .scalar chars =>
      (scalar? chars.reverse).bind fun value =>
        complete? reader.draft value reader.frames
  | .spaced chars =>
      (scalar? chars.reverse).bind fun value =>
        complete? reader.draft value reader.frames
  | _ => some reader

/- Reads one more token. A scalar goes on after a point, and
   after a single space if more text follows. -/
def step?
    (reader : Reader)
    (token : Token) :
    Option Reader :=
  match reader.await, token with
  | .scalar chars, .bare more =>
      some
        { reader with
          await := .scalar (more.reverse ++ chars) }
  | .scalar chars, .point =>
      some { reader with await := .scalar ('.' :: chars) }
  | .scalar chars, .blank true =>
      some { reader with await := .spaced chars }
  | .spaced chars, .bare more =>
      some
        { reader with
          await := .scalar (more.reverse ++ ' ' :: chars) }
  | _, token =>
      (endScalar? reader).bind fun reader =>
        next? reader token

/- The entries read, when the last line is complete. -/
def result? (reader : Reader) : Option Entries :=
  (endScalar? reader).bind fun (reader : Reader) =>
    match reader.await with
    | .line => some reader.draft.entries
    | .lineEnd => some reader.draft.entries
    | _ => none

end Reader

------------------------------------------------------------
-- Documents
------------------------------------------------------------

/- Reads the entries of a document, which a mark of the byte
   order may lead. -/
def read? (document : String) : Option Entries := do
  let tokens ←
    Token.split? (Text.dropOrderMark document).toList
  let reader ← tokens.foldlM Reader.step? Reader.initial
  reader.result?

end Toml

end Converge
