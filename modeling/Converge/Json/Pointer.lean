import Converge.Json.Basic
import Converge.Text

/-
  Pointers to values inside a JSON value: sequences of
  tokens, each the key of a member or the position of an
  item.

  In the written form each token follows a slash; inside a
  token a tilde is written `~0` and a slash `~1`.

  Key definitions:
    * `Pointer`: the tokens on the way to a value
    * `Pointer.text`, `Pointer.read?`: written form
    * `Pointer.resolve?`: the value pointed to
-/

namespace Converge

/- The tokens on the way from a value to one inside it. -/
abbrev Pointer := List String

namespace Pointer

------------------------------------------------------------
-- Written Form
------------------------------------------------------------

/- A character as it stands in a token. -/
def escapeChar (c : Char) : List Char :=
  if c = '~' then ['~', '0']
  else if c = '/' then ['~', '1']
  else [c]

/- The written form of a token. -/
def escapeChars (token : List Char) : List Char :=
  token.flatMap escapeChar

def escape (token : String) : String :=
  String.ofList (escapeChars token.toList)

/- The token of a written form; a tilde stands only in front
   of a zero or a one. -/
def unescapeChars? : List Char → Option (List Char)
  | [] => some []
  | '~' :: '0' :: rest => (unescapeChars? rest).map ('~' :: ·)
  | '~' :: '1' :: rest => (unescapeChars? rest).map ('/' :: ·)
  | c :: rest =>
      if c = '~' then none
      else (unescapeChars? rest).map (c :: ·)

/- Characters of the written form. -/
def chars (pointer : Pointer) : List Char :=
  pointer.flatMap fun token =>
    '/' :: escapeChars token.toList

def text (pointer : Pointer) : String :=
  String.ofList pointer.chars

/- Splits at every slash. -/
def splitSlashes : List Char → List (List Char)
  | [] => [[]]
  | c :: rest =>
      match splitSlashes rest with
      | [] => [[c]]
      | first :: others =>
          if c = '/' then [] :: first :: others
          else (c :: first) :: others

/- Reads a written pointer, which is empty or starts with a
   slash. -/
def readChars? : List Char → Option Pointer
  | [] => some []
  | '/' :: rest =>
      (splitSlashes rest).mapM fun token =>
        (unescapeChars? token).map String.ofList
  | _ => none

def read? (text : String) : Option Pointer :=
  readChars? text.toList

------------------------------------------------------------
-- Positions
------------------------------------------------------------

/- The position that a token denotes: decimal digits without
   a leading zero. -/
def position? (token : String) : Option Nat :=
  let digits := token.toList
  if digits.isEmpty || !digits.all Char.isDigit then none
  else if 1 < digits.length && digits.head? = some '0' then
    none
  else some (Text.digitsValue digits)

/- The position of a token within so many items. -/
def positionBelow?
    (token : String)
    (count : Nat) :
    Option Nat :=
  (position? token).filter fun position => position < count

------------------------------------------------------------
-- Resolution
------------------------------------------------------------

/- The value that a token leads to. -/
def child? : Json → String → Option Json
  | .obj members, token => members.lookup token
  | .arr items, token => do items[← position? token]?
  | _, _ => none

/- The value pointed to. -/
def resolve? : Pointer → Json → Option Json
  | [], value => some value
  | token :: rest, value =>
      (child? value token).bind (resolve? rest)

/- Changes the value pointed to, when there is one. -/
def modify?
    (change : Json → Option Json) :
    Pointer → Json → Option Json
  | [], value => change value
  | token :: rest, .obj members => do
      let value ← members.lookup token
      let changed ← modify? change rest value
      return .obj (Keyed.put token changed members)
  | token :: rest, .arr items => do
      let position ← position? token
      let value ← items[position]?
      let changed ← modify? change rest value
      return .arr (items.set position changed)
  | _ :: _, _ => none

end Pointer

end Converge
