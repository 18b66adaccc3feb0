import Converge.Json.Basic

/-
  Tokens of a JSON text, and how they are written.

  Key definitions:
    * `Token`: punctuation, scalars and strings
    * `Token.text`: written form
-/

namespace Converge

namespace Json

/- A lexical unit. -/
inductive Token where
  | openArray
  | closeArray
  | openObject
  | closeObject
  | comma
  | colon
  | null
  | bool (value : Bool)
  | num (number : Number)
  | str (text : List Char)
deriving DecidableEq

namespace Token

/- The digit of a hexadecimal place, in lower case. -/
def hexDigit (place : Nat) : Char :=
  if place < 10 then Char.ofNat ('0'.toNat + place)
  else Char.ofNat ('a'.toNat + (place - 10))

/- A character as it stands in a string: only the quote, the
   backslash and control characters are escaped. -/
def escaped (c : Char) : List Char :=
  if c = '"' then ['\\', '"']
  else if c = '\\' then ['\\', '\\']
  else if c = '\x08' then ['\\', 'b']
  else if c = '\x0c' then ['\\', 'f']
  else if c = '\n' then ['\\', 'n']
  else if c = '\r' then ['\\', 'r']
  else if c = '\t' then ['\\', 't']
  else if c.toNat < 32 then
    ['\\', 'u', '0', '0',
      hexDigit (c.toNat / 16), hexDigit (c.toNat % 16)]
  else [c]

/- A string with its quotes. -/
def quoted (text : List Char) : List Char :=
  '"' :: text.flatMap escaped ++ ['"']

/- Written form of a token. -/
def text : Token → List Char
  | .openArray => ['[']
  | .closeArray => [']']
  | .openObject => ['\x7b']
  | .closeObject => ['\x7d']
  | .comma => [',']
  | .colon => [':']
  | .null => ['n', 'u', 'l', 'l']
  | .bool true => ['t', 'r', 'u', 'e']
  | .bool false => ['f', 'a', 'l', 's', 'e']
  | .num number => number.text
  | .str text => quoted text

end Token

end Json

end Converge
