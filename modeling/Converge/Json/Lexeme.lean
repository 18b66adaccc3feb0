import Converge.Json.Token

/-
  The lexical units of a JSON text.

  A text may hold numerals beyond every floating point number
  and escapes that stand for no character. Both are spelled
  well but denote nothing, and whoever reads the text decides
  whether that matters.

  Splitting is one pass over the characters with a small
  state. A numeral or a word ends where the first character
  that cannot belong to it stands, and that character is
  then read as the start of something new.

  Key definitions:
    * `Lexeme`: a token, or something that denotes nothing
    * `Lexeme.split?`: the lexical units of a text
-/

namespace Converge

namespace Json

/- A lexical unit: a token, a numeral beyond all numbers, or
   a string with half of a surrogate pair. -/
inductive Lexeme where
  | token (token : Token)
  | vastNumeral
  | brokenString
deriving DecidableEq

namespace Lexeme

------------------------------------------------------------
-- Single Units
------------------------------------------------------------

/- The unit that a word of letters is. -/
def ofWord? (letters : List Char) : Option Lexeme :=
  if letters = ['n', 'u', 'l', 'l'] then some (.token .null)
  else if letters = ['t', 'r', 'u', 'e'] then
    some (.token (.bool true))
  else if letters = ['f', 'a', 'l', 's', 'e'] then
    some (.token (.bool false))
  else none

/- The unit that a numeral is. -/
def ofNumeral? (chars : List Char) : Option Lexeme :=
  (Number.written? chars).map fun (negative, numeral) =>
    match numeral.value? negative with
    | some number => .token (.num number)
    | none => .vastNumeral

/- The unit that a string with known characters is, or one
   with characters that there are not. -/
def ofString : Option (List Char) → Lexeme
  | some text => .token (.str text)
  | none => .brokenString

/- The unit that a single character is. -/
def ofPunctuation? (c : Char) : Option Lexeme :=
  if c = '[' then some (.token .openArray)
  else if c = ']' then some (.token .closeArray)
  else if c = '\x7b' then some (.token .openObject)
  else if c = '\x7d' then some (.token .closeObject)
  else if c = ',' then some (.token .comma)
  else if c = ':' then some (.token .colon)
  else none

------------------------------------------------------------
-- The Pass
------------------------------------------------------------

/- Where the pass stands; collected characters are in
   reverse order, and those of a broken string are not
   collected. -/
inductive Mode where
  | blank
  | word (seen : List Char)
  | numeral (seen : List Char)
  | string (seen : Option (List Char))
  | escape (seen : Option (List Char))
  | unicode
      (seen : Option (List Char))
      (high : Option Nat)
      (value : Nat)
      (count : Nat)
  | lowBackslash (seen : Option (List Char)) (high : Nat)
  | lowMark (seen : Option (List Char)) (high : Nat)

/- The state of the pass: its mode and the units found, in
   reverse order. -/
structure Pass where
  mode : Mode
  found : List Lexeme

/- White space between units. -/
def isBlank (c : Char) : Bool :=
  c = ' ' || c = '\t' || c = '\n' || c = '\r'

/- Starts something new at a character. -/
def start?
    (found : List Lexeme)
    (c : Char) :
    Option Pass :=
  if isBlank c then some ⟨.blank, found⟩
  else if c = '"' then some ⟨.string (some []), found⟩
  else if c.isLower then some ⟨.word [c], found⟩
  else if Number.isNumeralChar c then
    some ⟨.numeral [c], found⟩
  else
    (ofPunctuation? c).map fun unit =>
      ⟨.blank, unit :: found⟩

/- The character that a one-letter escape stands for. -/
def unescape? (c : Char) : Option Char :=
  if c = '"' then some '"'
  else if c = '\\' then some '\\'
  else if c = '/' then some '/'
  else if c = 'b' then some '\x08'
  else if c = 'f' then some '\x0c'
  else if c = 'n' then some '\n'
  else if c = 'r' then some '\r'
  else if c = 't' then some '\t'
  else none

/- Adds a character to those of a string. -/
def add
    (seen : Option (List Char))
    (c : Char) :
    Option (List Char) :=
  seen.map fun chars => c :: chars

/- Reads a character inside a string. -/
def inString?
    (found : List Lexeme)
    (seen : Option (List Char))
    (c : Char) :
    Option Pass :=
  if c = '"' then
    some ⟨.blank, ofString (seen.map List.reverse) :: found⟩
  else if c = '\\' then some ⟨.escape seen, found⟩
  else if c.toNat < 32 then none
  else some ⟨.string (add seen c), found⟩

/- Reads the character after a backslash. -/
def inEscape?
    (seen : Option (List Char))
    (c : Char) :
    Option Mode :=
  if c = 'u' then some (.unicode seen none 0 0)
  else
    (unescape? c).map fun plain => .string (add seen plain)

/- The mode after a complete four-digit escape. A surrogate
   counts only as a high one and a low one right after it. -/
def afterUnicode
    (seen : Option (List Char))
    (high : Option Nat)
    (unit : Nat) :
    Mode :=
  let isHigh := 0xd800 ≤ unit && unit < 0xdc00
  let isLow := 0xdc00 ≤ unit && unit < 0xe000
  match high with
  | none =>
      if isHigh then .lowBackslash seen unit
      else if isLow then .string none
      else .string (add seen (Char.ofNat unit))
  | some high =>
      if isLow then
        let code :=
          (high - 0xd800) * 0x400 + (unit - 0xdc00) + 0x10000
        .string (add seen (Char.ofNat code))
      else .string none

/- Reads one more character. -/
def step?
    (pass : Pass)
    (c : Char) :
    Option Pass :=
  let found := pass.found
  match pass.mode with
  | .blank => start? found c
  | .word seen =>
      if c.isLower then some ⟨.word (c :: seen), found⟩
      else
        (ofWord? seen.reverse).bind fun unit =>
          start? (unit :: found) c
  | .numeral seen =>
      if Number.isNumeralChar c then
        some ⟨.numeral (c :: seen), found⟩
      else
        (ofNumeral? seen.reverse).bind fun unit =>
          start? (unit :: found) c
  | .string seen => inString? found seen c
  | .escape seen =>
      (inEscape? seen c).map fun mode => ⟨mode, found⟩
  | .unicode seen high value count =>
      (Text.hexValue? c).map fun digit =>
        let value := value * 16 + digit
        if count = 3 then
          ⟨afterUnicode seen high value, found⟩
        else ⟨.unicode seen high value (count + 1), found⟩
  | .lowBackslash seen high =>
      if c = '\\' then some ⟨.lowMark seen high, found⟩
      else inString? found none c
  | .lowMark seen high =>
      if c = 'u' then
        some ⟨.unicode seen (some high) 0 0, found⟩
      else
        (inEscape? none c).map fun mode => ⟨mode, found⟩

/- Ends the pass at the end of the text. -/
def finish? (pass : Pass) : Option (List Lexeme) :=
  match pass.mode with
  | .blank => some pass.found.reverse
  | .word seen =>
      (ofWord? seen.reverse).map fun unit =>
        (unit :: pass.found).reverse
  | .numeral seen =>
      (ofNumeral? seen.reverse).map fun unit =>
        (unit :: pass.found).reverse
  | _ => none

/- The lexical units of a text. -/
def split? (chars : List Char) : Option (List Lexeme) :=
  (chars.foldlM step? ⟨.blank, []⟩).bind finish?

end Lexeme

end Json

end Converge
