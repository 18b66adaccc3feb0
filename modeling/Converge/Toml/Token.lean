import Converge.Text.Quoted

/-
  The tokens of a TOML document.

  Splitting is one pass over the characters. A comment is no
  token, as the line ends with it. A carriage return counts
  only before a line feed, and only inside strings of several
  lines does it leave a trace.

  Key definitions:
    * `Toml.Token`: a lexical unit
    * `Toml.Token.split?`: the tokens of a document
-/

namespace Converge

namespace Toml

/- A lexical unit. A blank is known for a single space or
   something else, and a string may be on several lines. -/
inductive Token where
  | blank (single : Bool)
  | newline
  | point
  | equals
  | comma
  | openBracket
  | closeBracket
  | openBrace
  | closeBrace
  | bare (text : List Char)
  | quoted (text : List Char) (isLong : Bool)
deriving DecidableEq

namespace Token

------------------------------------------------------------
-- Characters
------------------------------------------------------------

def isBlank (c : Char) : Bool :=
  c = ' ' || c = '\t'

/- Control characters stand nowhere, but for the tab. -/
def isPrintable (c : Char) : Bool :=
  c = '\t' || (0x20 ≤ c.toNat && c.toNat ≠ 0x7f)

/- Keys and scalars without quotes consist of these, and of
   points. -/
def isBare (c : Char) : Bool :=
  c.isAlphanum || c = '_' || c = '-' || c = '+' || c = ':'

/- Some carriage return has no line feed after it. -/
def hasLoneReturn : List Char → Bool
  | [] => false
  | '\x0d' :: '\n' :: rest => hasLoneReturn rest
  | c :: rest =>
      if c = '\x0d' then true else hasLoneReturn rest

/- The token of a single character. -/
def ofPunctuation? (c : Char) : Option Token :=
  if c = '\n' then some .newline
  else if c = '.' then some .point
  else if c = '=' then some .equals
  else if c = ',' then some .comma
  else if c = '[' then some .openBracket
  else if c = ']' then some .closeBracket
  else if c = '\x7b' then some .openBrace
  else if c = '\x7d' then some .closeBrace
  else none

/- What may follow a backslash. -/
def escapes : EscapeRule where
  single
    | 'b' => some '\x08'
    | 't' => some '\t'
    | 'n' => some '\n'
    | 'f' => some '\x0c'
    | 'r' => some '\x0d'
    | 'e' => some '\x1b'
    | '"' => some '"'
    | '\\' => some '\\'
    | _ => none
  digits
    | 'x' => some 2
    | 'u' => some 4
    | 'U' => some 8
    | _ => none

------------------------------------------------------------
-- The Pass
------------------------------------------------------------

/- The quotes of a string: double ones allow escapes, single
   ones do not. -/
inductive Quotes where
  | double
  | single
deriving DecidableEq

def Quotes.mark : Quotes → Char
  | double => '"'
  | single => '\''

/-
  Where the pass stands; collected characters are in reverse
  order. Quotes are counted at the beginning of a string and
  where a long string may end. After a backslash at the end
  of a line, white space is passed over.
-/
inductive Mode where
  | between
  | blank (single : Bool)
  | bare (seen : List Char)
  | comment
  | opened (quotes : Quotes) (count : Nat)
  | firstLine (quotes : Quotes)
  | inside
      (quotes : Quotes)
      (isLong : Bool)
      (seen : List Char)
  | closing
      (quotes : Quotes)
      (seen : List Char)
      (count : Nat)
  | escape (isLong : Bool) (seen : List Char)
  | digits
      (isLong : Bool)
      (seen : List Char)
      (left : Nat)
      (value : Nat)
  | lineEnd (seen : List Char)
  | trimmed (seen : List Char)

/- The state of the pass: its mode and the tokens found, in
   reverse order. -/
structure Pass where
  mode : Mode
  found : List Token

/- The string of a long text and of more quotes than close
   it. -/
def ofLong
    (quotes : Quotes)
    (seen : List Char)
    (count : Nat) :
    Token :=
  .quoted
    (seen.reverse ++ List.replicate (count - 3) quotes.mark)
    true

/- Starts something new at a character. -/
def start?
    (found : List Token)
    (c : Char) :
    Option Pass :=
  if isBlank c then some ⟨.blank (c = ' '), found⟩
  else if c = '\x0d' then some ⟨.between, found⟩
  else if c = '#' then some ⟨.comment, found⟩
  else if c = '"' then some ⟨.opened .double 1, found⟩
  else if c = '\'' then some ⟨.opened .single 1, found⟩
  else if isBare c then some ⟨.bare [c], found⟩
  else
    (ofPunctuation? c).map fun token =>
      ⟨.between, token :: found⟩

/- Reads a character inside a string. -/
def inString?
    (found : List Token)
    (quotes : Quotes)
    (isLong : Bool)
    (seen : List Char)
    (c : Char) :
    Option Pass :=
  if c = quotes.mark then
    if isLong then some ⟨.closing quotes seen 1, found⟩
    else
      some ⟨.between, .quoted seen.reverse false :: found⟩
  else if quotes = .double && c = '\\' then
    some ⟨.escape isLong seen, found⟩
  else if
      isPrintable c ||
        (isLong && (c = '\n' || c = '\x0d')) then
    some ⟨.inside quotes isLong (c :: seen), found⟩
  else none

/- Reads the character after a backslash. -/
def inEscape?
    (isLong : Bool)
    (seen : List Char)
    (c : Char) :
    Option Mode :=
  match escapes.single c, escapes.digits c with
  | some plain, _ =>
      some (.inside .double isLong (plain :: seen))
  | none, some count =>
      some (.digits isLong seen (count - 1) 0)
  | none, none =>
      if !isLong then none
      else if c = '\n' then some (.trimmed seen)
      else if isBlank c || c = '\x0d' then
        some (.lineEnd seen)
      else none

/- Reads a hexadecimal digit. -/
def inDigits?
    (isLong : Bool)
    (seen : List Char)
    (left : Nat)
    (value : Nat)
    (c : Char) :
    Option Mode := do
  let digit ← Text.hexValue? c
  let value := value * 16 + digit
  if left = 0 then
    let plain ← Quoted.char? value
    return .inside .double isLong (plain :: seen)
  else return .digits isLong seen (left - 1) value

/- Reads one more character. -/
def step?
    (pass : Pass)
    (c : Char) :
    Option Pass :=
  let found := pass.found
  let stay (mode : Mode) : Option Pass := some ⟨mode, found⟩
  match pass.mode with
  | .between => start? found c
  | .blank single =>
      if isBlank c then stay (.blank false)
      else start? (.blank single :: found) c
  | .bare seen =>
      if isBare c then stay (.bare (c :: seen))
      else start? (.bare seen.reverse :: found) c
  | .comment =>
      if c = '\n' then some ⟨.between, .newline :: found⟩
      else if isPrintable c || c = '\x0d' then stay .comment
      else none
  | .opened quotes count =>
      if c = quotes.mark then
        if count = 2 then stay (.firstLine quotes)
        else stay (.opened quotes 2)
      else if count = 2 then
        start? (.quoted [] false :: found) c
      else inString? found quotes false [] c
  | .firstLine quotes =>
      if c = '\x0d' then stay (.firstLine quotes)
      else if c = '\n' then stay (.inside quotes true [])
      else inString? found quotes true [] c
  | .inside quotes isLong seen =>
      inString? found quotes isLong seen c
  | .closing quotes seen count =>
      if c = quotes.mark then
        if count = 4 then
          some ⟨.between, ofLong quotes seen 5 :: found⟩
        else stay (.closing quotes seen (count + 1))
      else if 3 ≤ count then
        start? (ofLong quotes seen count :: found) c
      else
        inString? found quotes true
          (List.replicate count quotes.mark ++ seen) c
  | .escape isLong seen =>
      (inEscape? isLong seen c).bind stay
  | .digits isLong seen left value =>
      (inDigits? isLong seen left value c).bind stay
  | .lineEnd seen =>
      if c = '\n' then stay (.trimmed seen)
      else if isBlank c || c = '\x0d' then
        stay (.lineEnd seen)
      else none
  | .trimmed seen =>
      if isBlank c || c = '\n' || c = '\x0d' then
        stay (.trimmed seen)
      else inString? found .double true seen c

/- Ends the pass at the end of the document. -/
def finish? (pass : Pass) : Option (List Token) :=
  let found := pass.found
  match pass.mode with
  | .between => some found.reverse
  | .blank _ => some found.reverse
  | .comment => some found.reverse
  | .bare seen => some (.bare seen.reverse :: found).reverse
  | .opened _ count =>
      if count = 2 then
        some (.quoted [] false :: found).reverse
      else none
  | .closing quotes seen count =>
      if 3 ≤ count then
        some (ofLong quotes seen count :: found).reverse
      else none
  | _ => none

/- The tokens of a document. -/
def split? (chars : List Char) : Option (List Token) :=
  if hasLoneReturn chars then none
  else (chars.foldlM step? ⟨.between, []⟩).bind finish?

end Token

end Toml

end Converge
