import Converge.Amount
import Converge.Text.Quoted
import Converge.Tree.Basic

/-
  Scalars of YAML documents.

  A plain scalar stands for nothing, a truth value, an
  integer, another number, or else for its text; a quoted
  scalar stands for its text.

  Key definitions:
    * `Yaml.plainTree?`: the value of a plain scalar
    * `Yaml.quoted?`: reading a quoted scalar
-/

namespace Converge

namespace Yaml

------------------------------------------------------------
-- Plain Scalars
------------------------------------------------------------

/- Words that stand for nothing. -/
def nullWords : List String :=
  ["", "~", "null", "Null", "NULL"]

def trueWords : List String :=
  ["true", "True", "TRUE"]

def falseWords : List String :=
  ["false", "False", "FALSE"]

/- Digits that a zero leads are text. -/
def isPadded (digits : List Char) : Bool :=
  1 < digits.length && digits.head? = some '0' &&
    digits.all Char.isDigit

/- The magnitude of an integer without its sign. -/
def magnitude? : List Char → Option Nat
  | '0' :: 'x' :: digits => Text.inBase? 16 digits
  | '0' :: 'o' :: digits => Text.inBase? 8 digits
  | '0' :: 'b' :: digits => Text.inBase? 2 digits
  | digits =>
      if isPadded digits then none
      else Text.inBase? 10 digits

/- The integer that a plain scalar spells. -/
def int? (chars : List Char) : Option Int :=
  let (negative, digits) := Amount.signed chars
  (magnitude? digits).map fun (magnitude : Nat) =>
    if negative then -(magnitude : Int) else magnitude

/- Whether a plain scalar is a number with a fraction, or a
   number that is not finite. -/
def isReal (chars : List Char) : Bool :=
  let (_, digits) := Amount.signed chars
  let names := [".inf", ".Inf", ".INF", ".nan", ".NaN", ".NAN"]
  names.contains (String.ofList digits) ||
    match Amount.read? (String.ofList chars) with
    | some (.finite _ _) => !isPadded digits
    | _ => false

/- The value of a plain scalar. There is none for integers
   beyond 64 bits and for numbers with a fraction. -/
def plainTree? (chars : List Char) : Option Tree :=
  let text := String.ofList chars
  if nullWords.contains text then some .null
  else if trueWords.contains text then some (.bool true)
  else if falseWords.contains text then some (.bool false)
  else
    match int? chars with
    | some value =>
        if value < -9223372036854775808 then none
        else if 9223372036854775807 < value then none
        else some (.int (Int64.ofInt value))
    | none => if isReal chars then none else some (.str text)

------------------------------------------------------------
-- Quoted Scalars
------------------------------------------------------------

/- Characters that stand for others after a backslash. -/
def singleEscapes : List (Char × Char) :=
  [ ('0', '\x00'), ('a', '\x07'), ('b', '\x08'),
    ('t', '\t'), ('\t', '\t'), ('n', '\n'), ('v', '\x0b'),
    ('f', '\x0c'), ('r', '\x0d'), ('e', '\x1b'), (' ', ' '),
    ('"', '"'), ('/', '/'), ('\\', '\\'), ('N', '\u0085'),
    ('_', '\u00a0'), ('L', '\u2028'), ('P', '\u2029') ]

/- The escapes of double quotes. -/
def escapes : EscapeRule where
  single c := singleEscapes.lookup c
  digits c := [('x', 2), ('u', 4), ('U', 8)].lookup c

/- Reads up to the closing single quote; a quote that stands
   twice is one of the text. -/
def singleQuoted? :
    List Char → Option (List Char × List Char)
  | [] => none
  | '\'' :: '\'' :: rest =>
      (singleQuoted? rest).map fun (content, rest) =>
        ('\'' :: content, rest)
  | '\'' :: rest => some ([], rest)
  | c :: rest =>
      (singleQuoted? rest).map fun (content, rest) =>
        (c :: content, rest)

/- Reads a quoted scalar, and gives what comes after. -/
def quoted? :
    List Char → Option (List Char × List Char)
  | '"' :: rest => Quoted.read? escapes .plain rest
  | '\'' :: rest => singleQuoted? rest
  | _ => none

/- Whether a scalar starts with a quote. -/
def startsQuoted : List Char → Bool
  | '"' :: _ => true
  | '\'' :: _ => true
  | _ => false

/- Characters that a plain scalar does not start with. -/
def indicators : List Char :=
  "\t,[]\x7b\x7d#&*!|>'\"%@`".toList

/- A question mark, a colon and a dash start a plain scalar
   unless a blank follows. -/
def canStartPlain : List Char → Bool
  | [] => false
  | [c] => !(indicators ++ ['?', ':', '-']).contains c
  | c :: next :: _ =>
      !indicators.contains c &&
        !(['?', ':', '-'].contains c &&
          [' ', '\t'].contains next)

end Yaml

end Converge
