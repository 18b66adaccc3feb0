import Converge.Text

/-
  Texts in double quotes, in which a backslash starts an
  escape.

  Key definitions:
    * `EscapeRule`: what may follow a backslash
    * `Quoted.read?`: reading up to the closing quote
-/

namespace Converge

/- What may follow a backslash: a character that stands for
   another one, or one that a number of hexadecimal digits
   follows. -/
structure EscapeRule where
  single : Char → Option Char
  digits : Char → Option Nat

namespace Quoted

/- Where reading stands: among plain characters, after a
   backslash, or before some more digits. -/
inductive State where
  | plain
  | escape
  | digits (left : Nat) (value : Nat)

/- The character with a code point. -/
def char? (code : Nat) : Option Char :=
  if code.isValidChar then some (Char.ofNat code) else none

/- Reads up to the closing quote, and gives the text and
   what comes after. -/
def read?
    (rule : EscapeRule) :
    State → List Char → Option (List Char × List Char)
  | _, [] => none
  | .plain, c :: rest =>
      if c = '"' then some ([], rest)
      else if c = '\\' then read? rule .escape rest
      else
        (read? rule .plain rest).map fun (content, rest) =>
          (c :: content, rest)
  | .escape, c :: rest =>
      match rule.single c, rule.digits c with
      | some decoded, _ =>
          (read? rule .plain rest).map fun (content, rest) =>
            (decoded :: content, rest)
      | none, some count =>
          read? rule (.digits (count - 1) 0) rest
      | none, none => none
  | .digits left value, c :: rest => do
      let digit ← Text.hexValue? c
      let value := value * 16 + digit
      if left = 0 then
        let decoded ← char? value
        let (content, rest) ← read? rule .plain rest
        return (decoded :: content, rest)
      else read? rule (.digits (left - 1) value) rest

end Quoted

end Converge
