/-
  Classes of characters and simple operations on texts.

  Key definitions:
    * `Text.isSpace`: Unicode white space
    * `Text.trim`: drops white space at both ends
    * `Text.digitsValue`, `Text.inBase?`: the number that
      digits spell
-/

namespace Converge

namespace Text

/- Unicode white space. -/
def isSpace (c : Char) : Bool :=
  let code := c.toNat
  (9 ≤ code && code ≤ 13) || code = 0x20 || code = 0x85 ||
    code = 0xa0 || code = 0x1680 ||
    (0x2000 ≤ code && code ≤ 0x200a) || code = 0x2028 ||
    code = 0x2029 || code = 0x202f || code = 0x205f ||
    code = 0x3000

/- Drops what satisfies a test at the end of a list. -/
def dropEndWhile
    (test : Char → Bool)
    (chars : List Char) :
    List Char :=
  (chars.reverse.dropWhile test).reverse

/- Drops white space at the end. -/
def trimEnd (text : String) : String :=
  String.ofList (dropEndWhile isSpace text.toList)

/- Drops white space at both ends. -/
def trim (text : String) : String :=
  String.ofList
    (dropEndWhile isSpace (text.toList.dropWhile isSpace))

/- There is nothing but white space. -/
def isBlank (text : String) : Bool :=
  text.toList.all isSpace

/- Value of a decimal digit. -/
def digitValue (c : Char) : Nat :=
  c.toNat - '0'.toNat

/- The number that a run of decimal digits spells. -/
def digitsValue (digits : List Char) : Nat :=
  digits.foldl
    (fun total c => total * 10 + digitValue c) 0

/- The value of a hexadecimal digit of either case. -/
def hexValue? (c : Char) : Option Nat :=
  if c.isDigit then some (digitValue c)
  else if 'a' ≤ c && c ≤ 'f' then
    some (c.toNat - 'a'.toNat + 10)
  else if 'A' ≤ c && c ≤ 'F' then
    some (c.toNat - 'A'.toNat + 10)
  else none

/- The number of a run of digits in a base up to 16. -/
def inBase? (base : Nat) (digits : List Char) : Option Nat :=
  if digits.isEmpty then none
  else
    digits.foldlM (fun (total : Nat) (c : Char) =>
      (hexValue? c).bind fun digit =>
        if digit < base then some (total * base + digit)
        else none) 0

/- Letters of the Latin alphabet in lower case. -/
def lower (text : String) : String :=
  String.ofList (text.toList.map Char.toLower)

/- The text after the mark of the byte order that may lead
   it. -/
def dropOrderMark (text : String) : String :=
  match text.toList with
  | '\ufeff' :: rest => String.ofList rest
  | _ => text

/- Splits characters at every occurrence of one. -/
def splitAtEach
    (separator : Char) :
    List Char → List (List Char)
  | [] => [[]]
  | c :: rest =>
      if c = separator then [] :: splitAtEach separator rest
      else
        match splitAtEach separator rest with
        | [] => [[c]]
        | part :: parts => (c :: part) :: parts

/- The texts between the occurrences of a character. -/
def parts (separator : Char) (text : String) : List String :=
  (splitAtEach separator text.toList).map String.ofList

/- Replaces a character by a text wherever it stands. -/
def replaceChar
    (c : Char)
    (replacement : List Char)
    (chars : List Char) :
    List Char :=
  chars.flatMap fun d => if d = c then replacement else [d]

end Text

end Converge
