import Converge.Json.Binary64
import Converge.Text

/-
  Numbers with a fraction, as people write them in settings
  and documents.

  Digits may be missing on one side of the point, and the
  names of infinity and of the number that is none are read
  whatever their case. Amounts are written without exponent.

  Key definitions:
    * `Amount`: a binary floating point number
    * `Amount.read?`, `Amount.text`: written forms
-/

namespace Converge

/- A binary floating point number of 64 bits; a finite one
   holds the bits of its magnitude. -/
inductive Amount where
  | undefined
  | infinite (negative : Bool)
  | finite (negative : Bool) (bits : Nat)
deriving DecidableEq

namespace Amount

def isZero : Amount → Bool
  | finite _ bits => bits = 0
  | _ => false

------------------------------------------------------------
-- Reading
------------------------------------------------------------

/- Splits off a sign; true for minus. -/
def signed : List Char → Bool × List Char
  | '-' :: rest => (true, rest)
  | '+' :: rest => (false, rest)
  | chars => (false, chars)

/- The power of ten that an exponent stands for. -/
def exponent? : List Char → Option Int
  | [] => some 0
  | mark :: rest =>
      let (negative, digits) := signed rest
      if mark.toLower ≠ 'e' || digits.isEmpty then none
      else if digits.all Char.isDigit then
        let value : Int := Text.digitsValue digits
        some (if negative then -value else value)
      else none

/- The nearest amount to digits times a power of ten. -/
def ofScaled
    (negative : Bool)
    (digits : Nat)
    (exponent : Int) :
    Amount :=
  match Binary64.ofScaled? digits exponent with
  | some bits => finite negative bits
  | none => infinite negative

/- Reads digits, with a point and an exponent if there are
   any. -/
def decimal?
    (negative : Bool)
    (chars : List Char) :
    Option Amount :=
  let whole := chars.takeWhile Char.isDigit
  let rest := chars.dropWhile Char.isDigit
  let (fraction, rest) :=
    match rest with
    | '.' :: rest =>
        (rest.takeWhile Char.isDigit,
          rest.dropWhile Char.isDigit)
    | rest => ([], rest)
  if whole.isEmpty && fraction.isEmpty then none
  else
    (exponent? rest).map fun (exponent : Int) =>
      ofScaled negative
        (Text.digitsValue (whole ++ fraction))
        (exponent - fraction.length)

/- Reads a written amount. -/
def read? (text : String) : Option Amount :=
  let (negative, chars) := signed text.toList
  let word := Text.lower (String.ofList chars)
  if word = "inf" || word = "infinity" then
    some (infinite negative)
  else if word = "nan" then some undefined
  else decimal? negative chars

------------------------------------------------------------
-- Writing
------------------------------------------------------------

/- Lays out digits times a power of ten. -/
def layout
    (digits : List Char)
    (exponent : Int) :
    List Char :=
  let point : Int := digits.length + exponent
  if 0 ≤ exponent then
    digits ++ List.replicate exponent.toNat '0'
  else if 0 < point then
    digits.take point.toNat ++
      '.' :: digits.drop point.toNat
  else
    '0' :: '.' ::
      (List.replicate (-point).toNat '0' ++ digits)

/- The fewest digits that read back as a magnitude. -/
def magnitude (bits : Nat) : List Char :=
  if bits = 0 then ['0']
  else
    let (digits, exponent) := Binary64.shortest bits
    let (kept, scale) :=
      Binary64.trimZeros (Nat.toDigits 10 digits) exponent
    layout kept scale

def text : Amount → String
  | undefined => "NaN"
  | infinite negative => if negative then "-inf" else "inf"
  | finite negative bits =>
      String.ofList
        (if negative then '-' :: magnitude bits
          else magnitude bits)

end Amount

end Converge
