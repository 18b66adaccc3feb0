import Converge.Json.Binary64
import Converge.Text

/-
  Numbers of a JSON text: integers that fit in 64 bits,
  signed or unsigned, and binary floating point numbers for
  everything else.

  Key definitions:
    * `Number`: a number
    * `Number.written?`: a text as a numeral
    * `Number.read?`: the number a numeral denotes
    * `Number.text`: written form
-/

namespace Converge

/-
  A number. Integers beyond the range of 64-bit words, and
  all numerals with a fraction or an exponent, are floating
  point numbers. The bits of a floating point number never
  denote negative zero, which equals zero.
-/
inductive Number where
  | int
      (value : Int)
      (lower : -9223372036854775808 ≤ value)
      (upper : value < 18446744073709551616)
  | real (bits : Nat)
deriving DecidableEq

namespace Number

instance : Inhabited Number :=
  ⟨.int 0 (by decide) (by decide)⟩

------------------------------------------------------------
-- Integers
------------------------------------------------------------

/- The integer number, when it is in range. -/
def ofInt? (value : Int) : Option Number :=
  if lower : -9223372036854775808 ≤ value then
    if upper : value < 18446744073709551616 then
      some (.int value lower upper)
    else none
  else none

/- A signed 64-bit word as a number. -/
def ofInt64 (word : Int64) : Number :=
  .int word.toInt (Int64.le_toInt word)
    (Int.lt_of_lt_of_le (Int64.toInt_lt word) (by decide))

/- The signed 64-bit word that the number is. -/
def toInt64? : Number → Option Int64
  | .int value _ _ =>
      if value < 9223372036854775808 then
        some (Int64.ofInt value)
      else none
  | .real _ => none

@[simp] theorem toInt64?_ofInt64 (word : Int64) :
    (ofInt64 word).toInt64? = some word := by
  have h : word.toInt < 9223372036854775808 :=
    Int64.toInt_lt word
  simp [ofInt64, toInt64?, h]

------------------------------------------------------------
-- Numerals
------------------------------------------------------------

/- Whether a numeral may contain the character. -/
def isNumeralChar (c : Char) : Bool :=
  c.isDigit || c = '-' || c = '+' || c = '.' ||
    c = 'e' || c = 'E'

/- A numeral without its sign, split at point and
   exponent. -/
structure Numeral where
  whole : List Char
  fraction : Option (List Char)
  exponent : Option (Bool × List Char)

/- Splits off the digits of an exponent. -/
def readExponent? :
    List Char → Option (Option (Bool × List Char))
  | [] => some none
  | 'e' :: rest => signed? rest
  | 'E' :: rest => signed? rest
  | _ => none
where
  signed? : List Char → Option (Option (Bool × List Char))
    | '-' :: digits => digits? true digits
    | '+' :: digits => digits? false digits
    | digits => digits? false digits
  digits?
      (negative : Bool)
      (digits : List Char) :
      Option (Option (Bool × List Char)) :=
    if digits.isEmpty then none
    else if digits.all Char.isDigit then
      some (some (negative, digits))
    else none

/- Splits a numeral without its sign. The whole part has no
   leading zero, and a point is followed by a digit. -/
def readNumeral? (chars : List Char) : Option Numeral :=
  let whole := chars.takeWhile Char.isDigit
  let rest := chars.dropWhile Char.isDigit
  if whole.isEmpty then none
  else if 1 < whole.length && whole.head? = some '0' then
    none
  else
    match rest with
    | '.' :: rest =>
        let fraction := rest.takeWhile Char.isDigit
        if fraction.isEmpty then none
        else
          (readExponent? (rest.dropWhile Char.isDigit)).map
            fun exponent => ⟨whole, some fraction, exponent⟩
    | rest =>
        (readExponent? rest).map
          fun exponent => ⟨whole, none, exponent⟩

/- The floating point number of a numeral; none when it is
   too large. -/
def Numeral.real?
    (numeral : Numeral)
    (negative : Bool) :
    Option Number :=
  let fraction := numeral.fraction.getD []
  let exponent : Int :=
    match numeral.exponent with
    | none => 0
    | some (true, digits) => -(Text.digitsValue digits : Int)
    | some (false, digits) => Text.digitsValue digits
  (Binary64.ofScaled?
      (Text.digitsValue (numeral.whole ++ fraction))
      (exponent - fraction.length)).map fun bits =>
    if negative && bits ≠ 0 then .real (bits + Nat.pow 2 63)
    else .real bits

/- The number of a numeral. A numeral of digits alone is an
   integer if it is in range, save for negative zero. -/
def Numeral.value?
    (numeral : Numeral)
    (negative : Bool) :
    Option Number :=
  if numeral.fraction.isNone && numeral.exponent.isNone then
    let magnitude := Text.digitsValue numeral.whole
    if negative && magnitude = 0 then
      numeral.real? negative
    else
      let value : Int :=
        if negative then -(magnitude : Int) else magnitude
      match ofInt? value with
      | some number => some number
      | none => numeral.real? negative
  else numeral.real? negative

/- Splits a whole text that is a numeral; true with minus. -/
def written? : List Char → Option (Bool × Numeral)
  | '-' :: rest =>
      (readNumeral? rest).map fun numeral => (true, numeral)
  | chars =>
      (readNumeral? chars).map fun numeral =>
        (false, numeral)

/- The number that a whole text denotes. -/
def read? (chars : List Char) : Option Number :=
  (written? chars).bind fun (negative, numeral) =>
    numeral.value? negative

/- Written form of a number. -/
def text : Number → List Char
  | .int value _ _ => (toString value).toList
  | .real bits => Binary64.text bits

end Number

end Converge
