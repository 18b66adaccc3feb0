import Converge.Time.Timestamp
import Converge.Toml.Basic

/-
  TOML values without quotes: truth values, integers, other
  numbers, and points in time.

  Underscores may stand between two digits. Points in time
  are kept as texts, in one form for each of them.

  Key definitions:
    * `Toml.whole?`, `Toml.real?`: numbers
    * `Toml.moment?`: dates and times of day
    * `Toml.scalar?`: the value of a scalar
-/

namespace Converge

namespace Toml

------------------------------------------------------------
-- Integers
------------------------------------------------------------

/- The digits of a number, without underscores between
   them. -/
def ungroup?
    (isDigit : Char → Bool) :
    List Char → Option (List Char)
  | [] => none
  | [c] => if isDigit c then some [c] else none
  | c :: '_' :: rest =>
      if isDigit c then
        (ungroup? isDigit rest).map (c :: ·)
      else none
  | c :: rest =>
      if isDigit c then
        (ungroup? isDigit rest).map (c :: ·)
      else none

/- The digits of a number that no needless zero leads. -/
def plainDigits? (chars : List Char) : Option (List Char) :=
  (ungroup? Char.isDigit chars).filter fun digits =>
    digits.head? ≠ some '0' || digits.length = 1

/- The number of digits in a base up to 16. -/
def inBase?
    (base : Nat)
    (chars : List Char) :
    Option Nat :=
  (ungroup? (fun c => (Text.hexValue? c).isSome) chars).bind
    (Text.inBase? base)

/- The number of a numeral; a mark for its base excludes a
   sign. -/
def integer? : List Char → Option Int
  | '0' :: 'x' :: digits => (inBase? 16 digits).map Int.ofNat
  | '0' :: 'o' :: digits => (inBase? 8 digits).map Int.ofNat
  | '0' :: 'b' :: digits => (inBase? 2 digits).map Int.ofNat
  | chars =>
      let (negative, digits) := Amount.signed chars
      (plainDigits? digits).map fun digits =>
        let magnitude : Int := Text.digitsValue digits
        if negative then -magnitude else magnitude

/- An integer of 64 bits. -/
def whole? (chars : List Char) : Option Int :=
  (integer? chars).filter fun value =>
    -9223372036854775808 ≤ value &&
      value ≤ 9223372036854775807

------------------------------------------------------------
-- Other Numbers
------------------------------------------------------------

/- Splits off digits and underscores. -/
def spanDigits
    (chars : List Char) :
    List Char × List Char :=
  chars.span fun c => c.isDigit || c = '_'

/- The digits of a fraction, if there is a point. -/
def fraction? :
    List Char → Option (List Char × List Char)
  | '.' :: rest =>
      let (digits, rest) := spanDigits rest
      (ungroup? Char.isDigit digits).map (·, rest)
  | rest => some ([], rest)

/- The power of ten that an exponent stands for. -/
def exponent? : List Char → Option Int
  | [] => some 0
  | mark :: rest =>
      let (negative, digits) := Amount.signed rest
      if mark = 'e' || mark = 'E' then
        (ungroup? Char.isDigit digits).map fun digits =>
          let value : Int := Text.digitsValue digits
          if negative then -value else value
      else none

/- A finite number with a fraction or an exponent. -/
def finite?
    (negative : Bool)
    (chars : List Char) :
    Option Amount := do
  let (units, rest) := spanDigits chars
  let units ← plainDigits? units
  if rest.isEmpty then none
  else
    let (fraction, rest) ← fraction? rest
    let exponent ← exponent? rest
    let digits := Text.digitsValue (units ++ fraction)
    match
        Amount.ofScaled negative digits
          (exponent - fraction.length)
      with
    | .infinite _ => none
    | amount => some amount

/- A number that is no integer, or the name of one. -/
def real? (chars : List Char) : Option Amount :=
  let (negative, rest) := Amount.signed chars
  if rest = ['i', 'n', 'f'] then some (.infinite negative)
  else if rest = ['n', 'a', 'n'] then some .undefined
  else finite? negative rest

------------------------------------------------------------
-- Points in Time
------------------------------------------------------------

/- Digits whose number is in a range. -/
def isBetween
    (least : Nat)
    (most : Nat)
    (digits : List Char) :
    Bool :=
  digits.all Char.isDigit &&
    least ≤ Text.digitsValue digits &&
    Text.digitsValue digits ≤ most

/- Splits off a date. -/
def date? (chars : List Char) : Option (List Char × List Char) :=
  match chars with
  | y :: e :: a :: r :: '-' :: m :: n :: '-' :: d :: i :: rest =>
      let days :=
        Calendar.daysInMonth
          (Text.digitsValue [y, e, a, r])
          (Text.digitsValue [m, n])
      if isBetween 0 9999 [y, e, a, r] &&
          isBetween 1 12 [m, n] && isBetween 1 days [d, i]
        then some (chars.take 10, rest)
      else none
  | _ => none

/- Splits off a fraction of a second, of which nine digits
   count. -/
def secondFraction? :
    List Char → Option (List Char × List Char)
  | '.' :: rest =>
      let (digits, rest) := rest.span Char.isDigit
      let kept :=
        Text.dropEndWhile (· = '0') (digits.take 9)
      if digits.isEmpty then none
      else if kept.isEmpty then some (['.', '0'], rest)
      else some ('.' :: kept, rest)
  | rest => some ([], rest)

/- Splits off seconds, which may be missing. -/
def seconds? : List Char → Option (List Char × List Char)
  | ':' :: s :: t :: rest =>
      if isBetween 0 60 [s, t] then
        (secondFraction? rest).map fun (fraction, rest) =>
          (':' :: s :: t :: fraction, rest)
      else none
  | rest => some ([], rest)

/- Splits off a time of day. -/
def clock? : List Char → Option (List Char × List Char)
  | h :: o :: ':' :: m :: n :: rest =>
      if isBetween 0 23 [h, o] && isBetween 0 59 [m, n] then
        (seconds? rest).map fun (seconds, rest) =>
          (h :: o :: ':' :: m :: n :: seconds, rest)
      else none
  | _ => none

/- A distance from UTC, which may be missing. None at all is
   not negative. -/
def offset? : List Char → Option (List Char)
  | [] => some []
  | ['Z'] => some ['Z']
  | ['z'] => some ['Z']
  | [sign, h, o, ':', m, n] =>
      if (sign = '+' || sign = '-') &&
          isBetween 0 23 [h, o] && isBetween 0 59 [m, n]
        then
          if isBetween 0 0 [h, o, m, n] then
            some ['+', h, o, ':', m, n]
          else some [sign, h, o, ':', m, n]
      else none
  | _ => none

/- A time of day and its distance from UTC. -/
def offsetClock? (chars : List Char) : Option (List Char) := do
  let (clock, rest) ← clock? chars
  let offset ← offset? rest
  return clock ++ offset

/- A time of day by itself. -/
def localClock? (chars : List Char) : Option (List Char) := do
  let (clock, rest) ← clock? chars
  if rest.isEmpty then return clock else none

/- A date, a time of day, or both. -/
def moment? (chars : List Char) : Option (List Char) :=
  match date? chars with
  | none => localClock? chars
  | some (date, []) => some date
  | some (date, separator :: rest) =>
      if separator = 'T' || separator = 't' ||
          separator = ' '
        then (offsetClock? rest).map (date ++ 'T' :: ·)
      else none

------------------------------------------------------------
-- Scalars
------------------------------------------------------------

/- The value that a text without quotes spells. -/
def scalar? (chars : List Char) : Option Toml :=
  if chars = ['t', 'r', 'u', 'e'] then some (.flag true)
  else if chars = ['f', 'a', 'l', 's', 'e'] then
    some (.flag false)
  else
    match whole? chars, real? chars, moment? chars with
    | some value, _, _ => some (.whole value)
    | _, some value, _ => some (.real value)
    | _, _, some moment =>
        some (.text (String.ofList moment))
    | _, _, _ => none

end Toml

end Converge
