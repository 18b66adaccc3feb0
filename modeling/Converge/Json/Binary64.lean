/-
  Binary floating point numbers of 64 bits, as far as a data
  format needs them: the number nearest to a decimal
  fraction, and the shortest decimal that reads back.

  All arithmetic is on natural numbers, so nothing here
  depends on the machine's floating point unit.

  Key definitions:
    * `Binary64.ofScaled?`: nearest number to digits times a
      power of ten
    * `Binary64.shortest`: fewest digits that read back
    * `Binary64.text`: written form
-/

namespace Converge

namespace Binary64

------------------------------------------------------------
-- Reading Decimals
------------------------------------------------------------

/- Divides and rounds to nearest, a tie to the even side. -/
def divideToEven
    (numerator : Nat)
    (denominator : Nat) :
    Nat :=
  let quotient := numerator / denominator
  let rest := numerator % denominator
  if denominator < 2 * rest then
    quotient + 1
  else if 2 * rest = denominator && quotient % 2 = 1 then
    quotient + 1
  else
    quotient

/- The fraction `numerator / denominator`, divided by
   `2 ^ exponent` and rounded. -/
def scaleDown
    (numerator : Nat)
    (denominator : Nat)
    (exponent : Int) :
    Nat :=
  if 0 ≤ exponent then
    divideToEven numerator
      (denominator * Nat.pow 2 exponent.toNat)
  else
    divideToEven (numerator * Nat.pow 2 (-exponent).toNat)
      denominator

/- The bits of `significand * 2 ^ exponent`, for a rounded
   significand of at most `2 ^ 53`; too large a value has
   none. -/
def assemble?
    (significand : Nat)
    (exponent : Int) :
    Option Nat :=
  let (significand, exponent) :=
    if significand = Nat.pow 2 53 then
      (Nat.pow 2 52, exponent + 1)
    else (significand, exponent)
  if significand < Nat.pow 2 52 then
    some significand
  else if 971 < exponent then
    none
  else
    some ((exponent + 1075).toNat * Nat.pow 2 52 +
      (significand - Nat.pow 2 52))

/- The bits nearest to a positive fraction. -/
def ofFraction?
    (numerator : Nat)
    (denominator : Nat) :
    Option Nat :=
  let guess : Int :=
    (Nat.log2 numerator : Int) - Nat.log2 denominator - 52
  let exponent := max (-1074) (guess - 1)
  if
      scaleDown numerator denominator exponent <
        Nat.pow 2 53 then
    assemble? (scaleDown numerator denominator exponent)
      exponent
  else if
      scaleDown numerator denominator (exponent + 1) ≤
        Nat.pow 2 53 then
    assemble?
      (scaleDown numerator denominator (exponent + 1))
      (exponent + 1)
  else
    assemble?
      (scaleDown numerator denominator (exponent + 2))
      (exponent + 2)

/-
  The bits nearest to `digits * 10 ^ exponent`, and none
  when that is beyond the largest number. Values that are
  certainly too large or too small are decided by their
  number of digits alone.
-/
def ofScaled?
    (digits : Nat)
    (exponent : Int) :
    Option Nat :=
  let size := exponent + (Nat.toDigits 10 digits).length
  if digits = 0 then some 0
  else if 310 < size then none
  else if size < -330 then some 0
  else if 0 ≤ exponent then
    ofFraction? (digits * Nat.pow 10 exponent.toNat) 1
  else
    ofFraction? digits (Nat.pow 10 (-exponent).toNat)

------------------------------------------------------------
-- Writing Decimals
------------------------------------------------------------

/- Significand and exponent of a finite number's bits. -/
def parts (bits : Nat) : Nat × Int :=
  let field : Nat := bits / Nat.pow 2 52 % Nat.pow 2 11
  let fraction : Nat := bits % Nat.pow 2 52
  if field = 0 then (fraction, -1074)
  else (fraction + Nat.pow 2 52, (field : Int) - 1075)

/- Whether `digits * 10 ^ exponent` reads back as `bits`. -/
def readsBack
    (bits : Nat)
    (digits : Nat)
    (exponent : Int) :
    Bool :=
  ofScaled? digits exponent = some bits

/-
  The value of `bits` divided by `10 ^ exponent`, as a
  fraction.
-/
def inUnits
    (bits : Nat)
    (exponent : Int) :
    Nat × Nat :=
  let (significand, binary) := parts bits
  let numerator :=
    significand * Nat.pow 2 binary.toNat *
      Nat.pow 10 (-exponent).toNat
  let denominator :=
    Nat.pow 2 (-binary).toNat * Nat.pow 10 exponent.toNat
  (numerator, denominator)

/- The nearer of the two decimal neighbours that read back. -/
def neighbour?
    (bits : Nat)
    (exponent : Int) :
    Option Nat :=
  let (numerator, denominator) := inUnits bits exponent
  let nearest := divideToEven numerator denominator
  let below := numerator / denominator
  [nearest, below, below + 1].find? fun digits =>
    0 < digits && readsBack bits digits exponent

/- The decimal exponent of the leading digit, or one above
   it. -/
def magnitude (bits : Nat) : Int :=
  let (significand, binary) := parts bits
  let whole :=
    significand * Nat.pow 2 binary.toNat /
      Nat.pow 2 (-binary).toNat
  if 0 < whole then (Nat.toDigits 10 whole).length
  else
    let shifted :=
      significand * Nat.pow 10 400 / Nat.pow 2 (-binary).toNat
    ((Nat.toDigits 10 shifted).length : Int) - 400

/-
  The fewest decimal digits that read back as a positive
  number, with the power of ten that scales them.
-/
def shortest (bits : Nat) : Nat × Int :=
  let top := magnitude bits
  let found := (List.range 18).findSome? fun (count : Nat) =>
    let exponent : Int := top - (count : Int) - 1
    (neighbour? bits exponent).map fun digits =>
      (digits, exponent)
  found.getD (0, 0)

/- Drops the zeros at the end of a digit sequence. -/
def trimZeros
    (digits : List Char)
    (exponent : Int) :
    List Char × Int :=
  let kept :=
    (digits.reverse.dropWhile (· = '0')).reverse
  (kept, exponent + (digits.length - kept.length : Nat))

/-
  Lays out a digit sequence. A point stands among or next to
  the digits when its place is between five places before
  and sixteen places after their start; otherwise the first
  digit is followed by an exponent.
-/
def layout
    (digits : List Char)
    (exponent : Int) :
    List Char :=
  let count : Int := digits.length
  let point := count + exponent
  if 0 ≤ exponent && point ≤ 16 then
    digits ++ List.replicate exponent.toNat '0' ++ ['.', '0']
  else if 0 < point && point ≤ 16 then
    digits.take point.toNat ++ '.' ::
      digits.drop point.toNat
  else if -5 < point && point ≤ 0 then
    '0' :: '.' :: List.replicate (-point).toNat '0' ++ digits
  else
    let tail := digits.drop 1
    let fraction := if tail.isEmpty then [] else '.' :: tail
    digits.take 1 ++ fraction ++ 'e' ::
      (toString (point - 1)).toList

/- Written form of a finite number. -/
def text (bits : Nat) : List Char :=
  let sign := if bits / Nat.pow 2 63 % 2 = 1 then ['-'] else []
  let magnitudeBits := bits % Nat.pow 2 63
  if magnitudeBits = 0 then sign ++ ['0', '.', '0']
  else
    let (digits, exponent) := shortest magnitudeBits
    let (kept, scale) :=
      trimZeros (Nat.toDigits 10 digits) exponent
    sign ++ layout kept scale

end Binary64

end Converge
