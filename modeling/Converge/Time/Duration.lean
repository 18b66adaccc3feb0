import Converge.Text

/-
  Lengths of time, as people write them: `1h 30m`, `250ms`.

  A text is a sequence of numbers, each followed by its unit.
  White space may stand anywhere but inside a unit. A number
  may have a fraction, as long as it comes to a whole number
  of the next smaller measure: nanoseconds for units up to a
  minute, seconds for the larger ones.

  Key definitions:
    * `Duration`: nanoseconds, up to a 64-bit count of seconds
    * `Duration.read?`, `Duration.text`: written form
-/

namespace Converge

/- First number beyond an unsigned 64-bit word. -/
def wordLimit : Nat := 18446744073709551616

/- A length of time; its whole seconds fit in 64 bits. -/
structure Duration where
  nanoseconds : Nat
  inRange : nanoseconds < wordLimit * 1000000000
deriving DecidableEq

namespace Duration

/- Nanoseconds of one second. -/
def second : Nat := 1000000000

def ofNanoseconds? (nanoseconds : Nat) : Option Duration :=
  if h : nanoseconds < wordLimit * 1000000000 then
    some ⟨nanoseconds, h⟩
  else none

def ofMilliseconds? (milliseconds : Nat) : Option Duration :=
  ofNanoseconds? (milliseconds * 1000000)

def zero : Duration :=
  ⟨0, by decide⟩

instance : Inhabited Duration :=
  ⟨zero⟩

def isZero (duration : Duration) : Bool :=
  duration.nanoseconds = 0

/- Whole seconds. -/
def seconds (duration : Duration) : Nat :=
  duration.nanoseconds / second

/- Whole milliseconds. -/
def milliseconds (duration : Duration) : Nat :=
  duration.nanoseconds / 1000000

------------------------------------------------------------
-- Units
------------------------------------------------------------

/- The measure in which an amount of a unit is counted. -/
inductive Measure where
  | nanoseconds
  | seconds

/- A unit: its names, what one of it is, and what a fraction
   of it is counted in. -/
structure Unit where
  names : List String
  size : Nat
  measure : Measure
  fractionSize : Option Nat
  fractionMeasure : Measure

/- A unit of a number of seconds, above the minute. -/
def largeUnit
    (names : List String)
    (size : Nat) :
    Unit :=
  ⟨names, size, .seconds, some size, .seconds⟩

/- All units, from the smallest to the largest. -/
def units : List Unit :=
  [ ⟨["nanos", "nsec", "ns"], 1, .nanoseconds, none,
      .nanoseconds⟩,
    ⟨["usec", "us", "µs"], 1000, .nanoseconds, some 1000,
      .nanoseconds⟩,
    ⟨["millis", "msec", "ms"], 1000000, .nanoseconds,
      some 1000000, .nanoseconds⟩,
    ⟨["seconds", "second", "secs", "sec", "s"], 1, .seconds,
      some 1000000000, .nanoseconds⟩,
    ⟨["minutes", "minute", "min", "mins", "m"], 60, .seconds,
      some 60000000000, .nanoseconds⟩,
    largeUnit ["hours", "hour", "hr", "hrs", "h"] 3600,
    largeUnit ["days", "day", "d"] 86400,
    largeUnit ["weeks", "week", "wk", "wks", "w"] 604800,
    largeUnit ["months", "month", "M"] 2630016,
    largeUnit ["years", "year", "yr", "yrs", "y"] 31557600 ]

/- The unit of a name. -/
def findUnit? (name : String) : Option Unit :=
  units.find? fun unit => unit.names.contains name

------------------------------------------------------------
-- Reading
------------------------------------------------------------

/- A number that fits in 64 bits. -/
def word? (value : Nat) : Option Nat :=
  if value < wordLimit then some value else none

/- Adds an amount of a measure to a total of nanoseconds. -/
def add?
    (total : Nat)
    (amount : Nat)
    (measure : Measure) :
    Option Nat := do
  let _ ← word? amount
  match measure with
  | .seconds =>
      let sum := total + amount * second
      let _ ← word? (sum / second)
      return sum
  | .nanoseconds =>
      let _ ← word? (total % second + amount)
      let sum := total + amount
      let _ ← word? (sum / second)
      return sum

/- Adds a number of units, with its fraction, to a total. -/
def addUnits?
    (total : Nat)
    (count : Nat)
    (fraction : Option (Nat × Nat))
    (name : String) :
    Option Nat := do
  let unit ← findUnit? name
  let total ← add? total (count * unit.size) unit.measure
  match fraction with
  | none => return total
  | some (numerator, denominator) =>
      let size ← unit.fractionSize
      let scaled ← word? (numerator * size)
      if scaled % denominator = 0 then
        add? total (scaled / denominator) unit.fractionMeasure
      else none

/- Where reading stands. -/
inductive Mode where
  | gap
  | whole (value : Nat)
  | fraction
      (value : Nat)
      (numerator : Nat)
      (denominator : Nat)
  | name
      (value : Nat)
      (fraction : Option (Nat × Nat))
      (letters : List Char)

/- Reading between two characters: the total so far, unless
   no unit was read yet. -/
structure Pass where
  mode : Mode
  total : Option Nat

/- A letter of a unit's name. -/
def isUnitLetter (c : Char) : Bool :=
  c.isAlpha || c = 'µ'

def digitOf? (c : Char) : Option Nat :=
  if c.isDigit then some (Text.digitValue c) else none

/- Ends the name of a unit. -/
def closeUnit?
    (total : Option Nat)
    (value : Nat)
    (fraction : Option (Nat × Nat))
    (letters : List Char) :
    Option Nat :=
  addUnits? (total.getD 0) value fraction
    (String.ofList letters.reverse)

/- Reads one more character. -/
def step?
    (pass : Pass)
    (c : Char) :
    Option Pass :=
  match pass.mode, digitOf? c with
  | .gap, some digit => some ⟨.whole digit, pass.total⟩
  | .gap, none => if Text.isSpace c then some pass else none
  | .whole value, some digit =>
      (word? (value * 10 + digit)).map fun value =>
        ⟨.whole value, pass.total⟩
  | .whole value, none =>
      if Text.isSpace c then some pass
      else if isUnitLetter c then
        some ⟨.name value none [c], pass.total⟩
      else if c = '.' then
        some ⟨.fraction value 0 1, pass.total⟩
      else none
  | .fraction value numerator denominator, some digit => do
      let denominator ← word? (denominator * 10)
      let numerator ← word? (numerator * 10 + digit)
      return ⟨.fraction value numerator denominator,
        pass.total⟩
  | .fraction value numerator denominator, none =>
      if Text.isSpace c then some pass
      else if isUnitLetter c && denominator ≠ 1 then
        some
          ⟨.name value (some (numerator, denominator)) [c],
            pass.total⟩
      else none
  | .name value fraction letters, some digit =>
      (closeUnit? pass.total value fraction letters).map
        fun total => ⟨.whole digit, some total⟩
  | .name value fraction letters, none =>
      if Text.isSpace c then
        (closeUnit? pass.total value fraction letters).map
          fun total => ⟨.gap, some total⟩
      else if isUnitLetter c then
        some ⟨.name value fraction (c :: letters), pass.total⟩
      else none

/- The total at the end of the text. -/
def finish? (pass : Pass) : Option Nat :=
  match pass.mode with
  | .gap => pass.total
  | .name value fraction letters =>
      closeUnit? pass.total value fraction letters
  | _ => none

/- Reads a written duration; a lone zero needs no unit. -/
def readChars? (chars : List Char) : Option Duration :=
  if chars = ['0'] then some zero
  else
    ((chars.foldlM step? ⟨.gap, none⟩).bind finish?).bind
      ofNanoseconds?

def read? (text : String) : Option Duration :=
  readChars? text.toList

------------------------------------------------------------
-- Writing
------------------------------------------------------------

/- An amount with its unit, or nothing for zero. -/
def part
    (amount : Nat)
    (unit : String) :
    List String :=
  if amount = 0 then [] else [toString amount ++ unit]

/- Likewise, with the plural of the unit. -/
def pluralPart
    (amount : Nat)
    (unit : String) :
    List String :=
  part amount (if 1 < amount then unit ++ "s" else unit)

/- The amounts of each unit, the largest first. -/
def textParts (duration : Duration) : List String :=
  let total := duration.seconds
  let inYear := total % 31557600
  let inMonth := inYear % 2630016
  let inDay := inMonth % 86400
  let nanos := duration.nanoseconds % second
  pluralPart (total / 31557600) "year" ++
    pluralPart (inYear / 2630016) "month" ++
    pluralPart (inMonth / 86400) "day" ++
    part (inDay / 3600) "h" ++
    part (inDay % 3600 / 60) "m" ++
    part (inDay % 60) "s" ++
    part (nanos / 1000000) "ms" ++
    part (nanos / 1000 % 1000) "us" ++
    part (nanos % 1000) "ns"

/- Written form: each amount with its unit, zero amounts
   left out. -/
def text (duration : Duration) : String :=
  if duration.isZero then "0s"
  else " ".intercalate duration.textParts

end Duration

end Converge
