import Converge.Text

/-
  Points in time, as RFC 3339 writes them.

  A timestamp keeps the calendar date, the time of day and
  the offset it was written with. Two timestamps with
  different offsets may denote the same instant, and are
  compared by it.

  Key definitions:
    * `Timestamp`: date, time of day and offset
    * `Timestamp.instant`: nanoseconds since the epoch
    * `Timestamp.read?`, `Timestamp.text`: RFC 3339 form
-/

namespace Converge

namespace Calendar

------------------------------------------------------------
-- Proleptic Gregorian Calendar
------------------------------------------------------------

def isLeapYear (year : Int) : Bool :=
  year % 4 = 0 && (year % 100 ≠ 0 || year % 400 = 0)

/- Days of a month; the months are counted from one. -/
def daysInMonth
    (year : Int)
    (month : Nat) :
    Nat :=
  if month = 2 then if isLeapYear year then 29 else 28
  else if
      month = 4 || month = 6 || month = 9 || month = 11 then
    30
  else 31

/- Days of the months before a month. -/
def daysBeforeMonth
    (year : Int)
    (month : Nat) :
    Nat :=
  (List.range (month - 1)).foldl
    (fun days earlier => days + daysInMonth year (earlier + 1))
    0

/- Days from the first day of year zero to the first day of
   a year. -/
def daysBeforeYear (year : Int) : Int :=
  365 * year + (year + 3) / 4 - (year + 99) / 100 +
    (year + 399) / 400

/- Days since the first of January 1970. -/
def dayNumber
    (year : Int)
    (month : Nat)
    (day : Nat) :
    Int :=
  daysBeforeYear year + daysBeforeMonth year month +
    (day - 1 : Int) - daysBeforeYear 1970

end Calendar

------------------------------------------------------------
-- Timestamps
------------------------------------------------------------

/-
  A date and time of day in some offset from UTC, which is
  given in minutes.
-/
structure Timestamp where
  year : Nat
  month : Nat
  day : Nat
  hour : Nat
  minute : Nat
  second : Nat
  nanosecond : Nat
  offset : Int
  year_lt : year < 10000
  month_pos : 0 < month
  month_le : month ≤ 12
  day_pos : 0 < day
  day_le : day ≤ Calendar.daysInMonth year month
  hour_lt : hour < 24
  minute_lt : minute < 60
  second_lt : second < 60
  nanosecond_lt : nanosecond < 1000000000
  lt_offset : -1440 < offset
  offset_lt : offset < 1440
deriving DecidableEq

namespace Timestamp

/- Midnight of a day, in UTC. -/
def ofDay
    (year : Nat)
    (month : Nat)
    (day : Nat)
    (year_lt : year < 10000 := by decide)
    (month_pos : 0 < month := by decide)
    (month_le : month ≤ 12 := by decide)
    (day_pos : 0 < day := by decide)
    (day_le : day ≤ Calendar.daysInMonth year month := by
      decide) :
    Timestamp where
  year := year
  month := month
  day := day
  hour := 0
  minute := 0
  second := 0
  nanosecond := 0
  offset := 0
  year_lt := year_lt
  month_pos := month_pos
  month_le := month_le
  day_pos := day_pos
  day_le := day_le
  hour_lt := by decide
  minute_lt := by decide
  second_lt := by decide
  nanosecond_lt := by decide
  lt_offset := by decide
  offset_lt := by decide

/- Seconds since the epoch, rounded down. -/
def unixSeconds (time : Timestamp) : Int :=
  Calendar.dayNumber time.year time.month time.day * 86400 +
    (time.hour * 3600 + time.minute * 60 + time.second : Nat) -
    time.offset * 60

/- Nanoseconds since the epoch. -/
def instant (time : Timestamp) : Int :=
  time.unixSeconds * 1000000000 + time.nanosecond

/- Order in time. -/
def compareInstants
    (left : Timestamp)
    (right : Timestamp) :
    Ordering :=
  compare left.instant right.instant

/- Both denote the same instant. -/
def sameInstant
    (left : Timestamp)
    (right : Timestamp) :
    Bool :=
  left.instant = right.instant

/- Whether a month of UTC starts with the next second. -/
def endsMonth (time : Timestamp) : Bool :=
  [-1, 0, 1].any fun (shift : Int) =>
    (List.range 12).any fun month =>
      Calendar.dayNumber (time.year + shift) (month + 1) 1 *
          86400 =
        time.unixSeconds + 1

------------------------------------------------------------
-- Writing
------------------------------------------------------------

/- Decimal digits, padded with zeros to a width. -/
def padded
    (width : Nat)
    (value : Nat) :
    List Char :=
  let digits := Nat.toDigits 10 value
  List.replicate (width - digits.length) '0' ++ digits

/- Fraction of a second, without zeros at its end. -/
def fractionText (nanosecond : Nat) : List Char :=
  if nanosecond = 0 then []
  else
    '.' ::
      ((padded 9 nanosecond).reverse.dropWhile
        (· = '0')).reverse

/- Distance from UTC. -/
def offsetText (offset : Int) : List Char :=
  if offset = 0 then ['Z']
  else
    let sign := if offset < 0 then '-' else '+'
    let minutes := offset.natAbs
    sign :: padded 2 (minutes / 60) ++ ':' ::
      padded 2 (minutes % 60)

/- Written form. -/
def chars (time : Timestamp) : List Char :=
  padded 4 time.year ++ '-' :: padded 2 time.month ++
    '-' :: padded 2 time.day ++ 'T' ::
    padded 2 time.hour ++ ':' :: padded 2 time.minute ++
    ':' :: padded 2 time.second ++
    fractionText time.nanosecond ++ offsetText time.offset

def text (time : Timestamp) : String :=
  String.ofList time.chars

------------------------------------------------------------
-- Reading
------------------------------------------------------------

/- A number of exactly so many digits, and the rest. -/
def takeDigits?
    (count : Nat)
    (chars : List Char) :
    Option (Nat × List Char) :=
  let digits := chars.take count
  if digits.length = count && digits.all Char.isDigit then
    some
      (Text.digitsValue digits, chars.drop count)
  else none

/- What follows an expected character. -/
def takeChar?
    (expected : Char) :
    List Char → Option (List Char)
  | [] => none
  | c :: rest => if c = expected then some rest else none

/- What follows the character between date and time, which
   is any character of a single byte. -/
def takeSeparator? : List Char → Option (List Char)
  | [] => none
  | c :: rest => if c.toNat < 128 then some rest else none

/- Nanoseconds of an optional fraction, and the rest. Digits
   past the ninth are ignored. -/
def takeFraction? :
    List Char → Option (Nat × List Char)
  | '.' :: rest =>
      let digits := rest.takeWhile Char.isDigit
      if digits.isEmpty then none
      else
        let kept := digits.take 9
        some
          (Text.digitsValue kept * Nat.pow 10 (9 - kept.length),
            rest.dropWhile Char.isDigit)
  | rest => some (0, rest)

/- Offset in minutes; nothing may follow it. -/
def readOffset? : List Char → Option Int
  | ['Z'] => some 0
  | ['z'] => some 0
  | '+' :: rest => (minutes? rest).map fun total => total
  | '-' :: rest => (minutes? rest).map fun total => -total
  | _ => none
where
  minutes? (chars : List Char) : Option Int := do
    let (hours, chars) ← takeDigits? 2 chars
    let chars ← takeChar? ':' chars
    let (minutes, chars) ← takeDigits? 2 chars
    if chars.isEmpty && hours < 24 && minutes < 60 then
      some (hours * 60 + minutes : Nat)
    else none

/- A timestamp of the given parts, if they are in range. -/
def ofParts?
    (year : Nat)
    (month : Nat)
    (day : Nat)
    (hour : Nat)
    (minute : Nat)
    (second : Nat)
    (nanosecond : Nat)
    (offset : Int) :
    Option Timestamp :=
  if h :
      year < 10000 ∧ 0 < month ∧ month ≤ 12 ∧ 0 < day ∧
        day ≤ Calendar.daysInMonth year month ∧
        hour < 24 ∧ minute < 60 ∧ second < 60 ∧
        nanosecond < 1000000000 ∧
        -1440 < offset ∧ offset < 1440 then
    some
      { year, month, day, hour, minute, second, nanosecond,
        offset
        year_lt := h.1
        month_pos := h.2.1
        month_le := h.2.2.1
        day_pos := h.2.2.2.1
        day_le := h.2.2.2.2.1
        hour_lt := h.2.2.2.2.2.1
        minute_lt := h.2.2.2.2.2.2.1
        second_lt := h.2.2.2.2.2.2.2.1
        nanosecond_lt := h.2.2.2.2.2.2.2.2.1
        lt_offset := h.2.2.2.2.2.2.2.2.2.1
        offset_lt := h.2.2.2.2.2.2.2.2.2.2 }
  else none

/-
  Reads the RFC 3339 form. A second numbered sixty stands for
  the last nanosecond of the second before it, and is
  possible only at the end of a month of UTC.
-/
def readChars? (chars : List Char) : Option Timestamp := do
  let (year, chars) ← takeDigits? 4 chars
  let chars ← takeChar? '-' chars
  let (month, chars) ← takeDigits? 2 chars
  let chars ← takeChar? '-' chars
  let (day, chars) ← takeDigits? 2 chars
  let chars ← takeSeparator? chars
  let (hour, chars) ← takeDigits? 2 chars
  let chars ← takeChar? ':' chars
  let (minute, chars) ← takeDigits? 2 chars
  let chars ← takeChar? ':' chars
  let (second, chars) ← takeDigits? 2 chars
  let (nanosecond, chars) ← takeFraction? chars
  let offset ← readOffset? chars
  if second = 60 then
    let time ←
      ofParts? year month day hour minute 59 999999999 offset
    if time.endsMonth then some time else none
  else
    ofParts? year month day hour minute second nanosecond
      offset

def read? (text : String) : Option Timestamp :=
  readChars? text.toList

end Timestamp

end Converge
