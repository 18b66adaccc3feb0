import Converge.Proofs.Text.Digits
import Converge.Proofs.Time.Universal

/-
  The grammar of timestamps.

  A timestamp is spelled in many ways: with any character of
  a single byte between date and time, with digits past the
  nanoseconds, with a second numbered sixty at the end of a
  month of UTC, and with several marks of a missing offset.
  Reading accepts its spellings and nothing else.

  Each part of a text is read by a function of its own, so
  there is one statement for each part, about the part with
  anything that may come after it.

  Key definitions:
    * `Zone`: spellings of an offset
    * `Timestamp.nanoseconds`: the value of a fraction
    * `Timestamp.Spelling`, `Timestamp.IsSpelledBy`:
      spellings of a timestamp

  Main declarations:
    * `Timestamp.takeDigits?_eq_some_iff`
    * `Timestamp.readOffset?_eq_some_iff`
    * `Timestamp.read?_eq_some_iff`
-/

namespace Converge

namespace Timestamp

variable {chars rest : List Char}

------------------------------------------------------------
-- Padded Digits
------------------------------------------------------------

section Padded

variable {width value : Nat}

theorem length_padded
    (hWidth : 0 < width)
    (hValue : value < Nat.pow 10 width) :
    (padded width value).length = width := by
  have hLength : (Nat.toDigits 10 value).length ≤ width :=
    (Nat.length_toDigits_le_iff (by decide) hWidth).2 hValue
  simp only [padded, List.length_append,
    List.length_replicate]
  omega

theorem isDigit_of_mem_padded
    {c : Char}
    (h : c ∈ padded width value) :
    c.isDigit = true := by
  simp only [padded, List.mem_append] at h
  rcases h with hZero | hDigit
  · rw [List.eq_of_mem_replicate hZero]
    decide
  · exact Text.isDigit_of_mem_toDigits hDigit

@[simp] theorem digitsValue_padded (width value : Nat) :
    Text.digitsValue (padded width value) = value := by
  simp [padded]

/- Digits of a fixed width are those of their number. -/
theorem padded_digitsValue
    {digits : List Char}
    (hDigits : ∀ c ∈ digits, c.isDigit = true)
    (hPos : 0 < digits.length) :
    padded digits.length (Text.digitsValue digits) =
      digits := by
  have hValue := Text.digitsValue_lt hDigits
  exact Text.eq_of_digitsValue
    (fun _ h => isDigit_of_mem_padded h) hDigits
    (length_padded hPos hValue)
    (digitsValue_padded digits.length _)

/- Digits of a fixed width are read off what they lead. -/
theorem takeDigits?_eq_some_iff (hWidth : 0 < width) :
    takeDigits? width chars = some (value, rest) ↔
      value < Nat.pow 10 width ∧
        chars = padded width value ++ rest := by
  constructor
  · intro h
    simp only [takeDigits?] at h
    split at h
    · rename_i hDigits
      simp only [Bool.and_eq_true, decide_eq_true_iff,
        List.all_eq_true] at hDigits
      cases h
      have hValue := Text.digitsValue_lt hDigits.2
      have hPadded := padded_digitsValue hDigits.2
        (by rw [hDigits.1]; exact hWidth)
      rw [hDigits.1] at hValue hPadded
      rw [hPadded, List.take_append_drop]
      exact ⟨hValue, rfl⟩
    · cases h
  · rintro ⟨hValue, rfl⟩
    have hLength := length_padded hWidth hValue
    have hDigits :
        (padded width value).all Char.isDigit = true :=
      List.all_eq_true.2 fun _ h => isDigit_of_mem_padded h
    simp [takeDigits?, hLength, hDigits]

end Padded

------------------------------------------------------------
-- Single Characters
------------------------------------------------------------

theorem takeChar?_eq_some_iff {c : Char} :
    takeChar? c chars = some rest ↔ chars = c :: rest := by
  cases chars with
  | nil => simp [takeChar?]
  | cons first others =>
      by_cases hFirst : first = c
      · simp [takeChar?, hFirst]
      · simp [takeChar?, hFirst]

theorem takeSeparator?_eq_some_iff :
    takeSeparator? chars = some rest ↔
      ∃ c : Char, c.toNat < 128 ∧ chars = c :: rest := by
  cases chars with
  | nil => simp [takeSeparator?]
  | cons first others =>
      simp only [takeSeparator?]
      constructor
      · intro h
        split at h
        · cases h
          exact ⟨first, ‹_›, rfl⟩
        · cases h
      · rintro ⟨c, hByte, hChars⟩
        cases hChars
        rw [if_pos hByte]

------------------------------------------------------------
-- Fractions of a Second
------------------------------------------------------------

/- Nanoseconds of the digits of a fraction: the first nine,
   after zeros were put behind them. -/
def nanoseconds (fraction : List Char) : Nat :=
  Text.digitsValue
    ((fraction ++ List.replicate 9 '0').take 9)

/- A point and digits, unless there are none. -/
def spelledFraction (fraction : List Char) : List Char :=
  if fraction.isEmpty then [] else '.' :: fraction

/- What does not start like a fraction or one of its
   digits. -/
def EndsFraction (rest : List Char) : Prop :=
  ∀ c tail, rest = c :: tail → c.isDigit = false ∧ c ≠ '.'

theorem EndsFraction.takeWhile_append
    (hRest : EndsFraction rest)
    {digits : List Char}
    (hDigits : ∀ c ∈ digits, c.isDigit = true) :
    (digits ++ rest).takeWhile Char.isDigit = digits := by
  rw [List.takeWhile_append_of_pos hDigits]
  cases rest with
  | nil => simp
  | cons c tail => simp [(hRest c tail rfl).1]

theorem EndsFraction.dropWhile_append
    (hRest : EndsFraction rest)
    {digits : List Char}
    (hDigits : ∀ c ∈ digits, c.isDigit = true) :
    (digits ++ rest).dropWhile Char.isDigit = rest := by
  rw [List.dropWhile_append_of_pos hDigits]
  cases rest with
  | nil => rfl
  | cons c tail => simp [(hRest c tail rfl).1]

theorem EndsFraction.takeFraction?
    (hRest : EndsFraction rest) :
    Timestamp.takeFraction? rest = some (0, rest) := by
  unfold Timestamp.takeFraction?
  split
  · exact absurd rfl (hRest '.' _ rfl).2
  · rfl

theorem nanoseconds_eq (fraction : List Char) :
    nanoseconds fraction =
      Text.digitsValue (fraction.take 9) *
        Nat.pow 10 (9 - (fraction.take 9).length) := by
  have hZeros :
      min (9 - fraction.length) 9 =
        9 - (fraction.take 9).length := by
    rw [List.length_take]
    omega
  rw [nanoseconds, List.take_append, List.take_replicate,
    hZeros, Text.digitsValue_append_zeros]

theorem exists_of_takeFraction?
    {nanosecond : Nat}
    (h : takeFraction? chars = some (nanosecond, rest)) :
    ∃ fraction : List Char,
      (∀ c ∈ fraction, c.isDigit = true) ∧
        nanoseconds fraction = nanosecond ∧
        chars = spelledFraction fraction ++ rest := by
  unfold takeFraction? at h
  split at h
  · rename_i after
    simp only at h
    split at h
    · cases h
    · rename_i hSome
      cases h
      refine ⟨after.takeWhile Char.isDigit, ?_,
        nanoseconds_eq _, ?_⟩
      · exact List.all_eq_true.1 List.all_takeWhile
      · simp [spelledFraction, hSome,
          List.takeWhile_append_dropWhile]
  · cases h
    exact ⟨[], by simp, rfl, rfl⟩

theorem takeFraction?_spelled
    {fraction : List Char}
    (hFraction : ∀ c ∈ fraction, c.isDigit = true)
    (hRest : EndsFraction rest) :
    takeFraction? (spelledFraction fraction ++ rest) =
      some (nanoseconds fraction, rest) := by
  cases hSome : fraction.isEmpty with
  | true =>
      rw [List.isEmpty_iff.1 hSome]
      exact hRest.takeFraction?
  | false =>
      simp [spelledFraction, hSome, takeFraction?,
        hRest.takeWhile_append hFraction,
        hRest.dropWhile_append hFraction, nanoseconds_eq]

end Timestamp

------------------------------------------------------------
-- Offsets
------------------------------------------------------------

/- How an offset is spelled: by a mark of UTC, or by hours and
   minutes to the west or to the east. -/
inductive Zone where
  | zulu (mark : Char) (isMark : mark = 'Z' ∨ mark = 'z')
  | distance
      (west : Bool)
      (hours : Nat)
      (minutes : Nat)
      (hours_lt : hours < 24)
      (minutes_lt : minutes < 60)

namespace Zone

def chars : Zone → List Char
  | .zulu mark _ => [mark]
  | .distance west hours minutes _ _ =>
      (if west then '-' else '+') ::
        (Timestamp.padded 2 hours ++
          ':' :: Timestamp.padded 2 minutes)

/- Minutes that local time is ahead of UTC. -/
def offset : Zone → Int
  | .zulu _ _ => 0
  | .distance west hours minutes _ _ =>
      if west then -((hours * 60 + minutes : Nat) : Int)
      else (hours * 60 + minutes : Nat)

theorem endsFraction (zone : Zone) :
    Timestamp.EndsFraction zone.chars := by
  intro c tail h
  cases zone with
  | zulu mark isMark =>
      cases h
      rcases isMark with rfl | rfl
      · decide
      · decide
  | distance west hours minutes =>
      cases h
      cases west
      · decide
      · decide

end Zone

namespace Timestamp

variable {chars rest : List Char}

theorem minutes?_eq_some_iff {total : Int} :
    readOffset?.minutes? chars = some total ↔
      ∃ hours minutes : Nat,
        hours < 24 ∧ minutes < 60 ∧
          chars =
            padded 2 hours ++ ':' :: padded 2 minutes ∧
          total = (hours * 60 + minutes : Nat) := by
  simp only [readOffset?.minutes?, Option.bind_eq_bind,
    Option.bind_eq_some_iff, Prod.exists,
    takeChar?_eq_some_iff,
    takeDigits?_eq_some_iff (show 0 < 2 by decide)]
  constructor
  · rintro ⟨hours, _, ⟨-, rfl⟩, _, rfl, minutes, end_,
      ⟨-, rfl⟩, h⟩
    split at h
    · rename_i hParts
      simp only [Bool.and_eq_true, decide_eq_true_iff,
        List.isEmpty_iff] at hParts
      cases h
      rw [hParts.1.1, List.append_nil]
      exact ⟨hours, minutes, hParts.1.2, hParts.2, rfl, rfl⟩
    · cases h
  · rintro ⟨hours, minutes, hHours, hMinutes, rfl, rfl⟩
    have hHoursFit : hours < 100 := by omega
    have hMinutesFit : minutes < 100 := by omega
    refine ⟨hours, _, ⟨hHoursFit, rfl⟩, _, rfl, minutes, [],
      ⟨hMinutesFit, (List.append_nil _).symm⟩, ?_⟩
    simp [hHours, hMinutes]

/- Reading accepts the spellings of an offset. -/
theorem readOffset?_eq_some_iff {offset : Int} :
    readOffset? chars = some offset ↔
      ∃ zone : Zone,
        chars = zone.chars ∧ zone.offset = offset := by
  constructor
  · intro h
    unfold readOffset? at h
    split at h
    · cases h
      exact ⟨.zulu 'Z' (.inl rfl), rfl, rfl⟩
    · cases h
      exact ⟨.zulu 'z' (.inr rfl), rfl, rfl⟩
    · rcases Option.map_eq_some_iff.1 h with
        ⟨total, hTotal, rfl⟩
      rcases minutes?_eq_some_iff.1 hTotal with
        ⟨hours, minutes, hHours, hMinutes, rfl, rfl⟩
      exact ⟨.distance false hours minutes hHours hMinutes,
        rfl, rfl⟩
    · rcases Option.map_eq_some_iff.1 h with
        ⟨total, hTotal, rfl⟩
      rcases minutes?_eq_some_iff.1 hTotal with
        ⟨hours, minutes, hHours, hMinutes, rfl, rfl⟩
      exact ⟨.distance true hours minutes hHours hMinutes,
        rfl, rfl⟩
    · cases h
  · rintro ⟨zone, rfl, rfl⟩
    cases zone with
    | zulu mark isMark =>
        rcases isMark with rfl | rfl
        · rfl
        · rfl
    | distance west hours minutes hHours hMinutes =>
        have hTotal :=
          minutes?_eq_some_iff.2
            ⟨hours, minutes, hHours, hMinutes, rfl, rfl⟩
        cases west with
        | false => simp [Zone.chars, Zone.offset, readOffset?, hTotal]
        | true => simp [Zone.chars, Zone.offset, readOffset?, hTotal]

------------------------------------------------------------
-- Timestamps
------------------------------------------------------------

/- A second and the digits of a fraction stand for those of a
   timestamp. A second numbered sixty, whatever its fraction,
   stands for the last nanosecond of a month of UTC. -/
def IsSecond
    (time : Timestamp)
    (second : Nat)
    (fraction : List Char) :
    Prop :=
  second = time.second ∧
      nanoseconds fraction = time.nanosecond ∨
    second = 60 ∧ time.second = 59 ∧
      time.nanosecond = 999999999 ∧ time.universal.EndsMonth

/- What is free in a text that stands for a timestamp. -/
structure Spelling (time : Timestamp) where
  separator : Char
  second : Nat
  fraction : List Char
  zone : Zone
  isByte : separator.toNat < 128
  areDigits : ∀ c ∈ fraction, c.isDigit = true
  isSecond : time.IsSecond second fraction
  offset_eq : zone.offset = time.offset

/- The characters of a spelling. -/
def Spelling.characters
    {time : Timestamp}
    (spelling : time.Spelling) :
    List Char :=
  padded 4 time.year ++ '-' :: (padded 2 time.month ++
    '-' :: (padded 2 time.day ++ spelling.separator ::
      (padded 2 time.hour ++ ':' :: (padded 2 time.minute ++
        ':' :: (padded 2 spelling.second ++
          (spelledFraction spelling.fraction ++
            spelling.zone.chars))))))

theorem ofParts?_eq_some_iff
    {year month day hour minute second nanosecond : Nat}
    {offset : Int}
    {time : Timestamp} :
    ofParts? year month day hour minute second nanosecond
        offset = some time ↔
      year = time.year ∧ month = time.month ∧
        day = time.day ∧ hour = time.hour ∧
        minute = time.minute ∧ second = time.second ∧
        nanosecond = time.nanosecond ∧
        offset = time.offset := by
  constructor
  · intro h
    unfold ofParts? at h
    split at h
    · cases h
      simp
    · cases h
  · rintro ⟨rfl, rfl, rfl, rfl, rfl, rfl, rfl, rfl⟩
    exact dif_pos
      ⟨time.year_lt, time.month_pos, time.month_le,
        time.day_pos, time.day_le, time.hour_lt,
        time.minute_lt, time.second_lt, time.nanosecond_lt,
        time.lt_offset, time.offset_lt⟩

theorem day_le_31 (time : Timestamp) : time.day ≤ 31 := by
  refine Nat.le_trans time.day_le ?_
  simp only [Calendar.daysInMonth]
  split
  · split <;> omega
  · split <;> omega

theorem IsSecond.le_sixty
    {time : Timestamp}
    {second : Nat}
    {fraction : List Char}
    (h : time.IsSecond second fraction) :
    second ≤ 60 := by
  have hLess := time.second_lt
  unfold IsSecond at h
  omega

/- What the parts of a text stand for. -/
theorem parts_eq_some_iff
    {year month day hour minute second : Nat}
    {fraction : List Char}
    {offset : Int}
    {time : Timestamp} :
    (if second = 60 then
        (ofParts? year month day hour minute 59 999999999
            offset).bind fun time =>
          if time.endsMonth then some time else none
      else
        ofParts? year month day hour minute second
          (nanoseconds fraction) offset) =
        some time ↔
      year = time.year ∧ month = time.month ∧
        day = time.day ∧ hour = time.hour ∧
        minute = time.minute ∧
        time.IsSecond second fraction ∧
        offset = time.offset := by
  have hLess := time.second_lt
  unfold IsSecond
  split
  · rename_i hSixty
    simp only [Option.bind_eq_some_iff, ofParts?_eq_some_iff]
    constructor
    · rintro ⟨last, hParts, hLast⟩
      split at hLast
      · rename_i hEnds
        cases hLast
        have hMonth := endsMonth_iff.1 hEnds
        rcases hParts with
          ⟨hYear, hMonths, hDay, hHour, hMinute, hSecond,
            hNanosecond, hOffset⟩
        exact ⟨hYear, hMonths, hDay, hHour, hMinute,
          .inr ⟨hSixty, hSecond.symm, hNanosecond.symm,
            hMonth⟩, hOffset⟩
      · cases hLast
    · rintro ⟨hYear, hMonths, hDay, hHour, hMinute,
        hSecond | ⟨-, hSecond, hNanosecond, hMonth⟩, hOffset⟩
      · omega
      · refine ⟨time, ⟨hYear, hMonths, hDay, hHour, hMinute,
          hSecond.symm, hNanosecond.symm, hOffset⟩, ?_⟩
        rw [endsMonth_iff.2 hMonth]
        rfl
  · rename_i hRegular
    rw [ofParts?_eq_some_iff]
    constructor
    · rintro ⟨hYear, hMonths, hDay, hHour, hMinute, hSecond,
        hNanosecond, hOffset⟩
      exact ⟨hYear, hMonths, hDay, hHour, hMinute,
        .inl ⟨hSecond, hNanosecond⟩, hOffset⟩
    · rintro ⟨hYear, hMonths, hDay, hHour, hMinute,
        ⟨hSecond, hNanosecond⟩ | ⟨hSixty, -⟩, hOffset⟩
      · exact ⟨hYear, hMonths, hDay, hHour, hMinute, hSecond,
          hNanosecond, hOffset⟩
      · exact absurd hSixty hRegular

/- What is read as a timestamp is one of its spellings. -/
theorem exists_of_readChars?
    {time : Timestamp}
    (h : readChars? chars = some time) :
    ∃ spelling : time.Spelling,
      chars = spelling.characters := by
  have hFour : 0 < 4 := by decide
  have hTwo : 0 < 2 := by decide
  rcases Option.bind_eq_some_iff.1 h with
    ⟨⟨year, afterYear⟩, hYear, h⟩
  rcases Option.bind_eq_some_iff.1 h with
    ⟨beforeMonth, hFirstDash, h⟩
  rcases Option.bind_eq_some_iff.1 h with
    ⟨⟨month, afterMonth⟩, hMonth, h⟩
  rcases Option.bind_eq_some_iff.1 h with
    ⟨beforeDay, hSecondDash, h⟩
  rcases Option.bind_eq_some_iff.1 h with
    ⟨⟨day, afterDay⟩, hDay, h⟩
  rcases Option.bind_eq_some_iff.1 h with
    ⟨beforeHour, hSeparator, h⟩
  rcases Option.bind_eq_some_iff.1 h with
    ⟨⟨hour, afterHour⟩, hHour, h⟩
  rcases Option.bind_eq_some_iff.1 h with
    ⟨beforeMinute, hFirstColon, h⟩
  rcases Option.bind_eq_some_iff.1 h with
    ⟨⟨minute, afterMinute⟩, hMinute, h⟩
  rcases Option.bind_eq_some_iff.1 h with
    ⟨beforeSecond, hSecondColon, h⟩
  rcases Option.bind_eq_some_iff.1 h with
    ⟨⟨second, afterSecond⟩, hSecond, h⟩
  rcases Option.bind_eq_some_iff.1 h with
    ⟨⟨nanosecond, beforeZone⟩, hFraction, h⟩
  rcases Option.bind_eq_some_iff.1 h with
    ⟨offset, hOffset, hTime⟩
  rcases (takeDigits?_eq_some_iff hFour).1 hYear with ⟨-, rfl⟩
  rcases takeChar?_eq_some_iff.1 hFirstDash with rfl
  rcases (takeDigits?_eq_some_iff hTwo).1 hMonth with ⟨-, rfl⟩
  rcases takeChar?_eq_some_iff.1 hSecondDash with rfl
  rcases (takeDigits?_eq_some_iff hTwo).1 hDay with ⟨-, rfl⟩
  rcases takeSeparator?_eq_some_iff.1 hSeparator with
    ⟨separator, hByte, rfl⟩
  rcases (takeDigits?_eq_some_iff hTwo).1 hHour with ⟨-, rfl⟩
  rcases takeChar?_eq_some_iff.1 hFirstColon with rfl
  rcases (takeDigits?_eq_some_iff hTwo).1 hMinute with ⟨-, rfl⟩
  rcases takeChar?_eq_some_iff.1 hSecondColon with rfl
  rcases (takeDigits?_eq_some_iff hTwo).1 hSecond with ⟨-, rfl⟩
  rcases exists_of_takeFraction? hFraction with
    ⟨fraction, hDigits, rfl, rfl⟩
  rcases readOffset?_eq_some_iff.1 hOffset with
    ⟨zone, rfl, hZone⟩
  rcases parts_eq_some_iff.1 hTime with
    ⟨rfl, rfl, rfl, rfl, rfl, hCounts, rfl⟩
  exact ⟨⟨separator, second, fraction, zone, hByte, hDigits,
    hCounts, hZone⟩, rfl⟩

/- Every spelling of a timestamp is read as it. -/
theorem readChars?_characters
    {time : Timestamp}
    (spelling : time.Spelling) :
    readChars? spelling.characters = some time := by
  have hFour : 0 < 4 := by decide
  have hTwo : 0 < 2 := by decide
  have hYear : time.year < 10000 := time.year_lt
  have hMonth : time.month < 100 := by
    have h := time.month_le
    omega
  have hDay : time.day < 100 := by
    have h := time.day_le_31
    omega
  have hHour : time.hour < 100 := by
    have h := time.hour_lt
    omega
  have hMinute : time.minute < 100 := by
    have h := time.minute_lt
    omega
  have hSecond : spelling.second < 100 := by
    have h := spelling.isSecond.le_sixty
    omega
  refine Option.bind_eq_some_iff.2 ⟨(time.year, _),
    (takeDigits?_eq_some_iff hFour).2 ⟨hYear, rfl⟩, ?_⟩
  refine Option.bind_eq_some_iff.2 ⟨_,
    takeChar?_eq_some_iff.2 rfl, ?_⟩
  refine Option.bind_eq_some_iff.2 ⟨(time.month, _),
    (takeDigits?_eq_some_iff hTwo).2 ⟨hMonth, rfl⟩, ?_⟩
  refine Option.bind_eq_some_iff.2 ⟨_,
    takeChar?_eq_some_iff.2 rfl, ?_⟩
  refine Option.bind_eq_some_iff.2 ⟨(time.day, _),
    (takeDigits?_eq_some_iff hTwo).2 ⟨hDay, rfl⟩, ?_⟩
  refine Option.bind_eq_some_iff.2 ⟨_,
    takeSeparator?_eq_some_iff.2
      ⟨spelling.separator, spelling.isByte, rfl⟩, ?_⟩
  refine Option.bind_eq_some_iff.2 ⟨(time.hour, _),
    (takeDigits?_eq_some_iff hTwo).2 ⟨hHour, rfl⟩, ?_⟩
  refine Option.bind_eq_some_iff.2 ⟨_,
    takeChar?_eq_some_iff.2 rfl, ?_⟩
  refine Option.bind_eq_some_iff.2 ⟨(time.minute, _),
    (takeDigits?_eq_some_iff hTwo).2 ⟨hMinute, rfl⟩, ?_⟩
  refine Option.bind_eq_some_iff.2 ⟨_,
    takeChar?_eq_some_iff.2 rfl, ?_⟩
  refine Option.bind_eq_some_iff.2 ⟨(spelling.second, _),
    (takeDigits?_eq_some_iff hTwo).2 ⟨hSecond, rfl⟩, ?_⟩
  refine Option.bind_eq_some_iff.2 ⟨_,
    takeFraction?_spelled spelling.areDigits
      spelling.zone.endsFraction, ?_⟩
  refine Option.bind_eq_some_iff.2 ⟨time.offset,
    readOffset?_eq_some_iff.2
      ⟨spelling.zone, rfl, spelling.offset_eq⟩, ?_⟩
  exact parts_eq_some_iff.2
    ⟨rfl, rfl, rfl, rfl, rfl, spelling.isSecond, rfl⟩

/- A text spells a timestamp. -/
def IsSpelledBy (time : Timestamp) (text : String) : Prop :=
  ∃ spelling : time.Spelling,
    text = String.ofList spelling.characters

/- Reading accepts the spellings of a timestamp. -/
theorem read?_eq_some_iff
    {text : String}
    {time : Timestamp} :
    read? text = some time ↔ time.IsSpelledBy text := by
  constructor
  · intro h
    rcases exists_of_readChars? h with ⟨spelling, hChars⟩
    exact ⟨spelling, by rw [← hChars, String.ofList_toList]⟩
  · rintro ⟨spelling, rfl⟩
    rw [read?, String.toList_ofList]
    exact readChars?_characters spelling

end Timestamp

end Converge
