import Converge.Proofs.Time.Calendar

/-
  Timestamps moved to UTC.

  A timestamp says the same time of day on a date of UTC,
  which is the date it is written with, the one before or the
  one after. Read in UTC, timestamps are ordered part by part,
  from the date down to the nanosecond, and that is the order
  of their instants; a timestamp is told by its instant and
  its offset.

  Key definitions:
    * `CivilTime`: a date and a time of day
    * `CivilTime.Before`: order by parts
    * `Timestamp.universal`: a timestamp in UTC

  Main declarations:
    * `Timestamp.instant_universal`
    * `Timestamp.instant_eq_iff`, `Timestamp.instant_lt_iff`
    * `Timestamp.eq_of_instant`
    * `Timestamp.endsMonth_iff`
-/

namespace Converge

------------------------------------------------------------
-- Dates with Times of Day
------------------------------------------------------------

/- A date and a time of that day. -/
structure CivilTime where
  date : Calendar.Date
  hour : Nat
  minute : Nat
  second : Nat
  nanosecond : Nat
  hour_lt : hour < 24
  minute_lt : minute < 60
  second_lt : second < 60
  nanosecond_lt : nanosecond < 1000000000

namespace CivilTime

variable {left right : CivilTime}

theorem ext_parts
    (hDate : left.date = right.date)
    (hHour : left.hour = right.hour)
    (hMinute : left.minute = right.minute)
    (hSecond : left.second = right.second)
    (hNanosecond : left.nanosecond = right.nanosecond) :
    left = right := by
  cases left
  cases right
  simp_all

theorem eq_iff_parts :
    left.date = right.date ∧ left.hour = right.hour ∧
        left.minute = right.minute ∧
        left.second = right.second ∧
        left.nanosecond = right.nanosecond ↔
      left = right := by
  constructor
  · rintro ⟨hDate, hHour, hMinute, hSecond, hNanosecond⟩
    exact ext_parts hDate hHour hMinute hSecond hNanosecond
  · rintro rfl
    exact ⟨rfl, rfl, rfl, rfl, rfl⟩

instance : DecidableEq CivilTime :=
  fun _ _ => decidable_of_iff _ eq_iff_parts

/- Seconds since midnight. -/
def secondOfDay (time : CivilTime) : Nat :=
  time.hour * 3600 + time.minute * 60 + time.second

/- Seconds since the epoch, rounded down, if this is a time
   of UTC. -/
def unixSeconds (time : CivilTime) : Int :=
  time.date.number * 86400 + time.secondOfDay

/- Nanoseconds since the epoch, likewise. -/
def instant (time : CivilTime) : Int :=
  time.unixSeconds * 1000000000 + time.nanosecond

/- Order by the date, then by hour, minute, second and
   nanosecond. -/
def Before (left right : CivilTime) : Prop :=
  left.date.Before right.date ∨
    left.date = right.date ∧
      (left.hour < right.hour ∨
        left.hour = right.hour ∧
          (left.minute < right.minute ∨
            left.minute = right.minute ∧
              (left.second < right.second ∨
                left.second = right.second ∧
                  left.nanosecond < right.nanosecond)))

instance (left right : CivilTime) :
    Decidable (left.Before right) :=
  inferInstanceAs (Decidable (_ ∨ _))

/- The last second of a month. -/
def EndsMonth (time : CivilTime) : Prop :=
  time.date.EndsMonth ∧ time.hour = 23 ∧ time.minute = 59 ∧
    time.second = 59

instance (time : CivilTime) : Decidable time.EndsMonth :=
  inferInstanceAs (Decidable (_ ∧ _))

theorem secondOfDay_lt (time : CivilTime) :
    time.secondOfDay < 86400 := by
  have hHour := time.hour_lt
  have hMinute := time.minute_lt
  have hSecond := time.second_lt
  unfold secondOfDay
  omega

/- The instants of two times are compared by their parts. -/
theorem instant_lt_iff :
    left.instant < right.instant ↔ left.Before right := by
  have hLeft := left.secondOfDay_lt
  have hRight := right.secondOfDay_lt
  have hLeftPart := left.nanosecond_lt
  have hRightPart := right.nanosecond_lt
  have hDate : left.date = right.date ↔
      left.date.number = right.date.number :=
    ⟨fun h => by rw [h], Calendar.Date.number_injective⟩
  have hSeconds :
      left.secondOfDay < right.secondOfDay ∨
          left.secondOfDay = right.secondOfDay ∧
            left.nanosecond < right.nanosecond ↔
        left.hour < right.hour ∨
          left.hour = right.hour ∧
            (left.minute < right.minute ∨
              left.minute = right.minute ∧
                (left.second < right.second ∨
                  left.second = right.second ∧
                    left.nanosecond < right.nanosecond)) := by
    have hLeftMinute := left.minute_lt
    have hRightMinute := right.minute_lt
    have hLeftSecond := left.second_lt
    have hRightSecond := right.second_lt
    unfold secondOfDay
    omega
  rw [Before, ← Calendar.Date.number_lt_iff, hDate, ← hSeconds]
  unfold instant unixSeconds
  omega

/- A time is told by its instant. -/
theorem instant_injective
    (h : left.instant = right.instant) :
    left = right := by
  have hLeft := left.secondOfDay_lt
  have hRight := right.secondOfDay_lt
  have hLeftPart := left.nanosecond_lt
  have hRightPart := right.nanosecond_lt
  unfold instant unixSeconds at h
  have hDate : left.date = right.date :=
    Calendar.Date.number_injective (by omega)
  have hSeconds : left.secondOfDay = right.secondOfDay := by
    omega
  have hPart : left.nanosecond = right.nanosecond := by omega
  have hLeftMinute := left.minute_lt
  have hRightMinute := right.minute_lt
  have hLeftSecond := left.second_lt
  have hRightSecond := right.second_lt
  unfold secondOfDay at hSeconds
  have hHour : left.hour = right.hour := by omega
  have hMinute : left.minute = right.minute := by omega
  have hSecond : left.second = right.second := by omega
  exact ext_parts hDate hHour hMinute hSecond hPart

end CivilTime

namespace Timestamp

variable {left right : Timestamp}

------------------------------------------------------------
-- Moving to UTC
------------------------------------------------------------

/- The date a timestamp is written with. -/
def date (time : Timestamp) : Calendar.Date where
  year := time.year
  month := time.month
  day := time.day
  month_pos := time.month_pos
  month_le := time.month_le
  day_pos := time.day_pos
  day_le := time.day_le

/- The written date and time of day. -/
def written (time : Timestamp) : CivilTime where
  date := time.date
  hour := time.hour
  minute := time.minute
  second := time.second
  nanosecond := time.nanosecond
  hour_lt := time.hour_lt
  minute_lt := time.minute_lt
  second_lt := time.second_lt
  nanosecond_lt := time.nanosecond_lt

/- Minutes in UTC from the midnight that starts the written
   date. -/
def minuteOfDate (time : Timestamp) : Int :=
  (time.hour * 60 + time.minute : Nat) - time.offset

/- The date in UTC. -/
def universalDate (time : Timestamp) : Calendar.Date :=
  if time.minuteOfDate < 0 then time.date.previous
  else if time.minuteOfDate < 1440 then time.date
  else time.date.next

/- The same instant in UTC. -/
def universal (time : Timestamp) : CivilTime where
  date := time.universalDate
  hour := (time.minuteOfDate % 1440).toNat / 60
  minute := (time.minuteOfDate % 1440).toNat % 60
  second := time.second
  nanosecond := time.nanosecond
  hour_lt := by omega
  minute_lt := by omega
  second_lt := time.second_lt
  nanosecond_lt := time.nanosecond_lt

/- The offset is between the written time and the instant. -/
theorem unixSeconds_written (time : Timestamp) :
    time.written.unixSeconds =
      time.unixSeconds + time.offset * 60 := by
  have hDate :
      Calendar.dayNumber time.year time.month time.day =
        time.date.number := rfl
  simp only [CivilTime.unixSeconds, CivilTime.secondOfDay,
    written, unixSeconds, hDate]
  omega

/- Days and minutes are carried over between dates. -/
theorem universalDate_minutes (time : Timestamp) :
    time.universalDate.number * 1440 +
        time.minuteOfDate % 1440 =
      time.date.number * 1440 + time.minuteOfDate := by
  have hHour := time.hour_lt
  have hMinute := time.minute_lt
  have hLower := time.lt_offset
  have hUpper := time.offset_lt
  have hMinutes :
      time.minuteOfDate =
        (time.hour * 60 + time.minute : Nat) -
          time.offset := rfl
  unfold universalDate
  split
  · rw [Calendar.Date.number_previous]
    omega
  · split
    · omega
    · rw [Calendar.Date.number_next]
      omega

theorem unixSeconds_universal (time : Timestamp) :
    time.universal.unixSeconds = time.unixSeconds := by
  have hMinutes :
      time.minuteOfDate =
        (time.hour * 60 + time.minute : Nat) -
          time.offset := rfl
  have hCarried := universalDate_minutes time
  have hWritten := unixSeconds_written time
  simp only [CivilTime.unixSeconds, CivilTime.secondOfDay,
    written] at hWritten
  simp only [CivilTime.unixSeconds, CivilTime.secondOfDay,
    universal]
  omega

theorem instant_universal (time : Timestamp) :
    time.universal.instant = time.instant := by
  rw [CivilTime.instant, unixSeconds_universal]
  rfl

------------------------------------------------------------
-- Order
------------------------------------------------------------

/- Instants are told by date and time of day in UTC. -/
theorem instant_eq_iff :
    left.instant = right.instant ↔
      left.universal = right.universal := by
  rw [← instant_universal, ← instant_universal]
  constructor
  · exact CivilTime.instant_injective
  · intro h
    rw [h]

/- Instants are ordered part by part in UTC. -/
theorem instant_lt_iff :
    left.instant < right.instant ↔
      left.universal.Before right.universal := by
  rw [← instant_universal, ← instant_universal,
    CivilTime.instant_lt_iff]

/- A timestamp is told by its instant and its offset. -/
theorem eq_of_instant
    (hInstant : left.instant = right.instant)
    (hOffset : left.offset = right.offset) :
    left = right := by
  have hWritten : left.written = right.written := by
    apply CivilTime.instant_injective
    have hLeft := unixSeconds_written left
    have hRight := unixSeconds_written right
    have hLeftPart : left.written.nanosecond = left.nanosecond :=
      rfl
    have hRightPart :
        right.written.nanosecond = right.nanosecond := rfl
    unfold instant at hInstant
    unfold CivilTime.instant
    omega
  have hDate : left.date = right.date :=
    congrArg CivilTime.date hWritten
  have hYear : left.year = right.year :=
    Int.ofNat.inj (congrArg Calendar.Date.year hDate)
  have hMonth : left.month = right.month :=
    congrArg Calendar.Date.month hDate
  have hDay : left.day = right.day :=
    congrArg Calendar.Date.day hDate
  have hHour : left.hour = right.hour :=
    congrArg CivilTime.hour hWritten
  have hMinute : left.minute = right.minute :=
    congrArg CivilTime.minute hWritten
  have hSecond : left.second = right.second :=
    congrArg CivilTime.second hWritten
  have hNanosecond : left.nanosecond = right.nanosecond :=
    congrArg CivilTime.nanosecond hWritten
  cases left
  cases right
  simp_all

------------------------------------------------------------
-- Ends of Months
------------------------------------------------------------

/- The date in UTC is next to the written one. -/
theorem universalDate_cases (time : Timestamp) :
    time.universalDate.next = time.date ∨
      time.universalDate = time.date ∨
      time.universalDate = time.date.next := by
  unfold universalDate
  split
  · exact .inl (Calendar.Date.next_previous time.date)
  · split
    · exact .inr (.inl rfl)
    · exact .inr (.inr rfl)

/- A month that starts after the date in UTC is one of the
   years around the written one. -/
theorem year_next_universalDate
    {time : Timestamp}
    (hEnds : time.universalDate.EndsMonth) :
    time.universalDate.next.year = time.year ∨
      time.universalDate.next.year = time.year + 1 := by
  have hWritten : time.date.year = time.year := rfl
  rcases universalDate_cases time with
    hBefore | hSame | hAfter
  · rw [hBefore]
    exact .inl rfl
  · rw [hSame]
    rcases Calendar.Date.next_year time.date with
      hYear | ⟨hYear, -⟩
    · exact .inl hYear
    · exact .inr hYear
  · rw [hAfter] at hEnds ⊢
    -- After a new year's first day no month starts at once.
    rcases Calendar.Date.next_year time.date with
      hYear | ⟨-, hInside⟩
    · rcases Calendar.Date.next_year time.date.next with
        hNext | ⟨hNext, -⟩
      · exact .inl (hNext.trans (hYear.trans hWritten))
      · rw [hNext, hYear]
        exact .inr rfl
    · exact absurd hEnds hInside

/- A month starts with the second after a timestamp. -/
theorem endsMonth_iff_first {time : Timestamp} :
    time.endsMonth = true ↔
      ∃ first : Calendar.Date,
        first.day = 1 ∧
          (first.year = time.year - 1 ∨
            first.year = time.year ∨
            first.year = time.year + 1) ∧
          first.number * 86400 = time.unixSeconds + 1 := by
  simp only [endsMonth, List.any_eq_true, decide_eq_true_iff]
  constructor
  · rintro ⟨shift, hShift, month, hMonth, hNumber⟩
    have hLess := List.mem_range.1 hMonth
    refine ⟨.first (time.year + shift) (month + 1)
      (Nat.succ_pos month) hLess, rfl, ?_, hNumber⟩
    simp only [List.mem_cons, List.not_mem_nil, or_false]
      at hShift
    change time.year + shift = _ ∨ time.year + shift = _ ∨
      time.year + shift = _
    omega
  · rintro ⟨first, hDay, hYear, hNumber⟩
    have hPos := first.month_pos
    have hMonth := first.month_le
    refine ⟨first.year - time.year, ?_, first.month - 1,
      List.mem_range.2 (by omega), ?_⟩
    · simp only [List.mem_cons, List.not_mem_nil, or_false]
      omega
    · have hShift :
          (time.year : Int) + (first.year - time.year) =
            first.year := by
        omega
      rw [← hNumber, Nat.sub_add_cancel hPos, hShift, ← hDay]
      rfl

/- A second numbered sixty is possible in the last second of
   a month of UTC. -/
theorem endsMonth_iff {time : Timestamp} :
    time.endsMonth = true ↔ time.universal.EndsMonth := by
  have hSeconds := unixSeconds_universal time
  have hDay := time.universal.secondOfDay_lt
  have hDate : time.universal.date = time.universalDate := rfl
  rw [CivilTime.unixSeconds, hDate] at hSeconds
  rw [endsMonth_iff_first, CivilTime.EndsMonth, hDate]
  constructor
  · rintro ⟨first, hFirst, -, hNumber⟩
    have hLast : time.universal.secondOfDay = 86399 := by
      omega
    have hNext : first = time.universalDate.next := by
      apply Calendar.Date.number_injective
      rw [Calendar.Date.number_next]
      omega
    rw [hNext] at hFirst
    refine ⟨Calendar.Date.endsMonth_of_next hFirst, ?_⟩
    have hHour := time.universal.hour_lt
    have hMinute := time.universal.minute_lt
    have hSecond := time.universal.second_lt
    unfold CivilTime.secondOfDay at hLast
    omega
  · rintro ⟨hEnds, hHour, hMinute, hSecond⟩
    refine ⟨time.universalDate.next,
      Calendar.Date.next_day_of_endsMonth hEnds,
      .inr (year_next_universalDate hEnds), ?_⟩
    rw [Calendar.Date.number_next, ← hSeconds,
      CivilTime.secondOfDay, hHour, hMinute, hSecond]
    omega

end Timestamp

end Converge
