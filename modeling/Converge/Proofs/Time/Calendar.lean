import Converge.Time.Timestamp

/-
  Dates and their numbers.

  The number of a date is made of the days of whole years, of
  whole months and of the month itself. It grows by one from
  a date to the next, so dates are ordered as their numbers
  are, and no two of them share one.

  Key definitions:
    * `Calendar.Date`: a day of the calendar
    * `Calendar.Date.next`, `Calendar.Date.previous`
    * `Calendar.Date.Before`: order by year, month and day

  Main declarations:
    * `Calendar.Date.number_next`
    * `Calendar.Date.number_lt_iff`
    * `Calendar.Date.number_injective`
-/

namespace Converge

namespace Calendar

------------------------------------------------------------
-- Months and Years
------------------------------------------------------------

/- Days of a year. -/
def daysInYear (year : Int) : Nat :=
  if isLeapYear year then 366 else 365

section Lengths

variable (year : Int) {month : Nat}

theorem daysInMonth_pos (month : Nat) :
    0 < daysInMonth year month := by
  unfold daysInMonth
  split
  · split <;> decide
  · split <;> decide

@[simp] theorem daysInMonth_twelve :
    daysInMonth year 12 = 31 := rfl

@[simp] theorem daysBeforeMonth_one :
    daysBeforeMonth year 1 = 0 := rfl

theorem daysBeforeMonth_succ (hMonth : 0 < month) :
    daysBeforeMonth year (month + 1) =
      daysBeforeMonth year month +
        daysInMonth year month := by
  obtain ⟨earlier, rfl⟩ :
      ∃ earlier, month = earlier + 1 :=
    ⟨month - 1, by omega⟩
  simp only [daysBeforeMonth, Nat.add_sub_cancel,
    List.range_succ, List.foldl_append, List.foldl_cons,
    List.foldl_nil]

theorem daysBeforeMonth_mono
    {later : Nat}
    (hMonth : 0 < month)
    (hLater : month ≤ later) :
    daysBeforeMonth year month ≤
      daysBeforeMonth year later := by
  induction hLater with
  | refl => exact Nat.le_refl _
  | @step later hLater ih =>
      have hPos : 0 < later := Nat.lt_of_lt_of_le hMonth hLater
      rw [daysBeforeMonth_succ year hPos]
      omega

/- The twelve months make a year. -/
theorem daysBeforeMonth_twelve :
    daysBeforeMonth year 12 + 31 = daysInYear year := by
  unfold daysInYear
  cases h : isLeapYear year <;>
    simp [daysBeforeMonth, List.range_succ, daysInMonth, h]

theorem daysBeforeMonth_add_le
    (hPos : 0 < month)
    (hMonth : month ≤ 12) :
    daysBeforeMonth year month + daysInMonth year month ≤
      daysInYear year := by
  have hYear := daysBeforeMonth_twelve year
  by_cases hDecember : month = 12
  · rw [hDecember, daysInMonth_twelve]
    omega
  · have hNext :=
      daysBeforeMonth_mono year (Nat.succ_pos month)
        (show month + 1 ≤ 12 by omega)
    rw [daysBeforeMonth_succ year hPos] at hNext
    omega

theorem daysBeforeYear_succ :
    daysBeforeYear (year + 1) =
      daysBeforeYear year + daysInYear year := by
  have hLeap :
      isLeapYear year = true ↔
        year % 4 = 0 ∧
          (year % 100 ≠ 0 ∨ year % 400 = 0) := by
    simp [isLeapYear]
  unfold daysInYear daysBeforeYear
  split
  · have h := hLeap.1 ‹_›
    omega
  · have h := mt hLeap.2 ‹_›
    omega

theorem daysBeforeYear_mono
    {year later : Int}
    (hLater : year ≤ later) :
    daysBeforeYear year ≤ daysBeforeYear later := by
  unfold daysBeforeYear
  omega

end Lengths

------------------------------------------------------------
-- Dates
------------------------------------------------------------

/- A day of the calendar. -/
structure Date where
  year : Int
  month : Nat
  day : Nat
  month_pos : 0 < month
  month_le : month ≤ 12
  day_pos : 0 < day
  day_le : day ≤ daysInMonth year month

namespace Date

variable {left right : Date}

theorem ext_parts
    (hYear : left.year = right.year)
    (hMonth : left.month = right.month)
    (hDay : left.day = right.day) :
    left = right := by
  cases left
  cases right
  simp_all

theorem eq_iff_parts :
    left.year = right.year ∧ left.month = right.month ∧
        left.day = right.day ↔
      left = right := by
  constructor
  · rintro ⟨hYear, hMonth, hDay⟩
    exact ext_parts hYear hMonth hDay
  · rintro rfl
    exact ⟨rfl, rfl, rfl⟩

instance : DecidableEq Date :=
  fun _ _ => decidable_of_iff _ eq_iff_parts

/- Days since the first of January 1970. -/
def number (date : Date) : Int :=
  dayNumber date.year date.month date.day

/- The day is the last one of its month. -/
def EndsMonth (date : Date) : Prop :=
  date.day = daysInMonth date.year date.month

instance (date : Date) : Decidable date.EndsMonth :=
  inferInstanceAs (Decidable (_ = _))

theorem january_le : 1 ≤ 12 := by decide

theorem december_pos : 0 < 12 := by decide

theorem december_le : 12 ≤ 12 := by decide

/- The first day of a month. -/
def first
    (year : Int)
    (month : Nat)
    (month_pos : 0 < month)
    (month_le : month ≤ 12) :
    Date where
  year := year
  month := month
  day := 1
  month_pos := month_pos
  month_le := month_le
  day_pos := Nat.one_pos
  day_le := daysInMonth_pos year month

/- The last day of a month. -/
def last
    (year : Int)
    (month : Nat)
    (month_pos : 0 < month)
    (month_le : month ≤ 12) :
    Date where
  year := year
  month := month
  day := daysInMonth year month
  month_pos := month_pos
  month_le := month_le
  day_pos := daysInMonth_pos year month
  day_le := Nat.le_refl _

theorem endsMonth_last
    {year : Int}
    {month : Nat}
    (month_pos : 0 < month)
    (month_le : month ≤ 12) :
    (last year month month_pos month_le).EndsMonth := rfl

/- The day after. -/
def next (date : Date) : Date :=
  if hDay : date.day < daysInMonth date.year date.month then
    { date with
      day := date.day + 1
      day_pos := Nat.succ_pos _
      day_le := hDay }
  else if hMonth : date.month < 12 then
    first date.year (date.month + 1) (Nat.succ_pos _) hMonth
  else first (date.year + 1) 1 Nat.one_pos january_le

/- The day before. -/
def previous (date : Date) : Date :=
  if hDay : 1 < date.day then
    { date with
      day := date.day - 1
      day_pos := Nat.sub_pos_of_lt hDay
      day_le := Nat.le_trans (Nat.sub_le _ _) date.day_le }
  else if hMonth : 1 < date.month then
    last date.year (date.month - 1) (Nat.sub_pos_of_lt hMonth)
      (Nat.le_trans (Nat.sub_le _ _) date.month_le)
  else last (date.year - 1) 12 december_pos december_le

/- The number of a date in its year. -/
theorem number_eq (date : Date) :
    date.number =
      daysBeforeYear date.year +
        daysBeforeMonth date.year date.month +
        (date.day - 1 : Int) - daysBeforeYear 1970 := rfl

/- The end of a month that is not the last one of a year. -/
theorem next_of_endsMonth
    {date : Date}
    (hDay : date.EndsMonth)
    (hMonth : date.month < 12) :
    date.next =
      first date.year (date.month + 1) (Nat.succ_pos _)
        hMonth := by
  have hLast : ¬date.day < daysInMonth date.year date.month :=
    Nat.not_lt.2 (Nat.le_of_eq hDay.symm)
  rw [next, dif_neg hLast, dif_pos hMonth]

theorem next_of_endsYear
    {date : Date}
    (hDay : date.EndsMonth)
    (hMonth : date.month = 12) :
    date.next =
      first (date.year + 1) 1 Nat.one_pos january_le := by
  have hLast : ¬date.day < daysInMonth date.year date.month :=
    Nat.not_lt.2 (Nat.le_of_eq hDay.symm)
  have hDecember : ¬date.month < 12 := by omega
  rw [next, dif_neg hLast, dif_neg hDecember]

theorem month_eq_of_not_lt
    {date : Date}
    (h : ¬date.month < 12) :
    date.month = 12 :=
  Nat.le_antisymm date.month_le (Nat.not_lt.1 h)

theorem endsMonth_of_not_lt
    {date : Date}
    (h : ¬date.day < daysInMonth date.year date.month) :
    date.EndsMonth :=
  Nat.le_antisymm date.day_le (Nat.not_lt.1 h)

/- Only after the end of a month comes a first day. -/
theorem endsMonth_of_next
    {date : Date}
    (h : date.next.day = 1) :
    date.EndsMonth := by
  by_cases hDay :
      date.day < daysInMonth date.year date.month
  · have hPos := date.day_pos
    rw [next, dif_pos hDay] at h
    simp only at h
    omega
  · exact endsMonth_of_not_lt hDay

theorem next_day_of_endsMonth
    {date : Date}
    (h : date.EndsMonth) :
    date.next.day = 1 := by
  by_cases hMonth : date.month < 12
  · rw [next_of_endsMonth h hMonth]
    rfl
  · rw [next_of_endsYear h (month_eq_of_not_lt hMonth)]
    rfl

/- The year of the next day; a new year does not start at the
   end of a month. -/
theorem next_year (date : Date) :
    date.next.year = date.year ∨
      date.next.year = date.year + 1 ∧
        ¬date.next.EndsMonth := by
  by_cases hDay :
      date.day < daysInMonth date.year date.month
  · rw [next, dif_pos hDay]
    exact .inl rfl
  · have hLast := endsMonth_of_not_lt hDay
    by_cases hMonth : date.month < 12
    · rw [next_of_endsMonth hLast hMonth]
      exact .inl rfl
    · rw [next_of_endsYear hLast (month_eq_of_not_lt hMonth)]
      refine .inr ⟨rfl, ?_⟩
      intro hEnds
      cases hEnds

@[simp] theorem number_next (date : Date) :
    date.next.number = date.number + 1 := by
  by_cases hDay :
      date.day < daysInMonth date.year date.month
  · rw [next, dif_pos hDay]
    simp only [number_eq]
    omega
  · have hLast := endsMonth_of_not_lt hDay
    have hDays :=
      daysBeforeMonth_succ date.year date.month_pos
    rw [← hLast] at hDays
    by_cases hMonth : date.month < 12
    · rw [next_of_endsMonth hLast hMonth]
      simp only [number_eq, first, hDays]
      omega
    · have hDecember := month_eq_of_not_lt hMonth
      have hYear :
          daysBeforeMonth date.year date.month + date.day =
            daysInYear date.year := by
        rw [hLast, hDecember, daysInMonth_twelve,
          daysBeforeMonth_twelve]
      rw [next_of_endsYear hLast hDecember]
      simp only [number_eq, first, daysBeforeYear_succ,
        daysBeforeMonth_one]
      omega

@[simp] theorem next_previous (date : Date) :
    date.previous.next = date := by
  have hMonths := date.month_le
  by_cases hDay : 1 < date.day
  · have hInside :
        date.day - 1 < daysInMonth date.year date.month :=
      Nat.lt_of_lt_of_le (by omega) date.day_le
    rw [previous, dif_pos hDay, next, dif_pos hInside]
    exact ext_parts rfl rfl (Nat.sub_add_cancel date.day_pos)
  · have hFirst : 1 = date.day :=
      Nat.le_antisymm date.day_pos (Nat.not_lt.1 hDay)
    by_cases hMonth : 1 < date.month
    · have hEarlier : date.month - 1 < 12 := by omega
      rw [previous, dif_neg hDay, dif_pos hMonth,
        next_of_endsMonth (endsMonth_last _ _) hEarlier]
      exact ext_parts rfl
        (Nat.sub_add_cancel date.month_pos) hFirst
    · have hJanuary : 1 = date.month :=
        Nat.le_antisymm date.month_pos (Nat.not_lt.1 hMonth)
      rw [previous, dif_neg hDay, dif_neg hMonth,
        next_of_endsYear (endsMonth_last _ _) rfl]
      exact ext_parts (Int.sub_add_cancel date.year 1)
        hJanuary hFirst

@[simp] theorem number_previous (date : Date) :
    date.previous.number = date.number - 1 := by
  have hNext := number_next date.previous
  rw [next_previous] at hNext
  omega

------------------------------------------------------------
-- Order
------------------------------------------------------------

/- Order by year, then by month, then by day. -/
def Before (left right : Date) : Prop :=
  left.year < right.year ∨
    left.year = right.year ∧
      (left.month < right.month ∨
        left.month = right.month ∧ left.day < right.day)

instance (left right : Date) : Decidable (left.Before right) :=
  inferInstanceAs (Decidable (_ ∨ _))

theorem before_trichotomy (left right : Date) :
    left.Before right ∨ left = right ∨ right.Before left := by
  by_cases hYear : left.year = right.year
  · by_cases hMonth : left.month = right.month
    · by_cases hDay : left.day = right.day
      · exact .inr (.inl (ext_parts hYear hMonth hDay))
      · unfold Before
        omega
    · unfold Before
      omega
  · unfold Before
    omega

theorem number_lt_of_before (h : left.Before right) :
    left.number < right.number := by
  have hLeft := left.day_le
  have hRight := right.day_pos
  have hInYear :=
    daysBeforeMonth_add_le left.year left.month_pos
      left.month_le
  simp only [number_eq]
  rcases h with hYear | ⟨hYear, hMonth | ⟨hMonth, hDay⟩⟩
  · have hYears :
        daysBeforeYear (left.year + 1) ≤
          daysBeforeYear right.year :=
      daysBeforeYear_mono (by omega)
    rw [daysBeforeYear_succ] at hYears
    omega
  · have hMonths :
        daysBeforeMonth left.year (left.month + 1) ≤
          daysBeforeMonth left.year right.month :=
      daysBeforeMonth_mono _ (Nat.succ_pos _) hMonth
    rw [daysBeforeMonth_succ _ left.month_pos] at hMonths
    rw [← hYear]
    omega
  · rw [← hYear, ← hMonth]
    omega

/- Dates are ordered as their numbers are. -/
theorem number_lt_iff :
    left.number < right.number ↔ left.Before right := by
  constructor
  · intro h
    rcases before_trichotomy left right with
      hBefore | rfl | hAfter
    · exact hBefore
    · exact absurd h (Int.lt_irrefl _)
    · exact absurd (number_lt_of_before hAfter) (by omega)
  · exact number_lt_of_before

/- No two dates share a number. -/
theorem number_injective
    (h : left.number = right.number) :
    left = right := by
  rcases before_trichotomy left right with
    hBefore | hSame | hAfter
  · have hLess := number_lt_of_before hBefore
    omega
  · exact hSame
  · have hLess := number_lt_of_before hAfter
    omega

end Date

end Calendar

end Converge
