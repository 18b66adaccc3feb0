import Converge.Proofs.Time.Spelling

/-
  The written form of a timestamp reads back as that
  timestamp, with its offset and its nanosecond.

  Among the spellings of a timestamp the written form is the
  plain one: it has a `T` between date and time, no zeros at
  the end of a fraction, the second that counts, and a `Z`
  where there is no offset.

  Key definitions:
    * `Zone.ofOffset`: the plain spelling of an offset
    * `Timestamp.plain`: the plain spelling of a timestamp

  Main declarations:
    * `Timestamp.nanoseconds_fractionDigits`
    * `Timestamp.characters_plain`
    * `Timestamp.read?_text`
-/

namespace Converge

------------------------------------------------------------
-- Fractions of a Second
------------------------------------------------------------

namespace Timestamp

section Fractions

variable {nanosecond : Nat}

/- The nine digits of a fraction without the zeros at their
   end. -/
def fractionDigits (nanosecond : Nat) : List Char :=
  ((padded 9 nanosecond).reverse.dropWhile
    (· = '0')).reverse

/- The zeros that were left out can be put back. -/
theorem fractionDigits_append_zeros
    (hBound : nanosecond < 1000000000) :
    fractionDigits nanosecond ++
        List.replicate
          (9 - (fractionDigits nanosecond).length) '0' =
      padded 9 nanosecond := by
  let zeros :=
    ((padded 9 nanosecond).reverse.takeWhile
      (· = '0')).reverse
  have hParts :
      fractionDigits nanosecond ++ zeros =
        padded 9 nanosecond := by
    rw [fractionDigits, ← List.reverse_append,
      List.takeWhile_append_dropWhile, List.reverse_reverse]
  have hZeros :
      zeros =
        List.replicate
          (9 - (fractionDigits nanosecond).length) '0' := by
    apply List.eq_replicate_iff.2
    constructor
    · have hLength := congrArg List.length hParts
      rw [List.length_append,
        length_padded (by decide) (by omega)] at hLength
      omega
    · intro c hc
      have hc' := List.mem_reverse.1 hc
      simpa using
        List.all_eq_true.1 List.all_takeWhile c hc'
  rw [← hZeros, hParts]

theorem isDigit_of_mem_fractionDigits
    {c : Char}
    (h : c ∈ fractionDigits nanosecond) :
    c.isDigit = true := by
  have hPadded : c ∈ (padded 9 nanosecond).reverse :=
    (List.dropWhile_sublist _).subset (List.mem_reverse.1 h)
  exact isDigit_of_mem_padded (List.mem_reverse.1 hPadded)

theorem nanoseconds_fractionDigits
    (hBound : nanosecond < 1000000000) :
    nanoseconds (fractionDigits nanosecond) = nanosecond := by
  have hPadded := fractionDigits_append_zeros hBound
  have hLength : (fractionDigits nanosecond).length ≤ 9 := by
    have h := congrArg List.length hPadded
    rw [List.length_append,
      length_padded (by decide) (by omega)] at h
    omega
  rw [nanoseconds_eq, List.take_of_length_le hLength,
    ← Text.digitsValue_append_zeros, hPadded,
    digitsValue_padded]

/- The written fraction is spelled by these digits. -/
theorem spelledFraction_fractionDigits
    (hBound : nanosecond < 1000000000) :
    spelledFraction (fractionDigits nanosecond) =
      fractionText nanosecond := by
  have hValue := nanoseconds_fractionDigits hBound
  by_cases hZero : nanosecond = 0
  · subst hZero
    decide
  · have hSome : fractionDigits nanosecond ≠ [] := by
      intro hEmpty
      rw [hEmpty] at hValue
      exact hZero hValue.symm
    rw [spelledFraction, fractionText, if_neg hZero,
      if_neg (mt List.isEmpty_iff.1 hSome)]
    rfl

end Fractions

end Timestamp

------------------------------------------------------------
-- Offsets
------------------------------------------------------------

namespace Zone

variable {offset : Int}

/- How an offset of less than a day is written. -/
def ofOffset
    (offset : Int)
    (lt_offset : -1440 < offset)
    (offset_lt : offset < 1440) :
    Zone :=
  if offset = 0 then .zulu 'Z' (.inl rfl)
  else
    .distance (offset < 0) (offset.natAbs / 60)
      (offset.natAbs % 60) (by omega) (by omega)

theorem chars_ofOffset
    (hLower : -1440 < offset)
    (hUpper : offset < 1440) :
    (ofOffset offset hLower hUpper).chars =
      Timestamp.offsetText offset := by
  by_cases hZero : offset = 0
  · rw [ofOffset, if_pos hZero, Timestamp.offsetText,
      if_pos hZero]
    rfl
  · rw [ofOffset, if_neg hZero, Timestamp.offsetText,
      if_neg hZero]
    by_cases hWest : offset < 0
    · simp [chars, hWest]
    · simp [chars, hWest]

theorem offset_ofOffset
    (hLower : -1440 < offset)
    (hUpper : offset < 1440) :
    (ofOffset offset hLower hUpper).offset = offset := by
  by_cases hZero : offset = 0
  · rw [ofOffset, if_pos hZero]
    exact hZero.symm
  · rw [ofOffset, if_neg hZero]
    by_cases hWest : offset < 0
    · simp only [Zone.offset, hWest, decide_true, if_true]
      omega
    · simp only [Zone.offset, hWest, decide_false,
        Bool.false_eq_true, if_false]
      omega

end Zone

------------------------------------------------------------
-- Timestamps
------------------------------------------------------------

namespace Timestamp

/- The spelling in which a timestamp is written. -/
def plain (time : Timestamp) : time.Spelling where
  separator := 'T'
  second := time.second
  fraction := fractionDigits time.nanosecond
  zone := .ofOffset time.offset time.lt_offset time.offset_lt
  isByte := by decide
  areDigits := fun _ h => isDigit_of_mem_fractionDigits h
  isSecond :=
    .inl ⟨rfl, nanoseconds_fractionDigits time.nanosecond_lt⟩
  offset_eq :=
    Zone.offset_ofOffset time.lt_offset time.offset_lt

theorem characters_plain (time : Timestamp) :
    time.plain.characters = time.chars := by
  simp only [Spelling.characters, plain, chars,
    spelledFraction_fractionDigits time.nanosecond_lt,
    Zone.chars_ofOffset, List.append_assoc, List.cons_append]

theorem isSpelledBy_text (time : Timestamp) :
    time.IsSpelledBy time.text :=
  ⟨time.plain, by rw [characters_plain, text]⟩

/- The written form of a timestamp reads back. -/
@[simp] theorem read?_text (time : Timestamp) :
    read? time.text = some time :=
  read?_eq_some_iff.2 time.isSpelledBy_text

theorem text_ne_empty (time : Timestamp) :
    time.text ≠ "" := by
  intro h
  have hRead := read?_text time
  have hEmpty : read? "" = none := by decide
  rw [h, hEmpty] at hRead
  cases hRead

end Timestamp

end Converge
