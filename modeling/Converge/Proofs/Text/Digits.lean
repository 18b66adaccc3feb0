import Converge.Text

/-
  Decimal digits and the numbers that they spell.

  Main declarations:
    * `Text.digitsValue_toDigits`: the digits of a number
      spell it
    * `Text.head?_toDigits_ne_zero`: no zero leads them
    * `Text.digitsValue_append_zeros`: zeros at the end
    * `Text.eq_of_digitsValue`: digits of a width are told by
      their number
-/

namespace Converge

namespace Text

theorem digitsValue_eq_ofDigitChars (digits : List Char) :
    digitsValue digits = Nat.ofDigitChars 10 digits 0 := by
  simp only [digitsValue, digitValue,
    Nat.ofDigitChars_eq_foldl]
  congr 1
  funext total c
  rw [Nat.mul_comm]

/- The digits of a number spell that number. -/
@[simp] theorem digitsValue_toDigits (value : Nat) :
    digitsValue (Nat.toDigits 10 value) = value := by
  rw [digitsValue_eq_ofDigitChars]
  exact Nat.ofDigitChars_ten_toDigits

/- Zeros in front of digits do not count. -/
@[simp] theorem digitsValue_zeros_append
    (count : Nat)
    (digits : List Char) :
    digitsValue (List.replicate count '0' ++ digits) =
      digitsValue digits := by
  simp only [digitsValue_eq_ofDigitChars,
    Nat.ofDigitChars_append, Nat.ofDigitChars_replicate_zero,
    Nat.mul_zero]

/- A zero at the end counts ten times what is before it. -/
theorem digitsValue_append_zeros
    (digits : List Char)
    (count : Nat) :
    digitsValue (digits ++ List.replicate count '0') =
      digitsValue digits * Nat.pow 10 count := by
  simp only [digitsValue_eq_ofDigitChars, Nat.pow_eq,
    Nat.ofDigitChars_append, Nat.ofDigitChars_replicate_zero]
  rw [Nat.mul_comm]

theorem digitsValue_cons
    (c : Char)
    (digits : List Char) :
    digitsValue (c :: digits) =
      digitValue c * Nat.pow 10 digits.length +
        digitsValue digits := by
  simp only [digitsValue_eq_ofDigitChars, digitValue,
    Nat.ofDigitChars_cons, Nat.mul_zero, Nat.zero_add]
  rw [Nat.ofDigitChars_eq_ofDigitChars_zero, Nat.mul_comm]
  rfl

theorem digitValue_lt
    {c : Char}
    (h : c.isDigit = true) :
    digitValue c < 10 := by
  have hRange := Char.isDigit_iff_toNat.1 h
  have hZero : '0'.toNat = 48 := rfl
  have hNine : '9'.toNat = 57 := rfl
  unfold digitValue
  omega

theorem digitValue_injective
    {left right : Char}
    (hLeft : left.isDigit = true)
    (hRight : right.isDigit = true)
    (h : digitValue left = digitValue right) :
    left = right := by
  have hLeftRange := Char.isDigit_iff_toNat.1 hLeft
  have hRightRange := Char.isDigit_iff_toNat.1 hRight
  have hZero : '0'.toNat = 48 := rfl
  unfold digitValue at h
  apply Char.toNat_inj.1
  omega

theorem digitsValue_lt
    {digits : List Char}
    (h : ∀ c ∈ digits, c.isDigit = true) :
    digitsValue digits < Nat.pow 10 digits.length := by
  induction digits with
  | nil => decide
  | cons c rest ih =>
      rw [List.forall_mem_cons] at h
      have hDigit := digitValue_lt h.1
      have hRest := ih h.2
      have hPower :
          Nat.pow 10 (c :: rest).length =
            10 * Nat.pow 10 rest.length :=
        Nat.mul_comm _ _
      rw [digitsValue_cons, hPower]
      calc
        digitValue c * Nat.pow 10 rest.length +
              digitsValue rest
            < digitValue c * Nat.pow 10 rest.length +
                Nat.pow 10 rest.length :=
            Nat.add_lt_add_left hRest _
        _ = (digitValue c + 1) * Nat.pow 10 rest.length :=
            (Nat.add_one_mul _ _).symm
        _ ≤ 10 * Nat.pow 10 rest.length :=
            Nat.mul_le_mul_right _ hDigit

/- Digits of the same width spell different numbers, unless
   they are the same. -/
theorem eq_of_digitsValue
    {left right : List Char}
    (hLeft : ∀ c ∈ left, c.isDigit = true)
    (hRight : ∀ c ∈ right, c.isDigit = true)
    (hLength : left.length = right.length)
    (hValue : digitsValue left = digitsValue right) :
    left = right := by
  induction left generalizing right with
  | nil => exact (List.length_eq_zero_iff.1 hLength.symm).symm
  | cons c left ih =>
      cases right with
      | nil => cases hLength
      | cons d right =>
          rw [List.forall_mem_cons] at hLeft hRight
          have hRest : left.length = right.length :=
            Nat.succ.inj hLength
          have hLess := digitsValue_lt hLeft.2
          have hLess' := digitsValue_lt hRight.2
          rw [← hRest] at hLess'
          have hPos : 0 < Nat.pow 10 left.length :=
            Nat.pow_pos (by decide)
          rw [digitsValue_cons, digitsValue_cons, ← hRest,
            Nat.mul_comm, Nat.mul_comm (digitValue d)]
            at hValue
          have hFirst : digitValue c = digitValue d := by
            have hQuotient :=
              congrArg (· / Nat.pow 10 left.length) hValue
            simpa only [Nat.mul_add_div hPos,
              Nat.div_eq_of_lt hLess, Nat.div_eq_of_lt hLess',
              Nat.add_zero] using hQuotient
          have hOthers :
              digitsValue left = digitsValue right := by
            rw [hFirst] at hValue
            exact Nat.add_left_cancel hValue
          rw [digitValue_injective hLeft.1 hRight.1 hFirst,
            ih hLeft.2 hRight.2 hRest hOthers]

theorem isDigit_of_mem_toDigits
    {value : Nat}
    {c : Char}
    (h : c ∈ Nat.toDigits 10 value) :
    c.isDigit = true :=
  Nat.isDigit_of_mem_toDigits (by decide) (by decide) h

theorem all_isDigit_toDigits (value : Nat) :
    (Nat.toDigits 10 value).all Char.isDigit = true :=
  List.all_eq_true.2 fun _ h => isDigit_of_mem_toDigits h

/- Only the number zero starts with a zero. -/
theorem head?_toDigits_ne_zero
    {value : Nat}
    (hPos : 0 < value) :
    (Nat.toDigits 10 value).head? ≠ some '0' := by
  induction value using Nat.strongRecOn with
  | ind value ih =>
      rw [Nat.toDigits_eq_if (by decide)]
      split
      · rename_i hLess
        intro h
        have hDigit : value.digitChar = '0' := by
          simpa using h
        have hSpelled :=
          Nat.toNat_digitChar_sub_48_of_lt_ten hLess
        rw [hDigit] at hSpelled
        have hZero : value = 0 := hSpelled.symm
        omega
      · rename_i hLarge
        have hQuotient : 0 < value / 10 :=
          Nat.div_pos (by omega) (by decide)
        have hHead :=
          ih (value / 10) (by omega) hQuotient
        rw [List.head?_append]
        cases hDigits : Nat.toDigits 10 (value / 10) with
        | nil => exact absurd hDigits Nat.toDigits_ne_nil
        | cons first rest =>
            rw [hDigits] at hHead
            simpa using hHead

/- Numbers are told apart by how they are written. -/
theorem toString_injective
    {left right : Nat}
    (h : toString left = toString right) :
    left = right := by
  have hText : left.repr = right.repr := h
  rw [Nat.repr_eq_ofList_toDigits,
    Nat.repr_eq_ofList_toDigits] at hText
  have hDigits := congrArg String.toList hText
  rw [String.toList_ofList, String.toList_ofList] at hDigits
  rw [← digitsValue_toDigits left,
    ← digitsValue_toDigits right, hDigits]

end Text

end Converge
