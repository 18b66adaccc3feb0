import Converge.Json.Lexeme
import Converge.Proofs.Text.Digits

/-
  Integers survive their written form.

  Main declarations:
    * `Number.text_int`: sign and digits of an integer
    * `Lexeme.ofNumeral?_int`: the numeral is read back
-/

namespace Converge

namespace Number

/- Digits without a leading zero are a numeral. -/
theorem readNumeral?_toDigits (value : Nat) :
    readNumeral? (Nat.toDigits 10 value) =
      some ⟨Nat.toDigits 10 value, none, none⟩ := by
  have hDigits := List.all_eq_true.1
    (Text.all_isDigit_toDigits value)
  have hTake :
      (Nat.toDigits 10 value).takeWhile Char.isDigit =
        Nat.toDigits 10 value := by
    rw [← List.append_nil (Nat.toDigits 10 value),
      List.takeWhile_append_of_pos hDigits]
    rfl
  have hDrop :
      (Nat.toDigits 10 value).dropWhile Char.isDigit = [] := by
    rw [← List.append_nil (Nat.toDigits 10 value),
      List.dropWhile_append_of_pos hDigits]
    rfl
  have hNotEmpty :
      (Nat.toDigits 10 value).isEmpty = false := by
    simp [Nat.toDigits_ne_nil]
  have hNoZero :
      (decide (1 < (Nat.toDigits 10 value).length) &&
        decide ((Nat.toDigits 10 value).head? = some '0')) =
          false := by
    by_cases hPos : 0 < value
    · simp [Text.head?_toDigits_ne_zero hPos]
    · have hZero : value = 0 := by omega
      subst hZero
      rfl
  simp only [readNumeral?, hTake, hDrop, hNotEmpty, hNoZero]
  rfl

/- An integer is written as its digits, after a minus if it is
   negative. -/
theorem text_int
    {value : Int}
    (lower : -9223372036854775808 ≤ value)
    (upper : value < 18446744073709551616) :
    (Number.int value lower upper).text =
      if value < 0 then '-' :: Nat.toDigits 10 value.natAbs
      else Nat.toDigits 10 value.natAbs := by
  simp only [text, Int.toString_eq_repr]
  cases value with
  | ofNat magnitude =>
      simp [Int.repr]
  | negSucc magnitude =>
      have hNegative : Int.negSucc magnitude < 0 := by omega
      simp [Int.repr, hNegative]

/- Digits are a numeral without a minus. -/
theorem written?_toDigits (value : Nat) :
    written? (Nat.toDigits 10 value) =
      some (false, ⟨Nat.toDigits 10 value, none, none⟩) := by
  have hRead := readNumeral?_toDigits value
  have hDigits := List.all_eq_true.1
    (Text.all_isDigit_toDigits value)
  unfold written?
  split
  · rename_i rest hMinus
    rw [hMinus] at hDigits
    cases hDigits '-' List.mem_cons_self
  · rw [hRead]
    rfl

theorem ofInt?_eq_some
    {value : Int}
    (lower : -9223372036854775808 ≤ value)
    (upper : value < 18446744073709551616) :
    ofInt? value = some (.int value lower upper) := by
  simp only [ofInt?, lower, upper, dif_pos]

end Number

namespace Json.Lexeme

/- An integer is read back from what it is written as. -/
theorem ofNumeral?_int
    {value : Int}
    (lower : -9223372036854775808 ≤ value)
    (upper : value < 18446744073709551616) :
    ofNumeral? (Number.int value lower upper).text =
      some (.token (.num (.int value lower upper))) := by
  have hDigits := Number.readNumeral?_toDigits value.natAbs
  have hInRange := Number.ofInt?_eq_some lower upper
  rw [Number.text_int]
  by_cases hNegative : value < 0
  · have hMagnitude : value.natAbs ≠ 0 := by omega
    have hValue : -(value.natAbs : Int) = value := by omega
    -- only the digits of the magnitude matter from here on
    generalize value.natAbs = magnitude
      at hDigits hMagnitude hValue ⊢
    simp [hNegative, ofNumeral?, Number.written?, hDigits,
      Number.Numeral.value?, hMagnitude, hValue, hInRange]
  · have hValue : (value.natAbs : Int) = value := by omega
    simp [hNegative, ofNumeral?,
      Number.written?_toDigits, Number.Numeral.value?, hValue,
      hInRange]

end Json.Lexeme

end Converge
