import Converge.Proofs.Text.Digits
import Converge.Time.Duration

/-
  The written form of a duration reads back as that duration,
  to the nanosecond.

  A written duration is a sequence of amounts, each with the
  name of its unit. The pass over the characters gathers one
  amount after the other, so that reading comes to adding up
  the amounts; and the amounts of a duration add up to it.

  Key definitions:
    * `Duration.tally?`: adds amounts to a total
    * `Duration.terms`: the terms of a duration

  Main declarations:
    * `Duration.resume?_spelled`: reading is adding up
    * `Duration.sum_terms`: what the terms add up to
    * `Duration.read?_text`
-/

namespace Converge

namespace Duration

------------------------------------------------------------
-- Names of Units
------------------------------------------------------------

/- Nanoseconds of one unit. -/
def Unit.nanoseconds (unit : Unit) : Nat :=
  match unit.measure with
  | .nanoseconds => unit.size
  | .seconds => unit.size * second

/- The characters of a name are letters, and nothing else. -/
def Lettered (name : String) : Prop :=
  name.toList ≠ [] ∧
    ∀ c, c ∈ name.toList →
      isUnitLetter c = true ∧ digitOf? c = none ∧
        Text.isSpace c = false

instance (name : String) : Decidable (Lettered name) :=
  @instDecidableAnd _ _ _ (List.decidableBAll _ _)

/- An amount and the name of its unit. -/
abbrev Amount := Nat × String

/- The written form of an amount. -/
def spelled (amount : Amount) : String :=
  toString amount.1 ++ amount.2

/- Adds amounts to a total of nanoseconds. -/
def tally?
    (total : Nat)
    (amounts : List Amount) :
    Option Nat :=
  amounts.foldlM
    (fun total amount =>
      addUnits? total amount.1 none amount.2)
    total

------------------------------------------------------------
-- Reading
------------------------------------------------------------

/- The total of a text whose front was read already. -/
def resume?
    (pass : Pass)
    (chars : List Char) :
    Option Nat :=
  (chars.foldlM step? pass).bind finish?

theorem resume?_cons
    (pass : Pass)
    (c : Char)
    (rest : List Char) :
    resume? pass (c :: rest) =
      (step? pass c).bind fun next => resume? next rest := by
  simp only [resume?, List.foldlM_cons, Option.bind_eq_bind,
    Option.bind_assoc]

theorem resume?_of_step
    {pass next : Pass}
    {c : Char}
    (hStep : step? pass c = some next)
    (rest : List Char) :
    resume? pass (c :: rest) = resume? next rest := by
  rw [resume?_cons, hStep, Option.bind_some]

theorem digitOf?_of_isDigit
    {c : Char}
    (hDigit : c.isDigit = true) :
    digitOf? c = some (Text.digitValue c) := by
  rw [digitOf?, if_pos hDigit]

/- More digits do not make a number smaller. -/
theorem le_foldl_digits
    (digits : List Char)
    (value : Nat) :
    value ≤
      digits.foldl
        (fun total c => total * 10 + Text.digitValue c)
        value := by
  induction digits generalizing value with
  | nil => exact Nat.le_refl value
  | cons c digits ih =>
      have hMore := ih (value * 10 + Text.digitValue c)
      rw [List.foldl_cons]
      omega

/- The digits after the first one are read as far as the
   number fits in 64 bits. -/
theorem resume?_digits
    (total : Option Nat)
    (digits : List Char)
    (rest : List Char)
    (value : Nat)
    (hDigits : ∀ c, c ∈ digits → c.isDigit = true)
    (hValue :
      digits.foldl
          (fun total c => total * 10 + Text.digitValue c)
          value <
        wordLimit) :
    resume? ⟨.whole value, total⟩ (digits ++ rest) =
      resume?
        ⟨.whole
          (digits.foldl
            (fun total c => total * 10 + Text.digitValue c)
            value), total⟩
        rest := by
  induction digits generalizing value with
  | nil => rfl
  | cons c digits ih =>
      rw [List.foldl_cons] at hValue ⊢
      have hNext :
          value * 10 + Text.digitValue c < wordLimit :=
        Nat.lt_of_le_of_lt (le_foldl_digits digits _) hValue
      have hStep :
          step? ⟨.whole value, total⟩ c =
            some
              ⟨.whole (value * 10 + Text.digitValue c),
                total⟩ := by
        have hDigit := digitOf?_of_isDigit
          (hDigits c List.mem_cons_self)
        simp only [step?, hDigit, word?, if_pos hNext,
          Option.map_some]
      rw [List.cons_append, resume?_of_step hStep]
      exact ih _
        (fun other hOther =>
          hDigits other (List.mem_cons_of_mem _ hOther))
        hValue

/- A number is read up to the end of its digits. -/
theorem resume?_number
    (total : Option Nat)
    {amount : Nat}
    (hAmount : amount < wordLimit)
    (rest : List Char) :
    resume? ⟨.gap, total⟩ (Nat.toDigits 10 amount ++ rest) =
      resume? ⟨.whole amount, total⟩ rest := by
  have hAll :
      ∀ c, c ∈ Nat.toDigits 10 amount → c.isDigit = true :=
    fun c hC => Text.isDigit_of_mem_toDigits hC
  have hSpelled := Text.digitsValue_toDigits amount
  cases hDigits : Nat.toDigits 10 amount with
  | nil => exact absurd hDigits Nat.toDigits_ne_nil
  | cons first others =>
      rw [hDigits] at hAll hSpelled
      have hStep :
          step? ⟨.gap, total⟩ first =
            some
              ⟨.whole (Text.digitValue first), total⟩ := by
        have hDigit := digitOf?_of_isDigit
          (hAll first List.mem_cons_self)
        simp only [step?, hDigit]
      have hValue :
          others.foldl
              (fun total c => total * 10 + Text.digitValue c)
              (Text.digitValue first) =
            amount := by
        rw [Text.digitsValue, List.foldl_cons, Nat.zero_mul,
          Nat.zero_add] at hSpelled
        exact hSpelled
      rw [List.cons_append, resume?_of_step hStep,
        resume?_digits total others rest _
          (fun c hC => hAll c (List.mem_cons_of_mem _ hC))
          (hValue ▸ hAmount), hValue]

/- The letters of a name are gathered. -/
theorem resume?_letters
    (total : Option Nat)
    (amount : Nat)
    (letters rest seen : List Char)
    (hLetters :
      ∀ c, c ∈ letters →
        isUnitLetter c = true ∧ digitOf? c = none ∧
          Text.isSpace c = false) :
    resume? ⟨.name amount none seen, total⟩
        (letters ++ rest) =
      resume?
        ⟨.name amount none (letters.reverse ++ seen), total⟩
        rest := by
  induction letters generalizing seen with
  | nil => rfl
  | cons c letters ih =>
      rcases hLetters c List.mem_cons_self with
        ⟨hLetter, hDigit, hSpace⟩
      have hStep :
          step? ⟨.name amount none seen, total⟩ c =
            some ⟨.name amount none (c :: seen), total⟩ := by
        simp only [step?, hDigit, hSpace, hLetter,
          Bool.false_eq_true, if_false, if_true]
      rw [List.cons_append, resume?_of_step hStep,
        ih (c :: seen) fun other hOther =>
          hLetters other (List.mem_cons_of_mem _ hOther)]
      simp

theorem toList_spelled (amount : Amount) :
    (spelled amount).toList =
      Nat.toDigits 10 amount.1 ++ amount.2.toList := by
  rw [spelled, String.toList_append, Nat.toString_eq_repr,
    Nat.repr_eq_ofList_toDigits, String.toList_ofList]

/- An amount is read up to the end of the name of its
   unit. -/
theorem resume?_amount
    (total : Option Nat)
    {amount : Amount}
    (hAmount : amount.1 < wordLimit)
    (hName : Lettered amount.2)
    (rest : List Char) :
    resume? ⟨.gap, total⟩
        ((spelled amount).toList ++ rest) =
      resume?
        ⟨.name amount.1 none amount.2.toList.reverse, total⟩
        rest := by
  rw [toList_spelled, List.append_assoc,
    resume?_number total hAmount]
  rcases hName with ⟨hNonempty, hLetters⟩
  cases hName : amount.2.toList with
  | nil => exact absurd hName hNonempty
  | cons c letters =>
      rw [hName] at hLetters
      rcases hLetters c List.mem_cons_self with
        ⟨hLetter, hDigit, hSpace⟩
      have hStep :
          step? ⟨.whole amount.1, total⟩ c =
            some ⟨.name amount.1 none [c], total⟩ := by
        simp only [step?, hDigit, hSpace, hLetter,
          Bool.false_eq_true, if_false, if_true]
      rw [List.cons_append, resume?_of_step hStep,
        resume?_letters total amount.1 letters rest [c]
          fun other hOther =>
            hLetters other (List.mem_cons_of_mem _ hOther)]
      simp

theorem closeUnit?_name
    (total : Option Nat)
    (amount : Amount) :
    closeUnit? total amount.1 none amount.2.toList.reverse =
      addUnits? (total.getD 0) amount.1 none amount.2 := by
  rw [closeUnit?, List.reverse_reverse, String.ofList_toList]

/- Written amounts with spaces between them read as their
   sum. The induction is on the amounts; a space ends the
   name in front of it. -/
theorem resume?_spelled
    (amounts : List Amount)
    (hNonempty : amounts ≠ [])
    (hAmounts :
      ∀ amount, amount ∈ amounts →
        amount.1 < wordLimit ∧ Lettered amount.2)
    (total : Option Nat) :
    resume? ⟨.gap, total⟩
        (" ".intercalate (amounts.map spelled)).toList =
      tally? (total.getD 0) amounts := by
  induction amounts generalizing total with
  | nil => exact absurd rfl hNonempty
  | cons amount others ih =>
      rw [List.forall_mem_cons] at hAmounts
      have hFirst := resume?_amount total hAmounts.1.1
        hAmounts.1.2
      cases others with
      | nil =>
          have hEnd := hFirst []
          rw [List.append_nil] at hEnd
          rw [List.map_singleton,
            String.intercalate_singleton, hEnd]
          simp only [resume?, List.foldlM_nil, Option.pure_def,
            Option.bind_some, finish?, closeUnit?_name, tally?,
            List.foldlM_cons, Option.bind_eq_bind,
            Option.bind_fun_some]
      | cons second rest =>
          have hStep :
              step?
                  ⟨.name amount.1 none
                    amount.2.toList.reverse, total⟩ ' ' =
                (addUnits? (total.getD 0) amount.1 none
                    amount.2).map
                  fun sum => ⟨.gap, some sum⟩ := by
            rw [← closeUnit?_name]
            rfl
          rw [List.map_cons, List.map_cons,
            String.intercalate_cons_cons,
            String.toList_append, String.toList_append,
            List.append_assoc, hFirst]
          change resume? _ (' ' :: _) = _
          rw [resume?_cons, hStep, tally?, List.foldlM_cons]
          cases addUnits? (total.getD 0) amount.1 none
              amount.2 with
          | none => rfl
          | some sum =>
              exact ih (List.cons_ne_nil _ _) hAmounts.2
                (some sum)

------------------------------------------------------------
-- Adding Up
------------------------------------------------------------

/- A number of units adds its nanoseconds, as long as there
   is room for them. What is counted in nanoseconds has to be
   less than a second. -/
theorem addUnits?_eq
    {name : String}
    {unit : Unit}
    (hUnit : findUnit? name = some unit)
    {total count : Nat}
    (hSmall :
      unit.measure = .nanoseconds →
        count * unit.size < second)
    (hRoom :
      total + count * unit.nanoseconds <
        wordLimit * second) :
    addUnits? total count none name =
      some (total + count * unit.nanoseconds) := by
  have hSeconds :
      ∀ sum, sum < wordLimit * second →
        word? (sum / second) = some (sum / second) := by
    intro sum hSum
    have hLess : sum / second < wordLimit :=
      Nat.div_lt_of_lt_mul (by rwa [Nat.mul_comm] at hSum)
    rw [word?, if_pos hLess]
  cases hMeasure : unit.measure with
  | nanoseconds =>
      have hCount := hSmall hMeasure
      rw [Unit.nanoseconds, hMeasure] at hRoom ⊢
      have hAmount :
          word? (count * unit.size) =
            some (count * unit.size) := by
        rw [word?, if_pos]
        exact Nat.lt_trans hCount (by decide)
      have hWithin :
          word? (total % second + count * unit.size) =
            some (total % second + count * unit.size) := by
        have hRest : total % second < second :=
          Nat.mod_lt _ (by decide)
        have hTwo : second + second < wordLimit := by decide
        rw [word?, if_pos (by omega)]
      simp only [addUnits?, hUnit, hMeasure, add?, hAmount,
        hWithin, hSeconds _ hRoom, Option.bind_eq_bind,
        Option.bind_some, Option.pure_def]
  | seconds =>
      rw [Unit.nanoseconds, hMeasure] at hRoom ⊢
      simp only [← Nat.mul_assoc] at hRoom ⊢
      have hAmount :
          word? (count * unit.size) =
            some (count * unit.size) := by
        have hPart :
            count * unit.size * second < wordLimit * second :=
          Nat.lt_of_le_of_lt (Nat.le_add_left _ _) hRoom
        rw [word?, if_pos (Nat.lt_of_mul_lt_mul_right hPart)]
      simp only [addUnits?, hUnit, hMeasure, add?, hAmount,
        hSeconds _ hRoom, Option.bind_eq_bind,
        Option.bind_some, Option.pure_def]

/- An amount together with the nanoseconds of its unit. -/
structure Term where
  count : Nat
  name : String
  size : Nat

namespace Term

def nanoseconds (term : Term) : Nat :=
  term.count * term.size

/- The amount, unless it is zero. -/
def present (term : Term) : List Amount :=
  if term.count = 0 then [] else [(term.count, term.name)]

/-
  The amount and the name can be read: the name is that of a
  unit of the size, and what is counted in nanoseconds is
  less than a second.
-/
structure IsSound (term : Term) : Prop where
  bounded : term.count < wordLimit
  lettered : Lettered term.name
  named :
    ∃ unit, findUnit? term.name = some unit ∧
      unit.nanoseconds = term.size ∧
      (unit.measure = .nanoseconds →
        term.nanoseconds < second)

end Term

/- Nanoseconds of all terms. -/
def sum (terms : List Term) : Nat :=
  terms.foldr (fun term rest => term.nanoseconds + rest) 0

theorem sum_cons (term : Term) (others : List Term) :
    sum (term :: others) = term.nanoseconds + sum others := by
  rw [sum, List.foldr_cons, ← sum]

/- Adding amounts up gives the sum of the terms, as long as
   there is room for it. A term that is left out adds
   nothing. -/
theorem tally?_present
    (terms : List Term)
    (hSound : ∀ term, term ∈ terms → term.IsSound)
    (total : Nat)
    (hRoom : total + sum terms < wordLimit * second) :
    tally? total (terms.flatMap Term.present) =
      some (total + sum terms) := by
  induction terms generalizing total with
  | nil => rfl
  | cons term others ih =>
      rw [List.forall_mem_cons] at hSound
      rw [sum_cons, ← Nat.add_assoc] at hRoom ⊢
      have hRest := ih hSound.2 (total + term.nanoseconds)
        hRoom
      rw [List.flatMap_cons, Term.present]
      split
      · rename_i hZero
        have hNothing : term.nanoseconds = 0 := by
          rw [Term.nanoseconds, hZero, Nat.zero_mul]
        rw [hNothing, Nat.add_zero] at hRest ⊢
        exact hRest
      · rcases hSound.1.named with
          ⟨unit, hUnit, hSize, hSmall⟩
        have hFirst :
            total + term.nanoseconds < wordLimit * second :=
          Nat.lt_of_le_of_lt (Nat.le_add_right _ _) hRoom
        rw [Term.nanoseconds, ← hSize] at hSmall hFirst hRest ⊢
        have hAdded := addUnits?_eq hUnit (by
          intro hMeasure
          have hLess := hSmall hMeasure
          rwa [Unit.nanoseconds, hMeasure] at hLess) hFirst
        rw [List.singleton_append, tally?, List.foldlM_cons,
          hAdded]
        exact hRest

/- So the text of terms reads as their sum. -/
theorem resume?_terms
    {terms : List Term}
    (hSound : ∀ term, term ∈ terms → term.IsSound)
    (hPositive : 0 < sum terms)
    (hRoom : sum terms < wordLimit * second) :
    resume? ⟨.gap, none⟩
        (" ".intercalate
          ((terms.flatMap Term.present).map spelled)).toList =
      some (sum terms) := by
  have hTally := tally?_present terms hSound 0
    (by rwa [Nat.zero_add])
  rw [Nat.zero_add] at hTally
  have hAmounts :
      ∀ amount, amount ∈ terms.flatMap Term.present →
        amount.1 < wordLimit ∧ Lettered amount.2 := by
    intro amount hAmount
    rcases List.mem_flatMap.1 hAmount with
      ⟨term, hTerm, hPresent⟩
    have hTermSound := hSound term hTerm
    rw [Term.present] at hPresent
    split at hPresent
    · cases hPresent
    · cases List.mem_singleton.1 hPresent
      exact ⟨hTermSound.bounded, hTermSound.lettered⟩
  rw [resume?_spelled _ ?_ hAmounts]
  · exact hTally
  · intro hNone
    rw [hNone] at hTally
    have hZero : 0 = sum terms := Option.some.inj hTally
    omega

------------------------------------------------------------
-- Terms of a Duration
------------------------------------------------------------

/- A term with the plural of its unit, if there are several. -/
def countTerm
    (count : Nat)
    (unit : String)
    (size : Nat) :
    Term :=
  ⟨count, if 1 < count then unit ++ "s" else unit, size⟩

/- The terms of a duration, the largest unit first. -/
def terms (duration : Duration) : List Term :=
  let total := duration.seconds
  let inYear := total % 31557600
  let inMonth := inYear % 2630016
  let inDay := inMonth % 86400
  let nanos := duration.nanoseconds % second
  [ countTerm (total / 31557600) "year" (31557600 * second),
    countTerm (inYear / 2630016) "month" (2630016 * second),
    countTerm (inMonth / 86400) "day" (86400 * second),
    ⟨inDay / 3600, "h", 3600 * second⟩,
    ⟨inDay % 3600 / 60, "m", 60 * second⟩,
    ⟨inDay % 60, "s", 1 * second⟩,
    ⟨nanos / 1000000, "ms", 1000000⟩,
    ⟨nanos / 1000 % 1000, "us", 1000⟩,
    ⟨nanos % 1000, "ns", 1⟩ ]

/- They are what is written. -/
theorem textParts_eq (duration : Duration) :
    duration.textParts =
      (duration.terms.flatMap Term.present).map spelled := by
  have hPart :
      ∀ term : Term,
        term.present.map spelled =
          part term.count term.name := by
    intro term
    unfold Term.present part
    split <;> rfl
  rw [List.map_flatMap]
  simp only [hPart, terms, List.flatMap_cons,
    List.flatMap_nil, List.append_nil, countTerm, textParts,
    pluralPart, List.append_assoc]

/- A term of whole seconds can be read. -/
theorem sound_of_seconds
    {count : Nat}
    {name : String}
    {size : Nat}
    (hBounded : count < wordLimit)
    (hLettered : Lettered name)
    (hNamed :
      ∃ unit, findUnit? name = some unit ∧
        unit.nanoseconds = size ∧ unit.measure = .seconds) :
    Term.IsSound ⟨count, name, size⟩ := by
  rcases hNamed with ⟨unit, hUnit, hSize, hMeasure⟩
  refine ⟨hBounded, hLettered, unit, hUnit, hSize, ?_⟩
  intro hNanoseconds
  rw [hMeasure] at hNanoseconds
  cases hNanoseconds

/- A term of less than a second can be read. -/
theorem sound_of_nanoseconds
    {count : Nat}
    {name : String}
    {size : Nat}
    (hSmall : count * size < second)
    (hLettered : Lettered name)
    (hNamed :
      ∃ unit, findUnit? name = some unit ∧
        unit.nanoseconds = size ∧ 0 < unit.nanoseconds) :
    Term.IsSound ⟨count, name, size⟩ := by
  rcases hNamed with ⟨unit, hUnit, rfl, hPositive⟩
  refine ⟨?_, hLettered, unit, hUnit, rfl, fun _ => hSmall⟩
  have hCount : count ≤ count * unit.nanoseconds :=
    Nat.le_mul_of_pos_right count hPositive
  exact Nat.lt_of_le_of_lt hCount
    (Nat.lt_trans hSmall (by decide))

theorem sound_terms (duration : Duration) :
    ∀ term, term ∈ duration.terms → term.IsSound := by
  have hTotal : duration.seconds < wordLimit :=
    Nat.div_lt_of_lt_mul
      (Nat.mul_comm _ _ ▸ duration.inRange)
  have hNanos : duration.nanoseconds % second < 1000000000 :=
    Nat.mod_lt _ (by decide)
  have hSecond : second = 1000000000 := rfl
  simp only [terms, List.forall_mem_cons, List.not_mem_nil,
    false_implies, implies_true, and_true]
  refine ⟨?_, ?_, ?_, ?_, ?_, ?_, ?_, ?_, ?_⟩
  · apply sound_of_seconds (by omega)
    · split <;> decide
    · split <;> exact ⟨_, rfl, rfl, rfl⟩
  · apply sound_of_seconds (by omega)
    · split <;> decide
    · split <;> exact ⟨_, rfl, rfl, rfl⟩
  · apply sound_of_seconds (by omega)
    · split <;> decide
    · split <;> exact ⟨_, rfl, rfl, rfl⟩
  · exact sound_of_seconds (by omega) (by decide)
      ⟨_, rfl, rfl, rfl⟩
  · exact sound_of_seconds (by omega) (by decide)
      ⟨_, rfl, rfl, rfl⟩
  · exact sound_of_seconds (by omega) (by decide)
      ⟨_, rfl, rfl, rfl⟩
  · exact sound_of_nanoseconds (by omega) (by decide)
      ⟨_, rfl, rfl, by decide⟩
  · exact sound_of_nanoseconds (by omega) (by decide)
      ⟨_, rfl, rfl, by decide⟩
  · exact sound_of_nanoseconds (by omega) (by decide)
      ⟨_, rfl, rfl, by decide⟩

/- What is left below a unit is split into the units below
   it. -/
theorem nanoseconds_split (nanos : Nat) :
    nanos / 1000000 * 1000000 +
        (nanos / 1000 % 1000 * 1000 + nanos % 1000 * 1) =
      nanos := by
  omega

theorem clock_split (inDay : Nat) :
    inDay / 3600 * 3600 +
        (inDay % 3600 / 60 * 60 + inDay % 60 * 1) =
      inDay := by
  omega

theorem seconds_split (total : Nat) :
    total / 31557600 * 31557600 +
        (total % 31557600 / 2630016 * 2630016 +
          (total % 31557600 % 2630016 / 86400 * 86400 +
            (total % 31557600 % 2630016 % 86400 / 3600 *
                3600 +
              (total % 31557600 % 2630016 % 86400 % 3600 /
                    60 * 60 +
                total % 31557600 % 2630016 % 86400 % 60 *
                  1)))) =
      total := by
  rw [clock_split, Nat.div_add_mod', Nat.div_add_mod',
    Nat.div_add_mod']

theorem nanoseconds_mk
    (count : Nat)
    (name : String)
    (size : Nat) :
    Term.nanoseconds ⟨count, name, size⟩ = count * size :=
  rfl

theorem nanoseconds_countTerm
    (count : Nat)
    (unit : String)
    (size : Nat) :
    (countTerm count unit size).nanoseconds = count * size :=
  rfl

/- They add up to the duration. -/
theorem sum_terms (duration : Duration) :
    sum duration.terms = duration.nanoseconds := by
  have hNil : sum [] = 0 := rfl
  have hSeconds := congrArg (fun total => total * second)
    (seconds_split duration.seconds)
  simp only [Nat.add_mul, Nat.mul_assoc] at hSeconds
  calc
    sum duration.terms =
        duration.seconds * second +
          duration.nanoseconds % second := by
      unfold terms
      simp only [sum_cons, hNil, nanoseconds_mk,
        nanoseconds_countTerm, Nat.add_zero,
        nanoseconds_split]
      rw [← hSeconds]
      simp only [Nat.add_assoc]
    _ = duration.nanoseconds :=
      Nat.div_add_mod' duration.nanoseconds second

/- A duration is read back from its written form. -/
@[simp] theorem read?_text (duration : Duration) :
    read? duration.text = some duration := by
  rw [text]
  split
  · rename_i hZero
    have hNone : duration.nanoseconds = 0 :=
      of_decide_eq_true hZero
    have hSame : duration = zero := by
      cases duration
      cases hNone
      rfl
    rw [hSame]
    decide +kernel
  · rename_i hNonzero
    have hPositive : 0 < duration.nanoseconds := by
      apply Nat.pos_of_ne_zero
      intro hNone
      exact hNonzero (decide_eq_true hNone)
    have hSum := sum_terms duration
    have hRoom : duration.nanoseconds < wordLimit * second :=
      duration.inRange
    rw [← hSum] at hPositive hRoom
    have hTotal :=
      resume?_terms (sound_terms duration) hPositive hRoom
    rw [hSum] at hTotal
    have hNotAlone :
        (" ".intercalate duration.textParts).toList ≠
          ['0'] := by
      intro hAlone
      rw [textParts_eq] at hAlone
      rw [hAlone] at hTotal
      have hNothing :
          resume? ⟨.gap, none⟩ ['0'] = none := rfl
      rw [hNothing] at hTotal
      cases hTotal
    rw [read?, readChars?, if_neg hNotAlone, textParts_eq]
    change (resume? _ _).bind _ = _
    rw [hTotal, Option.bind_some, ofNanoseconds?,
      dif_pos duration.inRange]

end Duration

end Converge
