import Converge.Proofs.Lifecycle.Polling
import Mathlib.Algebra.Order.Group.Nat
import Mathlib.Order.Nat

/-
  When a wait observes what takes no time.

  The first observation is made at once, and each other one
  when the timer wakes the wait from the sleep before it. As
  it never wakes a wait too early, the deadline is reached
  after as many sleeps as the timeout has pauses, begun ones
  included, or after fewer. A timer that wakes at whole ticks
  leads to the same moments as one that is never late, if it
  is started at a whole tick, and pause and timeout are
  counted in whole ticks, begun ones included.

  Key definitions:
    * `Timer.Ticks`: a timer wakes at whole ticks
    * `Timer.exact`: a timer that is never late
    * `StateWait.moment`: when an observation is made
    * `StateWait.GoesOn`: another observation follows
    * `StateWait.sleeps`: how often a wait falls asleep

  Main declarations:
    * `StateWait.le_moment`: no observation is made too early
    * `StateWait.sleeps_le`: there are not too many
    * `StateWait.Series.poll_of_first`,
      `StateWait.Series.poll_of_none`: how a wait ends then
    * `StateWait.moment_of_ticks`, `StateWait.sleeps_of_ticks`
-/

namespace Converge

------------------------------------------------------------
-- Whole Ticks
------------------------------------------------------------

namespace Timer

variable {tick : Nat}

/- A timer wakes at the first whole tick. -/
def Ticks (timer : Timer) (tick : Nat) : Prop :=
  ∀ now moment : Moment,
    timer.wake now moment = nextTick tick moment

/- A timer that is never late. -/
def exact (last : Moment) : Timer :=
  ⟨last, fun _ moment => moment, fun _ _ => Nat.le_refl _⟩

theorem ticks_ticking
    (last : Moment)
    (hTick : 0 < tick) :
    (ticking last tick hTick).Ticks tick :=
  fun _ _ => rfl

theorem ticks_standard : standard.Ticks 1000000 :=
  ticks_ticking _ (by decide)

/- The next tick is the first one that is not too early. -/
theorem nextTick_le_mul_iff
    (hTick : 0 < tick)
    {moment : Moment}
    {count : Nat} :
    nextTick tick moment ≤ count * tick ↔
      moment ≤ count * tick := by
  constructor
  · exact fun hNext =>
      Nat.le_trans (le_nextTick hTick moment) hNext
  · intro hMoment
    refine Nat.mul_le_mul_right tick ?_
    rw [← Nat.lt_succ_iff, Nat.div_lt_iff_lt_mul hTick,
      Nat.succ_mul]
    change @LE.le Nat _ _ _ at hMoment
    omega

theorem nextTick_mono
    (hTick : 0 < tick)
    {earlier later : Moment}
    (hLater : earlier ≤ later) :
    nextTick tick earlier ≤ nextTick tick later :=
  (nextTick_le_mul_iff hTick).2
    (Nat.le_trans hLater (le_nextTick hTick later))

theorem nextTick_min
    (hTick : 0 < tick)
    (first second : Moment) :
    nextTick tick (min first second) =
      min (nextTick tick first) (nextTick tick second) := by
  rcases Nat.le_total first second with hFirst | hSecond
  · rw [Nat.min_eq_left hFirst,
      Nat.min_eq_left (nextTick_mono hTick hFirst)]
  · rw [Nat.min_eq_right hSecond,
      Nat.min_eq_right (nextTick_mono hTick hSecond)]

/- Whole ticks do not matter to what is left. -/
theorem nextTick_add
    (hTick : 0 < tick)
    {start : Moment}
    (hStart : tick ∣ start)
    (span : Nat) :
    nextTick tick (start + span) =
      start + nextTick tick span := by
  rcases hStart with ⟨count, rfl⟩
  rw [nextTick, nextTick, Nat.add_assoc,
    Nat.mul_add_div hTick, Nat.add_mul, Nat.mul_comm count]

/- Whole ticks stay as they are. -/
theorem nextTick_of_dvd
    (hTick : 0 < tick)
    {moment : Moment}
    (hMoment : tick ∣ moment) :
    nextTick tick moment = moment := by
  have hZero : nextTick tick 0 = 0 := by
    rw [nextTick, Nat.zero_add,
      Nat.div_eq_of_lt (Nat.sub_lt hTick Nat.one_pos),
      Nat.zero_mul]
  have hAdd := nextTick_add hTick hMoment 0
  rwa [hZero, Nat.add_zero] at hAdd

theorem dvd_nextTick (tick : Nat) (moment : Moment) :
    tick ∣ nextTick tick moment :=
  Nat.dvd_mul_left tick _

end Timer

namespace StateWait

variable {wait : StateWait}
variable {timer : Timer}
variable {start : Moment}

------------------------------------------------------------
-- Moments
------------------------------------------------------------

/- When an observation is made, if observations take no
   time. -/
def moment
    (wait : StateWait)
    (timer : Timer)
    (start : Moment) :
    Nat → Moment
  | 0 => start
  | n + 1 =>
      wait.wake timer (start + wait.timeout.nanoseconds)
        (wait.moment timer start n)

/- No observation is made before as many pauses are over,
   unless at the deadline. -/
theorem le_moment
    (wait : StateWait)
    (timer : Timer)
    (start : Moment)
    (n : Nat) :
    start + min (n * wait.pause) wait.timeout.nanoseconds ≤
      wait.moment timer start n := by
  induction n with
  | zero =>
      rw [Nat.zero_mul, Nat.zero_min]
      exact Nat.le_refl _
  | succ n ih =>
      refine Nat.le_trans ?_ (timer.notEarly _ _)
      rw [Nat.succ_mul]
      unfold Moment at *
      omega

------------------------------------------------------------
-- Sleeps
------------------------------------------------------------

/- A wait falls asleep after an observation that decides
   nothing: the deadline is not reached, and the clock can
   tell when the pause is over. -/
def GoesOn
    (wait : StateWait)
    (timer : Timer)
    (start : Moment)
    (n : Nat) :
    Prop :=
  wait.moment timer start n <
      start + wait.timeout.nanoseconds ∧
    wait.moment timer start n + wait.pause ≤ timer.last

instance (n : Nat) : Decidable (wait.GoesOn timer start n) :=
  inferInstanceAs (Decidable (_ ∧ _))

/- As many pauses as fill the timeout, begun ones
   included. -/
def pauses (wait : StateWait) : Nat :=
  (wait.timeout.nanoseconds + wait.pause - 1) / wait.pause

theorem not_goesOn_pauses
    (wait : StateWait)
    (timer : Timer)
    (start : Moment) :
    ¬wait.GoesOn timer start wait.pauses := by
  rintro ⟨hEarly, -⟩
  have hLater := wait.le_moment timer start wait.pauses
  have hFilled :
      wait.timeout.nanoseconds ≤ wait.pauses * wait.pause := by
    rw [pauses, Nat.add_sub_assoc wait.pause_pos]
    exact Timer.le_nextTick wait.pause_pos _
  rw [Nat.min_eq_right hFilled] at hLater
  exact Nat.not_lt.2 hLater hEarly

theorem exists_not_goesOn
    (wait : StateWait)
    (timer : Timer)
    (start : Moment) :
    ∃ n, ¬wait.GoesOn timer start n :=
  ⟨wait.pauses, wait.not_goesOn_pauses timer start⟩

/- How often a wait falls asleep, if nothing decides. -/
def sleeps
    (wait : StateWait)
    (timer : Timer)
    (start : Moment) :
    Nat :=
  Nat.find (wait.exists_not_goesOn timer start)

theorem goesOn_of_lt
    {n : Nat}
    (hBefore : n < wait.sleeps timer start) :
    wait.GoesOn timer start n :=
  Decidable.not_not.1 (Nat.find_min _ hBefore)

theorem not_goesOn_sleeps
    (wait : StateWait)
    (timer : Timer)
    (start : Moment) :
    ¬wait.GoesOn timer start (wait.sleeps timer start) :=
  Nat.find_spec (wait.exists_not_goesOn timer start)

/- A wait falls asleep as often as it goes on. -/
theorem sleeps_eq
    {count : Nat}
    (hBefore : ∀ n, n < count → wait.GoesOn timer start n)
    (hEnd : ¬wait.GoesOn timer start count) :
    wait.sleeps timer start = count :=
  (Nat.find_eq_iff _).2
    ⟨hEnd, fun n hn => Decidable.not_not.2 (hBefore n hn)⟩

theorem sleeps_pos
    (hGoes : wait.GoesOn timer start 0) :
    0 < wait.sleeps timer start := by
  refine Nat.pos_of_ne_zero fun hNone => ?_
  have hEnd := wait.not_goesOn_sleeps timer start
  rw [hNone] at hEnd
  exact hEnd hGoes

/- There are not more sleeps than pauses in the timeout. -/
theorem sleeps_le
    (wait : StateWait)
    (timer : Timer)
    (start : Moment) :
    wait.sleeps timer start ≤ wait.pauses :=
  Nat.find_min' _ (wait.not_goesOn_pauses timer start)

/- Where the clock can tell all that is needed, a wait goes on
   up to its deadline. -/
theorem goesOn_iff
    (hTold :
      start + wait.timeout.nanoseconds + wait.pause ≤
        timer.last)
    {n : Nat} :
    wait.GoesOn timer start n ↔
      wait.moment timer start n <
        start + wait.timeout.nanoseconds := by
  constructor
  · exact And.left
  · intro hEarly
    refine ⟨hEarly, Nat.le_trans ?_ hTold⟩
    exact Nat.add_le_add_right (Nat.le_of_lt hEarly) _

/- The last observation is then made at the deadline or
   later, and no other one is. -/
theorem moment_lt_iff
    (hTold :
      start + wait.timeout.nanoseconds + wait.pause ≤
        timer.last)
    {n : Nat} :
    wait.moment timer start n <
        start + wait.timeout.nanoseconds ↔
      n < wait.sleeps timer start := by
  rw [← goesOn_iff hTold]
  constructor
  · intro hGoes
    refine Nat.lt_of_not_le fun hLater => ?_
    have hEnd := wait.not_goesOn_sleeps timer start
    rw [goesOn_iff hTold, Nat.not_lt] at hEnd
    rw [goesOn_iff hTold] at hGoes
    -- nothing is early again once the deadline has passed
    have hPassed :
        ∀ later, start + wait.timeout.nanoseconds ≤
          wait.moment timer start
            (wait.sleeps timer start + later) := by
      intro later
      induction later with
      | zero => exact hEnd
      | succ later ih =>
          refine Nat.le_trans ?_ (timer.notEarly _ _)
          exact Nat.le_min.2
            ⟨Nat.le_trans ih (Nat.le_add_right _ _),
              Nat.le_refl _⟩
    have hLate := hPassed (n - wait.sleeps timer start)
    rw [Nat.add_sub_cancel' hLater] at hLate
    exact Nat.not_lt.2 hLate hGoes
  · exact goesOn_of_lt

------------------------------------------------------------
-- Observations that Take No Time
------------------------------------------------------------

namespace Series

variable {σ α : Type}
variable {object : ObjectRef}
variable {operation : Operation}
variable {signal : Signal}
variable {observe : Calls σ LifecycleError (Observation α)}
variable {begins ends : Nat → Session σ}
variable {results : Nat → Except LifecycleError (Observation α)}
variable
  (hSeries :
    wait.Series timer observe
      (start + wait.timeout.nanoseconds) begins ends results)
variable (hQuiet : signal.IsQuiet)
variable
  (hMoments : ∀ n, (ends n).now = wait.moment timer start n)

include hMoments in
/- A wait falls asleep after each of so many observations that
   decide nothing. -/
theorem isOpen_of_le_sleeps
    {count : Nat}
    (hCount : count ≤ wait.sleeps timer start)
    (hPending :
      ∀ n, n < count →
        wait.verdict? object operation (results n) = none) :
    IsOpen wait timer object operation
      (start + wait.timeout.nanoseconds) ends results
      count := by
  intro n hn
  rw [hMoments n]
  exact ⟨hPending n hn,
    goesOn_of_lt (Nat.lt_of_lt_of_le hn hCount)⟩

include hSeries hQuiet hMoments

/- The first observation that decides ends a wait that gets as
   far as that. -/
theorem poll_of_first
    {first : Nat}
    {verdict : Except LifecycleError (Option α)}
    (hFirst : first ≤ wait.sleeps timer start)
    (hPending :
      ∀ n, n < first →
        wait.verdict? object operation (results n) = none)
    (hVerdict :
      wait.verdict? object operation (results first) =
        some verdict) :
    wait.poll timer object operation signal observe
        (start + wait.timeout.nanoseconds) (begins 0) =
      (verdict, ends first) :=
  hSeries.poll_of_verdict hQuiet
    (isOpen_of_le_sleeps hMoments hFirst hPending) hVerdict

/- A wait that nothing decides takes too long, unless the
   clock cannot tell when its next pause is over. -/
theorem poll_of_none
    (hPending :
      ∀ n, n ≤ wait.sleeps timer start →
        wait.verdict? object operation (results n) = none) :
    wait.poll timer object operation signal observe
        (start + wait.timeout.nanoseconds) (begins 0) =
      (.error
          (if wait.moment timer start
                (wait.sleeps timer start) <
              start + wait.timeout.nanoseconds then
            .panicked
          else
            .timeout object operation wait.targetText
              wait.timeout),
        ends (wait.sleeps timer start)) := by
  have hOpen := isOpen_of_le_sleeps hMoments
    (Nat.le_refl _) fun n hn => hPending n (Nat.le_of_lt hn)
  have hLast := hPending _ (Nat.le_refl _)
  have hNow := hMoments (wait.sleeps timer start)
  split
  next hEarly =>
    rw [← hNow] at hEarly
    refine hSeries.poll_of_untold hQuiet hOpen hLast hEarly ?_
    refine Nat.lt_of_not_le fun hTold => ?_
    rw [hNow] at hEarly hTold
    exact wait.not_goesOn_sleeps timer start ⟨hEarly, hTold⟩
  next hLate =>
    rw [← hNow] at hLate
    exact hSeries.poll_of_late hQuiet hOpen hLast
      (Nat.le_of_not_lt hLate)

end Series

------------------------------------------------------------
-- Timers that Tick
------------------------------------------------------------

section Ticks

variable {tick : Nat}
variable (hTick : 0 < tick)
variable (hTicks : timer.Ticks tick)
variable (hStart : tick ∣ start)

include hTick hTicks hStart

/- Pauses and timeouts count in whole ticks, begun ones
   included. -/
theorem moment_of_ticks (n : Nat) :
    wait.moment timer start n =
      start +
        min (n * Timer.nextTick tick wait.pause)
          (Timer.nextTick tick wait.timeout.nanoseconds) := by
  induction n with
  | zero =>
      rw [Nat.zero_mul, Nat.zero_min]
      rfl
  | succ n ih =>
      have hNow : tick ∣ wait.moment timer start n := by
        rw [ih]
        refine Nat.dvd_add hStart ?_
        rcases Nat.le_total
            (n * Timer.nextTick tick wait.pause)
            (Timer.nextTick tick wait.timeout.nanoseconds)
          with hLess | hMore
        · rw [Nat.min_eq_left hLess]
          exact Nat.dvd_mul_left_of_dvd
            (Timer.dvd_nextTick tick _) _
        · rw [Nat.min_eq_right hMore]
          exact Timer.dvd_nextTick tick _
      rw [moment, wake, hTicks, Timer.nextTick_min hTick,
        Timer.nextTick_add hTick hNow,
        Timer.nextTick_add hTick hStart, ih, Nat.succ_mul]
      unfold Moment at *
      omega

/- The deadline is reached with the last pause that is begun
   before it. -/
theorem sleeps_of_ticks
    (hTold :
      start + wait.timeout.nanoseconds + wait.pause ≤
        timer.last) :
    wait.sleeps timer start =
      (wait.timeout.nanoseconds +
          Timer.nextTick tick wait.pause - 1) /
        Timer.nextTick tick wait.pause := by
  have hPause : 0 < Timer.nextTick tick wait.pause :=
    Nat.lt_of_lt_of_le wait.pause_pos
      (Timer.le_nextTick hTick _)
  have hGoes :
      ∀ n, wait.GoesOn timer start n ↔
        n * Timer.nextTick tick wait.pause <
          wait.timeout.nanoseconds := by
    intro n
    have hLimit :=
      Timer.le_nextTick hTick wait.timeout.nanoseconds
    rw [goesOn_iff hTold,
      moment_of_ticks hTick hTicks hStart]
    unfold Moment at *
    omega
  refine sleeps_eq (fun n hn => ?_) ?_
  · rw [hGoes]
    rw [Nat.lt_iff_add_one_le,
      Nat.le_div_iff_mul_le hPause, Nat.succ_mul] at hn
    unfold Moment at *
    omega
  · rw [hGoes, Nat.not_lt]
    have hFilled :=
      Timer.le_nextTick hPause wait.timeout.nanoseconds
    rwa [Timer.nextTick, ← Nat.add_sub_assoc hPause]
      at hFilled

end Ticks

end StateWait

end Converge
