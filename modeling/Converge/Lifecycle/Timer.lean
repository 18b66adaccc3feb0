import Converge.Calls

/-
  Clocks, and the timers that wake by them.

  A clock can tell moments up to a last one. Someone who asks
  a timer to be woken at a moment is woken then or later, but
  never earlier: a timer may wake at whole ticks only, and may
  be late.

  Key definitions:
    * `Timer`: how far a clock goes, and when one is woken
    * `Timer.later?`: a moment after a span of time
    * `Timer.ticking`: a timer that wakes at whole ticks
-/

namespace Converge

/- The last moment of a clock, and the moment at which someone
   is woken who now falls asleep until a moment. -/
structure Timer where
  last : Moment
  wake : Moment → Moment → Moment
  notEarly :
    ∀ now moment : Moment, moment ≤ wake now moment

namespace Timer

/- The moment after a span of time, if the clock can tell
   it. -/
def later?
    (timer : Timer)
    (now : Moment)
    (span : Nat) :
    Option Moment :=
  if now + span ≤ timer.last then some (now + span) else none

------------------------------------------------------------
-- Whole Ticks
------------------------------------------------------------

/- The first whole tick at a moment or after it. -/
def nextTick (tick : Nat) (moment : Moment) : Moment :=
  (moment + (tick - 1)) / tick * tick

theorem le_nextTick
    {tick : Nat}
    (hTick : 0 < tick)
    (moment : Moment) :
    moment ≤ nextTick tick moment := by
  have hDivided :=
    Nat.div_add_mod (moment + (tick - 1)) tick
  have hRest :=
    Nat.mod_lt (moment + (tick - 1)) hTick
  rw [Nat.mul_comm] at hDivided
  unfold nextTick Moment at *
  omega

/- A timer that wakes at whole ticks. -/
def ticking
    (last : Moment)
    (tick : Nat)
    (hTick : 0 < tick) :
    Timer :=
  ⟨last, fun _ moment => nextTick tick moment,
    fun _ moment => le_nextTick hTick moment⟩

/- A clock that counts seconds in 63 bits from the start, and
   wakes at whole milliseconds. -/
def standard : Timer :=
  ticking 9223372036854775807999999999 1000000 (by decide)

end Timer

end Converge
