import Converge.Proofs.Lifecycle.Wait

/-
  The observations of a wait, one after the other.

  A wait that nobody asks to stop is decided by what it
  observes. It sleeps for a pause after the end of each
  observation, but no longer than up to the deadline, and
  observes again when its timer wakes it. No observation
  begins after one that ended at the deadline or later.

  Key definitions:
    * `Signal.IsQuiet`: nobody asks to stop
    * `StateWait.wake`: when the next observation begins
    * `StateWait.Series`: observations as a wait makes them

  Main declarations:
    * `StateWait.poll_stopped`, `StateWait.poll_decided`,
      `StateWait.poll_overdue`, `StateWait.poll_untold`,
      `StateWait.poll_interrupted`, `StateWait.poll_onward`:
      one step of a wait each
    * `StateWait.Series.poll_eq_poll`: observations that
      decide nothing
    * `StateWait.Series.poll_of_verdict`,
      `StateWait.Series.poll_of_late`,
      `StateWait.Series.poll_of_untold`: the last observation
    * `StateWait.run_error_cases`: what a wait may fail with
-/

namespace Converge

------------------------------------------------------------
-- Signals
------------------------------------------------------------

namespace Signal

/- Nobody ever asks to stop. -/
def IsQuiet (signal : Signal) : Prop :=
  ∀ sent ∈ sends signal.events, sent.2 = false

theorem isQuiet_never : never.IsQuiet :=
  nofun

theorem valueFrom_of_quiet
    (moment : Moment)
    {values : List (Moment × Bool)}
    (hQuiet : ∀ sent ∈ values, sent.2 = false) :
    valueFrom false moment values = false := by
  induction values with
  | nil => rfl
  | cons sent rest ih =>
      rcases sent with ⟨time, value⟩
      have hRest := ih fun sent hSent =>
        hQuiet sent (List.mem_cons_of_mem _ hSent)
      have hFirst : value = false :=
        hQuiet (time, value) List.mem_cons_self
      simp only [valueFrom, hFirst, hRest, ite_self]

theorem switchedOn?_of_quiet
    (after upTo : Moment)
    {values : List (Moment × Bool)}
    (hQuiet : ∀ sent ∈ values, sent.2 = false) :
    switchedOn? after upTo values = none := by
  induction values with
  | nil => rfl
  | cons sent rest ih =>
      rcases sent with ⟨time, value⟩
      have hRest := ih fun sent hSent =>
        hQuiet sent (List.mem_cons_of_mem _ hSent)
      have hFirst : value = false :=
        hQuiet (time, value) List.mem_cons_self
      simp only [switchedOn?, hFirst, hRest, Bool.false_and,
        Bool.false_eq_true, if_false]

theorem IsQuiet.isOn
    {signal : Signal}
    (hQuiet : signal.IsQuiet)
    (moment : Moment) :
    signal.isOn moment = false :=
  valueFrom_of_quiet moment hQuiet

theorem IsQuiet.firesBy?
    {signal : Signal}
    (hQuiet : signal.IsQuiet)
    (start upTo : Moment) :
    signal.firesBy? start upTo = none := by
  unfold Signal.firesBy?
  rw [hQuiet.isOn, switchedOn?_of_quiet start upTo hQuiet]
  rfl

end Signal

namespace StateWait

variable {σ α : Type}
variable {wait : StateWait}
variable {timer : Timer}
variable {object : ObjectRef}
variable {operation : Operation}
variable {signal : Signal}
variable {observe : Calls σ LifecycleError (Observation α)}
variable {deadline : Moment}

/- When a wait that falls asleep makes its next observation,
   as far as the clock can tell. -/
def wake
    (wait : StateWait)
    (timer : Timer)
    (deadline : Moment)
    (now : Moment) :
    Moment :=
  timer.wake now (min (now + wait.pause) deadline)

theorem wake?_eq_some_iff
    {now moment : Moment} :
    wait.wake? timer deadline now = some moment ↔
      now + wait.pause ≤ timer.last ∧
        wait.wake timer deadline now = moment := by
  unfold wake? Timer.later?
  split
  next hTold => simp [wake, hTold]
  next hUntold => simp [hUntold]

theorem wake?_eq_none_iff
    {now : Moment} :
    wait.wake? timer deadline now = none ↔
      timer.last < now + wait.pause := by
  unfold wake? Timer.later?
  split
  next hTold => simp [Nat.not_lt.2 hTold]
  next hUntold => simp [Nat.lt_of_not_le hUntold]

/- A wait that falls asleep before its deadline does not wake
   any earlier. -/
theorem le_wake
    (wait : StateWait)
    (timer : Timer)
    {now : Moment}
    (hEarly : now < deadline) :
    now ≤ wait.wake timer deadline now :=
  Nat.le_trans
    (Nat.le_min.2
      ⟨Nat.le_add_right _ _, Nat.le_of_lt hEarly⟩)
    (timer.notEarly now _)

------------------------------------------------------------
-- One Observation
------------------------------------------------------------

section Step

variable {now : Moment}
variable {state : σ}
variable {after : Session σ}
variable {result : Except LifecycleError (Observation α)}

/- A wait that is asked to stop makes no observation. -/
theorem poll_stopped
    (hOn : signal.isOn now = true) :
    wait.poll timer object operation signal observe deadline
        ⟨now, state⟩ =
      (.error (.cancelled object operation),
        ⟨now, state⟩) := by
  rw [poll]
  simp only [hOn, if_true]

variable (hOff : signal.isOn now = false)
variable (hRun : observe.run ⟨now, state⟩ = (result, after))

include hOff hRun

/- An observation that decides ends the wait. -/
theorem poll_decided
    {verdict : Except LifecycleError (Option α)}
    (hVerdict :
      wait.verdict? object operation result = some verdict) :
    wait.poll timer object operation signal observe deadline
        ⟨now, state⟩ =
      (verdict, ⟨max now after.now, after.state⟩) := by
  rw [poll]
  simp only [hOff, hRun, hVerdict, Bool.false_eq_true,
    if_false]

variable
  (hVerdict : wait.verdict? object operation result = none)

include hVerdict

/- So does any other one from the deadline on. -/
theorem poll_overdue
    (hLate : deadline ≤ max now after.now) :
    wait.poll timer object operation signal observe deadline
        ⟨now, state⟩ =
      (.error
          (.timeout object operation wait.targetText
            wait.timeout),
        ⟨max now after.now, after.state⟩) := by
  rw [poll]
  simp only [hOff, hRun, hVerdict, hLate,
    Bool.false_eq_true, if_false, if_true]

variable (hEarly : max now after.now < deadline)

include hEarly

/- Before the deadline, the wait is at an end if the clock
   cannot tell when its pause is over. -/
theorem poll_untold
    (hUntold :
      timer.last < max now after.now + wait.pause) :
    wait.poll timer object operation signal observe deadline
        ⟨now, state⟩ =
      (.error .panicked,
        ⟨max now after.now, after.state⟩) := by
  rw [poll]
  simp only [hOff, hRun, hVerdict, Nat.not_le.2 hEarly,
    Bool.false_eq_true, if_false]
  rw [wake?_eq_none_iff.2 hUntold]

variable
  (hTold : max now after.now + wait.pause ≤ timer.last)

include hTold

/- Otherwise it sleeps, and may be asked to stop until it
   wakes. -/
theorem poll_interrupted
    {moment : Moment}
    (hFires :
      signal.firesBy? (max now after.now)
          (wait.wake timer deadline (max now after.now)) =
        some moment) :
    wait.poll timer object operation signal observe deadline
        ⟨now, state⟩ =
      (.error (.cancelled object operation),
        ⟨moment, after.state⟩) := by
  rw [poll]
  simp only [hOff, hRun, hVerdict, Nat.not_le.2 hEarly,
    Bool.false_eq_true, if_false]
  rw [wake?_eq_some_iff.2 ⟨hTold, rfl⟩]
  simp only [hFires]

/- If it is not, it goes on. -/
theorem poll_onward
    (hSilent :
      signal.firesBy? (max now after.now)
          (wait.wake timer deadline (max now after.now)) =
        none) :
    wait.poll timer object operation signal observe deadline
        ⟨now, state⟩ =
      wait.poll timer object operation signal observe deadline
        ⟨wait.wake timer deadline (max now after.now),
          after.state⟩ := by
  rw [poll]
  simp only [hOff, hRun, hVerdict, Nat.not_le.2 hEarly,
    Bool.false_eq_true, if_false]
  rw [wake?_eq_some_iff.2 ⟨hTold, rfl⟩]
  simp only [hSilent]

end Step

section Quiet

variable {session after : Session σ}
variable {result : Except LifecycleError (Observation α)}

/- An observation that decides ends the wait. -/
theorem poll_of_verdict
    {verdict : Except LifecycleError (Option α)}
    (hQuiet : signal.IsQuiet)
    (hRun : observe.run session = (result, after))
    (hForward : session.now ≤ after.now)
    (hVerdict :
      wait.verdict? object operation result = some verdict) :
    wait.poll timer object operation signal observe
        deadline session =
      (verdict, after) := by
  refine (poll_decided (hQuiet.isOn session.now) hRun
    hVerdict).trans ?_
  rw [Nat.max_eq_right hForward]

/- An observation that decides nothing ends the wait from the
   deadline on. -/
theorem poll_of_late
    (hQuiet : signal.IsQuiet)
    (hRun : observe.run session = (result, after))
    (hForward : session.now ≤ after.now)
    (hVerdict :
      wait.verdict? object operation result = none)
    (hLate : deadline ≤ after.now) :
    wait.poll timer object operation signal observe
        deadline session =
      (.error
          (.timeout object operation wait.targetText
            wait.timeout),
        after) := by
  refine (poll_overdue (hQuiet.isOn session.now) hRun
    hVerdict ?_).trans ?_
  · exact Nat.le_trans hLate (Nat.le_max_right _ _)
  · rw [Nat.max_eq_right hForward]

/- Before the deadline, the wait goes on after a sleep. -/
theorem poll_of_pending
    (hQuiet : signal.IsQuiet)
    (hRun : observe.run session = (result, after))
    (hForward : session.now ≤ after.now)
    (hVerdict :
      wait.verdict? object operation result = none)
    (hEarly : after.now < deadline)
    (hTold : after.now + wait.pause ≤ timer.last) :
    wait.poll timer object operation signal observe
        deadline session =
      wait.poll timer object operation signal observe deadline
        ⟨wait.wake timer deadline after.now,
          after.state⟩ := by
  refine (poll_onward (hQuiet.isOn session.now) hRun
    hVerdict ?_ ?_ (hQuiet.firesBy? _ _)).trans ?_
  · rwa [Nat.max_eq_right hForward]
  · rwa [Nat.max_eq_right hForward]
  · rw [Nat.max_eq_right hForward]

/- If the clock cannot tell when the sleep is over, the wait
   ends there. -/
theorem poll_of_untold
    (hQuiet : signal.IsQuiet)
    (hRun : observe.run session = (result, after))
    (hForward : session.now ≤ after.now)
    (hVerdict :
      wait.verdict? object operation result = none)
    (hEarly : after.now < deadline)
    (hUntold : timer.last < after.now + wait.pause) :
    wait.poll timer object operation signal observe deadline
        session =
      (.error .panicked, after) := by
  refine (poll_untold (hQuiet.isOn session.now) hRun
    hVerdict ?_ ?_).trans ?_
  · rwa [Nat.max_eq_right hForward]
  · rwa [Nat.max_eq_right hForward]
  · rw [Nat.max_eq_right hForward]

end Quiet

------------------------------------------------------------
-- Observations One after the Other
------------------------------------------------------------

/- Where observations begin and end, and what they result
   in, when a wait makes one after the other. -/
structure Series
    (wait : StateWait)
    (timer : Timer)
    (observe : Calls σ LifecycleError (Observation α))
    (deadline : Moment)
    (begins ends : Nat → Session σ)
    (results :
      Nat → Except LifecycleError (Observation α)) :
    Prop where
  run : ∀ n, observe.run (begins n) = (results n, ends n)
  forward : ∀ n, (begins n).now ≤ (ends n).now
  next :
    ∀ n, begins (n + 1) =
      ⟨wait.wake timer deadline (ends n).now,
        (ends n).state⟩

namespace Series

variable {begins ends : Nat → Session σ}
variable {results : Nat → Except LifecycleError (Observation α)}

/-
  The first few observations decide nothing, and each of them
  ends before the deadline, at a moment after which the clock
  can tell a pause.
-/
def IsOpen
    (wait : StateWait)
    (timer : Timer)
    (object : ObjectRef)
    (operation : Operation)
    (deadline : Moment)
    (ends : Nat → Session σ)
    (results :
      Nat → Except LifecycleError (Observation α))
    (count : Nat) :
    Prop :=
  ∀ n, n < count →
    wait.verdict? object operation (results n) = none ∧
      (ends n).now < deadline ∧
        (ends n).now + wait.pause ≤ timer.last

/- Observations that decide nothing, and end before the
   deadline, lead on to the next one. -/
theorem poll_eq_poll
    (hSeries :
      wait.Series timer observe deadline begins ends results)
    (hQuiet : signal.IsQuiet)
    (object : ObjectRef)
    (operation : Operation)
    {count : Nat}
    (hOpen :
      IsOpen wait timer object operation deadline ends results
        count) :
    wait.poll timer object operation signal observe deadline
        (begins 0) =
      wait.poll timer object operation signal observe deadline
        (begins count) := by
  induction count with
  | zero => rfl
  | succ count ih =>
      have hLast := hOpen count (Nat.lt_succ_self count)
      rw [ih fun n hn => hOpen n (Nat.lt_succ_of_lt hn),
        poll_of_pending hQuiet (hSeries.run count)
          (hSeries.forward count) hLast.1 hLast.2.1
          hLast.2.2,
        hSeries.next count]

/- The first observation that decides ends the wait. -/
theorem poll_of_verdict
    (hSeries :
      wait.Series timer observe deadline begins ends results)
    (hQuiet : signal.IsQuiet)
    {object : ObjectRef}
    {operation : Operation}
    {first : Nat}
    {verdict : Except LifecycleError (Option α)}
    (hOpen :
      IsOpen wait timer object operation deadline ends results
        first)
    (hVerdict :
      wait.verdict? object operation (results first) =
        some verdict) :
    wait.poll timer object operation signal observe deadline
        (begins 0) =
      (verdict, ends first) := by
  rw [hSeries.poll_eq_poll hQuiet object operation hOpen]
  exact StateWait.poll_of_verdict hQuiet (hSeries.run first)
    (hSeries.forward first) hVerdict

/- Without a decision, the first observation that ends at the
   deadline or later ends the wait. -/
theorem poll_of_late
    (hSeries :
      wait.Series timer observe deadline begins ends results)
    (hQuiet : signal.IsQuiet)
    {object : ObjectRef}
    {operation : Operation}
    {last : Nat}
    (hOpen :
      IsOpen wait timer object operation deadline ends results
        last)
    (hVerdict :
      wait.verdict? object operation (results last) = none)
    (hLate : deadline ≤ (ends last).now) :
    wait.poll timer object operation signal observe deadline
        (begins 0) =
      (.error
          (.timeout object operation wait.targetText
            wait.timeout),
        ends last) := by
  rw [hSeries.poll_eq_poll hQuiet object operation hOpen]
  exact StateWait.poll_of_late hQuiet (hSeries.run last)
    (hSeries.forward last) hVerdict hLate

/- So does the first one after which the clock cannot tell a
   pause. -/
theorem poll_of_untold
    (hSeries :
      wait.Series timer observe deadline begins ends results)
    (hQuiet : signal.IsQuiet)
    {object : ObjectRef}
    {operation : Operation}
    {last : Nat}
    (hOpen :
      IsOpen wait timer object operation deadline ends results
        last)
    (hVerdict :
      wait.verdict? object operation (results last) = none)
    (hEarly : (ends last).now < deadline)
    (hUntold : timer.last < (ends last).now + wait.pause) :
    wait.poll timer object operation signal observe deadline
        (begins 0) =
      (.error .panicked, ends last) := by
  rw [hSeries.poll_eq_poll hQuiet object operation hOpen]
  exact StateWait.poll_of_untold hQuiet (hSeries.run last)
    (hSeries.forward last) hVerdict hEarly hUntold

end Series

------------------------------------------------------------
-- How a Wait Fails
------------------------------------------------------------

/- A wait fails because it was asked to stop, because it took
   too long, because the clock could not tell the deadline or
   a pause after it, or by what an observation decided. -/
theorem run_error_cases
    (wait : StateWait)
    (timer : Timer)
    (object : ObjectRef)
    (operation : Operation)
    (signal : Signal)
    (observe : Calls σ LifecycleError (Observation α))
    (session : Session σ)
    {fault : LifecycleError}
    (hFault :
      ((wait.run timer object operation signal observe).run
        session).1 =
          .error fault) :
    fault = .cancelled object operation ∨
      fault =
          .timeout object operation wait.targetText
            wait.timeout ∨
        (fault = .panicked ∧
            timer.last <
              session.now + wait.timeout.nanoseconds +
                wait.pause) ∨
          ∃ seen,
            wait.verdict? object operation
                (observe.run seen).1 =
              some (.error fault) := by
  rcases Nat.lt_or_ge timer.last
      (session.now + wait.timeout.nanoseconds) with
    hUntold | hTold
  · rw [run_of_untold _ _ _ _ (timer.later?_of_lt hUntold)]
      at hFault
    exact .inr
      (.inr
        (.inl
          ⟨(Except.error.inj hFault).symm,
            Nat.lt_of_lt_of_le hUntold
              (Nat.le_add_right _ _)⟩))
  · rw [run_of_deadline _ _ _ _ (timer.later?_of_le hTold)]
      at hFault
    generalize
      session.now + wait.timeout.nanoseconds = deadline
      at hFault ⊢
    clear hTold
    fun_induction
        wait.poll timer object operation signal observe
          deadline session with
    | case1 => exact .inl (Except.error.inj hFault).symm
    | case2 session hOff result after hRun now verdict
        hVerdict =>
        have hSame : verdict = .error fault := hFault
        rw [hSame] at hVerdict
        exact .inr
          (.inr (.inr ⟨session, by rwa [hRun]⟩))
    | case3 =>
        exact .inr (.inl (Except.error.inj hFault).symm)
    | case4 session hOff result after hRun now hVerdict
        hEarly hUntold =>
        refine .inr
          (.inr (.inl ⟨(Except.error.inj hFault).symm, ?_⟩))
        exact Nat.lt_of_lt_of_le
          (wake?_eq_none_iff.1 hUntold)
          (Nat.add_le_add_right
            (Nat.le_of_lt (Nat.lt_of_not_le hEarly)) _)
    | case5 => exact .inl (Except.error.inj hFault).symm
    | case6 session hOff result after hRun now hVerdict
        hEarly wake hWake hSilent ih =>
        exact ih hFault

end StateWait

end Converge
