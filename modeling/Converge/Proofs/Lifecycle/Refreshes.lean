import Converge.Proofs.Lifecycle.Schedule
import Converge.Proofs.Result

/-
  What a wait observes, and when.

  A wait is watched by taking down each observation as it is
  made. The observations come one after the other, with a
  sleep in between for which the wait asks its timer, up to
  the deadline at most, and all but the last are pending and
  end before the deadline. As a timer is never early, they
  are as many at most as pauses begin before the deadline,
  and one more, and the last one alone decides what the wait
  ends with.

  Key definitions:
    * `Refresh`, `StateWait.logged`: observations taken down
    * `StateWait.Course`: the ways that a wait may go
    * `StateWait.IsPending`, `StateWait.Decides`: what an
      observation leaves open, and what it decides
    * `StateWait.Consecutive`: observations and sleeps

  Main declarations:
    * `StateWait.course_poll`: there are no other ways, and
      taking down changes nothing
    * `StateWait.Consecutive.length_le`
    * `StateWait.Consecutive.exact_of_ticks`: where a timer
      that ticks is as good as one that is never late
    * `StateWait.run_first_decisive`
-/

namespace Converge

------------------------------------------------------------
-- Observations Taken Down
------------------------------------------------------------

/- An observation of a wait: when it was begun, when it was
   over, and what came of it. -/
structure Refresh (α : Type) where
  starts : Moment
  ends : Moment
  result : Except LifecycleError (Observation α)

namespace StateWait

variable {σ α : Type}

/- Observes, and takes the observation down behind those
   before it. -/
def logged
    (observe : Calls σ LifecycleError (Observation α)) :
    Calls (σ × List (Refresh α)) LifecycleError
      (Observation α) :=
  ExceptT.mk fun session =>
    let seen := observe.run ⟨session.now, session.state.1⟩
    let now := max session.now seen.2.now
    (seen.1,
      ⟨now, (seen.2.state,
        session.state.2 ++ [⟨session.now, now, seen.1⟩])⟩)

section Watching

variable {wait : StateWait}
variable {timer : Timer}
variable {object : ObjectRef}
variable {operation : Operation}
variable {signal : Signal}
variable {deadline : Moment}

------------------------------------------------------------
-- The Ways of a Wait
------------------------------------------------------------

/- The ways that a wait may go from a moment on: what it
   observes, what it ends with, and when. -/
inductive Course
    (wait : StateWait)
    (timer : Timer)
    (object : ObjectRef)
    (operation : Operation)
    (signal : Signal)
    (deadline : Moment) :
    Moment → List (Refresh α) →
      Except LifecycleError (Option α) → Moment → Prop where
  | stopped
      {now : Moment}
      (hOn : signal.isOn now = true) :
      Course wait timer object operation signal deadline now
        []
        (.error (.cancelled object operation)) now
  | decided
      {starts ends : Moment}
      {result : Except LifecycleError (Observation α)}
      {verdict : Except LifecycleError (Option α)}
      (hOff : signal.isOn starts = false)
      (hForward : starts ≤ ends)
      (hVerdict :
        wait.verdict? object operation result =
          some verdict) :
      Course wait timer object operation signal deadline
        starts [⟨starts, ends, result⟩] verdict ends
  | overdue
      {starts ends : Moment}
      {result : Except LifecycleError (Observation α)}
      (hOff : signal.isOn starts = false)
      (hForward : starts ≤ ends)
      (hVerdict :
        wait.verdict? object operation result = none)
      (hLate : deadline ≤ ends) :
      Course wait timer object operation signal deadline
        starts [⟨starts, ends, result⟩]
        (.error
          (.timeout object operation wait.targetText
            wait.timeout))
        ends
  | untold
      {starts ends : Moment}
      {result : Except LifecycleError (Observation α)}
      (hOff : signal.isOn starts = false)
      (hForward : starts ≤ ends)
      (hVerdict :
        wait.verdict? object operation result = none)
      (hEarly : ends < deadline)
      (hUntold : timer.last < ends + wait.pause) :
      Course wait timer object operation signal deadline
        starts [⟨starts, ends, result⟩] (.error .panicked)
        ends
  | interrupted
      {starts ends moment : Moment}
      {result : Except LifecycleError (Observation α)}
      (hOff : signal.isOn starts = false)
      (hForward : starts ≤ ends)
      (hVerdict :
        wait.verdict? object operation result = none)
      (hEarly : ends < deadline)
      (hTold : ends + wait.pause ≤ timer.last)
      (hFires :
        signal.firesBy? ends
            (wait.wake timer deadline ends) =
          some moment) :
      Course wait timer object operation signal deadline
        starts [⟨starts, ends, result⟩]
        (.error (.cancelled object operation)) moment
  | onward
      {starts ends stop : Moment}
      {result : Except LifecycleError (Observation α)}
      {rest : List (Refresh α)}
      {last : Except LifecycleError (Option α)}
      (hOff : signal.isOn starts = false)
      (hForward : starts ≤ ends)
      (hVerdict :
        wait.verdict? object operation result = none)
      (hEarly : ends < deadline)
      (hTold : ends + wait.pause ≤ timer.last)
      (hSilent :
        signal.firesBy? ends
            (wait.wake timer deadline ends) =
          none)
      (hRest :
        Course wait timer object operation signal deadline
          (wait.wake timer deadline ends) rest last stop) :
      Course wait timer object operation signal deadline
        starts (⟨starts, ends, result⟩ :: rest) last stop

/- What comes of an observation that is taken down. -/
theorem run_logged
    {observe : Calls σ LifecycleError (Observation α)}
    {session after : Session σ}
    {result : Except LifecycleError (Observation α)}
    (hRun : observe.run session = (result, after))
    (log : List (Refresh α)) :
    let now := max session.now after.now
    (logged observe).run
        ⟨session.now, (session.state, log)⟩ =
      (result,
        ⟨now, (after.state,
          log ++ [⟨session.now, now, result⟩])⟩) := by
  have hSeen :
      observe.run ⟨session.now, session.state⟩ =
        (result, after) := hRun
  simp only [logged, ExceptT.run_mk, hSeen]

/- A wait goes one of these ways, and taking its observations
   down changes nothing. -/
theorem course_poll
    (wait : StateWait)
    (timer : Timer)
    (object : ObjectRef)
    (operation : Operation)
    (signal : Signal)
    (observe : Calls σ LifecycleError (Observation α))
    (deadline : Moment)
    (session : Session σ)
    (log : List (Refresh α)) :
    let outcome :=
      wait.poll timer object operation signal observe deadline
        session
    ∃ refreshes,
      wait.poll timer object operation signal (logged observe)
          deadline ⟨session.now, (session.state, log)⟩ =
        (outcome.1,
          ⟨outcome.2.now,
            (outcome.2.state, log ++ refreshes)⟩) ∧
        Course wait timer object operation signal deadline
          session.now refreshes outcome.1 outcome.2.now := by
  intro outcome
  unfold outcome
  -- the time that is taken down is that of the wait
  have hMax :
      ∀ start ends : Moment,
        max start (max start ends) = max start ends :=
    fun _ _ => Nat.max_eq_right (Nat.le_max_left _ _)
  fun_induction
      wait.poll timer object operation signal observe deadline
        session generalizing log with
  | case1 session cancelled hOn =>
      refine ⟨[], ?_, .stopped hOn⟩
      rw [List.append_nil]
      exact poll_stopped hOn
  | case2 session hOff result after hRun now verdict
      hVerdict =>
      rw [Bool.not_eq_true] at hOff
      have hLogged := run_logged hRun log
      refine ⟨[⟨session.now, now, result⟩], ?_,
        .decided hOff (Nat.le_max_left _ _) hVerdict⟩
      rw [poll_decided hOff hLogged hVerdict, hMax]
  | case3 session hOff result after hRun now hVerdict
      hLate =>
      rw [Bool.not_eq_true] at hOff
      have hLogged := run_logged hRun log
      refine ⟨[⟨session.now, now, result⟩], ?_,
        .overdue hOff (Nat.le_max_left _ _) hVerdict hLate⟩
      rw [poll_overdue hOff hLogged hVerdict
        ((hMax _ _).symm ▸ hLate), hMax]
  | case4 session hOff result after hRun now hVerdict hEarly
      hNone =>
      rw [Bool.not_eq_true] at hOff
      have hLogged := run_logged hRun log
      have hBefore : now < deadline := Nat.lt_of_not_le hEarly
      have hUntold := wake?_eq_none_iff.1 hNone
      refine ⟨[⟨session.now, now, result⟩], ?_,
        .untold hOff (Nat.le_max_left _ _) hVerdict hBefore
          hUntold⟩
      rw [poll_untold hOff hLogged hVerdict
        (by rwa [hMax]) (by rwa [hMax]), hMax]
  | case5 session cancelled hOff result after hRun now
      hVerdict hEarly wake hWake moment hFires =>
      rw [Bool.not_eq_true] at hOff
      have hLogged := run_logged hRun log
      have hBefore : now < deadline := Nat.lt_of_not_le hEarly
      rcases wake?_eq_some_iff.1 hWake with ⟨hTold, rfl⟩
      refine ⟨[⟨session.now, now, result⟩], ?_,
        .interrupted hOff (Nat.le_max_left _ _) hVerdict
          hBefore hTold hFires⟩
      refine poll_interrupted hOff hLogged hVerdict ?_ ?_ ?_
      · rwa [hMax]
      · rwa [hMax]
      · rwa [hMax]
  | case6 session hOff result after hRun now hVerdict hEarly
      wake hWake hSilent ih =>
      rw [Bool.not_eq_true] at hOff
      have hLogged := run_logged hRun log
      have hBefore : now < deadline := Nat.lt_of_not_le hEarly
      rcases wake?_eq_some_iff.1 hWake with ⟨hTold, rfl⟩
      rcases ih (log ++ [⟨session.now, now, result⟩]) with
        ⟨rest, hPoll, hRest⟩
      refine ⟨⟨session.now, now, result⟩ :: rest, ?_,
        .onward hOff (Nat.le_max_left _ _) hVerdict hBefore
          hTold hSilent hRest⟩
      have hOnward :=
        poll_onward hOff hLogged hVerdict
          (by rwa [hMax]) (by rwa [hMax]) (by rwa [hMax])
      rw [hOnward, hMax]
      refine hPoll.trans ?_
      rw [List.append_assoc]
      rfl

------------------------------------------------------------
-- What an Observation Decides
------------------------------------------------------------

/- What was waited for is there: a target, or without any
   target, an absence. -/
def IsReached
    (wait : StateWait)
    (seen : Observation α) :
    Prop :=
  seen.phase ∈ wait.targets ∨
    wait.targets = [] ∧ seen.value = none

/- It is not there, but is still expected. -/
def IsPending
    (wait : StateWait)
    (result : Except LifecycleError (Observation α)) :
    Prop :=
  ∃ seen,
    result = .ok seen ∧ ¬wait.IsReached seen ∧
      seen.phase ∈ wait.pending

/- What a wait ends with after an observation that does not
   leave it pending before the deadline. -/
inductive Decides
    (wait : StateWait)
    (object : ObjectRef)
    (operation : Operation)
    (deadline : Moment) :
    Refresh α → Except LifecycleError (Option α) → Prop where
  | reached
      {starts ends : Moment}
      {seen : Observation α}
      (hReached : wait.IsReached seen) :
      Decides wait object operation deadline
        ⟨starts, ends, .ok seen⟩ (.ok seen.value)
  | failed
      {starts ends : Moment}
      {fault : LifecycleError} :
      Decides wait object operation deadline
        ⟨starts, ends, .error fault⟩ (.error fault)
  | unexpected
      {starts ends : Moment}
      {seen : Observation α}
      (hMissed : ¬wait.IsReached seen)
      (hStrange : seen.phase ∉ wait.pending) :
      Decides wait object operation deadline
        ⟨starts, ends, .ok seen⟩
        (.error (.unexpected object operation seen.phase))
  | late
      {starts ends : Moment}
      {result : Except LifecycleError (Observation α)}
      (hPending : wait.IsPending result)
      (hLate : deadline ≤ ends) :
      Decides wait object operation deadline
        ⟨starts, ends, result⟩
        (.error
          (.timeout object operation wait.targetText
            wait.timeout))

theorem isReached_iff
    (wait : StateWait)
    (seen : Observation α) :
    (wait.targets.contains seen.phase ||
        (wait.targets.isEmpty && seen.value.isNone)) = true ↔
      wait.IsReached seen := by
  simp [IsReached]

/- An observation that decides nothing is a pending one. -/
theorem verdict?_eq_none_iff
    {result : Except LifecycleError (Observation α)} :
    wait.verdict? object operation result = none ↔
      wait.IsPending result := by
  cases result with
  | error fault => simp [verdict?, IsPending]
  | ok seen =>
      simp only [verdict?, IsPending, Except.ok.injEq,
        exists_eq_left']
      split
      next hReached =>
        rw [isReached_iff] at hReached
        simp [hReached]
      next hMissed =>
        rw [isReached_iff] at hMissed
        split
        next hPending => simpa [hMissed] using hPending
        next hStrange => simpa [hMissed] using hStrange

/- What a verdict is, for an observation that has one. -/
theorem decides_of_verdict?
    {starts ends : Moment}
    {result : Except LifecycleError (Observation α)}
    {verdict : Except LifecycleError (Option α)}
    (hVerdict :
      wait.verdict? object operation result = some verdict) :
    wait.Decides object operation deadline
      ⟨starts, ends, result⟩ verdict := by
  cases result with
  | error fault =>
      cases hVerdict
      exact .failed
  | ok seen =>
      simp only [verdict?] at hVerdict
      split at hVerdict
      next hReached =>
        cases hVerdict
        exact .reached ((isReached_iff wait seen).1 hReached)
      next hMissed =>
        rw [isReached_iff] at hMissed
        split at hVerdict
        next hPending => cases hVerdict
        next hStrange =>
          cases hVerdict
          exact .unexpected hMissed (by simpa using hStrange)

/- An observation decides one thing only. -/
theorem Decides.unique
    {refresh : Refresh α}
    {verdict other : Except LifecycleError (Option α)}
    (hVerdict :
      wait.Decides object operation deadline refresh verdict)
    (hOther :
      wait.Decides object operation deadline refresh other) :
    verdict = other := by
  cases hVerdict with
  | failed =>
      cases hOther with
      | failed => rfl
      | late hPending => simp [IsPending] at hPending
  | reached hReached =>
      cases hOther with
      | reached => rfl
      | unexpected hMissed => exact absurd hReached hMissed
      | late hPending =>
          rcases hPending with ⟨seen, hSeen, hMissed, -⟩
          cases hSeen
          exact absurd hReached hMissed
  | unexpected hMissed hStrange =>
      cases hOther with
      | reached hReached => exact absurd hReached hMissed
      | unexpected => rfl
      | late hPending =>
          rcases hPending with ⟨seen, hSeen, -, hPending⟩
          cases hSeen
          exact absurd hPending hStrange
  | late hPending hLate =>
      rcases hPending with ⟨seen, rfl, hMissed, hPending⟩
      cases hOther with
      | reached hReached => exact absurd hReached hMissed
      | unexpected _ hStrange =>
          exact absurd hPending hStrange
      | late => rfl

/- An observation that decides is not pending before the
   deadline. -/
theorem Decides.not_pending
    {refresh : Refresh α}
    {verdict : Except LifecycleError (Option α)}
    (hVerdict :
      wait.Decides object operation deadline refresh
        verdict) :
    ¬(wait.IsPending refresh.result ∧
      refresh.ends < deadline) := by
  rintro ⟨⟨seen, hSeen, hMissed, hPending⟩, hEarly⟩
  cases hVerdict with
  | failed => cases hSeen
  | reached hReached =>
      cases hSeen
      exact hMissed hReached
  | unexpected _ hStrange =>
      cases hSeen
      exact hStrange hPending
  | late _ hLate => exact Nat.not_lt.2 hLate hEarly

------------------------------------------------------------
-- Observations and Sleeps
------------------------------------------------------------

/- Observations one after the other: each takes its time, and
   between two of them the wait sleeps, as its timer has it,
   for its interval or the time that was left. -/
def Consecutive
    (wait : StateWait)
    (timer : Timer)
    (deadline : Moment) :
    Moment → List (Refresh α) → Prop
  | _, [] => True
  | start, first :: rest =>
      first.starts = start ∧ first.starts ≤ first.ends ∧
        wait.Consecutive timer deadline
          (timer.wake first.ends
            (first.ends +
              min wait.interval.nanoseconds
                (deadline - first.ends)))
          rest

instance decidableConsecutive
    (wait : StateWait)
    (timer : Timer)
    (deadline : Moment) :
    (start : Moment) → (refreshes : List (Refresh α)) →
      Decidable
        (wait.Consecutive timer deadline start refreshes)
  | _, [] => inferInstanceAs (Decidable True)
  | _, first :: rest =>
      have := wait.decidableConsecutive timer deadline
        (timer.wake first.ends
          (first.ends +
            min wait.interval.nanoseconds
              (deadline - first.ends)))
        rest
      inferInstanceAs (Decidable (_ ∧ _ ∧ _))

/- A wait sleeps for its interval or the time that is left. -/
theorem wake_eq
    {now : Moment}
    (hInterval : 0 < wait.interval.nanoseconds)
    (hEarly : now < deadline) :
    wait.wake timer deadline now =
      timer.wake now
        (now +
          min wait.interval.nanoseconds (deadline - now)) := by
  rw [wake, pause, Nat.max_eq_right hInterval]
  congr 1
  unfold Moment at *
  omega

/- When observations end before the deadline, the last of
   them is begun as many intervals after the first one. -/
theorem Consecutive.add_mul_lt
    {start : Moment}
    {first : Refresh α}
    {rest : List (Refresh α)}
    (hConsecutive :
      wait.Consecutive timer deadline start (first :: rest))
    (hEarly :
      ∀ refresh ∈ first :: rest, refresh.ends < deadline) :
    start + rest.length * wait.interval.nanoseconds <
      deadline := by
  induction rest generalizing start first with
  | nil =>
      rcases hConsecutive with ⟨rfl, hForward, -⟩
      have hFirst := hEarly first List.mem_cons_self
      rw [List.length_nil, Nat.zero_mul]
      exact Nat.lt_of_le_of_lt hForward hFirst
  | cons second rest ih =>
      rcases hConsecutive with ⟨rfl, hForward, hRest⟩
      have hLater :=
        ih hRest fun refresh hRefresh =>
          hEarly refresh (List.mem_cons_of_mem _ hRefresh)
      have hNever :=
        timer.notEarly first.ends
          (first.ends +
            min wait.interval.nanoseconds
              (deadline - first.ends))
      have hFirst := hEarly first List.mem_cons_self
      rw [List.length_cons, Nat.succ_mul]
      unfold Moment at *
      omega

/- The first few of consecutive observations are so too. -/
theorem Consecutive.of_append
    {start : Moment}
    {front back : List (Refresh α)}
    (hConsecutive :
      wait.Consecutive timer deadline start (front ++ back)) :
    wait.Consecutive timer deadline start front := by
  induction front generalizing start with
  | nil => trivial
  | cons first rest ih =>
      rcases hConsecutive with ⟨hStart, hForward, hRest⟩
      exact ⟨hStart, hForward, ih hRest⟩

/- A timer that ticks is not late if all that it has to do
   with is counted in whole ticks. -/
theorem Consecutive.exact_of_ticks
    {tick : Nat}
    (hTick : 0 < tick)
    (hTicks : timer.Ticks tick)
    (hDeadline : tick ∣ deadline)
    (hInterval : tick ∣ wait.interval.nanoseconds)
    {start : Moment}
    {front : List (Refresh α)}
    {last : Refresh α}
    (hConsecutive :
      wait.Consecutive timer deadline start (front ++ [last]))
    (hEnds : ∀ refresh ∈ front, tick ∣ refresh.ends) :
    wait.Consecutive (.exact timer.last) deadline start
      (front ++ [last]) := by
  induction front generalizing start with
  | nil =>
      rcases hConsecutive with ⟨hStart, hForward, -⟩
      exact ⟨hStart, hForward, trivial⟩
  | cons first rest ih =>
      rcases hConsecutive with ⟨hStart, hForward, hRest⟩
      have hFirst := hEnds first List.mem_cons_self
      have hSleep :
          tick ∣
            first.ends +
              min wait.interval.nanoseconds
                (deadline - first.ends) := by
        refine Nat.dvd_add hFirst ?_
        rcases Nat.le_total wait.interval.nanoseconds
            (deadline - first.ends) with hLess | hMore
        · rwa [Nat.min_eq_left hLess]
        · rw [Nat.min_eq_right hMore]
          exact Nat.dvd_sub hDeadline hFirst
      rw [hTicks, Timer.nextTick_of_dvd hTick hSleep] at hRest
      exact ⟨hStart, hForward,
        ih hRest fun refresh hRefresh =>
          hEnds refresh (List.mem_cons_of_mem _ hRefresh)⟩

/- So there are as many of them at most as the timeout has
   intervals, begun ones included. -/
theorem Consecutive.length_le
    {start : Moment}
    {refreshes : List (Refresh α)}
    (hInterval : 0 < wait.interval.nanoseconds)
    (hConsecutive :
      wait.Consecutive timer
        (start + wait.timeout.nanoseconds) start refreshes)
    (hEarly :
      ∀ refresh ∈ refreshes,
        refresh.ends < start + wait.timeout.nanoseconds) :
    refreshes.length ≤
      (wait.timeout.nanoseconds +
          wait.interval.nanoseconds - 1) /
        wait.interval.nanoseconds := by
  cases refreshes with
  | nil => exact Nat.zero_le _
  | cons first rest =>
      have hLast := hConsecutive.add_mul_lt hEarly
      rw [Nat.le_div_iff_mul_le hInterval, List.length_cons,
        Nat.succ_mul]
      change @LT.lt Nat _ _ _ at hLast
      omega

/- The way of a wait that nobody asks to stop: observations
   that leave it pending, and one that decides. -/
theorem Course.first_decisive
    {start stop : Moment}
    {refreshes : List (Refresh α)}
    {verdict : Except LifecycleError (Option α)}
    (hQuiet : signal.IsQuiet)
    (hInterval : 0 < wait.interval.nanoseconds)
    (hTold : deadline + wait.pause ≤ timer.last)
    (hCourse :
      wait.Course timer object operation signal deadline start
        refreshes verdict stop) :
    ∃ pending last,
      refreshes = pending ++ [last] ∧
        wait.Consecutive timer deadline start refreshes ∧
        (∀ refresh ∈ pending,
          wait.IsPending refresh.result ∧
            refresh.ends < deadline) ∧
        wait.Decides object operation deadline last verdict ∧
        stop = last.ends := by
  induction hCourse with
  | @stopped now hOn =>
      rw [hQuiet.isOn now] at hOn
      cases hOn
  | @decided starts ends result verdict hOff hForward
      hVerdict =>
      exact ⟨[], _, rfl, ⟨rfl, hForward, trivial⟩,
        List.forall_mem_nil _, decides_of_verdict? hVerdict,
        rfl⟩
  | @overdue starts ends result hOff hForward hVerdict
      hLate =>
      have hPending := verdict?_eq_none_iff.1 hVerdict
      exact ⟨[], _, rfl, ⟨rfl, hForward, trivial⟩,
        List.forall_mem_nil _, .late hPending hLate, rfl⟩
  | @untold starts ends result hOff hForward hVerdict hEarly
      hUntold =>
      refine absurd hTold (Nat.not_le.2 ?_)
      exact Nat.lt_of_lt_of_le hUntold
        (Nat.add_le_add_right (Nat.le_of_lt hEarly) _)
  | @interrupted starts ends moment result hOff hForward
      hVerdict hEarly hTold hFires =>
      rw [hQuiet.firesBy?] at hFires
      cases hFires
  | @onward starts ends stop result rest verdict hOff
      hForward hVerdict hEarly hTold hSilent hRest ih =>
      rcases ih with
        ⟨pending, last, rfl, hLater, hBefore, hLast, hStop⟩
      rw [wake_eq hInterval hEarly] at hLater
      refine ⟨⟨starts, ends, result⟩ :: pending, last, rfl,
        ⟨rfl, hForward, hLater⟩, ?_, hLast, hStop⟩
      intro refresh hRefresh
      rcases List.mem_cons.1 hRefresh with rfl | hRefresh
      · exact ⟨verdict?_eq_none_iff.1 hVerdict, hEarly⟩
      · exact hBefore refresh hRefresh

/-
  A wait that nobody asks to stop makes observations one
  after the other. In between it sleeps for its interval or
  the time that is left, and is woken then or later: not
  later, if its timer ticks and all times are whole ticks. The
  first observation that is not pending before the deadline
  is the last one: it decides what the wait ends with, and
  when. There are as many of them at most as the timeout has
  intervals, begun ones included, and one more. All this is
  so if the clock can tell the deadline and an interval after
  it.
-/
theorem run_first_decisive
    (wait : StateWait)
    (timer : Timer)
    (object : ObjectRef)
    (operation : Operation)
    {signal : Signal}
    (observe : Calls σ LifecycleError (Observation α))
    (session : Session σ)
    (hInterval : 0 < wait.interval.nanoseconds)
    (hQuiet : signal.IsQuiet)
    (hTold :
      session.now + wait.timeout.nanoseconds +
          wait.interval.nanoseconds ≤
        timer.last) :
    let deadline := session.now + wait.timeout.nanoseconds
    let outcome :=
      (wait.run timer object operation signal observe).run
        session
    let watched :=
      (wait.run timer object operation signal
          (logged observe)).run
        ⟨session.now, (session.state, [])⟩
    ∃ pending last,
      watched =
          (outcome.1,
            ⟨outcome.2.now,
              (outcome.2.state, pending ++ [last])⟩) ∧
        (pending ++ [last]).length ≤
          (wait.timeout.nanoseconds +
              wait.interval.nanoseconds - 1) /
            wait.interval.nanoseconds + 1 ∧
        wait.Consecutive timer deadline session.now
          (pending ++ [last]) ∧
        (∀ tick, 0 < tick → timer.Ticks tick →
          tick ∣ deadline →
            tick ∣ wait.interval.nanoseconds →
              (∀ refresh ∈ pending, tick ∣ refresh.ends) →
                wait.Consecutive (.exact timer.last) deadline
                  session.now (pending ++ [last])) ∧
        (∀ refresh ∈ pending,
          wait.IsPending refresh.result ∧
            refresh.ends < deadline) ∧
        ¬(wait.IsPending last.result ∧
          last.ends < deadline) ∧
        (∀ verdict,
          wait.Decides object operation deadline last
              verdict ↔
            outcome.1 = verdict) ∧
        outcome.2.now = last.ends := by
  intro deadline outcome watched
  have hPause : wait.pause = wait.interval.nanoseconds :=
    Nat.max_eq_right hInterval
  have hLater :
      timer.later? session.now wait.timeout.nanoseconds =
        some deadline :=
    timer.later?_of_le
      (Nat.le_trans (Nat.le_add_right _ _) hTold)
  have hOutcome : outcome = _ :=
    run_of_deadline object operation signal observe hLater
  rcases wait.course_poll timer object operation signal
      observe deadline session [] with
    ⟨refreshes, hPoll, hCourse⟩
  have hWatched : watched = _ :=
    (run_of_deadline object operation signal (logged observe)
      hLater).trans hPoll
  rw [← hOutcome] at hWatched hCourse
  rcases hCourse.first_decisive hQuiet hInterval
      (hPause ▸ hTold) with
    ⟨pending, last, rfl, hConsecutive, hPending, hLast, hStop⟩
  refine ⟨pending, last, hWatched, ?_, hConsecutive, ?_,
    hPending, hLast.not_pending, ?_, hStop⟩
  · rw [List.length_append, List.length_singleton]
    exact Nat.succ_le_succ
      (Consecutive.length_le hInterval hConsecutive.of_append
        fun refresh hRefresh => (hPending refresh hRefresh).2)
  · intro tick hTick hTicks hDeadline hWhole hEnds
    exact hConsecutive.exact_of_ticks hTick hTicks hDeadline
      hWhole hEnds
  · intro verdict
    constructor
    · intro hVerdict
      exact hLast.unique hVerdict
    · rintro rfl
      exact hLast

end Watching

------------------------------------------------------------
-- A Wait of Two Seconds
------------------------------------------------------------

/- A wait for success, half a second between observations. -/
def halfSeconds : StateWait where
  pending := [.creating]
  targets := [.succeeded]
  timeout := ⟨2000000000, by decide⟩
  interval := ⟨500000000, by decide⟩

/- Observations of 300 ms, of which the third shows
   success. -/
def thirdSucceeds :
    Calls Nat LifecycleError (Observation Nat) :=
  ExceptT.mk fun session =>
    (.ok
        (if session.state < 2 then .absent .creating
        else .found .succeeded session.state),
      ⟨session.now + 300000000, session.state + 1⟩)

theorem run_first_decisive_third :
    let object : ObjectRef := ⟨.task, "ci", "build"⟩
    let watched :=
      (halfSeconds.run .standard object .create .never
          (logged thirdSucceeds)).run
        ⟨0, (0, [])⟩
    0 < halfSeconds.interval.nanoseconds ∧
      Signal.never.IsQuiet ∧
        0 + halfSeconds.timeout.nanoseconds +
            halfSeconds.interval.nanoseconds ≤
          Timer.standard.last ∧
        ∃ pending last,
          watched.2.state.2 = pending ++ [last] ∧
            pending.map Refresh.starts = [0, 800000000] ∧
            (∀ refresh ∈ pending,
              halfSeconds.IsPending refresh.result) ∧
            last.starts = 1600000000 ∧
            halfSeconds.Decides object .create 2000000000
              last (.ok (some 2)) ∧
            watched.2.now = last.ends := by
  intro object watched
  refine ⟨by decide, Signal.isQuiet_never, by decide, ?_⟩
  have hRun :
      (watched.1.toOption,
          watched.2.state.2.map Refresh.starts) =
        (some (some 2), [0, 800000000, 1600000000]) := by
    decide +kernel
  rcases Prod.mk.inj hRun with ⟨hValue, hStarts⟩
  rcases halfSeconds.run_first_decisive .standard object
      .create thirdSucceeds ⟨0, 0⟩ (by decide)
      Signal.isQuiet_never (by decide) with
    ⟨pending, last, hPoll, -, -, -, hPending, -, hDecides,
      hEnds⟩
  have hWatched : watched = _ := hPoll
  rw [hWatched] at hValue hStarts
  rw [hWatched]
  have hParts :
      pending.map Refresh.starts ++ [last.starts] =
        [0, 800000000] ++ [1600000000] := by
    rw [List.map_append] at hStarts
    exact hStarts
  rcases List.append_inj' hParts rfl with ⟨hFirst, hLast⟩
  exact ⟨pending, last, rfl, hFirst,
    fun refresh hRefresh => (hPending refresh hRefresh).1,
    (List.cons.inj hLast).1,
    (hDecides _).2 (Result.eq_ok_of_toOption hValue), hEnds⟩

------------------------------------------------------------
-- A Wait that Oversleeps
------------------------------------------------------------

/- A wait of 2.5 ms, one millisecond between observations. -/
def shortWait : StateWait where
  pending := [.creating]
  targets := [.succeeded]
  timeout := ⟨2500000, by decide⟩
  interval := ⟨1000000, by decide⟩

/- Observations that take no time, and never show success. -/
def neverSucceeds :
    Calls Nat LifecycleError (Observation Nat) :=
  ExceptT.mk fun session =>
    (.ok (.absent .creating),
      ⟨session.now, session.state + 1⟩)

/- The last sleep is longer than the half millisecond that is
   left: the timer wakes at whole ones. -/
theorem run_oversleeps :
    let watched :=
      (shortWait.run .standard ⟨.task, "ci", "build"⟩ .create
          .never (logged neverSucceeds)).run
        ⟨0, (0, [])⟩
    watched.2.state.2.map Refresh.starts =
        [0, 1000000, 2000000, 3000000] ∧
      watched.2.state.2.map Refresh.ends =
        [0, 1000000, 2000000, 3000000] ∧
      ¬shortWait.Consecutive (.exact Timer.standard.last)
        2500000 0 watched.2.state.2 := by
  intro watched
  refine ⟨?_, ?_, ?_⟩
  · decide +kernel
  · decide +kernel
  · decide +kernel

end StateWait

end Converge
