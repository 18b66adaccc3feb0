import Converge.Proofs.Lifecycle.Refreshes

/-
  What a signal does to a wait.

  A wait that is asked to stop begins no other observation.
  It ends at once when it sleeps, and otherwise with the
  observation that it makes, which may still decide. A signal
  that is never on does nothing at all, whatever is sent, and
  no signal does anything else than to cancel.

  A wait is not cancelled where its clock cannot tell a moment
  that it asks for first: its deadline, or the end of a pause
  that it would have been cancelled in.

  Key definitions:
    * `StateWait.Halts`: how a wait ends that was asked to
    * `StateWait.Overflows`: the clock cannot tell a moment

  Main declarations:
    * `Signal.isOn_of_firesBy?`: a signal is off until it is
      seen to be on
    * `StateWait.Course.halts_iff`: a wait that is asked to
      stop
    * `StateWait.poll_or_cancelled`,
      `StateWait.run_or_cancelled`: waits compared with one
      that nobody asks to stop
    * `StateWait.run_halts_iff`
-/

namespace Converge

------------------------------------------------------------
-- Values over Time
------------------------------------------------------------

namespace Signal

/- A value lasts until another one is sent. -/
theorem valueFrom_of_later
    {value : Bool}
    {moment : Moment}
    {values : List (Moment × Bool)}
    (hLater : ∀ sent ∈ values, moment < sent.1) :
    valueFrom value moment values = value := by
  cases values with
  | nil => rfl
  | cons sent rest =>
      have hFirst := hLater sent List.mem_cons_self
      rw [valueFrom, if_neg (Nat.not_le.2 hFirst)]

/- A value that was not there at first was sent. -/
theorem mem_of_valueFrom
    {value : Bool}
    {moment : Moment}
    {values : List (Moment × Bool)}
    (hOn : valueFrom value moment values = true) :
    value = true ∨
      ∃ time ≤ moment, (time, true) ∈ values := by
  induction values generalizing value with
  | nil => exact .inl hOn
  | cons sent rest ih =>
      rcases sent with ⟨time, next⟩
      rw [valueFrom] at hOn
      split at hOn
      next hTime =>
        rcases ih hOn with rfl | ⟨later, hLater, hMem⟩
        · exact .inr ⟨time, hTime, List.mem_cons_self⟩
        · exact .inr
            ⟨later, hLater, List.mem_cons_of_mem _ hMem⟩
      next hTime => exact .inl hOn

/- A signal is switched on when this is sent. -/
theorem mem_of_switchedOn?
    {after upTo moment : Moment}
    {values : List (Moment × Bool)}
    (hOn : switchedOn? after upTo values = some moment) :
    (moment, true) ∈ values ∧ after < moment ∧
      moment ≤ upTo := by
  induction values with
  | nil => cases hOn
  | cons sent rest ih =>
      rcases sent with ⟨time, value⟩
      rw [switchedOn?] at hOn
      split at hOn
      next hSent =>
        cases hOn
        simp only [Bool.and_eq_true, decide_eq_true_eq]
          at hSent
        rcases hSent with ⟨⟨rfl, hAfter⟩, hUpTo⟩
        exact ⟨List.mem_cons_self, hAfter, hUpTo⟩
      next hSent =>
        rcases ih hOn with ⟨hMem, hBounds⟩
        exact ⟨List.mem_cons_of_mem _ hMem, hBounds⟩

/- A signal that was off is off until it is switched on. -/
theorem valueFrom_of_switchedOn?
    {value : Bool}
    {after upTo moment : Moment}
    {values : List (Moment × Bool)}
    (hInOrder :
      values.Pairwise fun earlier later =>
        earlier.1 ≤ later.1)
    (hOff : valueFrom value after values = false)
    (hAfter : after ≤ moment)
    (hUpTo : moment ≤ upTo)
    (hBefore :
      ∀ time ∈ switchedOn? after upTo values,
        moment < time) :
    valueFrom value moment values = false := by
  induction values generalizing value with
  | nil => exact hOff
  | cons sent rest ih =>
      rcases sent with ⟨time, next⟩
      rcases List.pairwise_cons.1 hInOrder with
        ⟨hLater, hRest⟩
      rw [valueFrom] at hOff ⊢
      rw [switchedOn?] at hBefore
      by_cases hSeen : time ≤ after
      · have hPast : ¬after < time := Nat.not_lt.2 hSeen
        simp only [hPast, decide_false, Bool.and_false,
          Bool.false_and, Bool.false_eq_true, if_false]
          at hBefore
        rw [if_pos hSeen] at hOff
        rw [if_pos (Nat.le_trans hSeen hAfter)]
        exact ih hRest hOff hBefore
      · have hUnseen : after < time := Nat.lt_of_not_le hSeen
        rw [if_neg hSeen] at hOff
        split
        next hSent =>
          have hInTime : time ≤ upTo :=
            Nat.le_trans hSent hUpTo
          cases next with
          | true =>
              -- it was switched on no later than the moment
              simp only [hUnseen, hInTime, decide_true,
                Bool.and_true, if_true] at hBefore
              exact absurd (hBefore time rfl)
                (Nat.not_lt.2 hSent)
          | false =>
              refine ih hRest ?_ hBefore
              exact valueFrom_of_later fun sent hMem =>
                Nat.lt_of_lt_of_le hUnseen (hLater sent hMem)
        next hUnsent => exact hOff

/- What is sent is among all that happens. -/
theorem mem_of_mem_sends
    {events : List (Moment × SignalEvent)}
    {moment : Moment}
    {value : Bool}
    (hSent : (moment, value) ∈ sends events) :
    (moment, .sent value) ∈ events := by
  fun_induction sends events with
  | case1 => cases hSent
  | case2 => cases hSent
  | case3 time next rest ih =>
      rcases List.mem_cons.1 hSent with hFirst | hRest
      · cases hFirst
        exact List.mem_cons_self
      · exact List.mem_cons_of_mem _ (ih hRest)

theorem pairwise_sends
    {events : List (Moment × SignalEvent)}
    (hInOrder :
      events.Pairwise fun earlier later =>
        earlier.1 ≤ later.1) :
    (sends events).Pairwise fun earlier later =>
      earlier.1 ≤ later.1 := by
  fun_induction sends events with
  | case1 => exact .nil
  | case2 => exact .nil
  | case3 moment value rest ih =>
      rcases List.pairwise_cons.1 hInOrder with
        ⟨hFirst, hRest⟩
      refine List.pairwise_cons.2 ⟨?_, ih hRest⟩
      intro sent hSent
      exact hFirst _ (mem_of_mem_sends hSent)

variable {signal : Signal}

/- A signal that is on was switched on. -/
theorem mem_of_isOn
    {moment : Moment}
    (hOn : signal.isOn moment = true) :
    ∃ time ≤ moment, (time, true) ∈ sends signal.events := by
  rcases mem_of_valueFrom hOn with hFalse | hSent
  · cases hFalse
  · exact hSent

/- When a signal is seen to be on, it was switched on, while
   someone was watching. -/
theorem mem_of_firesBy?
    {start upTo moment : Moment}
    (hForward : start ≤ upTo)
    (hFires : signal.firesBy? start upTo = some moment) :
    (∃ time ≤ moment, (time, true) ∈ sends signal.events) ∧
      start ≤ moment ∧ moment ≤ upTo := by
  rw [firesBy?] at hFires
  split at hFires
  next hOn =>
    cases hFires
    exact ⟨mem_of_isOn hOn, Nat.le_refl _, hForward⟩
  next hOff =>
    rcases mem_of_switchedOn? hFires with
      ⟨hSent, hAfter, hUpTo⟩
    exact ⟨⟨moment, Nat.le_refl _, hSent⟩,
      Nat.le_of_lt hAfter, hUpTo⟩

/- A signal is off until it is seen to be on. -/
theorem isOn_of_firesBy?
    {start upTo moment : Moment}
    (hStart : start ≤ moment)
    (hUpTo : moment ≤ upTo)
    (hBefore :
      ∀ time ∈ signal.firesBy? start upTo, moment < time) :
    signal.isOn moment = false := by
  rw [firesBy?] at hBefore
  split at hBefore
  next hOn =>
    exact absurd (hBefore start rfl) (Nat.not_lt.2 hStart)
  next hOff =>
    rw [Bool.not_eq_true] at hOff
    exact valueFrom_of_switchedOn?
      (pairwise_sends signal.inOrder) hOff hStart hUpTo
      hBefore

end Signal

namespace StateWait

variable {σ α : Type}
variable {wait : StateWait}
variable {timer : Timer}
variable {object : ObjectRef}
variable {operation : Operation}
variable {signal : Signal}
variable {deadline : Moment}

------------------------------------------------------------
-- Waits that Are Asked to Stop
------------------------------------------------------------

/- How a wait from a start on ends that is still going when
   it is asked to stop: before it observed anything, asleep,
   or with the observation that it is just making. -/
inductive Halts
    (wait : StateWait)
    (timer : Timer)
    (object : ObjectRef)
    (operation : Operation)
    (deadline moment start : Moment) :
    List (Refresh α) → Except LifecycleError (Option α) →
      Moment → Prop where
  | unbegun
      (hBefore : moment ≤ start) :
      Halts wait timer object operation deadline moment start
        [] (.error (.cancelled object operation)) start
  | asleep
      {earlier : List (Refresh α)}
      {last : Refresh α}
      (hPending : wait.IsPending last.result)
      (hTold : last.ends + wait.pause ≤ timer.last)
      (hAsleep :
        last.ends < moment ∧
          moment ≤ wait.wake timer deadline last.ends) :
      Halts wait timer object operation deadline moment start
        (earlier ++ [last])
        (.error (.cancelled object operation)) moment
  | awaited
      {earlier : List (Refresh α)}
      {last : Refresh α}
      (hInFlight : moment ≤ last.ends)
      (hPending : wait.IsPending last.result)
      (hEarly : last.ends < deadline)
      (hTold : last.ends + wait.pause ≤ timer.last) :
      Halts wait timer object operation deadline moment start
        (earlier ++ [last])
        (.error (.cancelled object operation)) last.ends
  | decided
      {earlier : List (Refresh α)}
      {last : Refresh α}
      {verdict : Except LifecycleError (Option α)}
      (hInFlight : moment ≤ last.ends)
      (hDecides :
        wait.Decides object operation deadline last verdict) :
      Halts wait timer object operation deadline moment start
        (earlier ++ [last]) verdict last.ends

/- The clock cannot tell a moment that a wait asks for: its
   deadline, before anything is observed, or the end of the
   pause after what was observed last. -/
inductive Overflows
    (wait : StateWait)
    (timer : Timer)
    (deadline : Moment) :
    List (Refresh α) → Prop where
  | start
      (hUntold : timer.last < deadline) :
      Overflows wait timer deadline []
  | pause
      {earlier : List (Refresh α)}
      {last : Refresh α}
      (hPending : wait.IsPending last.result)
      (hEarly : last.ends < deadline)
      (hUntold : timer.last < last.ends + wait.pause) :
      Overflows wait timer deadline (earlier ++ [last])

/- A wait that woke in time halts in the same way, with what
   it observed before. -/
theorem Halts.cons
    {moment start wake stop : Moment}
    {refreshes : List (Refresh α)}
    {verdict : Except LifecycleError (Option α)}
    (hHalts :
      wait.Halts timer object operation deadline moment wake
        refreshes verdict stop)
    (hAwake : wake < moment)
    (first : Refresh α) :
    wait.Halts timer object operation deadline moment start
      (first :: refreshes) verdict stop := by
  cases hHalts with
  | unbegun hBefore =>
      exact absurd hBefore (Nat.not_le.2 hAwake)
  | asleep hPending hTold hAsleep =>
      rw [← List.cons_append]
      exact .asleep hPending hTold hAsleep
  | awaited hInFlight hPending hEarly hTold =>
      rw [← List.cons_append]
      exact .awaited hInFlight hPending hEarly hTold
  | decided hInFlight hDecides =>
      rw [← List.cons_append]
      exact .decided hInFlight hDecides

/- So does an overflow, if the deadline could be told. -/
theorem Overflows.cons
    {refreshes : List (Refresh α)}
    (hOverflows : wait.Overflows timer deadline refreshes)
    (hDeadline : deadline ≤ timer.last)
    (first : Refresh α) :
    wait.Overflows timer deadline (first :: refreshes) := by
  cases hOverflows with
  | start hUntold =>
      exact absurd hDeadline (Nat.not_le.2 hUntold)
  | pause hPending hEarly hUntold =>
      rw [← List.cons_append]
      exact .pause hPending hEarly hUntold

/- A clock that can tell the deadline and a pause after it can
   tell all moments. -/
theorem not_overflows
    (hTold : deadline + wait.pause ≤ timer.last)
    (refreshes : List (Refresh α)) :
    ¬wait.Overflows timer deadline refreshes := by
  rintro (hUntold | ⟨-, hEarly, hUntold⟩)
  · exact Nat.not_le.2 hUntold
      (Nat.le_trans (Nat.le_add_right _ _) hTold)
  · refine Nat.not_le.2 hUntold (Nat.le_trans ?_ hTold)
    exact Nat.add_le_add_right (Nat.le_of_lt hEarly) _

/- Where a wait halts, the clock could tell all moments. -/
theorem Halts.not_overflows
    {moment start stop : Moment}
    {refreshes : List (Refresh α)}
    {verdict : Except LifecycleError (Option α)}
    (hHalts :
      wait.Halts timer object operation deadline moment start
        refreshes verdict stop)
    (hDeadline : deadline ≤ timer.last) :
    ¬wait.Overflows timer deadline refreshes := by
  intro hOverflows
  generalize hSeen : refreshes = seen at hOverflows
  cases hOverflows with
  | start hUntold =>
      exact absurd hDeadline (Nat.not_le.2 hUntold)
  | pause hPending hEarly hUntold =>
      cases hHalts with
      | unbegun => simp at hSeen
      | asleep _ hTold =>
          rcases List.append_inj' hSeen rfl with ⟨-, hLast⟩
          cases hLast
          exact absurd hTold (Nat.not_le.2 hUntold)
      | awaited _ _ _ hTold =>
          rcases List.append_inj' hSeen rfl with ⟨-, hLast⟩
          cases hLast
          exact absurd hTold (Nat.not_le.2 hUntold)
      | decided _ hDecides =>
          rcases List.append_inj' hSeen rfl with ⟨-, hLast⟩
          cases hLast
          exact hDecides.not_pending ⟨hPending, hEarly⟩

/- A wait that halts without any observation is cancelled. -/
theorem Halts.cancelled_of_nil
    {moment start stop : Moment}
    {verdict : Except LifecycleError (Option α)}
    (hHalts :
      wait.Halts timer object operation deadline moment start
        [] verdict stop) :
    verdict = .error (.cancelled object operation) := by
  generalize hSeen : ([] : List (Refresh α)) = seen at hHalts
  cases hHalts with
  | unbegun | asleep | awaited => rfl
  | decided => simp at hSeen

section Halting

variable {moment start stop : Moment}
variable {refreshes : List (Refresh α)}
variable {verdict : Except LifecycleError (Option α)}
variable
  (hOn : ∀ later, moment ≤ later → signal.isOn later = true)

include hOn

/- A moment at which a signal is off lies before all those
   from which on it is on. -/
theorem lt_of_isOn_eq_false
    {earlier : Moment}
    (hOff : signal.isOn earlier = false) :
    earlier < moment := by
  refine Nat.lt_of_not_le fun hLater => ?_
  rw [hOn earlier hLater] at hOff
  cases hOff

/- No observation begins once a wait is asked to stop. -/
theorem Course.starts_lt
    (hCourse :
      wait.Course timer object operation signal deadline start
        refreshes verdict stop) :
    ∀ refresh ∈ refreshes, refresh.starts < moment := by
  induction hCourse with
  | stopped => exact List.forall_mem_nil _
  | decided hOff | overdue hOff | untold hOff
  | interrupted hOff =>
      intro refresh hRefresh
      rw [List.mem_singleton.1 hRefresh]
      exact lt_of_isOn_eq_false hOn hOff
  | onward hOff _ _ _ _ _ _ ih =>
      intro refresh hRefresh
      rcases List.mem_cons.1 hRefresh with rfl | hRefresh
      · exact lt_of_isOn_eq_false hOn hOff
      · exact ih refresh hRefresh

/- A wait that sleeps is woken when it is asked to stop, or at
   once if it was asked before. -/
theorem eq_of_firesBy?
    {now wake fires : Moment}
    (hForward : now ≤ wake)
    (hFires : signal.firesBy? now wake = some fires)
    (hGoing : moment ≤ fires) :
    moment ≤ now ∧ fires = now ∨
      (now < moment ∧ moment ≤ wake) ∧ fires = moment := by
  rcases Nat.lt_or_ge now moment with hAsleep | hPast
  · rcases Signal.mem_of_firesBy? hForward hFires with
      ⟨-, -, hWake⟩
    have hInTime : moment ≤ wake := Nat.le_trans hGoing hWake
    refine .inr ⟨⟨hAsleep, hInTime⟩, ?_⟩
    refine Nat.le_antisymm (Nat.le_of_not_lt ?_) hGoing
    intro hLate
    have hOff :=
      Signal.isOn_of_firesBy? (Nat.le_of_lt hAsleep) hInTime
        fun time hTime => by
          rw [hFires] at hTime
          cases hTime
          exact hLate
    rw [hOn moment (Nat.le_refl _)] at hOff
    cases hOff
  · rw [Signal.firesBy?, if_pos (hOn now hPast)] at hFires
    cases hFires
    exact .inl ⟨hPast, rfl⟩

/- How a wait ends that is asked to stop. -/
theorem Course.halts_or_overflows
    (hDeadline : deadline ≤ timer.last)
    (hCourse :
      wait.Course timer object operation signal deadline start
        refreshes verdict stop)
    (hGoing : moment ≤ stop) :
    wait.Halts timer object operation deadline moment start
        refreshes verdict stop ∨
      wait.Overflows timer deadline refreshes ∧
        verdict = .error .panicked := by
  induction hCourse with
  | stopped => exact .inl (.unbegun hGoing)
  | @decided starts ends result verdict hOff hForward
      hVerdict =>
      rw [← List.nil_append [_]]
      exact .inl
        (.decided hGoing (decides_of_verdict? hVerdict))
  | @overdue starts ends result hOff hForward hVerdict
      hLate =>
      have hPending := verdict?_eq_none_iff.1 hVerdict
      rw [← List.nil_append [_]]
      exact .inl (.decided hGoing (.late hPending hLate))
  | @untold starts ends result hOff hForward hVerdict hEarly
      hUntold =>
      have hPending := verdict?_eq_none_iff.1 hVerdict
      rw [← List.nil_append [_]]
      exact .inr ⟨.pause hPending hEarly hUntold, rfl⟩
  | @interrupted starts ends fires result hOff hForward
      hVerdict hEarly hTold hFires =>
      have hPending := verdict?_eq_none_iff.1 hVerdict
      have hWake := wait.le_wake timer hEarly
      rw [← List.nil_append [_]]
      rcases eq_of_firesBy? hOn hWake hFires hGoing with
        ⟨hInFlight, rfl⟩ | ⟨hAsleep, rfl⟩
      · exact .inl (.awaited hInFlight hPending hEarly hTold)
      · exact .inl (.asleep hPending hTold hAsleep)
  | @onward starts ends stop result rest verdict hOff
      hForward hVerdict hEarly hTold hSilent hRest ih =>
      -- it was off all the time that the wait slept
      have hAwake :
          signal.isOn (wait.wake timer deadline ends) =
            false :=
        Signal.isOn_of_firesBy? (wait.le_wake timer hEarly)
          (Nat.le_refl _) fun time hTime => by
            rw [hSilent] at hTime
            cases hTime
      rcases ih hGoing with hHalts | ⟨hOverflows, hPanicked⟩
      · exact .inl
          (hHalts.cons (lt_of_isOn_eq_false hOn hAwake) _)
      · exact .inr ⟨hOverflows.cons hDeadline _, hPanicked⟩

/- A wait that is asked to stop halts exactly if its clock can
   tell all moments, and panics otherwise. -/
theorem Course.halts_iff
    (hDeadline : deadline ≤ timer.last)
    (hCourse :
      wait.Course timer object operation signal deadline start
        refreshes verdict stop)
    (hGoing : moment ≤ stop) :
    (wait.Halts timer object operation deadline moment start
        refreshes verdict stop ↔
      ¬wait.Overflows timer deadline refreshes) ∧
      (wait.Overflows timer deadline refreshes →
        verdict = .error .panicked) := by
  rcases hCourse.halts_or_overflows hOn hDeadline hGoing with
    hHalts | ⟨hOverflows, hPanicked⟩
  · have hNot := hHalts.not_overflows hDeadline
    exact ⟨iff_of_true hHalts hNot,
      fun hOverflows => absurd hOverflows hNot⟩
  · refine ⟨iff_of_false (fun hHalts => ?_)
      (not_not_intro hOverflows), fun _ => hPanicked⟩
    exact hHalts.not_overflows hDeadline hOverflows

end Halting

------------------------------------------------------------
-- Waits that Nobody Asks to Stop
------------------------------------------------------------

/- A wait does what it does when nobody asks it to stop, or
   it is cancelled on the way, because someone did. -/
theorem poll_or_cancelled
    (wait : StateWait)
    (timer : Timer)
    (object : ObjectRef)
    (operation : Operation)
    (signal : Signal)
    (observe : Calls σ LifecycleError (Observation α))
    (deadline : Moment)
    (session : Session σ) :
    let outcome :=
      wait.poll timer object operation signal observe deadline
        session
    let free :=
      wait.poll timer object operation .never observe deadline
        session
    outcome = free ∨
      outcome.1 = .error (.cancelled object operation) ∧
        (∃ time ≤ outcome.2.now,
          (time, true) ∈ Signal.sends signal.events) ∧
        ∃ now,
          free =
            wait.poll timer object operation .never observe
              deadline ⟨now, outcome.2.state⟩ := by
  intro outcome free
  unfold outcome free
  have hNever := Signal.isQuiet_never
  fun_induction
      wait.poll timer object operation signal observe deadline
        session with
  | case1 session cancelled hOn =>
      exact .inr
        ⟨rfl, Signal.mem_of_isOn hOn, session.now, rfl⟩
  | case2 session hOff result after hRun now verdict
      hVerdict =>
      exact .inl
        (poll_decided (hNever.isOn _) hRun hVerdict).symm
  | case3 session hOff result after hRun now hVerdict
      hLate =>
      exact .inl
        (poll_overdue (hNever.isOn _) hRun hVerdict
          hLate).symm
  | case4 session hOff result after hRun now hVerdict hEarly
      hNone =>
      exact .inl
        (poll_untold (hNever.isOn _) hRun hVerdict
          (Nat.lt_of_not_le hEarly)
          (wake?_eq_none_iff.1 hNone)).symm
  | case5 session cancelled hOff result after hRun now
      hVerdict hEarly wake hWake moment hFires =>
      have hBefore : now < deadline := Nat.lt_of_not_le hEarly
      rcases wake?_eq_some_iff.1 hWake with ⟨hTold, rfl⟩
      rcases Signal.mem_of_firesBy?
          (wait.le_wake timer hBefore) hFires with
        ⟨hSent, -⟩
      exact .inr
        ⟨rfl, hSent, wait.wake timer deadline now,
          poll_onward (hNever.isOn _) hRun hVerdict hBefore
            hTold (hNever.firesBy? _ _)⟩
  | case6 session hOff result after hRun now hVerdict hEarly
      wake hWake hSilent ih =>
      have hBefore : now < deadline := Nat.lt_of_not_le hEarly
      rcases wake?_eq_some_iff.1 hWake with ⟨hTold, rfl⟩
      have hFree :=
        poll_onward (hNever.isOn _) hRun hVerdict hBefore
          hTold (hNever.firesBy? _ _)
      rw [hFree]
      exact ih

/- The same for a wait from the present moment on, and what
   it observes up to then. -/
theorem run_or_cancelled
    (wait : StateWait)
    (timer : Timer)
    (object : ObjectRef)
    (operation : Operation)
    (signal : Signal)
    (observe : Calls σ LifecycleError (Observation α))
    (start : Session (σ × List (Refresh α))) :
    let watched :=
      (wait.run timer object operation signal
          (logged observe)).run start
    let free :=
      (wait.run timer object operation .never
          (logged observe)).run start
    watched = free ∨
      watched.1 = .error (.cancelled object operation) ∧
        watched.2.state.2 <+: free.2.state.2 ∧
        ∃ time ≤ watched.2.now,
          (time, true) ∈ Signal.sends signal.events := by
  intro watched free
  cases hDeadline :
      timer.later? start.now wait.timeout.nanoseconds with
  | none =>
      refine .inl ?_
      unfold watched free
      rw [run_of_untold _ _ _ _ hDeadline,
        run_of_untold _ _ _ _ hDeadline]
  | some deadline =>
      have hWatched : watched = _ :=
        run_of_deadline object operation signal _ hDeadline
      have hFree : free = _ :=
        run_of_deadline object operation .never _ hDeadline
      rw [hWatched, hFree]
      refine (wait.poll_or_cancelled timer object operation
        signal (logged observe) deadline start).imp_right ?_
      rintro ⟨hCancelled, hSent, now, hRest⟩
      refine ⟨hCancelled, ?_, hSent⟩
      rw [← hWatched] at hRest ⊢
      rcases wait.course_poll timer object operation .never
          observe deadline ⟨now, watched.2.state.1⟩
          watched.2.state.2 with
        ⟨others, hLater, -⟩
      refine ⟨others, ?_⟩
      have hLog := congrArg (fun after => after.2.state.2)
        (hRest.trans hLater)
      exact hLog.symm

------------------------------------------------------------
-- How a Wait Ends that Is Asked to Stop
------------------------------------------------------------

/-
  A wait that is asked to stop begins no other observation.
  It ends as soon as the one that it makes is over, or at once
  if it makes none, exactly if its clock can tell all that it
  asks for; otherwise it panics. A signal that is never on
  leaves a wait as it is, and any other one can only cancel
  it, after the first few of its observations.
-/
theorem run_halts_iff
    (wait : StateWait)
    (timer : Timer)
    (object : ObjectRef)
    (operation : Operation)
    (signal : Signal)
    (observe : Calls σ LifecycleError (Observation α))
    (session : Session σ) :
    let deadline := session.now + wait.timeout.nanoseconds
    let start : Session (σ × List (Refresh α)) :=
      ⟨session.now, (session.state, [])⟩
    let watched :=
      (wait.run timer object operation signal
          (logged observe)).run start
    let free :=
      (wait.run timer object operation .never
          (logged observe)).run start
    let refreshes := watched.2.state.2
    (wait.run timer object operation signal observe).run
          session =
        (watched.1, ⟨watched.2.now, watched.2.state.1⟩) ∧
      (signal.IsQuiet → watched = free) ∧
      (watched = free ∨
        watched.1 = .error (.cancelled object operation) ∧
          refreshes <+: free.2.state.2 ∧
          ∃ time ≤ watched.2.now,
            (time, true) ∈ Signal.sends signal.events) ∧
      ∀ moment,
        (∀ later, moment ≤ later →
          signal.isOn later = true) →
        (∀ refresh ∈ refreshes, refresh.starts < moment) ∧
          (moment ≤ watched.2.now →
            (wait.Halts timer object operation deadline moment
                session.now refreshes watched.1
                watched.2.now ↔
              ¬wait.Overflows timer deadline refreshes) ∧
              (wait.Overflows timer deadline refreshes →
                watched.1 = .error .panicked)) := by
  intro deadline start watched free refreshes
  have hEither : watched = free ∨ _ :=
    wait.run_or_cancelled timer object operation signal
      observe start
  have hQuietly : signal.IsQuiet → watched = free := by
    intro hQuiet
    rcases hEither with hSame | ⟨-, -, time, -, hSent⟩
    · exact hSame
    · cases hQuiet (time, true) hSent
  rcases Nat.lt_or_ge timer.last deadline with
    hUntold | hTold
  · -- nothing is observed, and nothing can be waited for
    have hLater := timer.later?_of_lt hUntold
    have hWatched : watched = (.error .panicked, start) :=
      run_of_untold object operation signal _ hLater
    have hOutcome :
        (wait.run timer object operation signal observe).run
            session =
          (.error .panicked, session) :=
      run_of_untold object operation signal observe hLater
    have hRefreshes : refreshes = [] := by
      unfold refreshes
      rw [hWatched]
    have hOverflows :
        wait.Overflows timer deadline refreshes := by
      rw [hRefreshes]
      exact .start hUntold
    refine ⟨?_, hQuietly, hEither, ?_⟩
    · rw [hOutcome, hWatched]
    · intro moment hOn
      rw [hRefreshes]
      have hPanicked : watched.1 = .error .panicked := by
        rw [hWatched]
      refine ⟨List.forall_mem_nil _, fun hGoing => ⟨?_, ?_⟩⟩
      · refine iff_of_false ?_ (not_not_intro (.start hUntold))
        intro hHalts
        have hCancelled := hHalts.cancelled_of_nil
        rw [hPanicked] at hCancelled
        cases hCancelled
      · exact fun _ => hPanicked
  · have hLater := timer.later?_of_le hTold
    rcases wait.course_poll timer object operation signal
        observe deadline session [] with
      ⟨seen, hPoll, hCourse⟩
    have hOutcome := run_of_deadline object operation signal
      observe hLater
    have hWatched : watched = _ :=
      (run_of_deadline object operation signal
        (logged observe) hLater).trans hPoll
    have hSeen : refreshes = seen := by
      unfold refreshes
      rw [hWatched]
      rfl
    refine ⟨?_, hQuietly, hEither, ?_⟩
    · rw [hOutcome, hWatched]
    · intro moment hOn
      rw [hSeen, hWatched]
      exact ⟨hCourse.starts_lt hOn,
        hCourse.halts_iff hOn hTold⟩

------------------------------------------------------------
-- A Wait that Is Woken, and One without an End
------------------------------------------------------------

/- A signal that is sent to be off at 0.5 s, to be on at
   1.2 s, and then no more. -/
def wakingSignal : Signal where
  events :=
    [(500000000, .sent false), (1200000000, .sent true),
      (1500000000, .closed)]
  inOrder := by decide

/- A signal that is on from the start. -/
def promptSignal : Signal where
  events := [(0, .sent true)]
  inOrder := by decide

/- A wait of 300000000000 years. -/
def endlessWait : StateWait :=
  { halfSeconds with
    timeout := ⟨9467280000000000000000000000, by decide⟩ }

/- The first wait is woken in its second sleep. The second one
   is never cancelled, though it was asked to stop before. -/
theorem run_halts_iff_asleep :
    let object : ObjectRef := ⟨.task, "ci", "build"⟩
    let watched :=
      (halfSeconds.run .standard object .create wakingSignal
          (logged thirdSucceeds)).run
        ⟨0, (0, [])⟩
    let panicked :=
      (endlessWait.run .standard object .create promptSignal
          (logged thirdSucceeds)).run
        ⟨0, (0, [])⟩
    ((∀ later : Moment,
          1200000000 ≤ later →
            wakingSignal.isOn later = true) ∧
        watched.2.now = 1200000000 ∧
        halfSeconds.Halts .standard object .create 2000000000
          1200000000 0 watched.2.state.2 watched.1
          watched.2.now ∧
        watched.2.state.2.map Refresh.ends =
          [300000000, 1100000000]) ∧
      (∀ later : Moment,
          0 ≤ later → promptSignal.isOn later = true) ∧
        panicked.1 = .error .panicked ∧
        ¬endlessWait.Halts .standard object .create
          9467280000000000000000000000 0 0 panicked.2.state.2
          panicked.1 panicked.2.now := by
  intro object watched panicked
  have hOn :
      ∀ later : Moment,
        1200000000 ≤ later →
          wakingSignal.isOn later = true := by
    intro later hLater
    have hEarlier : 500000000 ≤ later :=
      Nat.le_trans (by decide) hLater
    simp only [Signal.isOn, wakingSignal, Signal.sends,
      Signal.valueFrom, hLater, hEarlier, if_true]
  have hPrompt :
      ∀ later : Moment,
        0 ≤ later → promptSignal.isOn later = true := by
    intro later hLater
    simp only [Signal.isOn, promptSignal, Signal.sends,
      Signal.valueFrom, hLater, if_true]
  have hRun :
      (watched.2.now,
          watched.2.state.2.map Refresh.ends) =
        (1200000000, [300000000, 1100000000]) := by
    decide +kernel
  rcases Prod.mk.inj hRun with ⟨hNow, hEnds⟩
  rcases halfSeconds.run_halts_iff .standard object .create
      wakingSignal thirdSucceeds ⟨0, 0⟩ with
    ⟨-, -, -, hWaking⟩
  have hGoing : 1200000000 ≤ watched.2.now :=
    Nat.le_of_eq hNow.symm
  have hTold :
      ¬halfSeconds.Overflows .standard 2000000000
        watched.2.state.2 :=
    not_overflows (by decide) _
  have hSeen : panicked.2.state.2 = [] := by
    rfl
  have hOverflows :
      endlessWait.Overflows .standard
        9467280000000000000000000000
        panicked.2.state.2 := by
    rw [hSeen]
    exact .start (by decide)
  rcases endlessWait.run_halts_iff .standard object .create
      promptSignal thirdSucceeds ⟨0, 0⟩ with
    ⟨-, -, -, hEndless⟩
  have hEnd :=
    (hEndless 0 hPrompt).2 (Nat.zero_le panicked.2.now)
  refine ⟨⟨hOn, hNow, ?_, hEnds⟩, hPrompt,
    hEnd.2 hOverflows, ?_⟩
  · exact ((hWaking 1200000000 hOn).2 hGoing).1.2 hTold
  · exact fun hHalts => hEnd.1.1 hHalts hOverflows

end StateWait

end Converge
