import Converge.Lifecycle.Wait

/-
  What waiting does to the state that is observed.

  A wait is nothing but observations: whatever each of them
  leaves true of the state, all of them together do, and the
  value that a wait ends with is what the last of them found.

  Main declarations:
    * `StateWait.run_of_deadline`, `StateWait.run_of_untold`:
      a wait is a poll up to a deadline, if there is one
    * `StateWait.poll_outcome`, `StateWait.run_outcome`
    * `StateWait.poll_of_ok`, `StateWait.run_of_ok`: after a
      wait that succeeded
-/

namespace Converge

namespace Timer

theorem later?_of_le
    (timer : Timer)
    {now : Moment}
    {span : Nat}
    (hTold : now + span ≤ timer.last) :
    timer.later? now span = some (now + span) :=
  if_pos hTold

theorem later?_of_lt
    (timer : Timer)
    {now : Moment}
    {span : Nat}
    (hUntold : timer.last < now + span) :
    timer.later? now span = none :=
  if_neg (Nat.not_le.2 hUntold)

end Timer

namespace StateWait

variable {σ α : Type}

/- A wait polls up to its deadline. -/
theorem run_of_deadline
    {wait : StateWait}
    {timer : Timer}
    (object : ObjectRef)
    (operation : Operation)
    (signal : Signal)
    (observe : Calls σ LifecycleError (Observation α))
    {session : Session σ}
    {deadline : Moment}
    (hDeadline :
      timer.later? session.now wait.timeout.nanoseconds =
        some deadline) :
    (wait.run timer object operation signal observe).run
        session =
      wait.poll timer object operation signal observe deadline
        session := by
  simp only [run, ExceptT.run_mk]
  rw [hDeadline]

/- Without a deadline that can be told, it does nothing. -/
theorem run_of_untold
    {wait : StateWait}
    {timer : Timer}
    (object : ObjectRef)
    (operation : Operation)
    (signal : Signal)
    (observe : Calls σ LifecycleError (Observation α))
    {session : Session σ}
    (hUntold :
      timer.later? session.now wait.timeout.nanoseconds =
        none) :
    (wait.run timer object operation signal observe).run
        session =
      (.error .panicked, session) := by
  simp only [run, ExceptT.run_mk]
  rw [hUntold]

/- The value of a verdict is that of the observation. -/
theorem value_of_verdict?
    {wait : StateWait}
    {object : ObjectRef}
    {operation : Operation}
    {result : Except LifecycleError (Observation α)}
    {value : α}
    (h :
      wait.verdict? object operation result =
        some (.ok (some value))) :
    ∃ observation,
      result = .ok observation ∧
        observation.value = some value := by
  cases result with
  | error fault => cases h
  | ok observation =>
      simp only [verdict?] at h
      split at h
      · refine ⟨observation, rfl, ?_⟩
        exact Except.ok.inj (Option.some.inj h)
      · split at h <;> cases h

/- What a wait leaves true of a state, when each observation
   does. -/
theorem poll_outcome
    (wait : StateWait)
    (timer : Timer)
    (object : ObjectRef)
    (operation : Operation)
    (signal : Signal)
    {observe : Calls σ LifecycleError (Observation α)}
    {leads : σ → σ → Prop}
    {found : α → σ → Prop}
    (hRefl : ∀ state, leads state state)
    (hTrans :
      ∀ {first second third},
        leads first second → leads second third →
          leads first third)
    (hObserve :
      ∀ session,
        leads session.state (observe.run session).2.state ∧
          ∀ observation value,
            (observe.run session).1 = .ok observation →
              observation.value = some value →
                found value (observe.run session).2.state)
    (deadline : Moment)
    (session : Session σ) :
    let outcome :=
      wait.poll timer object operation signal observe deadline
        session
    leads session.state outcome.2.state ∧
      ∀ value, outcome.1 = .ok (some value) →
        found value outcome.2.state := by
  intro outcome
  unfold outcome
  fun_induction
      wait.poll timer object operation signal observe deadline
        session with
  | case1 session cancelled hOn =>
      exact ⟨hRefl _, nofun⟩
  | case2 session hOff result after hRun now verdict
      hVerdict =>
      have hSeen := hObserve session
      rw [hRun] at hSeen
      refine ⟨hSeen.1, ?_⟩
      rintro value rfl
      rcases value_of_verdict? hVerdict with
        ⟨observation, rfl, hValue⟩
      exact hSeen.2 observation value rfl hValue
  | case3 session hOff result after hRun now hVerdict hLate =>
      have hSeen := hObserve session
      rw [hRun] at hSeen
      exact ⟨hSeen.1, nofun⟩
  | case4 session hOff result after hRun now hVerdict hEarly
      hUntold =>
      have hSeen := hObserve session
      rw [hRun] at hSeen
      exact ⟨hSeen.1, nofun⟩
  | case5 session cancelled hOff result after hRun now
      hVerdict hEarly wake hWake moment hFires =>
      have hSeen := hObserve session
      rw [hRun] at hSeen
      exact ⟨hSeen.1, nofun⟩
  | case6 session hOff result after hRun now hVerdict hEarly
      wake hWake hSilent ih =>
      have hSeen := hObserve session
      rw [hRun] at hSeen
      exact ⟨hTrans hSeen.1 ih.1, ih.2⟩

/- The same for a wait from the present moment on. -/
theorem run_outcome
    (wait : StateWait)
    (timer : Timer)
    (object : ObjectRef)
    (operation : Operation)
    (signal : Signal)
    {observe : Calls σ LifecycleError (Observation α)}
    {leads : σ → σ → Prop}
    {found : α → σ → Prop}
    (hRefl : ∀ state, leads state state)
    (hTrans :
      ∀ {first second third},
        leads first second → leads second third →
          leads first third)
    (hObserve :
      ∀ session,
        leads session.state (observe.run session).2.state ∧
          ∀ observation value,
            (observe.run session).1 = .ok observation →
              observation.value = some value →
                found value (observe.run session).2.state)
    (session : Session σ) :
    let outcome :=
      (wait.run timer object operation signal observe).run
        session
    leads session.state outcome.2.state ∧
      ∀ value, outcome.1 = .ok (some value) →
        found value outcome.2.state := by
  intro outcome
  unfold outcome
  cases hDeadline :
      timer.later? session.now wait.timeout.nanoseconds with
  | none =>
      rw [run_of_untold _ _ _ _ hDeadline]
      exact ⟨hRefl _, nofun⟩
  | some deadline =>
      rw [run_of_deadline _ _ _ _ hDeadline]
      exact poll_outcome wait timer object operation signal
        hRefl hTrans hObserve deadline session

/- What holds after a wait that succeeded, when observations
   that decide nothing keep up what it started from. -/
theorem poll_of_ok
    (wait : StateWait)
    (timer : Timer)
    (object : ObjectRef)
    (operation : Operation)
    (signal : Signal)
    {observe : Calls σ LifecycleError (Observation α)}
    (holds ends : σ → Prop)
    (hObserve :
      ∀ session, holds session.state →
        let seen := observe.run session
        (wait.verdict? object operation seen.1 = none →
            holds seen.2.state) ∧
          ∀ value,
            wait.verdict? object operation seen.1 =
                some (.ok value) →
              ends seen.2.state)
    (deadline : Moment)
    (session : Session σ)
    (hHolds : holds session.state) :
    let outcome :=
      wait.poll timer object operation signal observe deadline
        session
    ∀ value, outcome.1 = .ok value →
      ends outcome.2.state := by
  intro outcome
  unfold outcome
  fun_induction
      wait.poll timer object operation signal observe deadline
        session with
  | case1 | case3 | case4 | case5 => exact nofun
  | case2 session hOff result after hRun now verdict
      hVerdict =>
      have hSeen := hObserve session hHolds
      rw [hRun] at hSeen
      rintro value rfl
      exact hSeen.2 value hVerdict
  | case6 session hOff result after hRun now hVerdict hEarly
      wake hWake hSilent ih =>
      have hSeen := hObserve session hHolds
      rw [hRun] at hSeen
      exact ih (hSeen.1 hVerdict)

/- The same for a wait from the present moment on. -/
theorem run_of_ok
    (wait : StateWait)
    (timer : Timer)
    (object : ObjectRef)
    (operation : Operation)
    (signal : Signal)
    {observe : Calls σ LifecycleError (Observation α)}
    (holds ends : σ → Prop)
    (hObserve :
      ∀ session, holds session.state →
        let seen := observe.run session
        (wait.verdict? object operation seen.1 = none →
            holds seen.2.state) ∧
          ∀ value,
            wait.verdict? object operation seen.1 =
                some (.ok value) →
              ends seen.2.state)
    (session : Session σ)
    (hHolds : holds session.state) :
    let outcome :=
      (wait.run timer object operation signal observe).run
        session
    ∀ value, outcome.1 = .ok value →
      ends outcome.2.state := by
  intro outcome
  unfold outcome
  cases hDeadline :
      timer.later? session.now wait.timeout.nanoseconds with
  | none =>
      rw [run_of_untold _ _ _ _ hDeadline]
      exact nofun
  | some deadline =>
      rw [run_of_deadline _ _ _ _ hDeadline]
      exact poll_of_ok wait timer object operation signal
        holds ends hObserve deadline session hHolds

end StateWait

end Converge
