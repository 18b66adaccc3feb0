import Converge.Lifecycle.Error
import Converge.Lifecycle.Signal
import Converge.Lifecycle.Timer

/-
  Waiting for an object to reach a phase.

  An object is observed at intervals. Waiting ends with the
  first observation that is decisive: the phase is a target,
  the object is gone and nothing else was waited for, the
  phase is neither a target nor pending, or the observation
  itself failed. It also ends after a deadline, and when a
  signal asks for it.

  The clock has to tell the deadline, and a pause before the
  wait falls asleep the moment after it, also where the
  deadline comes first. Where it cannot, nothing is returned.

  Key definitions:
    * `Observation`: a phase, and the object if it was there
    * `StateWait`: what to wait for, and how long
    * `StateWait.verdict?`: what an observation decides
    * `StateWait.wake?`: when the next observation begins
    * `StateWait.run`: observing until something decides
-/

namespace Converge

/- The phase that was observed, and the object unless it
   could not be read. -/
structure Observation (α : Type) where
  phase : Phase
  value : Option α
deriving DecidableEq

namespace Observation

variable {α : Type}

/- The object was there. -/
def found
    (phase : Phase)
    (value : α) :
    Observation α :=
  ⟨phase, some value⟩

/- The object could not be read. -/
def absent (phase : Phase) : Observation α :=
  ⟨phase, none⟩

end Observation

/- What to wait for. Without targets, it is the absence of
   the object. -/
structure StateWait where
  pending : List Phase
  targets : List Phase
  timeout : Duration
  interval : Duration
deriving DecidableEq

namespace StateWait

variable {σ α : Type}

/- What is waited for, in words. -/
def targetText (wait : StateWait) : String :=
  if wait.targets.isEmpty then "removal"
  else "|".intercalate (wait.targets.map Phase.text)

/- What the result of an observation decides, if it decides
   anything. -/
def verdict?
    (wait : StateWait)
    (object : ObjectRef)
    (operation : Operation) :
    Except LifecycleError (Observation α) →
      Option (Except LifecycleError (Option α))
  | .error fault => some (.error fault)
  | .ok observation =>
      if wait.targets.contains observation.phase ||
          (wait.targets.isEmpty &&
            observation.value.isNone) then
        some (.ok observation.value)
      else if wait.pending.contains observation.phase then
        none
      else
        some
          (.error
            (.unexpected object operation observation.phase))

/- The time between two observations; it is never zero. -/
def pause (wait : StateWait) : Nat :=
  max 1 wait.interval.nanoseconds

theorem pause_pos (wait : StateWait) : 0 < wait.pause :=
  Nat.le_max_left 1 _

/- When a wait that falls asleep is woken: after a pause, or
   for the deadline. -/
def wake?
    (wait : StateWait)
    (timer : Timer)
    (deadline : Moment)
    (now : Moment) :
    Option Moment :=
  (timer.later? now wait.pause).map fun later =>
    timer.wake now (min later deadline)

/- Nobody is woken before a pause is over, unless for the
   deadline. -/
theorem le_of_wake?
    {wait : StateWait}
    {timer : Timer}
    {deadline now wake : Moment}
    (hWake : wait.wake? timer deadline now = some wake) :
    min (now + wait.pause) deadline ≤ wake := by
  unfold wake? Timer.later? at hWake
  split at hWake
  · cases hWake
    exact timer.notEarly now _
  · cases hWake

/- Less time is left after a sleep than before an
   observation. -/
theorem left_after_sleep_lt
    {wait : StateWait}
    {timer : Timer}
    {deadline before now wake : Moment}
    (hBefore : before ≤ now)
    (hDeadline : now < deadline)
    (hWake : wait.wake? timer deadline now = some wake) :
    deadline - wake < deadline - before := by
  have hLater := le_of_wake? hWake
  have hPause := wait.pause_pos
  unfold Moment at *
  omega

/-
  Observes until something decides or the deadline has
  passed. The clock never goes back, whatever an observation
  makes of it.
-/
def poll
    (wait : StateWait)
    (timer : Timer)
    (object : ObjectRef)
    (operation : Operation)
    (signal : Signal)
    (observe :
      Calls σ LifecycleError (Observation α))
    (deadline : Moment)
    (session : Session σ) :
    Except LifecycleError (Option α) × Session σ :=
  let cancelled : LifecycleError := .cancelled object operation
  if signal.isOn session.now then (.error cancelled, session)
  else
    let (result, after) := observe.run session
    let now := max session.now after.now
    match wait.verdict? object operation result with
    | some verdict => (verdict, ⟨now, after.state⟩)
    | none =>
        if deadline ≤ now then
          (.error
            (.timeout object operation wait.targetText
              wait.timeout),
            ⟨now, after.state⟩)
        else
          match _hWake : wait.wake? timer deadline now with
          | none => (.error .panicked, ⟨now, after.state⟩)
          | some wake =>
              match signal.firesBy? now wake with
              | some moment =>
                  (.error cancelled, ⟨moment, after.state⟩)
              | none =>
                  wait.poll timer object operation signal
                    observe deadline ⟨wake, after.state⟩
termination_by deadline - session.now
decreasing_by
  have hDeadline : ¬deadline ≤ now := by assumption
  exact left_after_sleep_lt (Nat.le_max_left _ _)
    (Nat.lt_of_not_le hDeadline) (by assumption)

/- Waits, from the present moment on. -/
def run
    (wait : StateWait)
    (timer : Timer)
    (object : ObjectRef)
    (operation : Operation)
    (signal : Signal)
    (observe :
      Calls σ LifecycleError (Observation α)) :
    Calls σ LifecycleError (Option α) :=
  ExceptT.mk fun session =>
    match timer.later? session.now
        wait.timeout.nanoseconds with
    | none => (.error .panicked, session)
    | some deadline =>
        wait.poll timer object operation signal observe
          deadline session

end StateWait

end Converge
