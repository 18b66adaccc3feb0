import Converge.Calls

/-
  Signals that ask an operation to stop.

  A signal is off at first. Its sender may switch it on and
  off any number of times, and may go away; a signal that
  lost its sender keeps its last value.

  Key definitions:
    * `Signal`: what is sent, in the order of time
    * `Signal.isOn`: the value at a moment
    * `Signal.firesBy?`: when it is next seen to be on
-/

namespace Converge

/- What the sender of a signal does. -/
inductive SignalEvent where
  | sent (value : Bool)
  | closed
deriving DecidableEq

/- All that happens to a signal, in the order of time. -/
structure Signal where
  events : List (Moment × SignalEvent)
  inOrder :
    events.Pairwise fun earlier later => earlier.1 ≤ later.1

namespace Signal

/- A signal that nobody sends. -/
def never : Signal :=
  ⟨[], .nil⟩

/- One event is not later than another. -/
def notLater
    (earlier later : Moment × SignalEvent) :
    Bool :=
  earlier.1 ≤ later.1

theorem pairwise_mergeSort_notLater
    (events : List (Moment × SignalEvent)) :
    (events.mergeSort notLater).Pairwise
      fun earlier later => earlier.1 ≤ later.1 := by
  have hTrans :
      ∀ a b c : Moment × SignalEvent,
        notLater a b → notLater b c → notLater a c := by
    intro a b c hab hbc
    simp only [notLater, decide_eq_true_eq] at *
    exact Nat.le_trans hab hbc
  have hTotal :
      ∀ a b : Moment × SignalEvent,
        (notLater a b || notLater b a) = true := by
    intro a b
    simp only [notLater, Bool.or_eq_true, decide_eq_true_eq]
    exact Nat.le_total a.1 b.1
  have h := List.pairwise_mergeSort hTrans hTotal events
  simpa [notLater] using h

/- The signal of events in any order. -/
def ofEvents (events : List (Moment × SignalEvent)) : Signal :=
  ⟨events.mergeSort notLater,
    pairwise_mergeSort_notLater events⟩

/- The values that are sent, up to where the sender goes. -/
def sends :
    List (Moment × SignalEvent) → List (Moment × Bool)
  | [] => []
  | (_, .closed) :: _ => []
  | (moment, .sent value) :: rest =>
      (moment, value) :: sends rest

/- The last value sent up to a moment, after an earlier
   one. -/
def valueFrom
    (value : Bool)
    (moment : Moment) :
    List (Moment × Bool) → Bool
  | [] => value
  | (time, next) :: rest =>
      if time ≤ moment then valueFrom next moment rest
      else value

/- The value at a moment. -/
def isOn
    (signal : Signal)
    (moment : Moment) :
    Bool :=
  valueFrom false moment (sends signal.events)

/- The first moment, after one and up to another, at which
   the signal is switched on. -/
def switchedOn?
    (after : Moment)
    (upTo : Moment) :
    List (Moment × Bool) → Option Moment
  | [] => none
  | (time, value) :: rest =>
      if value && after < time && time ≤ upTo then some time
      else switchedOn? after upTo rest

/- When someone who watches from one moment to another sees
   the signal on. -/
def firesBy?
    (signal : Signal)
    (start : Moment)
    (upTo : Moment) :
    Option Moment :=
  if signal.isOn start then some start
  else switchedOn? start upTo (sends signal.events)

end Signal

end Converge
