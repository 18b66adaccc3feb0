/-
  Sequences of calls to something that has a state.

  A call takes place at a moment, may take time, may fail,
  and leaves a changed state behind.

  Key definitions:
    * `Session`: the present moment and the state
    * `Calls`: a sequence of calls
-/

namespace Converge

/- A moment on a clock that never goes back, in
   nanoseconds. -/
abbrev Moment := Nat

/- The present moment and the state of what is called. -/
structure Session (σ : Type) where
  now : Moment
  state : σ

/- Calls that end in a result or in a fault. -/
abbrev Calls (σ ε : Type) := ExceptT ε (StateM (Session σ))

namespace Calls

variable {σ ε α : Type}

/- The present moment. -/
def now : Calls σ ε Moment := do
  return (← get).now

/- Moves on to a moment, unless it has passed. -/
def waitUntil (moment : Moment) : Calls σ ε Unit :=
  modify fun session =>
    { session with now := max session.now moment }

/- A change of the state that takes no time. -/
def ofState
    (step : σ → Except ε α × σ) :
    Calls σ ε α :=
  ExceptT.mk fun session =>
    let (result, state) := step session.state
    (result, { session with state := state })

/- Calls whose faults are those of a larger whole. -/
def mapError
    {δ : Type}
    (convert : ε → δ)
    (calls : Calls σ ε α) :
    Calls σ δ α :=
  ExceptT.mk fun session =>
    let (result, session) := calls.run session
    (result.mapError convert, session)

/- Calls whose fault is a result like any other. -/
def attempt
    {δ : Type}
    (calls : Calls σ ε α) :
    Calls σ δ (Except ε α) :=
  ExceptT.mk fun session =>
    let (result, session) := calls.run session
    (.ok result, session)

end Calls

end Converge
