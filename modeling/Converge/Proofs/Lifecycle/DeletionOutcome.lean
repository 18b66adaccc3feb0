import Converge.Proofs.Lifecycle.Operation
import Converge.Proofs.Lifecycle.Schedule

/-
  What a deletion ends with, over any store.

  Once the store has accepted the request, the object is read
  at intervals, up to the deadline. The first read that fails
  ends the deletion: because the object is gone, or because of
  what went wrong. As long as the object is read, it is not
  gone. Where the clock cannot tell the deadline, nothing is
  read.

  Key definitions:
    * `Engine.Awaited`: a deletion, and the reads after it

  Main declarations:
    * `Engine.run_delete_of_refused`,
      `Engine.Awaited.run_of_untold`: without any read
    * `Engine.Awaited.run_of_gone`,
      `Engine.Awaited.run_of_fault`: the first read that fails
    * `Engine.Awaited.run_of_present`: no read fails
-/

namespace Converge

namespace Engine

variable {σ : Type} {kind : Kind}

/- A request for deletion that is refused ends the deletion,
   and so does one for an object that is not there. -/
theorem run_delete_of_refused
    (engine : Engine σ)
    {tracked : Tracked}
    {session later : Session σ}
    {id : ObjectId}
    {fault : StoreError}
    (hId : tracked.objectId = .ok id)
    (hRun :
      (Client.delete engine.store kind id.namespaceName
          id.name).run session =
        (.error fault, later)) :
    (engine.delete kind).run tracked session =
      if fault.isNotFound then
        ((.ok (), tracked.clear), later)
      else
        ((.error (.store (.ofId kind id) .delete fault),
            tracked),
          later) := by
  simp only [delete_eq, hId, hRun]

/- A deletion was accepted, nobody asks to stop, and every
   read that follows is answered at once. -/
structure Awaited
    (engine : Engine σ)
    (tracked : Tracked)
    (session : Session σ)
    (id : ObjectId)
    (marked : Session σ)
    (states : Nat → σ)
    (replies : Nat → Except StoreError (Object kind)) :
    Prop where
  identity : tracked.objectId = .ok id
  accepted :
    (Client.delete engine.store kind id.namespaceName
        id.name).run session =
      (.ok (), marked)
  quiet : engine.signal.IsQuiet
  first : states 0 = marked.state
  reply :
    ∀ n,
      let moment :=
        (engine.deletionWait tracked.timeouts).moment
          engine.timer marked.now n
      (Client.get engine.store kind id.namespaceName
          id.name).run ⟨moment, states n⟩ =
        (replies n, ⟨moment, states (n + 1)⟩)

namespace Awaited

variable {engine : Engine σ}
variable {tracked : Tracked}
variable {session marked : Session σ}
variable {id : ObjectId}
variable {states : Nat → σ}
variable {replies : Nat → Except StoreError (Object kind)}

/- The observations of a deletion are the reads that are
   answered in turn. -/
theorem series
    (hAwaited :
      engine.Awaited tracked session id marked states
        replies) :
    let wait := engine.deletionWait tracked.timeouts
    let moment := wait.moment engine.timer marked.now
    wait.Series engine.timer (engine.observeDeletion kind id)
      (marked.now + wait.timeout.nanoseconds)
      (fun n => ⟨moment n, states n⟩)
      (fun n => ⟨moment n, states (n + 1)⟩)
      fun n => deletionSeen kind id (replies n) := by
  intro wait moment
  refine ⟨fun n => ?_, fun n => Nat.le_refl _, fun n => rfl⟩
  rw [run_observeDeletion, hAwaited.reply n]

/- A deletion whose deadline the clock cannot tell reads
   nothing. -/
theorem run_of_untold
    (hAwaited :
      engine.Awaited tracked session id marked states
        replies)
    (hUntold :
      engine.timer.last <
        marked.now + tracked.timeouts.delete.nanoseconds) :
    (engine.delete kind).run tracked session =
      ((.error .panicked, tracked), marked) := by
  have hWait :
      ((engine.deletionWait tracked.timeouts).run
            engine.timer (.ofId kind id) .delete engine.signal
            (engine.observeDeletion kind id)).run marked =
        (.error .panicked, marked) :=
    StateWait.run_of_untold _ _ _ _
      (engine.timer.later?_of_lt hUntold)
  simp only [delete_eq, hAwaited.identity, hAwaited.accepted,
    hWait]

section Told

variable
  (hAwaited :
    engine.Awaited tracked session id marked states replies)
variable
  (hTold :
    marked.now + tracked.timeouts.delete.nanoseconds ≤
      engine.timer.last)

include hAwaited hTold

/- A deletion ends with its wait. -/
theorem run_of_poll
    {result : Except LifecycleError (Option (Object kind))}
    {later : Session σ}
    (hPoll :
      (engine.deletionWait tracked.timeouts).poll
          engine.timer (.ofId kind id) .delete engine.signal
          (engine.observeDeletion kind id)
          (marked.now + tracked.timeouts.delete.nanoseconds)
          ⟨marked.now, states 0⟩ =
        (result, later)) :
    (engine.delete kind).run tracked session =
      ((result.map fun _ => (),
          (result.toOption.map fun _ =>
            tracked.clear).getD tracked),
        later) := by
  have hWait :
      ((engine.deletionWait tracked.timeouts).run
            engine.timer (.ofId kind id) .delete engine.signal
            (engine.observeDeletion kind id)).run marked =
        (result, later) := by
    rw [StateWait.run_of_deadline _ _ _ _
      (engine.timer.later?_of_le hTold)]
    rw [hAwaited.first] at hPoll
    exact hPoll
  simp only [delete_eq, hAwaited.identity, hAwaited.accepted,
    hWait]
  cases result <;> rfl

section First

variable {first : Nat}
variable {fault : StoreError}
variable
  (hFirst :
    first ≤
      (engine.deletionWait tracked.timeouts).sleeps
        engine.timer marked.now)
variable
  (hThere :
    ∀ n, n < first → ∃ object, replies n = .ok object)
variable (hFault : replies first = .error fault)

include hFirst hThere hFault

/- The first read that fails decides how a deletion ends. -/
theorem run_of_first
    {result : Except LifecycleError (Option (Object kind))}
    (hVerdict :
      (engine.deletionWait tracked.timeouts).verdict?
          (.ofId kind id) .delete
          (deletionSeen kind id (.error fault)) =
        some result) :
    (engine.delete kind).run tracked session =
      ((result.map fun _ => (),
          (result.toOption.map fun _ =>
            tracked.clear).getD tracked),
        ⟨(engine.deletionWait tracked.timeouts).moment
            engine.timer marked.now first,
          states (first + 1)⟩) := by
  refine hAwaited.run_of_poll hTold
    (hAwaited.series.poll_of_first hAwaited.quiet
      (fun n => rfl) hFirst (fun n hn => ?_) ?_)
  · rcases hThere n hn with ⟨object, hReply⟩
    rw [hReply]
    rfl
  · rw [hFault]
    exact hVerdict

/- The object is gone as soon as it is not found. -/
theorem run_of_gone
    (hAbsent : fault.isNotFound = true) :
    (engine.delete kind).run tracked session =
      ((.ok (), tracked.clear),
        ⟨(engine.deletionWait tracked.timeouts).moment
            engine.timer marked.now first,
          states (first + 1)⟩) := by
  have hVerdict :
      (engine.deletionWait tracked.timeouts).verdict?
          (.ofId kind id) .delete
          (deletionSeen kind id (.error fault)) =
        some (.ok none) := by
    simp only [deletionSeen, hAbsent, if_true]
    rfl
  exact hAwaited.run_of_first hTold hFirst hThere hFault
    hVerdict

/- Any other fault of a read ends the deletion, and the
   object stays tracked. -/
theorem run_of_fault
    (hOther : fault.isNotFound = false) :
    (engine.delete kind).run tracked session =
      ((.error (.store (.ofId kind id) .delete fault),
          tracked),
        ⟨(engine.deletionWait tracked.timeouts).moment
            engine.timer marked.now first,
          states (first + 1)⟩) := by
  have hVerdict :
      (engine.deletionWait tracked.timeouts).verdict?
          (.ofId kind id) .delete
          (deletionSeen kind id (.error fault)) =
        some
          (.error (.store (.ofId kind id) .delete fault)) := by
    simp only [deletionSeen, hOther, Bool.false_eq_true,
      if_false]
    rfl
  exact hAwaited.run_of_first hTold hFirst hThere hFault
    hVerdict

end First

/- An object that is read up to the deadline takes too long
   to go, if the clock can tell all pauses up to then. -/
theorem run_of_present
    (hThere :
      let wait := engine.deletionWait tracked.timeouts
      ∀ n, n ≤ wait.sleeps engine.timer marked.now →
        ∃ object, replies n = .ok object) :
    let wait := engine.deletionWait tracked.timeouts
    let sleeps := wait.sleeps engine.timer marked.now
    let moment := wait.moment engine.timer marked.now sleeps
    (engine.delete kind).run tracked session =
      ((.error
            (if moment <
                marked.now +
                  tracked.timeouts.delete.nanoseconds then
              .panicked
            else
              .timeout (.ofId kind id) .delete "removal"
                tracked.timeouts.delete),
          tracked),
        ⟨moment, states (sleeps + 1)⟩) := by
  intro wait sleeps moment
  refine hAwaited.run_of_poll hTold
    (hAwaited.series.poll_of_none hAwaited.quiet
      (fun n => rfl) fun n hn => ?_)
  rcases hThere n hn with ⟨object, hReply⟩
  rw [hReply]
  rfl

end Told

end Awaited

end Engine

end Converge
