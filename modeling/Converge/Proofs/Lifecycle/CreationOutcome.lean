import Converge.Proofs.Lifecycle.Atomic
import Converge.Proofs.Lifecycle.Requests
import Converge.Proofs.Lifecycle.Schedule

/-
  What a creation ends with, over any store.

  Once the store has accepted the object, the replies to the
  reads decide: the first one that shows the object ready or
  failed, or that is a fault other than absence, ends the
  creation. The reads are made at intervals, the last one at
  the deadline.

  Key definitions:
    * `Engine.IsPending`: a reply that decides nothing
    * `Engine.Settles`: a reply that decides, and what
    * `Engine.Watched`: a creation, and the replies that it
      gets

  Main declarations:
    * `Engine.Watched.run_of_settled`,
      `Engine.Watched.run_of_pending`: how it ends
    * `Engine.create_outcome`
-/

namespace Converge

namespace Engine

variable {σ : Type} {kind : Kind}

open MemoryStore (address)

------------------------------------------------------------
-- Replies
------------------------------------------------------------

/- A reply after which a creation goes on: there is no
   object, or it is not ready. -/
inductive IsPending (kind : Kind) :
    Except StoreError Json → Prop
  | absent
      {fault : StoreError} :
      fault.isNotFound = true →
        IsPending kind (.error fault)
  | unready
      {value : Json}
      {object : Object kind} :
      Object.decode? kind value = some object →
        object.readiness = .pending →
          IsPending kind (.ok value)

/- A reply that ends a creation, and what it ends with. -/
inductive Settles (kind : Kind) (id : ObjectId) :
    Except StoreError Json →
      Except LifecycleError (Object kind) → Prop
  | ready
      {value : Json}
      {object : Object kind} :
      Object.decode? kind value = some object →
        object.readiness = .ready →
          Settles kind id (.ok value) (.ok object)
  | failed
      {value : Json}
      {object : Object kind}
      {conditions : List Condition}
      {condition : Condition} :
      Object.decode? kind value = some object →
        object.conditions? = some conditions →
          (conditions.find? fun condition =>
              condition.type = "Succeeded") =
              some condition →
            condition.status = "False" →
              Settles kind id (.ok value)
                (.error
                  (.failed (.ofId kind id) condition.reason
                    condition.message))
  | refused
      {fault : StoreError} :
      fault.isNotFound = false →
        Settles kind id (.error fault)
          (.error (.store (.ofId kind id) .create fault))
  | unreadable
      {value : Json} :
      Object.decode? kind value = none →
        Settles kind id (.ok value)
          (.error
            (.store (.ofId kind id) .create
              (.encoding ("not a readable " ++ kind.name))))

/- An object has failed by the first condition that tells of
   its success. -/
theorem readiness_eq_failed_iff
    {object : Object kind}
    {reason message : String} :
    object.readiness = .failed reason message ↔
      ∃ conditions condition,
        object.conditions? = some conditions ∧
          (conditions.find? fun condition =>
              condition.type = "Succeeded") =
            some condition ∧
          condition.status = "False" ∧
          condition.reason = reason ∧
          condition.message = message := by
  unfold Object.readiness
  cases object.conditions? with
  | none => simp
  | some conditions =>
      simp only [Readiness.ofConditions, Option.some.injEq,
        exists_and_left, exists_eq_left']
      cases
          conditions.find? fun condition =>
            condition.type = "Succeeded" with
      | none => simp
      | some condition =>
          simp only [Option.some.injEq, exists_eq_left']
          split
          · rename_i hTrue
            simp [hTrue]
          · split <;> simp_all

theorem settles_of_failed
    (id : ObjectId)
    {value : Json}
    {object : Object kind}
    {reason message : String}
    (hRead : Object.decode? kind value = some object)
    (hReadiness :
      object.readiness = .failed reason message) :
    Settles kind id (.ok value)
      (.error (.failed (.ofId kind id) reason message)) := by
  rcases readiness_eq_failed_iff.1 hReadiness with
    ⟨conditions, condition, hConditions, hFound, hFalse, rfl,
      rfl⟩
  exact .failed hRead hConditions hFound hFalse

/- Every reply decides, or leaves the creation to go on. -/
theorem pending_or_settles
    (kind : Kind)
    (id : ObjectId)
    (reply : Except StoreError Json) :
    IsPending kind reply ∨
      ∃ result, Settles kind id reply result := by
  cases reply with
  | error fault =>
      cases hAbsent : fault.isNotFound with
      | true => exact Or.inl (.absent hAbsent)
      | false => exact Or.inr ⟨_, .refused hAbsent⟩
  | ok value =>
      cases hRead : Object.decode? kind value with
      | none => exact Or.inr ⟨_, .unreadable hRead⟩
      | some object =>
          cases hReadiness : object.readiness with
          | pending => exact Or.inl (.unready hRead hReadiness)
          | ready => exact Or.inr ⟨_, .ready hRead hReadiness⟩
          | failed reason message =>
              exact Or.inr
                ⟨_, settles_of_failed id hRead hReadiness⟩

/- The first reply that decides, among so many. -/
theorem exists_first_or_pending
    (id : ObjectId)
    (replies : Nat → Except StoreError Json)
    (rounds : Nat) :
    (∃ first result,
        first < rounds ∧
          (∀ n, n < first → IsPending kind (replies n)) ∧
          Settles kind id (replies first) result) ∨
      ∀ n, n < rounds → IsPending kind (replies n) := by
  induction rounds with
  | zero => exact Or.inr nofun
  | succ rounds ih =>
      rcases ih with
        ⟨first, result, hFirst, hBefore, hSettles⟩ | hPending
      · exact Or.inl
          ⟨first, result, Nat.lt_succ_of_lt hFirst, hBefore,
            hSettles⟩
      · rcases pending_or_settles kind id (replies rounds)
          with hLast | ⟨result, hSettles⟩
        · right
          intro n hn
          rcases Nat.lt_succ_iff_lt_or_eq.1 hn with
            hEarlier | rfl
          · exact hPending n hEarlier
          · exact hLast
        · exact Or.inl
            ⟨rounds, result, Nat.lt_succ_self rounds,
              hPending, hSettles⟩

------------------------------------------------------------
-- Verdicts
------------------------------------------------------------

theorem verdict?_of_pending
    (engine : Engine σ)
    (timeouts : Timeouts)
    (object : ObjectRef)
    (operation : Operation)
    (id : ObjectId)
    {reply : Except StoreError Json}
    (hPending : IsPending kind reply) :
    (engine.creationWait timeouts).verdict? object operation
        (creationSeen kind id (Client.decoded kind reply)) =
      none := by
  cases hPending with
  | absent hAbsent =>
      simp only [Client.decoded, Except.bind, creationSeen,
        hAbsent, if_true]
      rfl
  | unready hRead hReadiness =>
      simp only [Client.decoded, Except.bind, hRead,
        creationSeen, hReadiness]
      rfl

theorem verdict?_of_settles
    (engine : Engine σ)
    (timeouts : Timeouts)
    (object : ObjectRef)
    (operation : Operation)
    {id : ObjectId}
    {reply : Except StoreError Json}
    {result : Except LifecycleError (Object kind)}
    (hSettles : Settles kind id reply result) :
    (engine.creationWait timeouts).verdict? object operation
        (creationSeen kind id (Client.decoded kind reply)) =
      some (result.map some) := by
  cases hSettles with
  | ready hRead hReadiness =>
      simp only [Client.decoded, Except.bind, hRead,
        creationSeen, hReadiness]
      rfl
  | failed hRead hConditions hFound hFalse =>
      have hReadiness := readiness_eq_failed_iff.2
        ⟨_, _, hConditions, hFound, hFalse, rfl, rfl⟩
      simp only [Client.decoded, Except.bind, hRead,
        creationSeen, hReadiness]
      rfl
  | refused hOther =>
      simp only [Client.decoded, Except.bind, creationSeen,
        hOther, Bool.false_eq_true, if_false]
      rfl
  | unreadable hRead =>
      simp only [Client.decoded, Except.bind, hRead]
      rfl

/- An observation of a creation fails with a fault of the
   store, or because the object has failed. -/
theorem store_or_failed_of_verdict?
    {engine : Engine σ}
    {timeouts : Timeouts}
    {id : ObjectId}
    {seen : Except StoreError (Object kind)}
    {fault : LifecycleError}
    (hVerdict :
      (engine.creationWait timeouts).verdict? (.ofId kind id)
          .create (creationSeen kind id seen) =
        some (.error fault)) :
    (∃ source, fault = .store (.ofId kind id) .create source) ∨
      ∃ reason message,
        fault = .failed (.ofId kind id) reason message := by
  cases seen with
  | error source =>
      simp only [creationSeen] at hVerdict
      split at hVerdict
      · cases hVerdict
      · exact Or.inl
          ⟨source, (Except.error.inj
            (Option.some.inj hVerdict)).symm⟩
  | ok found =>
      simp only [creationSeen] at hVerdict
      cases hReadiness : found.readiness with
      | pending | ready =>
          rw [hReadiness] at hVerdict
          cases hVerdict
      | failed reason message =>
          rw [hReadiness] at hVerdict
          exact Or.inr
            ⟨reason, message, (Except.error.inj
              (Option.some.inj hVerdict)).symm⟩

/- What the wait of a creation fails with. -/
theorem creationWait_error_cases
    {engine : Engine σ}
    {timeouts : Timeouts}
    {id : ObjectId}
    {session : Session σ}
    {fault : LifecycleError}
    (hFault :
      (((engine.creationWait timeouts).run engine.timer
          (.ofId kind id) .create engine.signal
          (engine.observeCreation kind id)).run session).1 =
        .error fault) :
    (fault = .panicked ∧
        engine.timer.last <
          session.now + timeouts.create.nanoseconds +
            max 1 engine.pollInterval.nanoseconds) ∨
      fault = .cancelled (.ofId kind id) .create ∨
      fault =
        .timeout (.ofId kind id) .create "Succeeded"
          timeouts.create ∨
      (∃ source,
        fault = .store (.ofId kind id) .create source) ∨
      ∃ reason message,
        fault = .failed (.ofId kind id) reason message := by
  rcases StateWait.run_error_cases _ _ _ _ _ _ _ hFault with
    hCancelled | hTimeout | hPanicked | ⟨seen, hVerdict⟩
  · exact .inr (.inl hCancelled)
  · exact .inr (.inr (.inl hTimeout))
  · exact .inl hPanicked
  · rw [run_observeCreation] at hVerdict
    exact .inr
      (.inr (.inr (store_or_failed_of_verdict? hVerdict)))

------------------------------------------------------------
-- Watched Creations
------------------------------------------------------------

/- What is accepted is accepted with a note of it. -/
theorem Accepted.noted
    {engine : Engine σ}
    {tracked : Tracked}
    {session between : Session σ}
    {wanted submitted : Object kind}
    {id : ObjectId}
    (hAccepted :
      engine.Accepted tracked session wanted id submitted
        between)
    (notes : Notes) :
    engine.noted.Accepted tracked (session.withNotes notes)
      wanted id submitted
      (between.withNotes
        (notes ++
          [(session.now,
            submission (engine.inNamespace wanted))])) := by
  have hReply := hAccepted.reply
  have hNamespace :
      (engine.inNamespace
        wanted).prepareForCreate.metadata.namespaceName ≠
          "" := by
    intro hEmpty
    rw [Client.create_eq, if_pos hEmpty] at hReply
    cases hReply
  refine ⟨hAccepted.configured, ?_, hAccepted.identity⟩
  have hRun := Client.run_create_noted engine.store hNamespace
    session notes
  rw [hReply] at hRun
  exact hRun

/- An object was accepted, nobody asks to stop, and every
   read that follows is answered at once. -/
structure Watched
    (engine : Engine σ)
    (tracked : Tracked)
    (session : Session σ)
    (wanted : Object kind)
    (id : ObjectId)
    (submitted : Object kind)
    (between : Session σ)
    (states : Nat → σ)
    (replies : Nat → Except StoreError Json) : Prop where
  accepted :
    engine.Accepted tracked session wanted id submitted
      between
  quiet : engine.signal.IsQuiet
  first : states 0 = between.state
  reply :
    ∀ n,
      let moment :=
        (engine.creationWait tracked.timeouts).moment
          engine.timer between.now n
      (engine.store.get (address kind id)).run
          ⟨moment, states n⟩ =
        (replies n, ⟨moment, states (n + 1)⟩)

namespace Watched

variable {engine : Engine σ}
variable {tracked : Tracked}
variable {session between : Session σ}
variable {wanted submitted : Object kind}
variable {id : ObjectId}
variable {states : Nat → σ}
variable {replies : Nat → Except StoreError Json}

/- The notes of the submission and of so many reads. -/
def notesOf
    (engine : Engine σ)
    (tracked : Tracked)
    (session : Session σ)
    (wanted : Object kind)
    (id : ObjectId)
    (between : Session σ)
    (reads : Nat) :
    Notes :=
  (session.now, submission (engine.inNamespace wanted)) ::
    (List.range reads).map fun n =>
      ((engine.creationWait tracked.timeouts).moment
          engine.timer between.now n,
        .get (address kind id))

/- The session of a creation after so many reads. -/
def sessionAt
    (engine : Engine σ)
    (tracked : Tracked)
    (session : Session σ)
    (wanted : Object kind)
    (id : ObjectId)
    (between : Session σ)
    (states : Nat → σ)
    (now : Moment)
    (reads : Nat) :
    Session (Noted σ) :=
  ⟨now,
    ⟨states reads,
      notesOf engine tracked session wanted id between
        reads⟩⟩

/- The notes of reads at given moments. -/
theorem sessionAt_of_moments
    (engine : Engine σ)
    (tracked : Tracked)
    (session : Session σ)
    (wanted : Object kind)
    (id : ObjectId)
    (between : Session σ)
    (states : Nat → σ)
    {moments : List Moment}
    {reads : Nat}
    (hMoments :
      (List.range reads).map
          ((engine.creationWait tracked.timeouts).moment
            engine.timer between.now) =
        moments)
    {now last : Moment}
    (hLast : now = last) :
    sessionAt engine tracked session wanted id between states
        now reads =
      ⟨last,
        states reads,
        (session.now, submission (engine.inNamespace wanted)) ::
          moments.map fun moment =>
            (moment, .get (address kind id))⟩ := by
  rw [← hMoments, ← hLast, List.map_map]
  rfl

/- The observations of a creation are the reads that are
   answered in turn. -/
theorem series
    (hWatched :
      engine.Watched tracked session wanted id submitted
        between states replies) :
    let wait := engine.creationWait tracked.timeouts
    let moment := wait.moment engine.timer between.now
    let sessions := sessionAt engine tracked session wanted id
      between states
    wait.Series engine.timer
      (engine.noted.observeCreation kind id)
      (between.now + wait.timeout.nanoseconds)
      (fun n => sessions (moment n) n)
      (fun n => sessions (moment n) (n + 1))
      fun n =>
        creationSeen kind id
          (Client.decoded kind (replies n)) := by
  intro wait moment sessions
  refine ⟨fun n => ?_, fun n => Nat.le_refl _, fun n => rfl⟩
  have hRead := Client.get_eq engine.store kind
    id.namespaceName id.name ⟨moment n, states n⟩
  rw [hWatched.reply n] at hRead
  have hNoted := Client.run_get_noted engine.store kind
    id.namespaceName id.name ⟨moment n, states n⟩
    (notesOf engine tracked session wanted id between n)
  rw [hRead] at hNoted
  rw [run_observeCreation]
  have hStore :
      (Client.get engine.noted.store kind id.namespaceName
          id.name).run (sessions (moment n) n) = _ :=
    hNoted
  rw [hStore]
  simp only [sessions, sessionAt, notesOf,
    Session.withNotes, List.range_succ, List.map_append,
    List.map_cons, List.map_nil, List.cons_append]
  rfl

/- A creation ends with its wait. -/
theorem run_of_wait
    (hWatched :
      engine.Watched tracked session wanted id submitted
        between states replies)
    {result : Except LifecycleError (Option (Object kind))}
    {later : Session (Noted σ)}
    (hWait :
      ((engine.creationWait tracked.timeouts).run
            engine.timer (.ofId kind id) .create engine.signal
            (engine.noted.observeCreation kind id)).run
          (sessionAt engine tracked session wanted id between
            states between.now 0) =
        (result, later)) :
    (engine.noted.create kind).run tracked
        (session.withNotes []) =
      ((result.map fun _ => (),
          tracked.submitted id
            (result.toOption.join.getD submitted).flatten),
        later) := by
  have hRun :=
    run_create_of_accepted (hWatched.accepted.noted [])
  have hStart :
      between.withNotes
          ([] ++
            [(session.now,
              submission (engine.inNamespace wanted))]) =
        sessionAt engine tracked session wanted id between
          states between.now 0 := by
    simp only [sessionAt, notesOf, hWatched.first,
      Session.withNotes]
    rfl
  have hNoted :
      ((engine.noted.creationWait tracked.timeouts).run
            engine.noted.timer (.ofId kind id) .create
            engine.noted.signal
            (engine.noted.observeCreation kind id)).run
          (sessionAt engine tracked session wanted id between
            states between.now 0) =
        (result, later) :=
    hWait
  rw [hStart, hNoted] at hRun
  rw [hRun]
  cases result <;> rfl

/- A creation whose deadline the clock cannot tell reads
   nothing. -/
theorem run_of_untold
    (hWatched :
      engine.Watched tracked session wanted id submitted
        between states replies)
    (hUntold :
      engine.timer.last <
        between.now + tracked.timeouts.create.nanoseconds) :
    (engine.noted.create kind).run tracked
        (session.withNotes []) =
      ((.error .panicked,
          tracked.submitted id submitted.flatten),
        sessionAt engine tracked session wanted id between
          states between.now 0) :=
  hWatched.run_of_wait
    (StateWait.run_of_untold _ _ _ _
      (engine.timer.later?_of_lt hUntold))

section Told

variable
  (hWatched :
    engine.Watched tracked session wanted id submitted between
      states replies)
variable
  (hTold :
    between.now + tracked.timeouts.create.nanoseconds ≤
      engine.timer.last)

include hWatched hTold

/- The first reply that decides ends the creation. -/
theorem run_of_settled
    {first : Nat}
    {result : Except LifecycleError (Object kind)}
    (hFirst :
      first ≤
        (engine.creationWait tracked.timeouts).sleeps
          engine.timer between.now)
    (hPending :
      ∀ n, n < first → IsPending kind (replies n))
    (hSettles : Settles kind id (replies first) result) :
    (engine.noted.create kind).run tracked
        (session.withNotes []) =
      ((result.map fun _ => (),
          tracked.submitted id
            (result.toOption.getD submitted).flatten),
        sessionAt engine tracked session wanted id between
          states
          ((engine.creationWait tracked.timeouts).moment
            engine.timer between.now first)
          (first + 1)) := by
  have hPoll := hWatched.series.poll_of_first hWatched.quiet
    (fun n => rfl) hFirst
    (fun n hn =>
      verdict?_of_pending engine tracked.timeouts
        (.ofId kind id) .create id (hPending n hn))
    (verdict?_of_settles engine tracked.timeouts
      (.ofId kind id) .create hSettles)
  have hRun := hWatched.run_of_wait
    ((StateWait.run_of_deadline _ _ _ _
      (engine.timer.later?_of_le hTold)).trans hPoll)
  cases result <;> exact hRun

/- Without a reply that decides, a creation takes too long, if
   the clock can tell all pauses up to the deadline. -/
theorem run_of_pending
    (hPending :
      let wait := engine.creationWait tracked.timeouts
      ∀ n, n ≤ wait.sleeps engine.timer between.now →
        IsPending kind (replies n)) :
    let wait := engine.creationWait tracked.timeouts
    let sleeps := wait.sleeps engine.timer between.now
    let moment := wait.moment engine.timer between.now sleeps
    (engine.noted.create kind).run tracked
        (session.withNotes []) =
      ((.error
            (if moment <
                between.now +
                  tracked.timeouts.create.nanoseconds then
              .panicked
            else
              .timeout (.ofId kind id) .create "Succeeded"
                tracked.timeouts.create),
          tracked.submitted id submitted.flatten),
        sessionAt engine tracked session wanted id between
          states moment (sleeps + 1)) := by
  intro wait sleeps moment
  have hPoll := hWatched.series.poll_of_none hWatched.quiet
    (fun n => rfl) fun n hn =>
      verdict?_of_pending engine tracked.timeouts
        (.ofId kind id) .create id (hPending n hn)
  exact hWatched.run_of_wait
    ((StateWait.run_of_deadline _ _ _ _
      (engine.timer.later?_of_le hTold)).trans hPoll)

end Told

end Watched

------------------------------------------------------------
-- Configurations
------------------------------------------------------------

/- A configuration with a defect has no object. -/
theorem exists_of_defect
    {config : ConfigMap}
    {fault : SchemaError}
    (operation : Operation)
    (hDefect :
      Object.validate kind config = .error fault ∨
        Object.expand kind config = .error fault) :
    ∃ cause,
      configured kind operation config =
        .error (.schema kind operation cause) := by
  unfold configured
  cases hValid : Object.validate kind config with
  | error cause => exact ⟨cause, rfl⟩
  | ok _ =>
      rw [hValid] at hDefect
      rcases hDefect with hDefect | hDefect
      · cases hDefect
      · exact ⟨fault, by rw [hDefect]; rfl⟩

/- What is wrong with a configuration is told as such. -/
theorem exists_of_configured_error
    {operation : Operation}
    {config : ConfigMap}
    {fault : LifecycleError}
    (hConfigured :
      configured kind operation config = .error fault) :
    ∃ cause, fault = .schema kind operation cause := by
  unfold configured at hConfigured
  rcases hResult :
      (Object.validate kind config).bind fun _ =>
        Object.expand kind config with
    cause | object
  · rw [hResult] at hConfigured
    exact ⟨cause, (Except.error.inj hConfigured).symm⟩
  · rw [hResult] at hConfigured
    cases hConfigured

/- No creation finds the object in an unexpected phase. -/
theorem create_ne_unexpected
    (engine : Engine σ)
    (kind : Kind)
    (tracked : Tracked)
    (session : Session σ)
    (object : ObjectRef)
    (operation : Operation)
    (phase : Phase) :
    ((engine.create kind).run tracked session).1.1 ≠
      .error (.unexpected object operation phase) := by
  rw [create_eq]
  cases hConfigured :
      configured kind .create tracked.config with
  | error fault =>
      rcases exists_of_configured_error hConfigured with
        ⟨cause, rfl⟩
      exact nofun
  | ok wanted =>
      simp only
      rcases
          (Client.create engine.store
            (engine.inNamespace wanted)).run session with
        ⟨fault | submitted, between⟩
      · exact nofun
      · simp only
        cases ObjectId.ofMeta submitted.metadata with
        | error fault => exact nofun
        | ok id =>
            simp only
            rcases hWait :
                ((engine.creationWait tracked.timeouts).run
                  engine.timer (.ofId kind id) .create
                  engine.signal
                  (engine.observeCreation kind id)).run
                    between with
              ⟨fault | seen, later⟩
            · rintro ⟨rfl⟩
              rcases creationWait_error_cases
                  (congrArg Prod.fst hWait) with
                ⟨hOther, -⟩ | hOther | hOther |
                  ⟨_, hOther⟩ | ⟨_, _, hOther⟩ <;>
                cases hOther
            · exact nofun

/- A creation whose object was accepted ends the program only
   where the clock cannot tell a moment: surely if that is the
   deadline, and not if it can tell a pause after it. -/
theorem panicked_of_accepted
    {engine : Engine σ}
    {tracked : Tracked}
    {session between : Session σ}
    {wanted submitted : Object kind}
    {id : ObjectId}
    {fault : LifecycleError}
    (hAccepted :
      engine.Accepted tracked session wanted id submitted
        between)
    (hFault :
      ((engine.create kind).run tracked session).1.1 =
        .error fault) :
    let deadline :=
      between.now + tracked.timeouts.create.nanoseconds
    (engine.timer.last < deadline → fault = .panicked) ∧
      (fault = .panicked →
        engine.timer.last <
          deadline +
            max 1 engine.pollInterval.nanoseconds) := by
  intro deadline
  rw [run_create_of_accepted hAccepted] at hFault
  rcases hWait :
      ((engine.creationWait tracked.timeouts).run
        engine.timer (.ofId kind id) .create engine.signal
        (engine.observeCreation kind id)).run between with
    ⟨lapse | seen, later⟩
  · rw [hWait] at hFault
    cases Except.error.inj hFault
    constructor
    · intro hUntold
      have hNone :
          engine.timer.later? between.now
              (engine.creationWait
                tracked.timeouts).timeout.nanoseconds = none :=
        engine.timer.later?_of_lt hUntold
      have hPanicked :=
        StateWait.run_of_untold (.ofId kind id) .create
          engine.signal (engine.observeCreation kind id) hNone
      rw [hWait] at hPanicked
      exact Except.error.inj (congrArg Prod.fst hPanicked)
    · rintro rfl
      rcases creationWait_error_cases
          (congrArg Prod.fst hWait) with
        ⟨-, hUntold⟩ | hOther | hOther | ⟨_, hOther⟩ |
          ⟨_, _, hOther⟩
      · exact hUntold
      all_goals cases hOther
  · rw [hWait] at hFault
    cases hFault

------------------------------------------------------------
-- How a Creation Ends
------------------------------------------------------------

/-
  A creation does the same when its requests are noted. It
  asks for nothing when the configuration has a defect, and
  it never ends with an unexpected phase.

  Once the object was accepted, it is read at intervals, and
  with the first reply that decides the creation ends as that
  reply says. If no reply decides before, the first read that
  is made at the deadline or later is the last one, and the
  creation has taken too long. No read is made before its
  time; so there are as many of them at most as the timeout
  has intervals, begun ones included, and one more. A timer
  that wakes at whole ticks counts the intervals in them: then
  there are exactly as many reads, and each is made at the
  tick of its time. All this is so if the clock can tell the
  deadline and an interval after it.
-/
theorem create_outcome
    (engine : Engine σ)
    (kind : Kind)
    (tracked : Tracked)
    (session : Session σ) :
    let made :=
      (engine.noted.create kind).run tracked
        (session.withNotes [])
    (made.1, made.2.plain) =
        (engine.create kind).run tracked session ∧
      (∀ fault,
        Object.validate kind tracked.config = .error fault ∨
            Object.expand kind tracked.config =
              .error fault →
          ∃ cause,
            made =
              ((.error (.schema kind .create cause), tracked),
                session.withNotes [])) ∧
      (∀ object operation phase,
        made.1.1 ≠
          .error (.unexpected object operation phase)) ∧
      ∀ {wanted : Object kind} {id : ObjectId}
        {submitted : Object kind} {between : Session σ}
        {states : Nat → σ}
        {replies : Nat → Except StoreError Json},
        let limit := tracked.timeouts.create.nanoseconds
        let interval := engine.pollInterval.nanoseconds
        0 < interval →
          between.now + limit + interval ≤
              engine.timer.last →
            engine.Watched tracked session wanted id submitted
                between states replies →
              let wait := engine.creationWait tracked.timeouts
              let rounds :=
                wait.sleeps engine.timer between.now + 1
              let moment :=
                wait.moment engine.timer between.now
              let ended (now : Moment) (reads : Nat) :
                  Session (Noted σ) :=
                ⟨now,
                  states reads,
                  (session.now,
                      submission
                        (engine.inNamespace wanted)) ::
                    (List.range reads).map fun n =>
                      (moment n, .get (address kind id))⟩
              (∀ first result,
                first < rounds →
                  (∀ n, n < first →
                    IsPending kind (replies n)) →
                    Settles kind id (replies first) result →
                      made =
                        ((result.map fun _ => (),
                            { tracked with
                              id := id.text
                              state :=
                                some
                                  (result.toOption.getD
                                    submitted).flatten }),
                          ended (moment first)
                            (first + 1))) ∧
                ((∀ n, n < rounds →
                    IsPending kind (replies n)) →
                  made =
                    ((.error
                          (.timeout (.ofId kind id) .create
                            "Succeeded"
                            tracked.timeouts.create),
                        { tracked with
                          id := id.text
                          state := some submitted.flatten }),
                      ended (moment (rounds - 1)) rounds)) ∧
                ((∃ first result,
                    first < rounds ∧
                      (∀ n, n < first →
                        IsPending kind (replies n)) ∧
                      Settles kind id (replies first)
                        result) ∨
                  ∀ n, n < rounds →
                    IsPending kind (replies n)) ∧
                (∀ n,
                  moment n < between.now + limit ↔
                    n + 1 < rounds) ∧
                (∀ n,
                  between.now + min (n * interval) limit ≤
                    moment n) ∧
                rounds ≤
                  (limit + interval - 1) / interval + 1 ∧
                ∀ tick, 0 < tick →
                  engine.timer.Ticks tick →
                    tick ∣ between.now →
                      let whole :=
                        Timer.nextTick tick interval
                      rounds =
                          (limit + whole - 1) / whole + 1 ∧
                        ∀ n,
                          moment n =
                            between.now +
                              min (n * whole)
                                (Timer.nextTick tick limit) := by
  intro made
  have hFollows :=
    engine.follows_create kind tracked session []
  rcases hFollows with ⟨notes, _, hMade⟩
  have hSame :
      (made.1, made.2.plain) =
        (engine.create kind).run tracked session := by
    unfold made
    rw [hMade]
    rfl
  refine ⟨hSame, ?_, ?_, ?_⟩
  · intro fault hDefect
    rcases exists_of_defect .create hDefect with
      ⟨cause, hConfigured⟩
    unfold made
    rw [create_eq, hConfigured]
    exact ⟨cause, rfl⟩
  · exact create_ne_unexpected engine.noted kind tracked _
  · intro wanted id submitted between states replies limit
      interval hInterval hTold hWatched wait rounds moment
      ended
    have hPause : wait.pause = interval :=
      Nat.max_eq_right hInterval
    have hDeadline :
        between.now + limit ≤ engine.timer.last :=
      Nat.le_trans (Nat.le_add_right _ _) hTold
    rw [← hPause] at hTold ⊢
    have hEarly :
        ∀ n,
          moment n < between.now + limit ↔ n + 1 < rounds :=
      fun n => by
        rw [Nat.succ_lt_succ_iff]
        exact StateWait.moment_lt_iff hTold
    refine ⟨?_, ?_, exists_first_or_pending id replies rounds,
      hEarly, wait.le_moment engine.timer between.now,
      Nat.succ_le_succ (wait.sleeps_le _ _), ?_⟩
    · intro first result hFirst hPending hSettles
      exact hWatched.run_of_settled hDeadline
        (Nat.le_of_lt_succ hFirst) hPending hSettles
    · intro hPending
      have hRun := hWatched.run_of_pending hDeadline
        fun n hn => hPending n (Nat.lt_succ_of_le hn)
      have hLate : ¬moment (rounds - 1) < between.now + limit :=
        fun hEarlier =>
          Nat.lt_irrefl rounds ((hEarly _).1 hEarlier)
      refine Eq.trans hRun ?_
      exact congrArg
        (fun fault =>
          ((Except.error fault, _), ended _ rounds))
        (if_neg hLate)
    · intro tick hTick hTicks hStart whole
      refine ⟨congrArg Nat.succ ?_, ?_⟩
      · exact StateWait.sleeps_of_ticks hTick hTicks hStart
          hTold
      · exact StateWait.moment_of_ticks hTick hTicks hStart

/- A configuration that names a run of a task. -/
def runConfig : ConfigMap :=
  [ ("metadata",
      .map
        [ ("name", .str "build"),
          ("namespace", .str "ci") ]),
    ("spec",
      .map [("task_ref", .map [("name", .str "compile")])]) ]

/- That run, tracked for so long. -/
def trackedRun (limit : Duration) : Tracked :=
  { Tracked.ofConfig runConfig with
    timeouts := ⟨limit, .zero⟩ }

/- What a store tells of the run, by whether it succeeded. -/
def toldRun (status : String) : Json :=
  .obj
    [ ("metadata",
        .obj
          [ ("name", .str "build"),
            ("namespace", .str "ci") ]),
      ("status",
        .obj
          [ ("conditions",
              .arr
                [ .obj
                    [ ("message", .str "step failed"),
                      ("reason", .str "TaskRunFailed"),
                      ("status", .str status),
                      ("type", .str "Succeeded") ] ]) ]) ]

/- A store that accepts the run, and gives replies one after
   the other. -/
def runStore
    (replies : Nat → Except StoreError Json) :
    Store Nat where
  name := "rehearsal"
  get _ := .ofState fun reads => (replies reads, reads + 1)
  create _ _ _ :=
    .ofState fun reads => (.ok (toldRun "Unknown"), reads)
  patch _ _ :=
    .ofState fun reads => (.ok (toldRun "Unknown"), reads)
  delete _ := .ofState fun reads => (.ok (), reads)

/- An engine over that store, whose timer wakes at whole
   milliseconds. -/
def runEngine
    (replies : Nat → Except StoreError Json)
    (interval : Duration) :
    Engine Nat :=
  ⟨runStore replies, "default", interval, .standard, .never⟩

/- The run is accepted, and read at the moments that follow;
   it is not ready at first. -/
theorem exists_watched_run
    (replies : Nat → Except StoreError Json)
    (interval limit : Duration) :
    ∃ wanted submitted : Object .taskRun,
      (runEngine replies interval).Watched (trackedRun limit)
          ⟨0, 0⟩ wanted ⟨"ci", "build"⟩ submitted ⟨0, 0⟩
          (fun reads => reads) replies ∧
        IsPending .taskRun (.ok (toldRun "Unknown")) := by
  have hNamespace :
      (configured .taskRun .create runConfig).toOption.map
          (fun wanted =>
            let object :=
              if wanted.metadata.namespaceName = "" then
                wanted.withMetadata
                  (wanted.metadata.withNamespace "default")
              else wanted
            object.prepareForCreate.metadata.namespaceName) =
        some "ci" := by
    decide +kernel
  have hTold :
      ((Object.decode? .taskRun (toldRun "Unknown")).map
          fun object =>
            (object.readiness,
              (ObjectId.ofMeta object.metadata).toOption)) =
        some (.pending, some ⟨"ci", "build"⟩) := by
    decide +kernel
  rcases Option.map_eq_some_iff.1 hNamespace with
    ⟨wanted, hWanted, hCi⟩
  rcases Option.map_eq_some_iff.1 hTold with
    ⟨submitted, hRead, hShown⟩
  rcases Prod.mk.inj hShown with ⟨hPending, hId⟩
  have hReply :
      (Client.create (runStore replies)
          ((runEngine replies interval).inNamespace
            wanted)).run ⟨0, 0⟩ =
        (.ok submitted, ⟨0, 0⟩) := by
    have hDecoded :
        Client.decoded .taskRun (.ok (toldRun "Unknown")) =
          .ok submitted :=
      Client.decoded_eq_ok_iff.2 ⟨_, rfl, hRead⟩
    have hPrepared :
        ((runEngine replies interval).inNamespace
          wanted).prepareForCreate.metadata.namespaceName =
            "ci" :=
      hCi
    rw [Client.create_eq, hPrepared, if_neg (by decide)]
    exact congrArg (fun decoded => (decoded, _)) hDecoded
  refine ⟨wanted, submitted, ?_, .unready hRead hPending⟩
  exact
    { accepted :=
        ⟨Result.eq_ok_of_toOption hWanted, hReply,
          Result.eq_ok_of_toOption hId⟩
      quiet := Signal.isQuiet_never
      first := rfl
      reply := fun _ => rfl }

/- The run is not there at first, then it is not ready, and
   the fourth reply tells that it failed. -/
def failingReplies : Nat → Except StoreError Json
  | 0 =>
      .error (.missing (address .taskRun ⟨"ci", "build"⟩))
  | 1 => .ok (toldRun "Unknown")
  | 2 => .ok (toldRun "Unknown")
  | _ => .ok (toldRun "False")

/- Two milliseconds do not divide five; the read at the
   deadline finds that the run failed. -/
theorem create_outcome_failed :
    let engine :=
      runEngine failingReplies ⟨2000000, by decide⟩
    let tracked := trackedRun ⟨5000000, by decide⟩
    ∃ wanted submitted : Object .taskRun,
      engine.Watched tracked ⟨0, 0⟩ wanted ⟨"ci", "build"⟩
          submitted ⟨0, 0⟩ (fun reads => reads)
          failingReplies ∧
        (engine.noted.create .taskRun).run tracked
            (Session.withNotes [] ⟨0, 0⟩) =
          ((.error
                (.failed ⟨.taskRun, "ci", "build"⟩
                  "TaskRunFailed" "step failed"),
              { tracked with
                id := "ci/build"
                state := some submitted.flatten }),
            ⟨5000000, 4,
              (0, submission (engine.inNamespace wanted)) ::
                [0, 2000000, 4000000, 5000000].map
                  fun moment =>
                    (moment,
                      .get
                        (address .taskRun
                          ⟨"ci", "build"⟩))⟩) := by
  intro engine tracked
  have hFailed :
      (Object.decode? .taskRun (toldRun "False")).map
          Object.readiness =
        some (.failed "TaskRunFailed" "step failed") := by
    decide +kernel
  rcases Option.map_eq_some_iff.1 hFailed with
    ⟨failed, hRead, hReadiness⟩
  rcases exists_watched_run failingReplies
      ⟨2000000, by decide⟩ ⟨5000000, by decide⟩ with
    ⟨wanted, submitted, hWatched, hUnready⟩
  have hPending :
      ∀ n, n < 3 → IsPending .taskRun (failingReplies n) := by
    intro n hn
    match n, hn with
    | 0, _ => exact .absent rfl
    | 1, _ => exact hUnready
    | 2, _ => exact hUnready
  rcases (engine.create_outcome .taskRun tracked
      ⟨0, 0⟩).2.2.2 (by decide) (by decide) hWatched with
    ⟨hSettled, -, -, -, -, -, hTicks⟩
  have hMoments :
      (List.range 4).map
          ((engine.creationWait tracked.timeouts).moment
            engine.timer 0) =
        [0, 2000000, 4000000, 5000000] := by
    decide +kernel
  have hLast :
      (engine.creationWait tracked.timeouts).moment
          engine.timer 0 3 =
        5000000 := by
    decide +kernel
  have hRounds :=
    (hTicks 1000000 (by decide) Timer.ticks_standard
      (Nat.dvd_zero _)).1
  have hRun := hSettled 3 _ (by rw [hRounds]; decide) hPending
    (settles_of_failed _ hRead hReadiness)
  refine ⟨wanted, submitted, hWatched, hRun.trans ?_⟩
  exact congrArg (Prod.mk (_, _))
    (Watched.sessionAt_of_moments engine tracked ⟨0, 0⟩ wanted
      ⟨"ci", "build"⟩ ⟨0, 0⟩ (fun reads => reads) hMoments
      hLast)

/- A timer that wakes at whole milliseconds makes the last read
   of 2.5 ms not at the deadline, but half a millisecond
   later. -/
theorem create_oversleeps :
    let engine :=
      runEngine (fun _ => .ok (toldRun "Unknown"))
        ⟨1000000, by decide⟩
    let tracked := trackedRun ⟨2500000, by decide⟩
    let made :=
      (engine.noted.create .taskRun).run tracked
        (Session.withNotes [] ⟨0, 0⟩)
    ∃ wanted submitted : Object .taskRun,
      engine.Watched tracked ⟨0, 0⟩ wanted ⟨"ci", "build"⟩
          submitted ⟨0, 0⟩ (fun reads => reads)
          (fun _ => .ok (toldRun "Unknown")) ∧
        made =
          ((.error
                (.timeout ⟨.taskRun, "ci", "build"⟩ .create
                  "Succeeded" ⟨2500000, by decide⟩),
              { tracked with
                id := "ci/build"
                state := some submitted.flatten }),
            ⟨3000000, 4,
              (0, submission (engine.inNamespace wanted)) ::
                [0, 1000000, 2000000, 3000000].map
                  fun moment =>
                    (moment,
                      .get
                        (address .taskRun
                          ⟨"ci", "build"⟩))⟩) ∧
        made.2.now ≠
          0 + tracked.timeouts.create.nanoseconds := by
  intro engine tracked made
  rcases exists_watched_run (fun _ => .ok (toldRun "Unknown"))
      ⟨1000000, by decide⟩ ⟨2500000, by decide⟩ with
    ⟨wanted, submitted, hWatched, hUnready⟩
  have hMoments :
      (List.range 4).map
          ((engine.creationWait tracked.timeouts).moment
            engine.timer 0) =
        [0, 1000000, 2000000, 3000000] := by
    decide +kernel
  have hLast :
      (engine.creationWait tracked.timeouts).moment
          engine.timer 0 3 =
        3000000 := by
    decide +kernel
  have hSleeps :
      (engine.creationWait tracked.timeouts).sleeps
          engine.timer 0 =
        3 :=
    StateWait.sleeps_eq (by decide +kernel) (by decide +kernel)
  have hRun := hWatched.run_of_pending (by decide)
    fun _ _ => hUnready
  simp only at hRun
  rw [hSleeps, if_neg (by decide +kernel)] at hRun
  refine ⟨wanted, submitted, hWatched, hRun.trans ?_, ?_⟩
  · exact congrArg (Prod.mk (_, _))
      (Watched.sessionAt_of_moments engine tracked ⟨0, 0⟩
        wanted ⟨"ci", "build"⟩ ⟨0, 0⟩ (fun reads => reads)
        hMoments hLast)
  · have hNow : made.2.now = 3000000 := by
      unfold made
      rw [hRun]
      exact hLast
    rw [hNow]
    decide

end Engine

end Converge
