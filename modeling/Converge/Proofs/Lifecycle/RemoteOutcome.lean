import Converge.Proofs.Lifecycle.Addressed
import Converge.Proofs.Lifecycle.CreationOutcome
import Converge.Proofs.Lifecycle.DeletionOutcome
import Converge.Proofs.Store.Replies

/-
  What the replies of a server make of operations.

  Only where a server tells that there is no such object is
  the object taken to be gone. A reply that is a fault ends a
  deletion with that fault, and the object stays tracked. A
  creation tracks what the server accepted and showed, and
  waits as long as the object is out of sight or not ready.

  Where the clock cannot tell the deadline of an accepted
  deletion, nothing is read, so that the object stays tracked
  whatever the server would have told.

  Key definitions:
    * `Engine.OverReplies`: an engine over a server that
      replies at once
    * `Engine.IsToldGone`: replies after which an object is
      gone
    * `Engine.deletionReads`, `Engine.deletionMoment`: how
      many reads a deletion may make, and when

  Main declarations:
    * `Engine.OverReplies.delete_of_gone`,
      `Engine.OverReplies.delete_of_fails`,
      `Engine.OverReplies.delete_of_shown`,
      `Engine.OverReplies.delete_of_untold`: the reads of a
      deletion
    * `Engine.OverReplies.create_reads`: the reads of a
      creation
    * `Engine.replies_outcome_iff`
-/

namespace Converge

open HttpReply (Shows Accepts Refuses Fails)

------------------------------------------------------------
-- Requests
------------------------------------------------------------

namespace RemoteStore

/- The request that submits an object. -/
def submission
    (remote : RemoteStore)
    {kind : Kind}
    (object : Object kind) :
    HttpRequest :=
  remote.createRequest kind.resourceType
    object.prepareForCreate.metadata.namespaceName
    object.prepareForCreate.toJson

/- A request, and so many reads of an object after it. -/
def withReads
    (remote : RemoteStore)
    (kind : Kind)
    (id : ObjectId)
    (first : HttpRequest)
    (reads : Nat) :
    List HttpRequest :=
  first ::
    List.replicate reads
      (remote.objectRequest .get (MemoryStore.address kind id)
        none none)

/- The requests of a deletion with so many reads. -/
def deletionRequests
    (remote : RemoteStore)
    (kind : Kind)
    (id : ObjectId) :
    Nat → List HttpRequest :=
  remote.withReads kind id
    (remote.objectRequest .delete
      (MemoryStore.address kind id) none none)

/- A read after a request and so many other reads is answered
   with the reply of its number. -/
theorem run_get_withReads
    {remote : RemoteStore}
    (hSendable : remote.IsSendable)
    (replies : Nat → HttpReply)
    (kind : Kind)
    (id : ObjectId)
    (first : HttpRequest)
    (reads : Nat)
    (now : Moment) :
    ((remote.store (.replying replies)).get
          (MemoryStore.address kind id)).run
        ⟨now, remote.withReads kind id first reads⟩ =
      (answer (some (MemoryStore.address kind id))
          (replies (reads + 1)),
        ⟨now, remote.withReads kind id first (reads + 1)⟩) := by
  have hRun := run_get hSendable replies
    (MemoryStore.address kind id)
    ⟨now, remote.withReads kind id first reads⟩
  simp only [withReads, List.length_cons,
    List.length_replicate, List.cons_append] at hRun
  simp only [withReads]
  rw [List.replicate_succ']
  exact hRun

end RemoteStore

namespace Engine

open MemoryStore (address)

variable {kind : Kind}
variable {replies : Nat → HttpReply}

------------------------------------------------------------
-- Sequences of Replies
------------------------------------------------------------

/- So many reads in a row are answered with an object. The
   reply before them is that to the first request. -/
def ShowsFirst
    (kind : Kind)
    (replies : Nat → HttpReply)
    (reads : Nat) : Prop :=
  ∀ n, n < reads →
    ∃ object, (replies (n + 1)).Shows kind object

/- The replies after which an object is gone: there was none
   to delete, or after the deletion was accepted, one of so
   many reads finds none, and each read before it does. -/
def IsToldGone
    (kind : Kind)
    (replies : Nat → HttpReply)
    (rounds : Nat) : Prop :=
  (replies 0).status = 404 ∨
    (replies 0).Accepts ∧
      ∃ n, n < rounds ∧
        (replies (n + 1)).status = 404 ∧
        ShowsFirst kind replies n

/- What is shown is read. -/
theorem ShowsFirst.decoded
    {reads : Nat}
    (hShown : ShowsFirst kind replies reads)
    (coordinate : Option Coordinate) :
    ∀ n, n < reads →
      ∃ object,
        Client.decoded kind
            (RemoteStore.answer coordinate
              (replies (n + 1))) =
          .ok object := by
  intro n hn
  rcases hShown n hn with ⟨object, hShows⟩
  exact ⟨object,
    RemoteStore.decoded_answer_eq_ok_iff.2 hShows⟩

/- All reads show an object, or one is the first that does
   not. -/
theorem showsFirst_or_exists
    (kind : Kind)
    (replies : Nat → HttpReply)
    (rounds : Nat) :
    ShowsFirst kind replies rounds ∨
      ∃ n, n < rounds ∧ ShowsFirst kind replies n ∧
        ((replies (n + 1)).status = 404 ∨
          ∃ fault,
            Fails kind true (replies (n + 1)) fault) := by
  induction rounds with
  | zero => exact Or.inl nofun
  | succ rounds ih =>
      rcases ih with hShown | ⟨n, hn, hBefore, hFirst⟩
      · rcases HttpReply.shows_or_fails kind true
            (replies (rounds + 1)) with
          ⟨_, hMissing⟩ | hLast | hFails
        · exact Or.inr
            ⟨rounds, Nat.lt_succ_self _, hShown,
              Or.inl hMissing⟩
        · left
          intro n hn
          rcases Nat.lt_succ_iff_lt_or_eq.1 hn with
            hEarlier | rfl
          · exact hShown n hEarlier
          · exact hLast
        · exact Or.inr
            ⟨rounds, Nat.lt_succ_self _, hShown,
              Or.inr hFails⟩
      · exact Or.inr
          ⟨n, Nat.lt_succ_of_lt hn, hBefore, hFirst⟩

/- How many reads a deletion makes that nothing decides. -/
def deletionReads
    {σ : Type}
    (engine : Engine σ)
    (timeouts : Timeouts)
    (start : Moment) :
    Nat :=
  (engine.deletionWait timeouts).sleeps engine.timer start + 1

/- When a deletion makes a read. -/
def deletionMoment
    {σ : Type}
    (engine : Engine σ)
    (timeouts : Timeouts) :
    Moment → Nat → Moment :=
  (engine.deletionWait timeouts).moment engine.timer

------------------------------------------------------------
-- Deletions
------------------------------------------------------------

/- An engine over a server that replies at once, with one
   reply after the other. It rests between reads, and nobody
   asks it to stop. -/
structure OverReplies
    (engine : Engine (List HttpRequest))
    (remote : RemoteStore)
    (replies : Nat → HttpReply) : Prop where
  store : engine.store = remote.store (.replying replies)
  sendable : remote.IsSendable
  quiet : engine.signal.IsQuiet
  interval : 0 < engine.pollInterval.nanoseconds

namespace OverReplies

variable {engine : Engine (List HttpRequest)}
variable {remote : RemoteStore}
variable {tracked : Tracked}
variable {id : ObjectId}

/- What becomes of the first request of a deletion. -/
theorem run_delete
    (hOver : engine.OverReplies remote replies)
    (kind : Kind)
    (id : ObjectId)
    (now : Moment) :
    (Client.delete engine.store kind id.namespaceName
        id.name).run ⟨now, []⟩ =
      ((RemoteStore.answer (some (address kind id))
          (replies 0)).map fun _ => (),
        ⟨now, remote.deletionRequests kind id 0⟩) := by
  rw [hOver.store]
  exact RemoteStore.run_delete hOver.sendable replies
    (address kind id) ⟨now, []⟩

/- Where there is nothing to delete, it is gone. -/
theorem delete_of_missing
    (hOver : engine.OverReplies remote replies)
    (hId : tracked.objectId = .ok id)
    (hMissing : (replies 0).status = 404)
    (now : Moment) :
    (engine.delete kind).run tracked ⟨now, []⟩ =
      ((.ok (), tracked.clear),
        ⟨now, remote.deletionRequests kind id 0⟩) := by
  have hRun := hOver.run_delete kind id now
  rw [RemoteStore.answer_of_missing _ hMissing] at hRun
  exact run_delete_of_refused engine hId hRun

/- A deletion that is refused ends with the refusal. -/
theorem delete_of_refuses
    (hOver : engine.OverReplies remote replies)
    (hId : tracked.objectId = .ok id)
    {fault : StoreError}
    (hRefuses : Refuses true (replies 0) fault)
    (now : Moment) :
    (engine.delete kind).run tracked ⟨now, []⟩ =
      ((.error (.store (.ofId kind id) .delete fault),
          tracked),
        ⟨now, remote.deletionRequests kind id 0⟩) := by
  have hAnswer :
      RemoteStore.answer (some (address kind id))
          (replies 0) =
        .error fault :=
    RemoteStore.answer_of_refuses hRefuses
  have hRun := hOver.run_delete kind id now
  rw [hAnswer] at hRun
  have hDelete := run_delete_of_refused engine hId hRun
  rw [hRefuses.isNotFound] at hDelete
  exact hDelete

/- The reads of a deletion are answered in turn, once it was
   accepted. -/
theorem awaited
    (hOver : engine.OverReplies remote replies)
    (hId : tracked.objectId = .ok id)
    (hAccepts : (replies 0).Accepts)
    (kind : Kind)
    (now : Moment) :
    engine.Awaited tracked ⟨now, []⟩ id
      ⟨now, remote.deletionRequests kind id 0⟩
      (remote.deletionRequests kind id)
      fun n =>
        Client.decoded kind
          (RemoteStore.answer (some (address kind id))
            (replies (n + 1))) := by
  refine ⟨hId, ?_, hOver.quiet, rfl, ?_⟩
  · rcases RemoteStore.exists_answer_of_accepts
        (some (address kind id)) hAccepts with
      ⟨value, hAnswer⟩
    have hRun := hOver.run_delete kind id now
    rw [hAnswer] at hRun
    exact hRun
  · intro n moment
    have hRead := RemoteStore.run_get_withReads
      hOver.sendable replies kind id
      (remote.objectRequest .delete (address kind id) none
        none) n moment
    rw [Client.get_eq, hOver.store]
    simp only [RemoteStore.deletionRequests]
    rw [hRead]

/- A deletion whose deadline the clock cannot tell is at an
   end once it was accepted. -/
theorem delete_of_untold
    (hOver : engine.OverReplies remote replies)
    (hId : tracked.objectId = .ok id)
    (hAccepts : (replies 0).Accepts)
    {now : Moment}
    (hUntold :
      engine.timer.last <
        now + tracked.timeouts.delete.nanoseconds) :
    (engine.delete kind).run tracked ⟨now, []⟩ =
      ((.error .panicked, tracked),
        ⟨now, remote.deletionRequests kind id 0⟩) :=
  (hOver.awaited hId hAccepts kind now).run_of_untold hUntold

section Told

variable (hOver : engine.OverReplies remote replies)
variable (hId : tracked.objectId = .ok id)
variable (hAccepts : (replies 0).Accepts)
variable {now : Moment}
variable
  (hTold :
    now + tracked.timeouts.delete.nanoseconds ≤
      engine.timer.last)

include hOver hId hAccepts hTold

/- The first read that finds no object ends a deletion. -/
theorem delete_of_gone
    {n : Nat}
    (hRound : n < engine.deletionReads tracked.timeouts now)
    (hShown : ShowsFirst kind replies n)
    (hMissing : (replies (n + 1)).status = 404) :
    (engine.delete kind).run tracked ⟨now, []⟩ =
      ((.ok (), tracked.clear),
        ⟨engine.deletionMoment tracked.timeouts now n,
          remote.deletionRequests kind id (n + 1)⟩) :=
  (hOver.awaited hId hAccepts kind now).run_of_gone hTold
    (Nat.le_of_lt_succ hRound)
    (hShown.decoded _)
    (congrArg (Client.decoded kind)
      (RemoteStore.answer_of_missing _ hMissing))
    rfl

/- The first read that is a fault ends a deletion. -/
theorem delete_of_fails
    {n : Nat}
    (hRound : n < engine.deletionReads tracked.timeouts now)
    (hShown : ShowsFirst kind replies n)
    {fault : StoreError}
    (hFails : Fails kind true (replies (n + 1)) fault) :
    (engine.delete kind).run tracked ⟨now, []⟩ =
      ((.error (.store (.ofId kind id) .delete fault),
          tracked),
        ⟨engine.deletionMoment tracked.timeouts now n,
          remote.deletionRequests kind id (n + 1)⟩) := by
  have hFault :
      Client.decoded kind
          (RemoteStore.answer (some (address kind id))
            (replies (n + 1))) =
        .error fault :=
    RemoteStore.decoded_of_fails hFails
  exact (hOver.awaited hId hAccepts kind now).run_of_fault
    hTold (Nat.le_of_lt_succ hRound) (hShown.decoded _) hFault
    hFails.isNotFound

/- As long as the object is read, it is not gone. -/
theorem delete_of_shown
    (hShown :
      ShowsFirst kind replies
        (engine.deletionReads tracked.timeouts now)) :
    let reads := engine.deletionReads tracked.timeouts now
    let moment :=
      engine.deletionMoment tracked.timeouts now (reads - 1)
    (engine.delete kind).run tracked ⟨now, []⟩ =
      ((.error
            (if moment <
                now + tracked.timeouts.delete.nanoseconds then
              .panicked
            else
              .timeout (.ofId kind id) .delete "removal"
                tracked.timeouts.delete),
          tracked),
        ⟨moment, remote.deletionRequests kind id reads⟩) :=
  (hOver.awaited hId hAccepts kind now).run_of_present hTold
    fun n hn => hShown.decoded _ n (Nat.lt_succ_of_le hn)

end Told

/- What a server tells to be gone is tracked no more, if a
   read can tell it. -/
theorem delete_of_isToldGone
    (hOver : engine.OverReplies remote replies)
    (hId : tracked.objectId = .ok id)
    {now : Moment}
    (hGone :
      (replies 0).status = 404 ∨
        now + tracked.timeouts.delete.nanoseconds ≤
            engine.timer.last ∧
          IsToldGone kind replies
            (engine.deletionReads tracked.timeouts now)) :
    ((engine.delete kind).run tracked ⟨now, []⟩).1 =
      (.ok (), tracked.clear) := by
  rcases hGone with
    hMissing |
      ⟨hTold, hMissing |
        ⟨hAccepts, n, hRound, hMissing, hShown⟩⟩
  · rw [hOver.delete_of_missing hId hMissing]
  · rw [hOver.delete_of_missing hId hMissing]
  · rw [hOver.delete_of_gone hId hAccepts hTold hRound hShown
      hMissing]

/- A deletion that no reply decides takes too long, or the
   clock cannot tell a moment. -/
theorem delete_of_undecided
    (hOver : engine.OverReplies remote replies)
    (hId : tracked.objectId = .ok id)
    (hAccepts : (replies 0).Accepts)
    {now : Moment}
    (hShown :
      now + tracked.timeouts.delete.nanoseconds ≤
          engine.timer.last →
        ShowsFirst kind replies
          (engine.deletionReads tracked.timeouts now)) :
    let deadline :=
      now + tracked.timeouts.delete.nanoseconds
    let reads := engine.deletionReads tracked.timeouts now
    let moment :=
      engine.deletionMoment tracked.timeouts now (reads - 1)
    ((engine.delete kind).run tracked ⟨now, []⟩).1 =
      (.error
          (if deadline ≤ engine.timer.last ∧
              deadline ≤ moment then
            .timeout (.ofId kind id) .delete "removal"
              tracked.timeouts.delete
          else .panicked),
        tracked) := by
  intro deadline reads moment
  rcases Nat.lt_or_ge engine.timer.last deadline with
    hUntold | hTold
  · rw [hOver.delete_of_untold hId hAccepts hUntold,
      if_neg fun hBoth => Nat.not_le.2 hUntold hBoth.1]
  · rw [hOver.delete_of_shown hId hAccepts hTold
      (hShown hTold)]
    rcases Nat.lt_or_ge moment deadline with hEarly | hLate
    · rw [if_pos hEarly,
        if_neg fun hBoth => Nat.not_le.2 hEarly hBoth.2]
    · rw [if_neg (Nat.not_lt.2 hLate), if_pos ⟨hTold, hLate⟩]

/- If the server never tells that the object is gone, a
   deletion fails with one of the replies, unless no reply
   decides it. -/
theorem delete_cases
    (hOver : engine.OverReplies remote replies)
    (hId : tracked.objectId = .ok id)
    (kind : Kind)
    (now : Moment) :
    let deadline :=
      now + tracked.timeouts.delete.nanoseconds
    let reads := engine.deletionReads tracked.timeouts now
    ((replies 0).status = 404 ∨
        deadline ≤ engine.timer.last ∧
          IsToldGone kind replies reads) ∨
      (∃ fault,
        ((engine.delete kind).run tracked ⟨now, []⟩).1 =
          (.error (.store (.ofId kind id) .delete fault),
            tracked)) ∨
      (replies 0).Accepts ∧
        (deadline ≤ engine.timer.last →
          ShowsFirst kind replies reads) := by
  intro deadline reads
  rcases HttpReply.accepts_or_refuses true (replies 0) with
    ⟨_, hMissing⟩ | hAccepts | ⟨fault, hRefuses⟩
  · exact Or.inl (Or.inl hMissing)
  · rcases Nat.lt_or_ge engine.timer.last deadline with
      hUntold | hTold
    · exact Or.inr (Or.inr
        ⟨hAccepts, fun hTold =>
          absurd hTold (Nat.not_le.2 hUntold)⟩)
    · rcases showsFirst_or_exists kind replies reads with
        hShown |
          ⟨n, hRound, hShown, hMissing | ⟨fault, hFails⟩⟩
      · exact Or.inr (Or.inr ⟨hAccepts, fun _ => hShown⟩)
      · exact Or.inl (Or.inr
          ⟨hTold,
            Or.inr ⟨hAccepts, n, hRound, hMissing, hShown⟩⟩)
      · refine Or.inr (Or.inl ⟨fault, ?_⟩)
        rw [hOver.delete_of_fails hId hAccepts hTold hRound
          hShown hFails]
  · refine Or.inr (Or.inl ⟨fault, ?_⟩)
    rw [hOver.delete_of_refuses hId hRefuses]

/- An identity that can be read is not empty. -/
theorem id_ne_empty
    (hId : tracked.objectId = .ok id) :
    tracked.id ≠ "" := by
  intro hEmpty
  rw [Tracked.objectId, hEmpty] at hId
  cases hId

/- The identity is forgotten exactly when the server tells
   that the object is gone, in a reply to the deletion or to a
   read up to a deadline that the clock can tell. -/
theorem delete_clears_iff
    (hOver : engine.OverReplies remote replies)
    (hId : tracked.objectId = .ok id)
    (kind : Kind)
    (now : Moment) :
    ((engine.delete kind).run tracked ⟨now, []⟩).1.2.id =
        "" ↔
      (replies 0).status = 404 ∨
        now + tracked.timeouts.delete.nanoseconds ≤
            engine.timer.last ∧
          IsToldGone kind replies
            (engine.deletionReads tracked.timeouts now) := by
  constructor
  · intro hCleared
    rcases hOver.delete_cases hId kind now with
      hGone | ⟨fault, hFailed⟩ | ⟨hAccepts, hShown⟩
    · exact hGone
    · rw [hFailed] at hCleared
      exact absurd hCleared (id_ne_empty hId)
    · rw [hOver.delete_of_undecided hId hAccepts hShown]
        at hCleared
      exact absurd hCleared (id_ne_empty hId)
  · intro hGone
    rw [hOver.delete_of_isToldGone hId hGone]
    rfl

/- A deletion that fails with no reply was accepted, and no
   reply decided it. -/
theorem undecided_of_fault
    (hOver : engine.OverReplies remote replies)
    (hId : tracked.objectId = .ok id)
    {now : Moment}
    {lapse : LifecycleError}
    (hFault :
      ((engine.delete kind).run tracked ⟨now, []⟩).1.1 =
        .error lapse)
    (hNoReply :
      ∀ fault, lapse ≠ .store (.ofId kind id) .delete fault) :
    (replies 0).Accepts ∧
      (now + tracked.timeouts.delete.nanoseconds ≤
          engine.timer.last →
        ShowsFirst kind replies
          (engine.deletionReads tracked.timeouts now)) := by
  rcases hOver.delete_cases hId kind now with
    hGone | ⟨fault, hFailed⟩ | hUndecided
  · rw [hOver.delete_of_isToldGone hId hGone] at hFault
    cases hFault
  · rw [hFailed] at hFault
    exact absurd (Except.error.inj hFault).symm
      (hNoReply fault)
  · exact hUndecided

/- A deletion takes too long exactly when it was accepted,
   every read shows the object, and the last read is made at a
   deadline that the clock can tell, or later. -/
theorem delete_timeout_iff
    (hOver : engine.OverReplies remote replies)
    (hId : tracked.objectId = .ok id)
    (kind : Kind)
    (now : Moment) :
    let deadline :=
      now + tracked.timeouts.delete.nanoseconds
    let reads := engine.deletionReads tracked.timeouts now
    ((engine.delete kind).run tracked ⟨now, []⟩).1.1 =
        .error
          (.timeout (.ofId kind id) .delete "removal"
            tracked.timeouts.delete) ↔
      (replies 0).Accepts ∧
        ShowsFirst kind replies reads ∧
          deadline ≤ engine.timer.last ∧
            deadline ≤
              engine.deletionMoment tracked.timeouts now
                (reads - 1) := by
  intro deadline reads
  constructor
  · intro hLate
    rcases hOver.undecided_of_fault hId hLate nofun with
      ⟨hAccepts, hShown⟩
    rw [hOver.delete_of_undecided hId hAccepts hShown]
      at hLate
    split at hLate
    next hBoth =>
      exact ⟨hAccepts, hShown hBoth.1, hBoth⟩
    next => cases hLate
  · rintro ⟨hAccepts, hShown, hBoth⟩
    rw [hOver.delete_of_undecided hId hAccepts fun _ => hShown,
      if_pos hBoth]

/- The clock cannot tell a moment exactly when the deletion was
   accepted, and it cannot tell the deadline, or every read
   shows the object and the last one is made before the
   deadline. -/
theorem delete_panicked_iff
    (hOver : engine.OverReplies remote replies)
    (hId : tracked.objectId = .ok id)
    (kind : Kind)
    (now : Moment) :
    let deadline :=
      now + tracked.timeouts.delete.nanoseconds
    let reads := engine.deletionReads tracked.timeouts now
    ((engine.delete kind).run tracked ⟨now, []⟩).1.1 =
        .error .panicked ↔
      (replies 0).Accepts ∧
        (engine.timer.last < deadline ∨
          ShowsFirst kind replies reads ∧
            engine.deletionMoment tracked.timeouts now
                (reads - 1) <
              deadline) := by
  intro deadline reads
  constructor
  · intro hPanicked
    rcases hOver.undecided_of_fault hId hPanicked nofun with
      ⟨hAccepts, hShown⟩
    rw [hOver.delete_of_undecided hId hAccepts hShown]
      at hPanicked
    split at hPanicked
    next => cases hPanicked
    next hNot =>
      refine ⟨hAccepts, ?_⟩
      rcases Nat.lt_or_ge engine.timer.last deadline with
        hUntold | hTold
      · exact Or.inl hUntold
      · exact Or.inr
          ⟨hShown hTold,
            Nat.lt_of_not_le fun hLate => hNot ⟨hTold, hLate⟩⟩
  · rintro ⟨hAccepts, hUntold | ⟨hShown, hEarly⟩⟩
    · rw [hOver.delete_of_untold hId hAccepts hUntold]
    · rw [hOver.delete_of_undecided hId hAccepts
        fun _ => hShown,
        if_neg fun hBoth => Nat.not_le.2 hEarly hBoth.2]

------------------------------------------------------------
-- Creations
------------------------------------------------------------

/- A submission is one request, unless it has no
   namespace. -/
theorem run_create
    (hOver : engine.OverReplies remote replies)
    (object : Object kind)
    (now : Moment) :
    (Client.create engine.store object).run ⟨now, []⟩ =
      if object.prepareForCreate.metadata.namespaceName = ""
        then
        (.error (.client (kind.name ++ " has no namespace")),
          ⟨now, []⟩)
      else
        (Client.decoded kind
            (RemoteStore.answer none (replies 0)),
          ⟨now, [remote.submission object]⟩) := by
  rw [Client.create_eq, hOver.store,
    RemoteStore.run_create hOver.sendable]
  rfl

/- A submission that is answered with a fault ends the
   creation, and nothing is tracked. -/
theorem create_of_fails
    (hOver : engine.OverReplies remote replies)
    {wanted : Object kind}
    (hConfigured :
      configured kind .create tracked.config = .ok wanted)
    (hNamespace :
      (engine.inNamespace
        wanted).prepareForCreate.metadata.namespaceName ≠ "")
    {fault : StoreError}
    (hFails : Fails kind false (replies 0) fault)
    (now : Moment) :
    (engine.create kind).run tracked ⟨now, []⟩ =
      ((.error
          (.store
            ⟨kind,
              (engine.inNamespace
                wanted).metadata.namespaceName,
              (engine.inNamespace wanted).metadata.name⟩
            .create fault),
          tracked),
        ⟨now,
          [remote.submission (engine.inNamespace wanted)]⟩) := by
  have hFault :
      Client.decoded kind
          (RemoteStore.answer none (replies 0)) =
        .error fault :=
    RemoteStore.decoded_of_fails hFails
  have hRun := hOver.run_create (engine.inNamespace wanted) now
  rw [if_neg hNamespace, hFault] at hRun
  simp only [create_eq, hConfigured, hRun]

/- What was accepted was shown in the first reply. -/
theorem shows_of_accepted
    (hOver : engine.OverReplies remote replies)
    {wanted submitted : Object kind}
    {now : Moment}
    {between : Session (List HttpRequest)}
    (hAccepted :
      engine.Accepted tracked ⟨now, []⟩ wanted id submitted
        between) :
    (replies 0).Shows kind submitted ∧
      between =
        ⟨now,
          [remote.submission (engine.inNamespace wanted)]⟩ := by
  have hReply := hAccepted.reply
  rw [hOver.run_create] at hReply
  split at hReply
  · cases hReply
  · rcases Prod.mk.inj hReply with ⟨hDecoded, hBetween⟩
    exact ⟨RemoteStore.decoded_answer_eq_ok_iff.1 hDecoded,
      hBetween.symm⟩

/- The reads of a creation are answered in turn. -/
theorem watched
    (hOver : engine.OverReplies remote replies)
    {wanted submitted : Object kind}
    {now : Moment}
    {between : Session (List HttpRequest)}
    (hAccepted :
      engine.Accepted tracked ⟨now, []⟩ wanted id submitted
        between) :
    engine.Watched tracked ⟨now, []⟩ wanted id submitted
      between
      (remote.withReads kind id
        (remote.submission (engine.inNamespace wanted)))
      fun n =>
        RemoteStore.answer (some (address kind id))
          (replies (n + 1)) := by
  rcases hOver.shows_of_accepted hAccepted with ⟨_, hBetween⟩
  refine ⟨hAccepted, hOver.quiet, ?_, ?_⟩
  · rw [hBetween]
    rfl
  · intro n moment
    rw [hOver.store]
    exact RemoteStore.run_get_withReads hOver.sendable
      replies kind id
      (remote.submission (engine.inNamespace wanted)) n moment

end OverReplies

/- A creation does the same when its requests are noted. -/
theorem run_create_noted
    {σ : Type}
    (engine : Engine σ)
    (kind : Kind)
    (tracked : Tracked)
    (session : Session σ) :
    let made :=
      (engine.noted.create kind).run tracked
        (session.withNotes [])
    (engine.create kind).run tracked session =
      (made.1, made.2.plain) := by
  intro made
  rcases engine.follows_create kind tracked session [] with
    ⟨notes, _, hMade⟩
  unfold made
  rw [hMade]
  rfl

/- A creation that was accepted tracks the identity, and reads
   again only after replies that decide nothing. -/
theorem Watched.reads
    {σ : Type}
    {engine : Engine σ}
    {tracked : Tracked}
    {session between : Session σ}
    {wanted submitted : Object kind}
    {id : ObjectId}
    {states : Nat → σ}
    {replies : Nat → Except StoreError Json}
    (hWatched :
      engine.Watched tracked session wanted id submitted
        between states replies) :
    let made := (engine.create kind).run tracked session
    made.1.2.id = id.text ∧
      ∃ reads, made.2.state = states reads ∧
        ∀ n, n + 1 < reads → IsPending kind (replies n) := by
  intro made
  unfold made
  rw [run_create_noted]
  rcases Nat.lt_or_ge engine.timer.last
      (between.now + tracked.timeouts.create.nanoseconds) with
    hUntold | hTold
  · rw [hWatched.run_of_untold hUntold]
    exact ⟨rfl, 0, rfl, nofun⟩
  rcases exists_first_or_pending id replies
      ((engine.creationWait tracked.timeouts).sleeps
          engine.timer between.now +
        1) with
    ⟨first, result, hFirst, hPending, hSettles⟩ | hPending
  · rw [hWatched.run_of_settled hTold
      (Nat.le_of_lt_succ hFirst) hPending hSettles]
    exact ⟨rfl, first + 1, rfl, fun n hn =>
      hPending n (Nat.lt_of_succ_lt_succ hn)⟩
  · rw [hWatched.run_of_pending hTold fun n hn =>
      hPending n (Nat.lt_succ_of_le hn)]
    exact ⟨rfl, _, rfl, fun n hn =>
      hPending n (Nat.lt_of_succ_lt hn)⟩

/- A reply that decides nothing tells that there is no such
   object, or shows one that is not ready. -/
theorem status_or_shows_of_pending
    {coordinate : Coordinate}
    {reply : HttpReply}
    (hPending :
      IsPending kind
        (RemoteStore.answer (some coordinate) reply)) :
    reply.status = 404 ∨
      ∃ object, reply.Shows kind object ∧
        object.readiness = .pending := by
  generalize hAnswer :
    RemoteStore.answer (some coordinate) reply = answer
    at hPending
  cases hPending with
  | absent hAbsent =>
      rcases HttpReply.accepts_or_refuses true reply with
        ⟨_, hMissing⟩ | hAccepts | ⟨fault, hRefuses⟩
      · exact Or.inl hMissing
      · rcases RemoteStore.exists_answer_of_accepts
            (some coordinate) hAccepts with ⟨value, hValue⟩
        rw [hValue] at hAnswer
        cases hAnswer
      · have hSame :
            RemoteStore.answer (some coordinate) reply =
              .error fault :=
          RemoteStore.answer_of_refuses hRefuses
        rw [hSame] at hAnswer
        cases hAnswer
        rw [hRefuses.isNotFound] at hAbsent
        cases hAbsent
  | unready hRead hReadiness =>
      right
      have hDecoded := Client.decoded_eq_ok_iff.2
        ⟨_, hAnswer, hRead⟩
      exact ⟨_,
        RemoteStore.decoded_answer_eq_ok_iff.1 hDecoded,
        hReadiness⟩

namespace OverReplies

variable {engine : Engine (List HttpRequest)}
variable {remote : RemoteStore}
variable {tracked : Tracked}
variable {id : ObjectId}

/- Unless something was accepted, nothing is tracked, and
   there is one request at most. -/
theorem accepted_or_untracked
    (hOver : engine.OverReplies remote replies)
    (kind : Kind)
    (tracked : Tracked)
    (now : Moment) :
    let made := (engine.create kind).run tracked ⟨now, []⟩
    (∃ wanted id between, ∃ submitted : Object kind,
        engine.Accepted tracked ⟨now, []⟩ wanted id submitted
          between) ∨
      made.1.2 = tracked ∧ made.2.state.length ≤ 1 := by
  intro made
  unfold made
  rw [create_eq]
  cases hConfigured :
      configured kind .create tracked.config with
  | error fault => exact .inr ⟨rfl, Nat.zero_le _⟩
  | ok wanted =>
      have hLength :
          ((Client.create engine.store
              (engine.inNamespace wanted)).run
                ⟨now, []⟩).2.state.length ≤ 1 := by
        rw [hOver.run_create]
        split
        · exact Nat.zero_le _
        · exact Nat.le_refl _
      rcases hReply :
          (Client.create engine.store
            (engine.inNamespace wanted)).run ⟨now, []⟩ with
        ⟨fault | submitted, between⟩
      · rw [hReply] at hLength
        simp only [hReply]
        exact .inr ⟨trivial, hLength⟩
      · rw [hReply] at hLength
        cases hId : ObjectId.ofMeta submitted.metadata with
        | error fault =>
            simp only [hReply, hId]
            exact .inr ⟨trivial, hLength⟩
        | ok id =>
            exact .inl
              ⟨wanted, id, between, submitted, hConfigured,
                hReply, hId⟩

/- What a creation tracks was accepted and shown, with an
   identity, and then read. -/
theorem create_tracks
    (hOver : engine.OverReplies remote replies)
    (kind : Kind)
    (tracked : Tracked)
    (now : Moment) :
    let made := (engine.create kind).run tracked ⟨now, []⟩
    made.1.2 = tracked ∨
      ∃ object : Object kind,
        (replies 0).Shows kind object ∧
          object.metadata.namespaceName ≠ "" ∧
          object.metadata.name ≠ "" ∧
          made.1.2.id =
            ObjectId.text
              ⟨object.metadata.namespaceName,
                object.metadata.name⟩ ∧
          ∃ wanted : Object kind, ∃ reads,
            made.2.state =
              remote.withReads kind
                ⟨object.metadata.namespaceName,
                  object.metadata.name⟩
                (remote.submission wanted) reads := by
  intro made
  rcases hOver.accepted_or_untracked kind tracked now with
    ⟨wanted, id, between, submitted, hAccepted⟩ | hNone
  · rcases (hOver.watched hAccepted).reads with
      ⟨hTracked, reads, hState, _⟩
    rcases ObjectId.nonempty_of_ofMeta hAccepted.identity with
      ⟨hNamespace, hName⟩
    rw [ObjectId.eq_of_ofMeta hAccepted.identity]
      at hTracked hState hNamespace hName
    exact Or.inr
      ⟨submitted, (hOver.shows_of_accepted hAccepted).1,
        hNamespace, hName, hTracked, _, reads, hState⟩
  · exact Or.inl hNone.1

/- A creation asks on only after a reply that decides
   nothing. -/
theorem create_reads
    (hOver : engine.OverReplies remote replies)
    (kind : Kind)
    (tracked : Tracked)
    (now : Moment)
    {n : Nat}
    (hMore :
      n + 2 <
        ((engine.create kind).run tracked
          ⟨now, []⟩).2.state.length) :
    (replies (n + 1)).status = 404 ∨
      ∃ object, (replies (n + 1)).Shows kind object ∧
        object.readiness = .pending := by
  rcases hOver.accepted_or_untracked kind tracked now with
    ⟨wanted, id, between, submitted, hAccepted⟩ | hNone
  · rcases (hOver.watched hAccepted).reads.2 with
      ⟨reads, hState, hPending⟩
    rw [hState] at hMore
    simp only [RemoteStore.withReads, List.length_cons,
      List.length_replicate] at hMore
    exact status_or_shows_of_pending
      (hPending n (Nat.lt_of_succ_lt_succ hMore))
  · have hFew := hNone.2
    omega

end OverReplies

------------------------------------------------------------
-- Operations over a Server
------------------------------------------------------------

/-
  Over a server that replies at once, whatever it replies:

  A deletion forgets the identity if and only if the server
  tells that the object is gone, and the clock can tell the
  deadline of the reads that it tells this to. It takes too
  long if and only if it was accepted, every read shows the
  object, and the last read is made at such a deadline or
  later, which is so wherever the clock can tell an interval
  after the deadline, too. A moment that the clock cannot tell
  ends it in all other cases in which no reply does, and
  leaves the object tracked. So does a reply that is a fault.

  A creation tracks only what was accepted and shown with an
  identity. A submission that fails ends it, and no reply to a
  submission tells that there is no such object. It asks on
  only after replies that decide nothing.
-/
theorem replies_outcome_iff
    {engine : Engine (List HttpRequest)}
    {remote : RemoteStore}
    {replies : Nat → HttpReply}
    (hOver : engine.OverReplies remote replies)
    (kind : Kind)
    (tracked : Tracked)
    (now : Moment) :
    (∀ id, tracked.objectId = .ok id →
      let made := (engine.delete kind).run tracked ⟨now, []⟩
      let limit := tracked.timeouts.delete.nanoseconds
      let interval := engine.pollInterval.nanoseconds
      let deadline := now + limit
      let reads := engine.deletionReads tracked.timeouts now
      let moment := engine.deletionMoment tracked.timeouts now
      (made.1.2.id = "" ↔ made.1 = (.ok (), tracked.clear)) ∧
        (made.1.2.id = "" ↔
          (replies 0).status = 404 ∨
            deadline ≤ engine.timer.last ∧
              IsToldGone kind replies reads) ∧
        (made.1.1 =
            .error
              (.timeout (.ofId kind id) .delete "removal"
                tracked.timeouts.delete) ↔
          (replies 0).Accepts ∧
            ShowsFirst kind replies reads ∧
              deadline ≤ engine.timer.last ∧
                deadline ≤ moment (reads - 1)) ∧
        (made.1.1 = .error .panicked ↔
          (replies 0).Accepts ∧
            (engine.timer.last < deadline ∨
              ShowsFirst kind replies reads ∧
                moment (reads - 1) < deadline)) ∧
        (∀ fault, made.1.1 = .error fault →
          made.1.2 = tracked) ∧
        (∀ fault, Refuses true (replies 0) fault →
          made =
            ((.error (.store (.ofId kind id) .delete fault),
                tracked),
              ⟨now, remote.deletionRequests kind id 0⟩)) ∧
        (∀ n fault, n < reads → (replies 0).Accepts →
          deadline ≤ engine.timer.last →
            ShowsFirst kind replies n →
              Fails kind true (replies (n + 1)) fault →
                made =
                  ((.error
                      (.store (.ofId kind id) .delete fault),
                      tracked),
                    ⟨moment n,
                      remote.deletionRequests kind id
                        (n + 1)⟩)) ∧
        (deadline + interval ≤ engine.timer.last →
          ∀ n, moment n < deadline ↔ n + 1 < reads) ∧
        reads ≤ (limit + interval - 1) / interval + 1 ∧
        ∀ tick, 0 < tick →
          engine.timer.Ticks tick →
            tick ∣ now →
              let whole := Timer.nextTick tick interval
              (deadline + interval ≤ engine.timer.last →
                  reads = (limit + whole - 1) / whole + 1) ∧
                ∀ n,
                  moment n =
                    now +
                      min (n * whole)
                        (Timer.nextTick tick limit)) ∧
      let made := (engine.create kind).run tracked ⟨now, []⟩
      (made.1.2 = tracked ∨
        ∃ object : Object kind,
          (replies 0).Shows kind object ∧
            object.metadata.namespaceName ≠ "" ∧
            object.metadata.name ≠ "" ∧
            made.1.2.id =
              ObjectId.text
                ⟨object.metadata.namespaceName,
                  object.metadata.name⟩ ∧
            ∃ wanted : Object kind, ∃ reads,
              made.2.state =
                remote.withReads kind
                  ⟨object.metadata.namespaceName,
                    object.metadata.name⟩
                  (remote.submission wanted) reads) ∧
        (∀ wanted fault,
          configured kind .create tracked.config =
              .ok wanted →
            let object := engine.inNamespace wanted
            object.prepareForCreate.metadata.namespaceName ≠
                "" →
              Fails kind false (replies 0) fault →
                fault.isNotFound = false ∧
                  made =
                    ((.error
                        (.store
                          ⟨kind,
                            object.metadata.namespaceName,
                            object.metadata.name⟩
                          .create fault),
                        tracked),
                      ⟨now, [remote.submission object]⟩)) ∧
        ((replies 0).status = 404 →
          Fails kind false (replies 0)
            (.rejected 404
              (RemoteStore.refusal (replies 0).body))) ∧
        ∀ n, n + 2 < made.2.state.length →
          (replies (n + 1)).status = 404 ∨
            ∃ object, (replies (n + 1)).Shows kind object ∧
              object.readiness = .pending := by
  refine ⟨?_, ?_, ?_, ?_, ?_⟩
  · intro id hId made limit interval deadline reads moment
    have hPause :
        (engine.deletionWait tracked.timeouts).pause =
          interval :=
      Nat.max_eq_right hOver.interval
    rw [← hPause]
    refine ⟨?_, hOver.delete_clears_iff hId kind now,
      hOver.delete_timeout_iff hId kind now,
      hOver.delete_panicked_iff hId kind now, ?_, ?_, ?_, ?_,
      Nat.succ_le_succ (StateWait.sleeps_le _ _ _), ?_⟩
    · constructor
      · intro hCleared
        exact hOver.delete_of_isToldGone hId
          ((hOver.delete_clears_iff hId kind now).1 hCleared)
      · intro hMade
        rw [hMade]
        rfl
    · intro fault hFault
      rcases hOver.delete_cases hId kind now with
        hGone | ⟨lapse, hFailed⟩ | ⟨hAccepts, hShown⟩
      · rw [hOver.delete_of_isToldGone hId hGone] at hFault
        cases hFault
      · rw [hFailed]
      · rw [hOver.delete_of_undecided hId hAccepts hShown]
    · intro fault hRefuses
      exact hOver.delete_of_refuses hId hRefuses now
    · intro n fault hRound hAccepts hTold hShown hFails
      exact hOver.delete_of_fails hId hAccepts hTold hRound
        hShown hFails
    · intro hTold n
      exact (StateWait.moment_lt_iff hTold).trans
        Nat.succ_lt_succ_iff.symm
    · intro tick hTick hTicks hStart whole
      refine ⟨fun hTold => congrArg Nat.succ ?_, ?_⟩
      · exact StateWait.sleeps_of_ticks hTick hTicks hStart
          hTold
      · exact StateWait.moment_of_ticks hTick hTicks hStart
  · exact hOver.create_tracks kind tracked now
  · intro wanted fault hConfigured object hNamespace hFails
    exact ⟨hFails.isNotFound,
      hOver.create_of_fails hConfigured hNamespace hFails
        now⟩
  · intro hMissing
    have hRejected : Refuses false (replies 0) _ :=
      .rejected (HttpReply.isSuccess_of_missing hMissing)
        (by omega) nofun
    rw [hMissing] at hRejected
    exact .refused hRejected
  · intro n hMore
    exact hOver.create_reads kind tracked now hMore

/- A server that accepts the deletion of a run without a word,
   shows the run once, and then tells that there is none. -/
def goneReplies : Nat → HttpReply
  | 0 => ⟨202, " "⟩
  | 1 => ⟨200, (toldRun "Unknown").compact⟩
  | _ => ⟨404, ""⟩

/- The way to that server, with a token. -/
def goneRemote : RemoteStore :=
  ⟨⟨"http", some "127.0.0.1", some 8080, .segments [""],
      none⟩,
    [], some "secret", .zero⟩

/- An engine that reads every two milliseconds. -/
def goneEngine : Engine (List HttpRequest) :=
  ⟨goneRemote.store (.replying goneReplies), "default",
    ⟨2000000, by decide⟩, .standard, .never⟩

/- The run, which may take so long to go. -/
def goneRun (limit : Duration) : Tracked :=
  { Tracked.ofId "ci/build" with
    timeouts := ⟨.zero, limit⟩ }

/- The second read finds no run, so the run is gone, if it may
   take five milliseconds. If it may take 300000000000 years,
   it is tracked on, though the server tells the same. -/
theorem replies_outcome_iff_gone :
    let short := goneRun ⟨5000000, by decide⟩
    let long :=
      goneRun ⟨9467280000000000000000000000, by decide⟩
    goneEngine.OverReplies goneRemote goneReplies ∧
      ((goneEngine.delete .taskRun).run short
            ⟨0, []⟩).1.2.id =
          "" ∧
        IsToldGone .taskRun goneReplies
            (goneEngine.deletionReads long.timeouts 0) ∧
          ((goneEngine.delete .taskRun).run long
                ⟨0, []⟩).1 =
            (.error .panicked, long) := by
  intro short long
  have hOver :
      goneEngine.OverReplies goneRemote goneReplies :=
    { store := rfl
      sendable := by
        rintro token ⟨rfl⟩
        decide
      quiet := Signal.isQuiet_never
      interval := by decide }
  have hRead :
      ((Json.readNested? (goneReplies 1).body).bind
          fun value =>
            Object.decode? .taskRun value.canonical).isSome =
        true := by
    decide +kernel
  rcases Option.isSome_iff_exists.1 hRead with
    ⟨object, hObject⟩
  rcases Option.bind_eq_some_iff.1 hObject with
    ⟨value, hValue, hDecode⟩
  have hShows : (goneReplies 1).Shows .taskRun object :=
    ⟨rfl, by decide +kernel, value, hValue, hDecode⟩
  have hAccepts : (goneReplies 0).Accepts :=
    ⟨rfl, Or.inl (by decide +kernel)⟩
  have hGone :
      ∀ reads, 1 < reads →
        IsToldGone .taskRun goneReplies reads := by
    intro reads hReads
    refine Or.inr ⟨hAccepts, 1, hReads, rfl, ?_⟩
    intro n hn
    rw [Nat.lt_one_iff.1 hn]
    exact ⟨object, hShows⟩
  have hId :
      ObjectId.parse "ci/build" = .ok ⟨"ci", "build"⟩ := by
    rfl
  have hShort :
      1 < goneEngine.deletionReads short.timeouts 0 :=
    Nat.succ_lt_succ
      (StateWait.sleeps_pos (by decide +kernel))
  have hLong :
      1 < goneEngine.deletionReads long.timeouts 0 :=
    Nat.succ_lt_succ
      (StateWait.sleeps_pos (by decide +kernel))
  rcases (replies_outcome_iff hOver .taskRun short 0).1
      ⟨"ci", "build"⟩ hId with
    ⟨-, hCleared, -⟩
  rcases (replies_outcome_iff hOver .taskRun long 0).1
      ⟨"ci", "build"⟩ hId with
    ⟨-, -, -, hPanicked, hKept, -⟩
  have hEnd :=
    hPanicked.2 ⟨hAccepts, Or.inl (by decide)⟩
  refine ⟨hOver, ?_, hGone _ hLong, ?_⟩
  · exact hCleared.2 (Or.inr ⟨by decide, hGone _ hShort⟩)
  · exact Prod.ext hEnd (hKept _ hEnd)

end Engine

end Converge
