import Mathlib.Data.List.Nodup
import Mathlib.Data.List.Perm.Subperm
import Converge.Proofs.Lifecycle.Convergence
import Converge.Proofs.Lifecycle.Interleaving
import Converge.Proofs.Store.Merging

/-
  Clients that update one object at the same time.

  Several clients hold the same snapshot of an object, and
  the diffs towards what they want lie apart. Then all their
  updates succeed, in whatever order the store carries out
  their calls, and the object is the same in the end. It is
  at each place as the client wants it that said something
  there, and nothing else of it has changed.

  Key definitions:
    * `Engine.Rivals`: such clients
    * `Engine.Stage`: how far the update of a client has come
    * `Engine.Underway`: the store and the clients meanwhile

  Main declarations:
    * `Engine.Underway.turn`: what each turn preserves
    * `Engine.rivals_merge`: any number of clients
    * `Engine.updates_merge`: two clients
-/

namespace Converge

namespace Engine

open MemoryStore (Managed Kept InSight Merged Unspoilt address)

variable {ι : Type}
variable {kind : Kind}

------------------------------------------------------------
-- Clients of One Object
------------------------------------------------------------

/- Clients that track one object in sight, hold the same
   snapshot of it, and want things that lie apart. -/
structure Rivals
    (id : ObjectId)
    (memory : MemoryStore)
    (stored : StoredObject)
    (found : Object kind)
    (clients : List ι)
    (tracked : ι → Tracked)
    (wanted : ι → Object kind) : Prop where
  everyone : ∀ client, client ∈ clients
  kept : Kept kind id memory.nextVersion stored.object
  isStored :
    memory.stored? (address kind id) = some stored
  inSight : InSight clients.length stored
  isFound : Object.decode? kind stored.object = some found
  prepared :
    ∀ client,
      Prepared (tracked client) id (wanted client)
        found.settled
  apart :
    ∀ one other, one ≠ other →
      ((wanted one).diff found).Apart
        ((wanted other).diff found)

/- What comes next in the update of each client. -/
def updates
    (engine : ι → Engine MemoryStore)
    (kind : Kind)
    (tracked : ι → Tracked)
    (client : ι)
    (answers : List Answer) :
    Progress :=
  ((engine client).awaiting.update kind).progress
    (tracked client) answers

/- How many calls an update with a document makes. -/
def updateCalls (document : PatchDocument) : Nat :=
  if document = [] then 1 else 2

/- A prepared update makes the calls of its document. -/
theorem progress_of_prepared
    (engine : Engine MemoryStore)
    {tracked : Tracked}
    {id : ObjectId}
    {wanted previous : Object kind}
    (hPrepared : Prepared tracked id wanted previous)
    (answers : List Answer) :
    (engine.awaiting.update kind).progress tracked answers =
      updateProgress kind tracked id (wanted.diff previous)
        answers := by
  rw [progress_update, hPrepared.identity,
    hPrepared.configured, hPrepared.document]

------------------------------------------------------------
-- Stages of an Update
------------------------------------------------------------

/- How far the update of a client has come, by the answers
   that it got: whether it has sent its document, if that is
   not idle, and whether it has seen the object. -/
inductive Stage
    (kind : Kind)
    (idle sent seen : Prop) :
    List Answer → Prop
  | ready :
      ¬sent → ¬seen → Stage kind idle sent seen []
  | patched
      {reply : Answer}
      {object : Object kind} :
      ¬idle → sent → ¬seen →
        Client.decoded kind reply = .ok object →
          Stage kind idle sent seen [reply]
  | read
      {reply : Answer}
      {object : Object kind} :
      idle → ¬sent → seen →
        Client.decoded kind reply = .ok object →
          Stage kind idle sent seen [reply]
  | readBack
      {reply last : Answer}
      {object later : Object kind} :
      ¬idle → sent → seen →
        Client.decoded kind reply = .ok object →
          Client.decoded kind last = .ok later →
            Stage kind idle sent seen [reply, last]

namespace Stage

variable {idle sent seen : Prop}
variable {answers : List Answer}

/- The stage of a client depends on the client alone. -/
theorem congr
    {sentToo seenToo : Prop}
    (h : Stage kind idle sent seen answers)
    (hSent : sent ↔ sentToo)
    (hSeen : seen ↔ seenToo) :
    Stage kind idle sentToo seenToo answers := by
  rw [← propext hSent, ← propext hSeen]
  exact h

/- A client that has not seen the object yet sends its
   document, unless it was sent or is idle, and then reads.
   Otherwise its update is over. -/
theorem next
    (tracked : Tracked)
    (id : ObjectId)
    {document : PatchDocument}
    (h : Stage kind (document = []) sent seen answers) :
    (¬sent ∧ ¬seen ∧ document ≠ [] ∧ answers = [] ∧
        updateProgress kind tracked id document answers =
          .waits (.patch (address kind id) document.text)) ∨
      (¬seen ∧ (document = [] ∨ sent) ∧
        answers.length + 1 = updateCalls document ∧
        updateProgress kind tracked id document answers =
          .waits (.get (address kind id))) ∨
      (seen ∧ (document = [] ∨ sent) ∧
        answers.length = updateCalls document ∧
        ∃ object : Object kind,
          updateProgress kind tracked id document answers =
            .ends (.ok ())
              (tracked.observed object.flatten)) := by
  unfold updateProgress updateCalls
  cases h with
  | ready hSent hSeen =>
      by_cases hEmpty : document = []
      · refine Or.inr (Or.inl ⟨hSeen, Or.inl hEmpty, ?_, ?_⟩)
        · rw [if_pos hEmpty]
          rfl
        · rw [if_pos hEmpty]
          rfl
      · refine Or.inl ⟨hSent, hSeen, hEmpty, rfl, ?_⟩
        rw [if_neg hEmpty]
  | patched hIdle hSent hSeen hReply =>
      refine Or.inr (Or.inl ⟨hSeen, Or.inr hSent, ?_, ?_⟩)
      · rw [if_neg hIdle]
        rfl
      · simp only [if_neg hIdle, hReply, readProgress]
  | @read _ object hIdle hSent hSeen hReply =>
      refine Or.inr
        (Or.inr ⟨hSeen, Or.inl hIdle, ?_, object, ?_⟩)
      · rw [if_pos hIdle]
        rfl
      · rw [if_pos hIdle, readProgress, hReply]
  | @readBack _ _ _ later hIdle hSent hSeen hReply hLast =>
      refine Or.inr
        (Or.inr ⟨hSeen, Or.inr hSent, ?_, later, ?_⟩)
      · rw [if_neg hIdle]
        rfl
      · simp only [if_neg hIdle, hReply, readProgress, hLast]

/- No client gets more answers than its update makes calls. -/
theorem length_le
    {document : PatchDocument}
    (h : Stage kind (document = []) sent seen answers) :
    answers.length ≤ updateCalls document := by
  cases h with
  | ready _ _ => exact Nat.zero_le _
  | patched hIdle _ _ _ => simp [updateCalls, hIdle]
  | read hIdle _ _ _ => simp [updateCalls, hIdle]
  | readBack hIdle _ _ _ _ => simp [updateCalls, hIdle]

/- Idle clients send nothing. -/
theorem not_idle
    (h : Stage kind idle sent seen answers)
    (hSent : sent) :
    ¬idle := by
  cases h with
  | ready hNot _ => exact absurd hSent hNot
  | patched hIdle _ _ _ => exact hIdle
  | read _ hNot _ _ => exact absurd hSent hNot
  | readBack hIdle _ _ _ _ => exact hIdle

/- The answer to its document is a step of a client, -/
theorem send
    {reply : Answer}
    {object : Object kind}
    (hIdle : ¬idle)
    (hSeen : ¬seen)
    (hReply : Client.decoded kind reply = .ok object) :
    Stage kind idle True seen [reply] :=
  .patched hIdle trivial hSeen hReply

/- and so is the object that it reads in the end. -/
theorem see
    {reply : Answer}
    {object : Object kind}
    (h : Stage kind idle sent seen answers)
    (hSeen : ¬seen)
    (hReady : idle ∨ sent)
    (hReply : Client.decoded kind reply = .ok object) :
    Stage kind idle sent True (answers ++ [reply]) := by
  cases h with
  | ready hSent _ =>
      exact .read (hReady.resolve_right hSent) hSent trivial
        hReply
  | patched hIdle hSent _ hFirst =>
      exact .readBack hIdle hSent trivial hFirst hReply
  | read _ _ hThere _ => exact absurd hThere hSeen
  | readBack _ _ hThere _ _ => exact absurd hThere hSeen

end Stage

------------------------------------------------------------
-- Updates under Way
------------------------------------------------------------

/-
  The store and its clients while their updates are under
  way. Some clients have sent their documents, in a certain
  order, and some have seen the object.
-/
structure Underway
    (id : ObjectId)
    (memory : MemoryStore)
    (stored : StoredObject)
    (found : Object kind)
    (clients : List ι)
    (wanted : ι → Object kind)
    (sent seen : List ι)
    (race : Race ι) : Prop where
  sentOnce : sent.Nodup
  seenOnce : seen.Nodup
  stages :
    ∀ client,
      Stage kind ((wanted client).diff found = [])
        (client ∈ sent) (client ∈ seen) (race.answers client)
  document :
    ∃ document left,
      race.memory.stored? (address kind id) =
          some
            { stored with
              object := document
              lingeringReads := left } ∧
        InSight (clients.length - seen.length)
            { stored with
              object := document
              lingeringReads := left } ∧
        Merged found memory.nextVersion (sent.map wanted)
          stored.object document
  nextVersion :
    race.memory.nextVersion =
      memory.nextVersion + sent.length
  elsewhere :
    ∀ other, other ≠ address kind id →
      race.memory.stored? other = memory.stored? other

section Underway

variable {id : ObjectId}
variable {memory : MemoryStore}
variable {stored : StoredObject}
variable {found : Object kind}
variable {clients : List ι}
variable {tracked : ι → Tracked}
variable {wanted : ι → Object kind}
variable {sent seen : List ι}
variable {race : Race ι}

theorem Rivals.underway_start
    (hRivals :
      Rivals id memory stored found clients tracked wanted) :
    Underway id memory stored found clients wanted [] []
      (Race.start memory) where
  sentOnce := .nil
  seenOnce := .nil
  stages _ := .ready List.not_mem_nil List.not_mem_nil
  document :=
    ⟨stored.object, stored.lingeringReads, hRivals.isStored,
      hRivals.inSight,
      .nil hRivals.kept.conforms hRivals.isFound⟩
  nextVersion := rfl
  elsewhere _ _ := rfl

/- The diffs of some clients lie apart. -/
theorem Rivals.pairwise_apart
    (hRivals :
      Rivals id memory stored found clients tracked wanted)
    {some : List ι}
    (hOnce : some.Nodup) :
    (some.map wanted).Pairwise fun left right =>
      (left.diff found).Apart (right.diff found) := by
  apply List.pairwise_map.2
  exact hOnce.imp fun hNe => hRivals.apart _ _ hNe

/- What comes next for one of the clients. -/
theorem Rivals.updates_eq
    (engine : ι → Engine MemoryStore)
    (hRivals :
      Rivals id memory stored found clients tracked wanted)
    (client : ι)
    (answers : List Answer) :
    updates engine kind tracked client answers =
      updateProgress kind (tracked client) id
        ((wanted client).diff found) answers := by
  have hDiff :=
    (wanted client).diff_congr found.sameMutable_settled
  rw [← hDiff]
  exact (engine client).progress_of_prepared
    (hRivals.prepared client) answers

/- Once each client has had a turn for each of its calls, all
   updates have succeeded, and all documents were sent. -/
theorem Underway.over
    (engine : ι → Engine MemoryStore)
    (hRivals :
      Rivals id memory stored found clients tracked wanted)
    (h :
      Underway id memory stored found clients wanted sent seen
        race)
    (hOver :
      ∀ client,
        (race.answers client).length =
          updateCalls ((wanted client).diff found)) :
    (∀ client,
        client ∈ sent ↔ (wanted client).diff found ≠ []) ∧
      ∀ client, ∃ object : Object kind,
        updates engine kind tracked client
            (race.answers client) =
          .ends (.ok ())
            ((tracked client).observed object.flatten) := by
  have hLast :
      ∀ client,
        ((wanted client).diff found = [] ∨ client ∈ sent) ∧
          ∃ object : Object kind,
            updates engine kind tracked client
                (race.answers client) =
              .ends (.ok ())
                ((tracked client).observed
                  object.flatten) := by
    intro client
    have hLength := hOver client
    rcases (h.stages client).next (tracked client) id with
      ⟨_, _, hSome, hFirst, _⟩ |
        ⟨_, _, hMore, _⟩ | ⟨_, hReady, _, object, hEnds⟩
    · rw [hFirst, updateCalls, if_neg hSome] at hLength
      cases hLength
    · omega
    · exact ⟨hReady, object,
        (hRivals.updates_eq engine client _).trans hEnds⟩
  refine ⟨fun client => ⟨?_, ?_⟩, fun client =>
    (hLast client).2⟩
  · exact (h.stages client).not_idle
  · exact (hLast client).1.resolve_left

variable [DecidableEq ι]

/- The document of a client is accepted. -/
theorem Underway.patched
    (hRivals :
      Rivals id memory stored found clients tracked wanted)
    (h :
      Underway id memory stored found clients wanted sent seen
        race)
    {client : ι}
    (hSent : client ∉ sent)
    (hSeen : client ∉ seen)
    (hSome : (wanted client).diff found ≠ [])
    (hFirst : race.answers client = []) :
    Underway id memory stored found clients wanted
      (sent ++ [client]) seen
      (race.carryOut client
        (.patch (address kind id)
          ((wanted client).diff found).text)) := by
  rcases h.document with
    ⟨document, left, hStored, hInSight, hMerged⟩
  have hOnce : (sent ++ [client]).Nodup := by
    rw [← List.concat_eq_append]
    exact List.Nodup.concat hSent h.sentOnce
  have hApart := hRivals.pairwise_apart hOnce
  rw [List.map_append, List.map_singleton] at hApart
  have hVersion :
      race.memory.nextVersion =
        memory.nextVersion + (sent.map wanted).length := by
    rw [List.length_map]
    exact h.nextVersion
  rcases hMerged.accepted hRivals.kept hRivals.isFound hApart
      hStored rfl hVersion with
    ⟨next, hPatch, hNext⟩
  have hCall :
      race.memory.respond
          (.patch (address kind id)
            ((wanted client).diff found).text) = _ := hPatch
  rcases hNext.read with ⟨object, hObject⟩
  have hReply :=
    Client.decoded_eq_ok_iff.2 ⟨_, rfl, hObject⟩
  refine
    { sentOnce := hOnce
      seenOnce := h.seenOnce
      stages := ?_
      document := ?_
      nextVersion := ?_
      elsewhere := ?_ }
  · intro other
    rw [Race.answers_carryOut, hCall]
    by_cases hOther : other = client
    · subst hOther
      rw [if_pos rfl, hFirst, List.nil_append]
      exact (Stage.send hSome hSeen hReply).congr (by simp)
        Iff.rfl
    · rw [if_neg hOther]
      exact (h.stages other).congr (by simp [hOther]) Iff.rfl
  · rw [Race.carryOut, hCall]
    refine ⟨next, left, ?_,
      ⟨hInSight.visible, hInSight.stays⟩, ?_⟩
    · rw [MemoryStore.stored?_accept, if_pos rfl]
    · rw [List.map_append, List.map_singleton]
      exact hNext
  · rw [Race.carryOut, hCall, List.length_append,
      List.length_singleton, ← Nat.add_assoc,
      ← h.nextVersion]
    rfl
  · intro other hOther
    rw [Race.carryOut, hCall]
    refine Eq.trans ?_ (h.elsewhere other hOther)
    rw [MemoryStore.stored?_accept, if_neg hOther]

/- The object is seen by a client. -/
theorem Underway.looked
    (hRivals :
      Rivals id memory stored found clients tracked wanted)
    (h :
      Underway id memory stored found clients wanted sent seen
        race)
    {client : ι}
    (hSeen : client ∉ seen)
    (hReady :
      (wanted client).diff found = [] ∨ client ∈ sent) :
    Underway id memory stored found clients wanted sent
      (seen ++ [client])
      (race.carryOut client (.get (address kind id))) := by
  rcases h.document with
    ⟨document, left, hStored, hInSight, hMerged⟩
  have hOnce : (seen ++ [client]).Nodup := by
    rw [← List.concat_eq_append]
    exact List.Nodup.concat hSeen h.seenOnce
  -- the clients that have seen the object are not all of them
  have hFewer : (seen ++ [client]).length ≤ clients.length :=
    (List.Nodup.subperm hOnce fun one _ =>
      hRivals.everyone one).length_le
  rw [List.length_append, List.length_singleton] at hFewer
  have hOneMore :
      clients.length - seen.length =
        clients.length - (seen.length + 1) + 1 := by
    omega
  rw [hOneMore] at hInSight
  rcases MemoryStore.get_of_inSight hStored hInSight with
    ⟨rest, after, hGet, hRest, hAfter, hOthers, hVersion⟩
  have hCall :
      race.memory.respond (.get (address kind id)) = _ := hGet
  rcases hMerged.read with ⟨object, hObject⟩
  have hReply :=
    Client.decoded_eq_ok_iff.2 ⟨_, rfl, hObject⟩
  refine
    { sentOnce := h.sentOnce
      seenOnce := hOnce
      stages := ?_
      document := ?_
      nextVersion := ?_
      elsewhere := ?_ }
  · intro other
    rw [Race.answers_carryOut, hCall]
    by_cases hOther : other = client
    · subst hOther
      rw [if_pos rfl]
      exact ((h.stages other).see hSeen hReady hReply).congr
        Iff.rfl (by simp)
    · rw [if_neg hOther]
      exact (h.stages other).congr Iff.rfl (by simp [hOther])
  · rw [Race.carryOut, hCall, List.length_append,
      List.length_singleton]
    exact ⟨document, rest, hAfter, hRest, hMerged⟩
  · rw [Race.carryOut, hCall]
    exact hVersion.trans h.nextVersion
  · intro other hOther
    rw [Race.carryOut, hCall]
    exact (hOthers other hOther).trans
      (h.elsewhere other hOther)

/- With each turn the update of a client goes on by one call,
   unless it is over. -/
theorem Underway.turn
    (engine : ι → Engine MemoryStore)
    (hRivals :
      Rivals id memory stored found clients tracked wanted)
    (h :
      Underway id memory stored found clients wanted sent seen
        race)
    (client : ι) :
    ∃ sentToo seenToo,
      Underway id memory stored found clients wanted sentToo
          seenToo
          (race.turn (updates engine kind tracked) client) ∧
        ∀ other,
          ((race.turn (updates engine kind tracked)
              client).answers other).length =
            min
              ((race.answers other).length +
                if other = client then 1 else 0)
              (updateCalls ((wanted other).diff found)) := by
  have hOthers :
      ∀ other,
        (race.answers other).length ≤
          updateCalls ((wanted other).diff found) :=
    fun other => (h.stages other).length_le
  have hNext := hRivals.updates_eq engine client
    (race.answers client)
  -- one more answer, where there was room for it
  have hCarried :
      ∀ call,
        (race.answers client).length + 1 ≤
            updateCalls ((wanted client).diff found) →
          ∀ other,
            ((race.carryOut client call).answers other).length =
              min
                ((race.answers other).length +
                  if other = client then 1 else 0)
                (updateCalls ((wanted other).diff found)) := by
    intro call hRoom other
    rw [Race.length_answers_carryOut]
    refine (Nat.min_eq_left ?_).symm
    by_cases hOther : other = client
    · rw [if_pos hOther, hOther]
      exact hRoom
    · rw [if_neg hOther]
      exact hOthers other
  rcases (h.stages client).next (tracked client) id with
    ⟨hSent, hSeen, hSome, hFirst, hCall⟩ |
      ⟨hSeen, hReady, hLength, hCall⟩ |
      ⟨hSeen, hReady, hLength, object, hCall⟩
  · rw [Race.turn_of_waits _ _ (hNext.trans hCall)]
    refine ⟨_, _, h.patched hRivals hSent hSeen hSome hFirst,
      hCarried _ ?_⟩
    rw [hFirst, updateCalls, if_neg hSome]
    decide
  · rw [Race.turn_of_waits _ _ (hNext.trans hCall)]
    exact ⟨_, _, h.looked hRivals hSeen hReady,
      hCarried _ (Nat.le_of_eq hLength)⟩
  · rw [Race.turn_of_ends _ _ (hNext.trans hCall)]
    refine ⟨_, _, h, fun other => ?_⟩
    by_cases hOther : other = client
    · subst hOther
      simp only [if_true]
      omega
    · simp only [if_neg hOther]
      have hLength := hOthers other
      omega

/- So it is after any turns. -/
theorem Underway.turns
    (engine : ι → Engine MemoryStore)
    (hRivals :
      Rivals id memory stored found clients tracked wanted)
    (h :
      Underway id memory stored found clients wanted sent seen
        race)
    (schedule : List ι) :
    ∃ sentToo seenToo,
      Underway id memory stored found clients wanted sentToo
          seenToo
          (race.turns (updates engine kind tracked)
            schedule) ∧
        ∀ other,
          ((race.turns (updates engine kind tracked)
              schedule).answers other).length =
            min
              ((race.answers other).length +
                schedule.count other)
              (updateCalls ((wanted other).diff found)) := by
  induction schedule generalizing sent seen race with
  | nil =>
      refine ⟨sent, seen, h, fun other => ?_⟩
      have hLength := (h.stages other).length_le
      simp only [Race.turns, List.foldl_nil, List.count_nil]
      omega
  | cons client rest ih =>
      rcases h.turn engine hRivals client with
        ⟨sentFirst, seenFirst, hFirst, hOne⟩
      rcases ih hFirst with ⟨sentToo, seenToo, hLast, hRest⟩
      refine ⟨sentToo, seenToo, hLast, fun other => ?_⟩
      refine (hRest other).trans ?_
      rw [hOne other, List.count_cons]
      by_cases hOther : other = client
      · subst hOther
        simp only [if_true, beq_self_eq_true]
        omega
      · have hNot : (client == other) = false :=
          beq_false_of_ne (Ne.symm hOther)
        simp only [if_neg hOther, hNot, Bool.false_eq_true,
          if_false]
        omega

/- All clients have had their turns. -/
theorem Rivals.exists_over
    (engine : ι → Engine MemoryStore)
    (hRivals :
      Rivals id memory stored found clients tracked wanted)
    (hOnce : clients.Nodup)
    {schedule : List ι}
    (hTurns :
      ∀ client,
        updateCalls ((wanted client).diff found) ≤
          schedule.count client) :
    let race :=
      (Race.start memory).turns
        (updates engine kind tracked) schedule
    ∃ sent seen,
      Underway id memory stored found clients wanted sent seen
          race ∧
        List.Perm (sent.map wanted)
          ((clients.map wanted).filter fun object =>
            object.diff found ≠ []) ∧
        ∀ client, ∃ object : Object kind,
          updates engine kind tracked client
              (race.answers client) =
            .ends (.ok ())
              ((tracked client).observed object.flatten) := by
  intro race
  rcases hRivals.underway_start.turns engine hRivals
      schedule with
    ⟨sent, seen, hUnderway, hLengths⟩
  rcases hUnderway.over engine hRivals fun client => by
      have hEnough := hTurns client
      rw [hLengths client]
      simp only [Race.start, List.length_nil]
      omega with
    ⟨hSent, hEnds⟩
  refine ⟨sent, seen, hUnderway, ?_, hEnds⟩
  have hOrder :
      List.Perm sent
        (clients.filter fun client =>
          (wanted client).diff found ≠ []) := by
    apply (List.perm_ext_iff_of_nodup hUnderway.sentOnce
      (hOnce.filter _)).2
    intro client
    simp [hSent client, hRivals.everyone client]
  rw [List.filter_map]
  exact hOrder.map wanted

end Underway

------------------------------------------------------------
-- What Becomes of the Object
------------------------------------------------------------

/-
  Clients whose diffs lie apart do not get into each other's
  way. In whatever order the store carries out their calls,
  all updates succeed, and the object is the same in the end.
  It has at each place of a diff what the client wants there,
  is as before elsewhere, and its generation has grown by
  the number of diffs that concern the specification.
-/
theorem rivals_merge
    [DecidableEq ι]
    (engine : ι → Engine MemoryStore)
    {id : ObjectId}
    {memory : MemoryStore}
    {stored : StoredObject}
    {found : Object kind}
    {clients : List ι}
    {tracked : ι → Tracked}
    {wanted : ι → Object kind}
    (hRivals :
      Rivals id memory stored found clients tracked wanted)
    (hOnce : clients.Nodup) :
    ∃ document, ∃ reached : Object kind,
      Object.decode? kind document = some reached ∧
        reached.metadata.generation =
          found.metadata.generation +
            .ofNat
              (MemoryStore.specChanges found
                (clients.map wanted)) ∧
        Unspoilt found (clients.map wanted) stored.object
          document ∧
        ∀ schedule : List ι,
          (∀ client,
            updateCalls ((wanted client).diff found) ≤
              schedule.count client) →
            let race :=
              (Race.start memory).turns
                (updates engine kind tracked) schedule
            (∀ client, ∃ object : Object kind,
              updates engine kind tracked client
                  (race.answers client) =
                .ends (.ok ())
                  ((tracked client).observed
                    object.flatten)) ∧
              (∃ left,
                race.memory.stored? (address kind id) =
                  some
                    { stored with
                      object := document
                      lingeringReads := left }) ∧
              ∀ other, other ≠ address kind id →
                race.memory.stored? other =
                  memory.stored? other := by
  have hConforms := hRivals.kept.conforms
  have hFound := hRivals.isFound
  have hTwice :
      ∀ client,
        updateCalls ((wanted client).diff found) ≤
          (clients ++ clients).count client := by
    intro client
    have hOne : 0 < clients.count client :=
      List.count_pos_iff.2 (hRivals.everyone client)
    rw [List.count_append, updateCalls]
    split <;> omega
  rcases hRivals.exists_over engine hOnce hTwice with
    ⟨sent, seen, hFirst, hOrder, -⟩
  rcases hFirst.document with ⟨document, -, -, -, hMerged⟩
  rcases hMerged.read with ⟨reached, hReached⟩
  have hApart := hRivals.pairwise_apart hFirst.sentOnce
  refine ⟨document, reached, hReached, ?_, ?_, ?_⟩
  · have hChanges :
        MemoryStore.specChanges found (sent.map wanted) =
          MemoryStore.specChanges found
            (clients.map wanted) :=
      (hOrder.countP_eq _).trans
        (MemoryStore.specChanges_filter found _)
    rw [← hChanges]
    exact hMerged.generation_eq hConforms hFound hReached
  · refine (hMerged.unspoilt hConforms hFound
      hApart).of_rest_empty ?_ ?_
    · intro object hObject
      exact (List.mem_filter.1
        (hOrder.mem_iff.1 hObject)).1
    · intro object hObject
      by_cases hEmpty : object.diff found = []
      · exact Or.inr hEmpty
      · exact Or.inl (hOrder.mem_iff.2
          (List.mem_filter.2 ⟨hObject, by simpa using hEmpty⟩))
  · intro schedule hTurns race
    rcases hRivals.exists_over engine hOnce hTurns with
      ⟨sentToo, seenToo, hUnderway, hOrderToo, hEnds⟩
    rcases hUnderway.document with
      ⟨also, left, hStored, -, hAlso⟩
    have hSame : also = document :=
      hMerged.eq_of_perm hAlso hConforms hFound hApart
        (hOrderToo.trans hOrder.symm)
    rw [hSame] at hStored
    exact ⟨hEnds, ⟨left, hStored⟩, hUnderway.elsewhere⟩

------------------------------------------------------------
-- Two Clients
------------------------------------------------------------

/- One of two clients. -/
inductive Party where
  | first
  | second
deriving DecidableEq

/-
  Two updates with diffs that lie apart lose nothing. An
  object came about through clients, is in sight for a read
  of each, and both hold its snapshot. Whatever valid things
  they want of it, both updates succeed in each order of
  their calls, of which there is one for an empty diff and
  two otherwise. In all of these orders the object is the
  same in the end, even in its version, and no other object
  is changed.
-/
theorem updates_merge
    (engine : Party → Engine MemoryStore)
    {id : ObjectId}
    {memory : MemoryStore}
    {stored : StoredObject}
    {tracked : Party → Tracked}
    {found : Object kind}
    {wanted : Party → Object kind}
    (hManaged : Managed kind id memory)
    (hStored :
      memory.stored? (address kind id) = some stored)
    (hInSight : InSight 2 stored)
    (hFound :
      Object.decode? kind stored.object = some found)
    (hFilled : found.Filled)
    (hId : ∀ party, (tracked party).objectId = .ok id)
    (hState :
      ∀ party, (tracked party).state = some found.flatten)
    (hValid :
      ∀ party,
        Object.validate kind (tracked party).config = .ok ())
    (hWanted :
      ∀ party,
        Object.expand kind (tracked party).config =
          .ok (wanted party))
    (hApart :
      ((wanted .first).diff found).Apart
        ((wanted .second).diff found)) :
    ∃ document, ∃ reached : Object kind,
      Object.decode? kind document = some reached ∧
        reached.metadata.generation =
          found.metadata.generation +
            .ofNat
              (MemoryStore.specChanges found
                [wanted .first, wanted .second]) ∧
        Unspoilt found [wanted .first, wanted .second]
          stored.object document ∧
        ∀ schedule : List Party,
          (∀ party,
            updateCalls ((wanted party).diff found) ≤
              schedule.count party) →
            let race :=
              (Race.start memory).turns
                (updates engine kind tracked) schedule
            (∀ party, ∃ object : Object kind,
              updates engine kind tracked party
                  (race.answers party) =
                .ends (.ok ())
                  ((tracked party).observed
                    object.flatten)) ∧
              (∃ left,
                race.memory.stored? (address kind id) =
                  some
                    { stored with
                      object := document
                      lingeringReads := left }) ∧
              ∀ other, other ≠ address kind id →
                race.memory.stored? other =
                  memory.stored? other := by
  have hRivals :
      Rivals id memory stored found [.first, .second] tracked
        wanted :=
    { everyone := fun party => by cases party <;> simp
      kept := hManaged.kept hStored
      isStored := hStored
      inSight := hInSight
      isFound := hFound
      prepared := fun party =>
        { identity := hId party
          valid := hValid party
          wanted := hWanted party
          previous := by
            rw [hState party]
            exact found.expand_flatten.ok hFilled }
      apart := fun one other hNe => by
        cases one <;> cases other
        · exact absurd rfl hNe
        · exact hApart
        · exact hApart.symm
        · exact absurd rfl hNe }
  have hMerge := rivals_merge engine hRivals (by decide)
  have hBoth :
      [.first, .second].map wanted =
        [wanted .first, wanted .second] :=
    rfl
  rw [hBoth] at hMerge
  exact hMerge

/- One of two clients describes a task, and the other one
   gives it to a team. -/
def partyConfig : Party → ConfigMap
  | .first => describedConfig "new"
  | .second =>
      [ ("metadata",
          .map
            [ ("labels", .map [("team", .str "infra")]),
              ("name", .str "build"),
              ("namespace", .str "ci") ]),
        ("spec", .map [("description", .str "old")]) ]

/- What each of them wants. -/
def partyTask : Party → Object .task
  | .first => describedTask "new"
  | .second =>
      ⟨"", "",
        (("build", "", "ci", .ofList [("team", "infra")],
            SortedMap.empty, "", "", (0 : Int64), none, none,
            ()),
          ("", "old", [], [], none, [], [], [], ()), ())⟩

/- A task that was submitted is described anew by one client
   and given to a team by another one, in any order of their
   two calls each. -/
theorem updates_merge_team :
    ∃ submitted later document,
      ∃ reached : Object .task,
        (Client.create MemoryStore.store
              (describedTask "old")).run (emptySession 0) =
            (.ok submitted, later) ∧
          Object.decode? .task document = some reached ∧
          reached.metadata.generation =
            submitted.metadata.generation + 1 ∧
          document.at? ["spec", "description"] =
            some (.str "new") ∧
          document.at? ["metadata", "labels"] =
            some (.obj [("team", .str "infra")]) ∧
          ∀ schedule : List Party,
            (∀ party, 2 ≤ schedule.count party) →
              let race :=
                (Race.start later.state).turns
                  (updates (fun _ => memoryEngine) .task
                    fun party =>
                      ⟨"ci/build", partyConfig party,
                        some submitted.flatten, .standard⟩)
                  schedule
              ∃ stored,
                race.memory.stored?
                    (address .task ⟨"ci", "build"⟩) =
                  some stored ∧
                stored.object = document := by
  rcases submitted_described "old" with
    ⟨document, after, hRun, hNew⟩
  let tracked (party : Party) : Tracked :=
    ⟨"ci/build", partyConfig party,
      some (submittedTask "old").flatten, .standard⟩
  have hTracked :
      ∀ party,
        (tracked party).objectId = .ok ⟨"ci", "build"⟩ := by
    intro party
    cases party <;>
      exact Result.eq_ok_of_toOption (by decide +kernel)
  have hChecked :
      ∀ party,
        Object.validate .task (tracked party).config =
          .ok () := by
    intro party
    cases party <;>
      exact Result.eq_ok_of_toOption (by decide +kernel)
  have hWanted :
      ∀ party,
        Object.expand .task (tracked party).config =
          .ok (partyTask party) := by
    intro party
    cases party <;>
      exact Result.eq_ok_of_toOption (by decide +kernel)
  have hApart :
      ((partyTask .first).diff (submittedTask "old")).Apart
        ((partyTask .second).diff
          (submittedTask "old")) := by
    decide +kernel
  rcases updates_merge (fun _ => memoryEngine)
      (.submitted _ hRun hNew.identity) hNew.stored
      ⟨rfl, nofun⟩ hNew.read filled_submittedTask hTracked
      (fun _ => rfl) hChecked hWanted hApart with
    ⟨merged, reached, hReached, hGeneration, hUnspoilt,
      hSchedules⟩
  have hDescribed :
      ["spec", "description"] ∈
        ((partyTask .first).diff
          (submittedTask "old")).places := by
    decide +kernel
  have hGiven :
      ["metadata", "labels"] ∈
        ((partyTask .second).diff
          (submittedTask "old")).places := by
    decide +kernel
  have hChanges :
      MemoryStore.specChanges (submittedTask "old")
        [partyTask .first, partyTask .second] = 1 := by
    decide +kernel
  rw [hChanges] at hGeneration
  have hDescription := hUnspoilt.reached _ (.head _) _
    hDescribed
  have hLabels := hUnspoilt.reached _ (.tail _ (.head _)) _
    hGiven
  refine ⟨_, _, merged, reached, hRun, hReached,
    hGeneration, hDescription.trans ?_, hLabels.trans ?_,
    ?_⟩
  · decide +kernel
  · decide +kernel
  · intro schedule hTurns race
    have hEnough :
        ∀ party,
          updateCalls
              ((partyTask party).diff
                (submittedTask "old")) ≤
            schedule.count party := by
      intro party
      have hTwo := hTurns party
      rw [updateCalls]
      split <;> omega
    rcases (hSchedules schedule hEnough).2.1 with
      ⟨left, hStored⟩
    exact ⟨_, hStored, rfl⟩

end Engine

end Converge
