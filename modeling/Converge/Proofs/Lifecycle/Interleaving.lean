import Mathlib.Logic.Function.Basic
import Converge.Proofs.Lifecycle.Work
import Converge.Proofs.Store.Effect

/-
  Operations of several clients on one store in memory, call
  by call.

  A client knows of the store what it was answered. So its
  operation, carried out on the answers that it got so far,
  tells its next call, or how it ends. The store carries out
  one call at a time, in any order of the clients.

  Key definitions:
    * `Awaiting.store`: a store that hands out given answers
    * `Work.progress`: what comes next in an operation
    * `Race`: a store and what its clients were answered
    * `Race.turn`, `Race.turns`: clients have their turns

  Main declarations:
    * `Engine.progress_update`: the calls of an update
    * `Engine.turns_update_alone`: a client that is alone
-/

namespace Converge

------------------------------------------------------------
-- One Client
------------------------------------------------------------

/- What a store answers. -/
abbrev Answer := Except StoreError Json

/- The answers that a client has not looked at yet, and the
   call that it waits for. -/
structure Awaiting where
  answers : List Answer
  call : Option MemoryStore.Call

namespace Awaiting

/- Takes the next answer. A client for whom there is none
   waits for its call, and makes no further ones. -/
def take
    (call : MemoryStore.Call)
    (client : Awaiting) :
    Answer × Awaiting :=
  let unanswered : Answer := .error (.client "no answer yet")
  match client.call, client.answers with
  | none, answer :: rest => (answer, ⟨rest, none⟩)
  | none, [] => (unanswered, ⟨[], some call⟩)
  | some _, _ => (unanswered, client)

/- The store as a client sees it that got some answers. -/
def store : Store Awaiting where
  name := "awaiting"
  get coordinate := .ofState (take (.get coordinate))
  create type namespaceName body :=
    .ofState (take (.create type namespaceName body))
  patch coordinate document :=
    .ofState (take (.patch coordinate document))
  delete coordinate :=
    .ofState fun client =>
      let taken := take (.delete coordinate) client
      (taken.1.map fun _ => (), taken.2)

end Awaiting

/- The same engine, of a client that got some answers. -/
def Engine.awaiting
    (engine : Engine MemoryStore) :
    Engine Awaiting :=
  ⟨Awaiting.store, engine.defaultNamespace,
    engine.pollInterval, engine.timer, engine.signal⟩

/- What comes next in an operation: a call, or its end with
   what is tracked then. -/
inductive Progress where
  | waits (call : MemoryStore.Call)
  | ends
      (result : Except LifecycleError Unit)
      (tracked : Tracked)

/- What comes next in an operation after some answers. -/
def Work.progress
    (work : Work Awaiting Unit)
    (tracked : Tracked)
    (answers : List Answer) :
    Progress :=
  let made := work.run tracked ⟨0, ⟨answers, none⟩⟩
  match made.2.state.call with
  | some call => .waits call
  | none => .ends made.1.1 made.1.2

------------------------------------------------------------
-- Several Clients
------------------------------------------------------------

/- A store, and what each of its clients was answered. -/
structure Race (ι : Type) where
  memory : MemoryStore
  answers : ι → List Answer

namespace Race

variable {ι : Type} [DecidableEq ι]

/- No client has made a call yet. -/
def start (memory : MemoryStore) : Race ι :=
  ⟨memory, fun _ => []⟩

/- The store carries out a call of a client. -/
def carryOut
    (race : Race ι)
    (client : ι)
    (call : MemoryStore.Call) :
    Race ι :=
  let made := race.memory.respond call
  ⟨made.2,
    Function.update race.answers client
      (race.answers client ++ [made.1])⟩

/- It carries out the next call of a client, unless the
   operation of the client has ended. -/
def turn
    (progress : ι → List Answer → Progress)
    (race : Race ι)
    (client : ι) :
    Race ι :=
  match progress client (race.answers client) with
  | .ends _ _ => race
  | .waits call => race.carryOut client call

/- Clients have their turns, one after the other. -/
def turns
    (progress : ι → List Answer → Progress)
    (race : Race ι)
    (schedule : List ι) :
    Race ι :=
  schedule.foldl (turn progress) race

section Turn

variable (progress : ι → List Answer → Progress)
variable (race : Race ι) {client : ι}

theorem answers_carryOut
    (client other : ι)
    (call : MemoryStore.Call) :
    (race.carryOut client call).answers other =
      if other = client then
        race.answers client ++ [(race.memory.respond call).1]
      else race.answers other :=
  Function.update_apply _ _ _ _

/- Its client has one answer more. -/
theorem length_answers_carryOut
    (client other : ι)
    (call : MemoryStore.Call) :
    ((race.carryOut client call).answers other).length =
      (race.answers other).length +
        if other = client then 1 else 0 := by
  rw [answers_carryOut]
  by_cases hOther : other = client
  · rw [if_pos hOther, if_pos hOther, hOther]
    exact List.length_append
  · rw [if_neg hOther, if_neg hOther, Nat.add_zero]

/- Nothing happens in the turn of a client that is done. -/
theorem turn_of_ends
    {result : Except LifecycleError Unit}
    {tracked : Tracked}
    (hEnds :
      progress client (race.answers client) =
        .ends result tracked) :
    race.turn progress client = race := by
  rw [turn, hEnds]

theorem turn_of_waits
    {call : MemoryStore.Call}
    (hWaits :
      progress client (race.answers client) = .waits call) :
    race.turn progress client =
      race.carryOut client call := by
  rw [turn, hWaits]

end Turn

section Alone

variable (progress : ι → List Answer → Progress)
variable (client : ι) (memory : MemoryStore)
variable {call next : MemoryStore.Call}
variable {result : Except LifecycleError Unit}
variable {tracked : Tracked}

/- A client that is alone may be done without a call, -/
theorem turns_of_no_call
    (hEnds : progress client [] = .ends result tracked) :
    (start memory).turns progress [client, client] =
      start memory := by
  have hFirst :
      turn progress (start memory) client = start memory :=
    turn_of_ends progress _ hEnds
  simp only [turns, List.foldl_cons, List.foldl_nil, hFirst]

/- The first call of a client. -/
theorem turn_start_of_waits
    (hWaits : progress client [] = .waits call) :
    (turn progress (start memory) client).memory =
        (memory.respond call).2 ∧
      (turn progress (start memory) client).answers client =
        [(memory.respond call).1] := by
  rw [turn_of_waits progress (start memory) hWaits,
    answers_carryOut, if_pos rfl]
  exact ⟨rfl, rfl⟩

/- after its first call, -/
theorem turns_of_one_call
    (hWaits : progress client [] = .waits call)
    (hEnds :
      progress client [(memory.respond call).1] =
        .ends result tracked) :
    let after :=
      (start memory).turns progress [client, client]
    after.memory = (memory.respond call).2 ∧
      after.answers client = [(memory.respond call).1] := by
  intro after
  have hFirst :=
    turn_start_of_waits progress client memory hWaits
  rw [← hFirst.2] at hEnds
  have hLast :
      after = turn progress (start memory) client :=
    turn_of_ends progress _ hEnds
  rw [hLast]
  exact hFirst

/- or after its second one. -/
theorem turns_of_two_calls
    (hWaits : progress client [] = .waits call)
    (hNext :
      progress client [(memory.respond call).1] =
        .waits next) :
    let after :=
      (start memory).turns progress [client, client]
    let between := (memory.respond call).2
    after.memory = (between.respond next).2 ∧
      after.answers client =
        [(memory.respond call).1,
          (between.respond next).1] := by
  intro after between
  have hFirst :=
    turn_start_of_waits progress client memory hWaits
  rw [← hFirst.2] at hNext
  have hLast : after = _ := turn_of_waits progress _ hNext
  rw [hLast, answers_carryOut, if_pos rfl, carryOut, hFirst.1,
    hFirst.2]
  exact ⟨rfl, rfl⟩

end Alone

end Race

------------------------------------------------------------
-- Calls of an Update
------------------------------------------------------------

namespace Engine

variable {kind : Kind}

/- What comes next in a read after some answers. -/
def readProgress
    (kind : Kind)
    (operation : Operation)
    (tracked : Tracked)
    (id : ObjectId) :
    List Answer → Progress
  | [] => .waits (.get (MemoryStore.address kind id))
  | answer :: _ =>
      match Client.decoded kind answer with
      | .ok object =>
          .ends (.ok ()) (tracked.observed object.flatten)
      | .error fault =>
          .ends
            (.error (.store (.ofId kind id) operation fault))
            tracked

theorem progress_readAs
    (engine : Engine MemoryStore)
    (kind : Kind)
    (operation : Operation)
    {tracked : Tracked}
    {id : ObjectId}
    (hId : tracked.objectId = .ok id)
    (answers : List Answer) :
    (engine.awaiting.readAs kind operation).progress tracked
        answers =
      readProgress kind operation tracked id answers := by
  unfold Work.progress
  rw [readAs_eq, hId]
  cases answers with
  | nil => rfl
  | cons answer rest =>
      have hTaken :
          (Client.get engine.awaiting.store kind
              id.namespaceName id.name).run
              ⟨0, ⟨answer :: rest, none⟩⟩ =
            (Client.decoded kind answer,
              ⟨0, ⟨rest, none⟩⟩) :=
        Client.get_eq Awaiting.store kind id.namespaceName
          id.name _
      simp only [hTaken, readProgress]
      cases Client.decoded kind answer <;> rfl

/- What comes next in an update, once its document is known,
   after some answers. -/
def updateProgress
    (kind : Kind)
    (tracked : Tracked)
    (id : ObjectId)
    (document : PatchDocument)
    (answers : List Answer) :
    Progress :=
  if document = [] then
    readProgress kind .update tracked id answers
  else
    match answers with
    | [] =>
        .waits
          (.patch (MemoryStore.address kind id) document.text)
    | answer :: rest =>
        match Client.decoded kind answer with
        | .ok _ => readProgress kind .update tracked id rest
        | .error fault =>
            .ends
              (.error (.store (.ofId kind id) .update fault))
              tracked

/- An update fails without a call, or makes the calls of its
   document. -/
theorem progress_update
    (engine : Engine MemoryStore)
    (kind : Kind)
    (tracked : Tracked)
    (answers : List Answer) :
    (engine.awaiting.update kind).progress tracked answers =
      match tracked.objectId with
      | .error fault => .ends (.error (.identity fault)) tracked
      | .ok id =>
          match configured kind .update tracked.config with
          | .error fault => .ends (.error fault) tracked
          | .ok _ =>
              match
                  Object.diffConfigs kind tracked.config
                    (tracked.state.getD []) with
              | .error fault =>
                  .ends (.error (.schema kind .update fault))
                    tracked
              | .ok document =>
                  updateProgress kind tracked id document
                    answers := by
  unfold Work.progress
  rw [update_eq]
  cases hId : tracked.objectId with
  | error fault => rfl
  | ok id =>
      have hRead :=
        engine.progress_readAs kind .update hId
      unfold Work.progress at hRead
      cases configured kind .update tracked.config with
      | error fault => rfl
      | ok _ =>
          cases Object.diffConfigs kind tracked.config
              (tracked.state.getD []) with
          | error fault => rfl
          | ok document =>
              cases document with
              | nil => exact hRead answers
              | cons entry others =>
                  simp only [updateProgress, reduceCtorEq,
                    if_false]
                  cases answers with
                  | nil => rfl
                  | cons answer rest =>
                      have hTaken :
                          (Client.update engine.awaiting.store
                              kind id.namespaceName id.name
                              (PatchDocument.text
                                (entry :: others))).run
                              ⟨0, ⟨answer :: rest, none⟩⟩ =
                            (Client.decoded kind answer,
                              ⟨0, ⟨rest, none⟩⟩) :=
                        Client.update_eq Awaiting.store kind
                          id.namespaceName id.name _ _
                      simp only [hTaken]
                      cases Client.decoded kind answer with
                      | error fault => rfl
                      | ok object => exact hRead rest

/- A read of a store in memory is over after one call. -/
theorem readProgress_get
    (engine : Engine MemoryStore)
    (hStore : engine.store = MemoryStore.store)
    (kind : Kind)
    (operation : Operation)
    {tracked : Tracked}
    {id : ObjectId}
    (hId : tracked.objectId = .ok id)
    (session : Session MemoryStore) :
    let seen :=
      session.state.get (MemoryStore.address kind id)
    let made :=
      (engine.readAs kind operation).run tracked session
    readProgress kind operation tracked id [seen.1] =
        .ends made.1.1 made.1.2 ∧
      seen.2 = made.2.state := by
  intro seen made
  have hMade : made = _ :=
    engine.run_readAs hStore kind operation hId session
  rw [hMade]
  simp only [readProgress]
  cases Client.decoded kind seen.1 <;> exact ⟨rfl, rfl⟩

/- What an update does once its document is known. -/
theorem turns_updateProgress
    {ι : Type} [DecidableEq ι]
    (engine : Engine MemoryStore)
    (hStore : engine.store = MemoryStore.store)
    (kind : Kind)
    {tracked : Tracked}
    {id : ObjectId}
    (hId : tracked.objectId = .ok id)
    (document : PatchDocument)
    (session : Session MemoryStore)
    (client : ι)
    {progress : List Answer → Progress}
    (hProgress :
      ∀ answers,
        progress answers =
          updateProgress kind tracked id document answers)
    {made :
      (Except LifecycleError Unit × Tracked) ×
        Session MemoryStore}
    (hMade :
      made =
        if document = [] then
          (engine.readAs kind .update).run tracked session
        else
          match
              (Client.update MemoryStore.store kind
                id.namespaceName id.name document.text).run
                  session with
          | (.ok _, later) =>
              (engine.readAs kind .update).run tracked later
          | (.error fault, later) =>
              ((.error
                  (.store (.ofId kind id) .update fault),
                  tracked),
                later)) :
    let race :=
      (Race.start session.state).turns (fun _ => progress)
        [client, client]
    progress (race.answers client) =
        .ends made.1.1 made.1.2 ∧
      race.memory = made.2.state := by
  intro race
  by_cases hEmpty : document = []
  · rw [if_pos hEmpty] at hMade
    simp only [updateProgress, if_pos hEmpty] at hProgress
    have hSeen :=
      engine.readProgress_get hStore kind .update hId session
    have hRace := Race.turns_of_one_call
      (fun _ => progress) client _ (hProgress [])
      ((hProgress _).trans hSeen.1)
    rw [hMade, hRace.1, hRace.2, hProgress]
    exact hSeen
  · rw [if_neg hEmpty, Client.run_update] at hMade
    simp only [updateProgress, if_neg hEmpty] at hProgress
    have hNext :=
      hProgress
        [(session.state.patch (MemoryStore.address kind id)
          document.text).1]
    simp only at hNext
    cases hSent :
        Client.decoded kind
          (session.state.patch (MemoryStore.address kind id)
            document.text).1 with
    | error fault =>
        rw [hSent] at hNext hMade
        have hRace := Race.turns_of_one_call
          (fun _ => progress) client _ (hProgress []) hNext
        rw [hMade, hRace.1, hRace.2]
        exact ⟨hNext, rfl⟩
    | ok object =>
        rw [hSent] at hNext hMade
        have hRace := Race.turns_of_two_calls
          (fun _ => progress) client _ (hProgress []) hNext
        have hSeen := engine.readProgress_get hStore kind
          .update hId
          ⟨session.now,
            (session.state.patch
              (MemoryStore.address kind id)
              document.text).2⟩
        rw [hMade, hRace.1, hRace.2, hProgress]
        simp only [MemoryStore.respond, hSent]
        exact hSeen

/- A client that is alone does, call by call, what its update
   does on the store. -/
theorem turns_update_alone
    {ι : Type} [DecidableEq ι]
    (engine : Engine MemoryStore)
    (hStore : engine.store = MemoryStore.store)
    (kind : Kind)
    (tracked : Tracked)
    (session : Session MemoryStore)
    (client : ι) :
    let progress :=
      (engine.awaiting.update kind).progress tracked
    let race :=
      (Race.start session.state).turns (fun _ => progress)
        [client, client]
    let made := (engine.update kind).run tracked session
    progress (race.answers client) =
        .ends made.1.1 made.1.2 ∧
      race.memory = made.2.state := by
  intro progress race made
  have hProgress :
      ∀ answers, progress answers = _ :=
    engine.progress_update kind tracked
  have hMade : made = _ :=
    engine.update_eq kind tracked session
  -- where the update fails without a call
  have hNone :
      ∀ {result},
        (∀ answers,
          progress answers = .ends result tracked) →
          made = ((result, tracked), session) →
            progress (race.answers client) =
                .ends made.1.1 made.1.2 ∧
              race.memory = made.2.state := by
    intro result hEnds hSame
    have hRace : race = Race.start session.state :=
      Race.turns_of_no_call (fun _ => progress) client _
        (hEnds [])
    rw [hRace, hSame]
    exact ⟨hEnds [], rfl⟩
  cases hId : tracked.objectId with
  | error fault =>
      simp only [hId] at hProgress hMade
      exact hNone hProgress hMade
  | ok id =>
      simp only [hId] at hProgress hMade
      cases hConfigured :
          configured kind .update tracked.config with
      | error fault =>
          simp only [hConfigured] at hProgress hMade
          exact hNone hProgress hMade
      | ok wanted =>
          simp only [hConfigured] at hProgress hMade
          cases hDocument :
              Object.diffConfigs kind tracked.config
                (tracked.state.getD []) with
          | error fault =>
              simp only [hDocument] at hProgress hMade
              exact hNone hProgress hMade
          | ok document =>
              simp only [hDocument] at hProgress hMade
              refine engine.turns_updateProgress hStore kind hId
                document session client hProgress ?_
              rw [hMade, hStore]
              cases document with
              | nil => rfl
              | cons entry others =>
                  simp only [reduceCtorEq, if_false]
                  rcases (Client.update MemoryStore.store kind
                      id.namespaceName id.name
                      (PatchDocument.text
                        (entry :: others))).run session with
                    ⟨_ | _, _⟩ <;> rfl

end Engine

end Converge
