import Converge.Proofs.Store.Client
import Converge.Store.Remote

/-
  What the replies of a server mean to a client.

  A reply shows an object, accepts a request, tells that there
  is no such object, or is a fault; its status and its body
  decide. Only requests that are about an object can be told
  that there is none. A server is told apart from its store
  here: it is nothing but the replies that it gives, one after
  the other.

  Key definitions:
    * `HttpReply.Shows`, `HttpReply.Accepts`: replies that
      bring something
    * `HttpReply.Refuses`, `HttpReply.Fails`: replies that
      are faults, and which
    * `Link.replying`: a server that replies at once

  Main declarations:
    * `HttpReply.accepts_or_refuses`,
      `HttpReply.shows_or_fails`: there are no other replies
    * `RemoteStore.decoded_of_shows`,
      `RemoteStore.decoded_of_fails`: what a client is told
    * `RemoteStore.run_get`, `RemoteStore.run_create`,
      `RemoteStore.run_delete`: the calls, one reply each
-/

namespace Converge

namespace HttpReply

------------------------------------------------------------
-- Kinds of Replies
------------------------------------------------------------

/- A success whose body is an object of a kind. -/
def Shows
    (kind : Kind)
    (object : Object kind)
    (reply : HttpReply) : Prop :=
  reply.isSuccess = true ∧
    Text.isBlank reply.body = false ∧
    ∃ value,
      Json.readNested? reply.body = some value ∧
        Object.decode? kind value.canonical = some object

/- A success with any value, or without a body. -/
def Accepts (reply : HttpReply) : Prop :=
  reply.isSuccess = true ∧
    (Text.isBlank reply.body = true ∨
      ∃ value, Json.readNested? reply.body = some value)

/- A reply that is a fault whatever was asked for. If the
   request named an object, no such object is not one of
   them. -/
inductive Refuses (named : Bool) :
    HttpReply → StoreError → Prop
  | unauthorized
      {reply : HttpReply}
      (hStatus : reply.status = 401 ∨ reply.status = 403) :
      Refuses named reply
        (.client
          ("not authorized (HTTP " ++ toString reply.status ++
            "): " ++ RemoteStore.refusal reply.body))
  | rejected
      {reply : HttpReply}
      (hFailure : reply.isSuccess = false)
      (hStatus : ¬(reply.status = 401 ∨ reply.status = 403))
      (hMissing : named = true → reply.status ≠ 404) :
      Refuses named reply
        (.rejected reply.status
          (RemoteStore.refusal reply.body))
  | garbled
      {reply : HttpReply}
      (hSuccess : reply.isSuccess = true)
      (hBody : Text.isBlank reply.body = false)
      (hRead : Json.readNested? reply.body = none) :
      Refuses named reply (.encoding "the reply is not JSON")

/- A reply that is a fault where an object of a kind was
   asked for. -/
inductive Fails (kind : Kind) (named : Bool) :
    HttpReply → StoreError → Prop
  | refused
      {reply : HttpReply}
      {fault : StoreError}
      (hRefuses : Refuses named reply fault) :
      Fails kind named reply fault
  | unreadable
      {reply : HttpReply}
      (hAccepts : reply.Accepts)
      (hOther : ∀ object, ¬reply.Shows kind object) :
      Fails kind named reply
        (.encoding ("not a readable " ++ kind.name))

/- A request that names an object may be told that there is
   no such object. Else a reply accepts it, or is a fault. -/
theorem accepts_or_refuses
    (named : Bool)
    (reply : HttpReply) :
    (named = true ∧ reply.status = 404) ∨
      reply.Accepts ∨
      ∃ fault, Refuses named reply fault := by
  cases hSuccess : reply.isSuccess with
  | true =>
      right
      cases hBody : Text.isBlank reply.body with
      | true => exact Or.inl ⟨hSuccess, Or.inl hBody⟩
      | false =>
          cases hRead : Json.readNested? reply.body with
          | some value =>
              exact Or.inl ⟨hSuccess, Or.inr ⟨value, hRead⟩⟩
          | none =>
              exact Or.inr ⟨_, .garbled hSuccess hBody hRead⟩
  | false =>
      by_cases hStatus :
          reply.status = 401 ∨ reply.status = 403
      · exact Or.inr (Or.inr ⟨_, .unauthorized hStatus⟩)
      · by_cases hMissing :
            named = true ∧ reply.status = 404
        · exact Or.inl hMissing
        · exact Or.inr (Or.inr
            ⟨_, .rejected hSuccess hStatus
              fun hNamed hSame => hMissing ⟨hNamed, hSame⟩⟩)

theorem shows_or_fails
    (kind : Kind)
    (named : Bool)
    (reply : HttpReply) :
    (named = true ∧ reply.status = 404) ∨
      (∃ object, reply.Shows kind object) ∨
      ∃ fault, Fails kind named reply fault := by
  rcases accepts_or_refuses named reply with
    hMissing | hAccepts | ⟨fault, hRefuses⟩
  · exact Or.inl hMissing
  · by_cases hShows : ∃ object, reply.Shows kind object
    · exact Or.inr (Or.inl hShows)
    · exact Or.inr (Or.inr
        ⟨_, .unreadable hAccepts
          fun object hThere => hShows ⟨object, hThere⟩⟩)
  · exact Or.inr (Or.inr ⟨fault, .refused hRefuses⟩)

/- Where there is no such object, there is no success. -/
theorem isSuccess_of_missing
    {reply : HttpReply}
    (hMissing : reply.status = 404) :
    reply.isSuccess = false := by
  unfold isSuccess
  rw [hMissing]
  rfl

/- No fault is taken for the absence of an object. -/
theorem Refuses.isNotFound
    {named : Bool}
    {reply : HttpReply}
    {fault : StoreError}
    (hRefuses : Refuses named reply fault) :
    fault.isNotFound = false := by
  cases hRefuses <;> rfl

theorem Fails.isNotFound
    {kind : Kind}
    {named : Bool}
    {reply : HttpReply}
    {fault : StoreError}
    (hFails : Fails kind named reply fault) :
    fault.isNotFound = false := by
  cases hFails with
  | refused hRefuses => exact hRefuses.isNotFound
  | unreadable => rfl

end HttpReply

namespace RemoteStore

open HttpReply (Shows Accepts Refuses Fails)

------------------------------------------------------------
-- Answers
------------------------------------------------------------

section Answers

variable {kind : Kind}
variable {coordinate : Option Coordinate}
variable {reply : HttpReply}
variable {fault : StoreError}

theorem answer_of_missing
    (address : Coordinate)
    (hMissing : reply.status = 404) :
    answer (some address) reply =
      .error (.missing address) := by
  have hFailure := HttpReply.isSuccess_of_missing hMissing
  simp only [answer, hFailure, hMissing, Bool.false_eq_true,
    if_false, if_true]

theorem answer_of_refuses
    (hRefuses : Refuses coordinate.isSome reply fault) :
    answer coordinate reply = .error fault := by
  cases hRefuses with
  | unauthorized hStatus =>
      have hFailure : reply.isSuccess = false := by
        unfold HttpReply.isSuccess
        rcases hStatus with hStatus | hStatus <;>
          rw [hStatus] <;> rfl
      have hOther : reply.status ≠ 404 := by omega
      simp only [answer, hFailure, hStatus, hOther,
        Bool.false_eq_true, if_false, if_true]
      cases coordinate <;> rfl
  | rejected hFailure hStatus hMissing =>
      simp only [answer, hFailure, hStatus,
        Bool.false_eq_true, if_false]
      cases coordinate with
      | none => rfl
      | some address => exact if_neg (hMissing rfl)
  | garbled hSuccess hBody hRead =>
      simp only [answer, hSuccess, hBody, hRead, if_true,
        Bool.false_eq_true, if_false]

theorem exists_answer_of_accepts
    (coordinate : Option Coordinate)
    (hAccepts : reply.Accepts) :
    ∃ value, answer coordinate reply = .ok value := by
  rcases hAccepts with ⟨hSuccess, hBody | ⟨value, hRead⟩⟩
  · exact ⟨.null, by
      simp only [answer, hSuccess, hBody, if_true]⟩
  · cases hBody : Text.isBlank reply.body with
    | true =>
        exact ⟨.null, by
          simp only [answer, hSuccess, hBody, if_true]⟩
    | false =>
        exact ⟨value.canonical, by
          simp only [answer, hSuccess, hBody, hRead, if_true,
            Bool.false_eq_true, if_false]⟩

/- An answer with an object is a reply that shows it: null,
   which stands for no body, is no object. -/
theorem decoded_answer_eq_ok_iff
    {object : Object kind} :
    Client.decoded kind (answer coordinate reply) =
        .ok object ↔
      reply.Shows kind object := by
  rw [Client.decoded_eq_ok_iff]
  constructor
  · rintro ⟨value, hAnswer, hDecode⟩
    unfold answer at hAnswer
    split at hAnswer
    · rename_i hSuccess
      split at hAnswer
      · cases hAnswer
        cases hDecode
      · rename_i hBody
        cases hRead : Json.readNested? reply.body with
        | none =>
            rw [hRead] at hAnswer
            cases hAnswer
        | some written =>
            rw [hRead] at hAnswer
            cases hAnswer
            exact ⟨hSuccess, eq_false_of_ne_true hBody,
              written, hRead, hDecode⟩
    · simp only at hAnswer
      split at hAnswer
      · split at hAnswer <;> cases hAnswer
      · cases hAnswer
  · rintro ⟨hSuccess, hBody, value, hRead, hDecode⟩
    refine ⟨value.canonical, ?_, hDecode⟩
    simp only [answer, hSuccess, hBody, hRead, if_true,
      Bool.false_eq_true, if_false]

theorem decoded_of_fails
    (hFails : Fails kind coordinate.isSome reply fault) :
    Client.decoded kind (answer coordinate reply) =
      .error fault := by
  cases hFails with
  | refused hRefuses =>
      rw [answer_of_refuses hRefuses]
      rfl
  | unreadable hAccepts hOther =>
      rcases exists_answer_of_accepts coordinate hAccepts with
        ⟨value, hAnswer⟩
      cases hDecode : Object.decode? kind value with
      | none =>
          rw [hAnswer]
          simp only [Client.decoded, Except.bind, hDecode]
      | some object =>
          have hShown := Client.decoded_eq_ok_iff.2
            ⟨value, hAnswer, hDecode⟩
          exact absurd (decoded_answer_eq_ok_iff.1 hShown)
            (hOther object)

end Answers

end RemoteStore

------------------------------------------------------------
-- Servers
------------------------------------------------------------

/- A server that replies at once, with one reply after the
   other whatever it is asked. Its state is what it was asked
   so far. -/
def Link.replying
    (replies : Nat → HttpReply) :
    Link (List HttpRequest) :=
  fun request =>
    .ofState fun asked =>
      (.ok (replies asked.length), asked ++ [request])

namespace RemoteStore

/- The token of a store can be sent in a header. -/
def IsSendable (remote : RemoteStore) : Prop :=
  ∀ token, remote.token = some token →
    token.toList.all isHeaderChar = true

section Calls

variable {remote : RemoteStore}

theorem run_send
    (hSendable : remote.IsSendable)
    (replies : Nat → HttpReply)
    (coordinate : Option Coordinate)
    {request : HttpRequest}
    (hToken :
      request.authorization =
        remote.token.map fun token => "Bearer " ++ token)
    (session : Session (List HttpRequest)) :
    (send (Link.replying replies) coordinate request).run
        session =
      (answer coordinate (replies session.state.length),
        ⟨session.now, session.state ++ [request]⟩) := by
  have hHeader :
      (request.authorization.getD "").toList.all
        isHeaderChar = true := by
    rw [hToken]
    cases hSome : remote.token with
    | none => rfl
    | some token =>
        simp only [Option.map_some, Option.getD_some,
          String.toList_append, List.all_append,
          hSendable token hSome, Bool.and_true]
        decide
  unfold send
  simp only [hHeader, if_true]
  rw [Calls.run_bind]
  change
    ((MonadExcept.ofExcept
        (answer coordinate
          (replies session.state.length)) :
        Calls _ StoreError Json).run
      ⟨session.now, session.state ++ [request]⟩) = _
  cases answer coordinate (replies session.state.length) <;>
    rfl

/- A read is answered with the next reply. -/
theorem run_get
    (hSendable : remote.IsSendable)
    (replies : Nat → HttpReply)
    (coordinate : Coordinate)
    (session : Session (List HttpRequest)) :
    ((remote.store (Link.replying replies)).get
        coordinate).run session =
      (answer (some coordinate)
          (replies session.state.length),
        ⟨session.now,
          session.state ++
            [remote.objectRequest .get coordinate none
              none]⟩) :=
  run_send hSendable replies (some coordinate) rfl session

/- So is a submission, which is about no object yet. -/
theorem run_create
    (hSendable : remote.IsSendable)
    (replies : Nat → HttpReply)
    (type : ResourceType)
    (namespaceName : String)
    (body : Json)
    (session : Session (List HttpRequest)) :
    ((remote.store (Link.replying replies)).create type
        namespaceName body).run session =
      (answer none (replies session.state.length),
        ⟨session.now,
          session.state ++
            [remote.createRequest type namespaceName
              body]⟩) :=
  run_send hSendable replies none rfl session

/- Of the reply to a deletion nothing is kept. -/
theorem run_delete
    (hSendable : remote.IsSendable)
    (replies : Nat → HttpReply)
    (coordinate : Coordinate)
    (session : Session (List HttpRequest)) :
    ((remote.store (Link.replying replies)).delete
        coordinate).run session =
      ((answer (some coordinate)
          (replies session.state.length)).map fun _ => (),
        ⟨session.now,
          session.state ++
            [remote.objectRequest .delete coordinate none
              none]⟩) := by
  have hSent := run_send hSendable replies (some coordinate)
    (show
      (remote.objectRequest .delete coordinate none
        none).authorization = _ from rfl)
    session
  unfold store
  simp only
  rw [Calls.run_bind, hSent]
  cases answer (some coordinate)
      (replies session.state.length) <;>
    rfl

end Calls

end RemoteStore

end Converge
