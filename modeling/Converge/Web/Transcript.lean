import Converge.Web.Http

/-
  Exchanges that took place, so that what depends on them can
  be computed again.

  Over a transcript, a sequence of calls gets the replies
  that were noted. The first request beyond them is kept: it
  is the one to make next.

  Key definitions:
    * `Exchange`: how an exchange ended, and when
    * `Transcript`: exchanges, and the request beyond them
    * `Link.replayed`: the way that repeats a transcript
-/

namespace Converge

/- How an exchange ended, and when. -/
structure Exchange where
  result : Except HttpFault HttpReply
  finished : Moment

/- The exchanges that are still to be repeated, and the first
   request beyond them with the moment it is made at. -/
structure Transcript where
  left : List Exchange
  wanted : Option (HttpRequest × Moment)

namespace Transcript

/- A transcript of exchanges. -/
def ofExchanges (exchanges : List Exchange) : Transcript :=
  ⟨exchanges, none⟩

end Transcript

/- The way that repeats a transcript; it ends where the
   transcript does. -/
def Link.replayed : Link Transcript := fun request => do
  let session : Session Transcript ← get
  let transcript := session.state
  match transcript.left with
  | exchange :: left =>
      set
        (⟨max session.now exchange.finished,
          { transcript with left := left }⟩ :
            Session Transcript)
      MonadExcept.ofExcept exchange.result
  | [] =>
      let wanted :=
        transcript.wanted.or (some (request, session.now))
      set
        (⟨session.now, ⟨[], wanted⟩⟩ : Session Transcript)
      throw (.unanswered "not made yet")

end Converge
