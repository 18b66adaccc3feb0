import Converge.Proofs.Lifecycle.Addressed

/-
  Where a written identity leads.

  A text is read as one identity, the only one that is
  written like it, or it is not read at all. So whatever is
  done under a written identity is done at one address, or
  the text is blamed and no store is asked.

  Key definitions:
    * `Engine.LeadsTo`: all operations go to one address
    * `Engine.LeadsNowhere`: all operations blame the text

  Main declarations:
    * `Engine.written_identity_leads`
-/

namespace Converge

namespace Engine

open ObjectId (separator)

variable {σ : Type}

------------------------------------------------------------
-- Adoption
------------------------------------------------------------

/- An adoption asks for the object that it is to find. -/
theorem follows_adopt
    (engine : Engine σ)
    (kind : Kind)
    {written : String}
    {id : ObjectId}
    (hId : ObjectId.parse written = .ok id) :
    Follows (Reads kind id)
      (engine.noted.adopt kind written).run
      (engine.adopt kind written).run := by
  intro session notes
  rw [adopt_eq, adopt_eq, hId]
  simp only [store_noted, Client.run_get_noted]
  rcases
      (Client.get engine.store kind id.namespaceName
        id.name).run session with
    ⟨_ | _, _⟩ <;> exact adds_one (reads_get kind id) _ _

------------------------------------------------------------
-- Destinations
------------------------------------------------------------

/- All that is asked for under a written identity is at one
   address, whatever else is known of the object. -/
structure LeadsTo
    (engine : Engine σ)
    (kind : Kind)
    (written : String)
    (id : ObjectId) : Prop where
  tracked :
    ∀ tracked : Tracked, tracked.id = written →
      engine.Reaches kind tracked id
  adopt :
    Follows (Reads kind id)
      (engine.noted.adopt kind written).run
      (engine.adopt kind written).run

/- Whatever is done under a written identity ends with one
   fault of it, and leaves the store as it is. -/
structure LeadsNowhere
    (engine : Engine σ)
    (kind : Kind)
    (written : String)
    (fault : ObjectError) : Prop where
  tracked :
    ∀ tracked : Tracked, tracked.id = written →
      engine.IsLost kind tracked fault
  adopt :
    ∀ session,
      (engine.adopt kind written).run session =
        (.error (.identity fault), session)

theorem leadsTo_of_parse
    (engine : Engine σ)
    (kind : Kind)
    {written : String}
    {id : ObjectId}
    (hId : ObjectId.parse written = .ok id) :
    engine.LeadsTo kind written id := by
  refine ⟨?_, engine.follows_adopt kind hId⟩
  rintro tracked rfl
  exact engine.reaches_of_objectId kind hId

theorem leadsNowhere_of_parse
    (engine : Engine σ)
    (kind : Kind)
    {written : String}
    {fault : ObjectError}
    (hId : ObjectId.parse written = .error fault) :
    engine.LeadsNowhere kind written fault := by
  constructor
  · rintro tracked rfl
    exact engine.isLost_of_objectId kind hId
  · intro session
    rw [adopt_eq, hId]

/-
  Two parts are read back from their written form exactly
  when neither is empty or holds the separator, and they are
  never read as two others. Every text is either read as the
  only identity that is written like it, and then all
  operations on objects with that identity are at its
  address; or it is not read, and then all of them report a
  parse error, and even a store that notes all it is asked
  for is left as it was.
-/
theorem written_identity_leads
    (engine : Engine σ)
    (kind : Kind) :
    (∀ namespaceName name,
        ((∃ id,
            ObjectId.parse
                (ObjectId.text ⟨namespaceName, name⟩) =
              .ok id) ↔
          namespaceName ≠ "" ∧ name ≠ "" ∧
            separator ∉ namespaceName.toList ∧
            separator ∉ name.toList) ∧
        ∀ id,
          ObjectId.parse
                (ObjectId.text ⟨namespaceName, name⟩) =
              .ok id →
            id = ⟨namespaceName, name⟩) ∧
      ∀ written,
        (∃ id,
            ObjectId.parse written = .ok id ∧
              id.text = written ∧
              (∀ other : ObjectId,
                other.text = written → other = id) ∧
              engine.LeadsTo kind written id) ∨
          ∃ fault,
            ObjectId.parse written = .error fault ∧
              (LifecycleError.identity fault).isParseError =
                true ∧
              engine.LeadsNowhere kind written fault ∧
              engine.noted.LeadsNowhere kind written
                fault := by
  constructor
  · intro namespaceName name
    constructor
    · simp only [ObjectId.parse_text_eq_ok_iff,
        exists_and_left, exists_eq, and_true]
    · intro id hId
      exact ObjectId.eq_of_parse_text hId
  · intro written
    cases hId : ObjectId.parse written with
    | ok id =>
        exact Or.inl ⟨id, rfl, ObjectId.text_of_parse hId,
          fun _ => ObjectId.eq_of_text hId,
          engine.leadsTo_of_parse kind hId⟩
    | error fault =>
        exact Or.inr ⟨fault, rfl,
          ObjectId.isParseError_of_parse hId,
          engine.leadsNowhere_of_parse kind hId,
          engine.noted.leadsNowhere_of_parse kind hId⟩

end Engine

end Converge
