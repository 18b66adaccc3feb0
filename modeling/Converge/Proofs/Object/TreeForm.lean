import Converge.Object.Readiness
import Converge.Proofs.Schema.Matching
import Converge.Proofs.Schema.TreeForm

/-
  Objects survive their configuration.

  The configuration of an object states all of it but the
  type it claims to be, the time at which its deletion was
  asked for and a status that shows nothing. It can be read,
  and passes every check, exactly when no required string of
  the object is empty.

  Key definitions:
    * `Object.settled`: what a configuration keeps

  Main declarations:
    * `Object.survives_flatten`: the object read back
-/

namespace Converge

------------------------------------------------------------
-- What a Configuration Keeps
------------------------------------------------------------

/- The metadata of an object nobody asked to delete. -/
def ObjectMeta.withoutDeletion (info : ObjectMeta) :
    ObjectMeta :=
  let (uid, resourceVersion, generation, created, _, _) :=
    info.2.2.2.2.2
  (info.name, info.generateName, info.namespaceName,
    info.labels, info.annotations,
    uid, resourceVersion, generation, created, none, ())

namespace Kind

/- A status that flattens to nothing becomes none. -/
def settleObservations :
    (kind : Kind) →
      kind.observations.Rec → kind.observations.Rec
  | .task, observed => observed
  | .pipeline, observed => observed
  | .taskRun, ((status : Option _), ()) =>
      (status.filter fun record =>
        !(Catalog.taskRunStatus.flatten record).isEmpty, ())
  | .pipelineRun, ((status : Option _), ()) =>
      (status.filter fun record =>
        !(Catalog.pipelineRunStatus.flatten record).isEmpty,
        ())

/- The parts of an object that a client asks for are kept by
   their tree form. -/
theorem isPlain_spec (kind : Kind) :
    kind.spec.isPlain = true := by
  cases kind <;> decide +kernel

end Kind

/- A plain status is kept unless it shows nothing. -/
theorem Shape.settle_observed
    {fields : Fields}
    (hPlain : fields.isPlain = true)
    (status : Option fields.Rec) :
    (Shape.observed fields).settle status =
      status.filter fun record =>
        !(fields.flatten record).isEmpty := by
  cases status with
  | none => rfl
  | some record =>
      simp only [Shape.settle, Option.bind_some,
        Option.filter_some, fields.settle_eq_self record hPlain]
      cases (fields.flatten record).isEmpty <;> rfl

theorem Kind.settle_observations :
    ∀ (kind : Kind) (observed : kind.observations.Rec),
      kind.observations.settle observed =
        kind.settleObservations observed
  | .task, _ => rfl
  | .pipeline, _ => rfl
  | .taskRun, ((status : Option _), ()) =>
      congrArg (·, ())
        (Shape.settle_observed (by decide +kernel) status)
  | .pipelineRun, ((status : Option _), ()) =>
      congrArg (·, ())
        (Shape.settle_observed (by decide +kernel) status)

namespace Object

variable {kind : Kind}

/- No required string of an object is empty, wherever in it
   the string stands. -/
def Filled (object : Object kind) : Prop :=
  kind.fields.Filled object.content

/- What is left of an object in its configuration. -/
def settled (object : Object kind) : Object kind :=
  ⟨"", "",
    (object.metadata.withoutDeletion, object.spec,
      kind.settleObservations object.content.2.2)⟩

theorem settle_content (object : Object kind) :
    kind.fields.settle object.content =
      object.settled.content := by
  have hSpec :=
    kind.spec.settle_eq_self object.spec kind.isPlain_spec
  have hObserved :=
    kind.settle_observations object.content.2.2
  change
    (Catalog.metadata.settle object.content.1,
      kind.spec.settle object.spec,
      kind.observations.settle object.content.2.2) = _
  rw [hSpec, hObserved]
  rfl

------------------------------------------------------------
-- Readiness
------------------------------------------------------------

/- A record that shows nothing has no list of blocks. -/
theorem eq_nil_of_flatten_isEmpty
    {key wire : String}
    {fields rest : Fields}
    {items : List fields.Rec}
    {others : rest.Rec}
    (h :
      ((Fields.field key wire (.blocks fields) rest).flatten
        (items, others)).isEmpty = true) :
    items = [] := by
  cases items with
  | nil => rfl
  | cons item items => cases h

/- A status that shows nothing has no conditions. -/
theorem conditions_settled :
    ∀ {kind : Kind} (object : Object kind),
      object.settled.conditions? = object.conditions?
  | .task, _ => rfl
  | .pipeline, _ => rfl
  | .taskRun, ⟨_, _, (_, _, (status : Option _), ())⟩ => by
      cases status with
      | none => rfl
      | some record =>
          simp only [settled, conditions?,
            Kind.settleObservations, Option.filter_some]
          cases hEmpty :
              (Catalog.taskRunStatus.flatten record).isEmpty with
          | false => rfl
          | true =>
              have hNil := eq_nil_of_flatten_isEmpty hEmpty
              exact congrArg some hNil.symm
  | .pipelineRun, ⟨_, _, (_, _, (status : Option _), ())⟩ => by
      cases status with
      | none => rfl
      | some record =>
          simp only [settled, conditions?,
            Kind.settleObservations, Option.filter_some]
          cases hEmpty :
              (Catalog.pipelineRunStatus.flatten
                record).isEmpty with
          | false => rfl
          | true =>
              have hNil := eq_nil_of_flatten_isEmpty hEmpty
              exact congrArg some hNil.symm

/- An object read back from its configuration is as far as
   the object was. -/
theorem readiness_settled (object : Object kind) :
    object.settled.readiness = object.readiness := by
  rw [readiness, readiness, conditions_settled]

------------------------------------------------------------
-- Objects Read Back
------------------------------------------------------------

theorem expand_flatten (object : Object kind) :
    Outcome object.Filled object.settled
      (Object.expand kind object.flatten) := by
  have hContent := (kind.fields.expand_flatten object.content
    .root kind.isWellFormed_fields).map fun content =>
      (⟨"", "", content⟩ : Object kind)
  rw [object.settle_content] at hContent
  exact hContent

theorem validate_flatten (object : Object kind) :
    Outcome object.Filled ()
      (Object.validate kind object.flatten) := by
  rw [Object.validate_eq]
  exact kind.fields.check_flatten object.content .root
    kind.isWellFormed_fields

/- An object can be read from its configuration exactly when
   the configuration passes its checks, which it does exactly
   when no required string of the object is empty. What is
   read is the object itself, but for its type, its deletion
   time and a status that shows nothing. -/
theorem survives_flatten (object : Object kind) :
    ((∃ found, Object.expand kind object.flatten =
          .ok found) ↔
        object.Filled) ∧
      (Object.validate kind object.flatten = .ok () ↔
        object.Filled) ∧
      (object.Filled →
        Object.expand kind object.flatten =
          .ok object.settled) ∧
      object.settled.metadata =
        object.metadata.withoutDeletion ∧
      object.settled.spec = object.spec ∧
      object.settled.readiness = object.readiness := by
  have hExpand := object.expand_flatten
  have hValidate := object.validate_flatten
  have hValid :
      Object.validate kind object.flatten = .ok () ↔
        object.Filled := by
    rw [← hValidate.exists_ok_iff]
    exact ⟨fun h => ⟨(), h⟩, fun ⟨(), h⟩ => h⟩
  exact
    ⟨hExpand.exists_ok_iff, hValid, hExpand.ok, rfl, rfl,
      object.readiness_settled⟩

end Object

end Converge
