import Converge.Proofs.Lifecycle.Repetition

/-
  What an update blames on the configuration.

  An update compares the configuration with the snapshot, and
  reads the snapshot by the rules for configurations. An
  object is read from a store although required strings of it
  are empty, but its snapshot lacks them. So an update of a
  configuration without defects is refused as defective
  exactly when the object of the snapshot has such a string;
  then nothing is sent.

  Main declarations:
    * `Engine.readAs_ne_schema`: reads blame the store
    * `Engine.update_of_not_filled`: a snapshot is blamed
    * `Engine.update_ne_schema`: nothing is blamed
    * `Engine.update_blames_iff`: when updates are refused
-/

namespace Converge

/- The document of a configuration and a snapshot is there
   when the snapshot can be read. -/
theorem Object.diffConfigs_flatten
    {kind : Kind}
    {config : ConfigMap}
    {wanted : Object kind}
    (hWanted : Object.expand kind config = .ok wanted)
    (found : Object kind) :
    Outcome found.Filled (wanted.diff found.settled)
      (Object.diffConfigs kind config found.flatten) := by
  have hDiff := found.expand_flatten.map wanted.diff
  unfold Object.diffConfigs
  rw [hWanted]
  exact hDiff

namespace Engine

variable {σ : Type}
variable {kind : Kind}

/- A read fails for what the store answers, or for an
   identity that cannot be read. -/
theorem readAs_ne_schema
    (engine : Engine σ)
    (operation : Operation)
    (tracked : Tracked)
    (session : Session σ)
    (fault : SchemaError) :
    ((engine.readAs kind operation).run tracked
        session).1.1 ≠
      .error (.schema kind operation fault) := by
  rw [readAs_eq]
  cases tracked.objectId with
  | error _ => simp
  | ok id =>
      rcases hGet :
          (Client.get engine.store kind id.namespaceName
            id.name).run session with
        ⟨_ | _, _⟩ <;> simp [hGet]

section Snapshot

variable (engine : Engine σ)
variable {tracked : Tracked}
variable {found wanted : Object kind}

/- An update finds a snapshot defective that lacks a required
   string, and stops before any call. -/
theorem update_of_not_filled
    (hState : tracked.state = some found.flatten)
    (hConfig :
      configured kind .update tracked.config = .ok wanted)
    {id : ObjectId}
    (hId : tracked.objectId = .ok id)
    (hNot : ¬found.Filled)
    (session : Session σ) :
    ∃ fault,
      Object.expand kind found.flatten = .error fault ∧
        (engine.update kind).run tracked session =
          ((.error (.schema kind .update fault), tracked),
            session) := by
  have hExpand := (configured_eq_ok_iff.1 hConfig).2
  rcases found.expand_flatten.fault hNot with ⟨fault, hFault⟩
  have hNone :
      Object.diffConfigs kind tracked.config found.flatten =
        .error fault := by
    unfold Object.diffConfigs
    rw [hExpand, hFault]
    rfl
  refine ⟨fault, hFault, ?_⟩
  rw [update_eq, hId, hConfig, hState, Option.getD_some,
    hNone]

/- Whatever an update fails for that reads its snapshot is no
   defect. -/
theorem update_ne_schema
    (hState : tracked.state = some found.flatten)
    (hConfig :
      configured kind .update tracked.config = .ok wanted)
    {id : ObjectId}
    (hId : tracked.objectId = .ok id)
    (hFilled : found.Filled)
    (session : Session σ)
    (fault : SchemaError) :
    ((engine.update kind).run tracked session).1.1 ≠
      .error (.schema kind .update fault) := by
  have hExpand := (configured_eq_ok_iff.1 hConfig).2
  have hDocument :=
    (Object.diffConfigs_flatten hExpand found).ok hFilled
  rw [update_eq, hId, hConfig, hState, Option.getD_some,
    hDocument]
  cases hDiff : wanted.diff found.settled with
  | nil =>
      exact engine.readAs_ne_schema .update tracked session
        fault
  | cons entry rest =>
      rcases hSent :
          (Client.update engine.store kind id.namespaceName
            id.name
            (PatchDocument.text (entry :: rest))).run
              session with
        ⟨_ | _, later⟩
      · simp [hSent]
      · simp only [hSent]
        exact engine.readAs_ne_schema .update tracked later
          fault

end Snapshot

/-
  The snapshot is that of an object, and the configuration
  has no defects. If a required string of the object is empty,
  an update finds the snapshot defective and stops before any
  call. Otherwise whatever it fails for is no defect.
-/
theorem update_blames_iff
    (engine : Engine σ)
    {tracked : Tracked}
    {found wanted : Object kind}
    (hState : tracked.state = some found.flatten)
    (hConfig :
      configured kind .update tracked.config = .ok wanted)
    (session : Session σ) :
    ((∃ fault,
        ((engine.update kind).run tracked session).1.1 =
          .error (.schema kind .update fault)) ↔
      (∃ id, tracked.objectId = .ok id) ∧ ¬found.Filled) ∧
    ∀ id, tracked.objectId = .ok id → ¬found.Filled →
      ∃ fault,
        Object.expand kind found.flatten = .error fault ∧
          (engine.update kind).run tracked session =
            ((.error (.schema kind .update fault), tracked),
              session) := by
  refine ⟨⟨?_, ?_⟩, fun id hId hNot =>
    engine.update_of_not_filled hState hConfig hId hNot
      session⟩
  · rintro ⟨fault, hFault⟩
    cases hId : tracked.objectId with
    | error _ =>
        rw [update_eq, hId] at hFault
        cases hFault
    | ok id =>
        refine ⟨⟨id, rfl⟩, fun hFilled => ?_⟩
        exact engine.update_ne_schema hState hConfig hId
          hFilled session fault hFault
  · rintro ⟨⟨id, hId⟩, hNot⟩
    rcases engine.update_of_not_filled hState hConfig hId hNot
        session with
      ⟨fault, _, hRun⟩
    exact ⟨fault, by rw [hRun]⟩

/- A task as a server shows one whose step has no name. -/
def namelessDocument : Json :=
  .obj
    [ ("metadata",
        .obj
          [("name", .str "build"), ("namespace", .str "ci")]),
      ("spec",
        .obj
          [ ("steps",
              .arr
                [ .obj
                    [ ("image", .str "alpine"),
                      ("name", .str "") ] ]) ]) ]

/- A configuration of the same task, with a name for its
   step. -/
def namedConfig : ConfigMap :=
  [ ("metadata",
      .map
        [ ("name", .str "build"),
          ("namespace", .str "ci") ]),
    ("spec",
      .map
        [ ("steps",
            .list
              [ .map
                  [ ("name", .str "s"),
                    ("image", .str "alpine") ] ]) ]) ]

/- The configuration beside the snapshot of a task. -/
def namedTracked (found : Object .task) : Tracked :=
  ⟨"ci/build", namedConfig, some found.flatten,
    ⟨.zero, .zero⟩⟩

/- The update that would name the step is refused for a step
   without a name, which only the snapshot has. -/
theorem update_blames_iff_nameless :
    ∃ found wanted : Object .task,
      Object.decode? .task namelessDocument = some found ∧
        configured .task .update namedConfig = .ok wanted ∧
        ¬found.Filled ∧
        ∃ fault,
          Object.expand .task found.flatten = .error fault ∧
            fault.message =
              "Missing required field: spec.steps.0.name" ∧
            (memoryEngine.update .task).run
                (namedTracked found) (emptySession 0) =
              ((.error (.schema .task .update fault),
                  namedTracked found),
                emptySession 0) := by
  obtain ⟨found, hFound⟩ :
      ∃ found,
        Object.decode? .task namelessDocument = some found :=
    Option.isSome_iff_exists.1 (by decide +kernel)
  have hMessage :
      ((Object.decode? .task namelessDocument).map
          fun found =>
            match Object.expand .task found.flatten with
            | .ok _ => ""
            | .error fault => fault.message) =
        some "Missing required field: spec.steps.0.name" := by
    decide +kernel
  rw [hFound, Option.map_some, Option.some.injEq] at hMessage
  have hNot : ¬found.Filled := by
    intro hFilled
    rw [found.expand_flatten.ok hFilled] at hMessage
    simp at hMessage
  obtain ⟨wanted, hWanted⟩ :
      ∃ wanted,
        (configured .task .update namedConfig).toOption =
          some wanted :=
    Option.isSome_iff_exists.1 (by decide +kernel)
  have hConfig := Result.eq_ok_of_toOption hWanted
  have hParsed :
      ObjectId.parse "ci/build" = .ok ⟨"ci", "build"⟩ :=
    Result.eq_ok_of_toOption (by decide +kernel)
  have hId :
      (namedTracked found).objectId =
        .ok ⟨"ci", "build"⟩ := hParsed
  have hState :
      (namedTracked found).state = some found.flatten := rfl
  rcases (update_blames_iff memoryEngine hState hConfig
      (emptySession 0)).2 _ hId hNot with
    ⟨fault, hFault, hRun⟩
  rw [hFault] at hMessage
  exact ⟨found, wanted, hFound, hConfig, hNot, fault, hFault,
    hMessage, hRun⟩

end Engine

end Converge
