import Converge.Proofs.Schema.Matching
import Converge.Proofs.Schema.RoundTrip

/-
  Configurations that are checked, configurations that are
  read, and configurations that come back.

  Main declarations:
    * `Object.validate_agrees`: what is checked is read, and
      what is read passes the check, save for what either of
      them passes over
    * `Object.flatten_expand`: a canonical configuration comes
      back
-/

namespace Converge

namespace Object

variable {kind : Kind}

------------------------------------------------------------
-- Agreement
------------------------------------------------------------

/- What is declared of a kind is what its blocks call for. A
   configuration that passes its check is read, unless a
   required string or choice in it is empty or a string of it
   is no point in time; the fault then names that place. A
   configuration that was read passes its check exactly when
   nothing was left in it that reading passes over. -/
theorem validate_agrees
    (kind : Kind)
    (config : ConfigMap) :
    kind.declared.relaxed = kind.fields.declared ∧
      (Object.validate kind config = .ok () →
        (∃ object, Object.expand kind config = .ok object) ∨
          ∃ fault,
            Object.expand kind config = .error fault ∧
              kind.fields.Lapses .root config fault) ∧
      ∀ object, Object.expand kind config = .ok object →
        (Object.validate kind config = .ok () ↔
          kind.fields.IsTidy .root config) := by
  refine ⟨kind.declared_relaxed, ?_, ?_⟩
  · intro hValid
    rw [Object.validate_eq] at hValid
    have hFields :=
      (Fields.guarded_eq_ok_iff.1 hValid).2
    have hFails :=
      (kind.fields.failsBy_expand .root config hFields).map
        fun content => (⟨"", "", content⟩ : Object kind)
    cases hRead : Object.expand kind config with
    | ok object => exact Or.inl ⟨object, rfl⟩
    | error fault =>
        exact Or.inr ⟨fault, rfl, hFails fault hRead⟩
  · intro object hRead
    cases hContent : kind.fields.expand .root config with
    | error fault =>
        rw [Object.expand, hContent] at hRead
        cases hRead
    | ok content =>
        rw [Object.validate_eq]
        exact Fields.check_eq_ok_iff_isTidy hContent

/- A parameter without a name. -/
def blankParamConfig : ConfigMap :=
  [("spec",
    .map [("params", .list [.map [("name", .str "")]])])]

/- A parameter whose default holds a list in vain. -/
def spareParamConfig : ConfigMap :=
  [("spec",
    .map [("params",
      .list [.map [("name", .str "level"),
        ("default",
          .map [("type", .str "string"),
            ("string_val", .str "low"),
            ("array_val", .list [.str "high"])])]])])]

theorem validate_agrees_params :
    (∃ fault,
        Object.expand .task blankParamConfig = .error fault ∧
          Kind.task.fields.Lapses .root blankParamConfig
            fault) ∧
      Kind.task.fields.IsTidy .root spareParamConfig := by
  have hBlank :
      Object.validate .task blankParamConfig = .ok () :=
    Result.eq_ok_of_toOption (by decide +kernel)
  have hUnread :
      (Object.expand .task blankParamConfig).toOption =
        none := by
    decide +kernel
  have hSpare :
      Object.validate .task spareParamConfig = .ok () :=
    Result.eq_ok_of_toOption (by decide +kernel)
  have hSpareRead :
      (Object.expand .task spareParamConfig).toOption.isSome =
        true := by
    decide +kernel
  refine ⟨?_, ?_⟩
  · rcases (validate_agrees .task blankParamConfig).2.1 hBlank
      with ⟨object, hRead⟩ | hFault
    · rw [hRead] at hUnread
      cases hUnread
    · exact hFault
  · rcases Option.isSome_iff_exists.1 hSpareRead with
      ⟨object, hObject⟩
    have hRead := Result.eq_ok_of_toOption hObject
    exact ((validate_agrees .task spareParamConfig).2.2 object
      hRead).1 hSpare

------------------------------------------------------------
-- Round Trip
------------------------------------------------------------

/- A canonical configuration that passes its check is read,
   and the object that was read has the same configuration, up
   to the order in which the entries of a map stand. -/
theorem flatten_expand
    (kind : Kind)
    (config : ConfigMap)
    (hKeys : (Tree.map config).HasDistinctKeys)
    (hValid : Object.validate kind config = .ok ())
    (hCanonical : kind.fields.isCanonical config = true) :
    ∃ object, Object.expand kind config = .ok object ∧
      Tree.sameMaps object.flatten config = true := by
  rw [Object.validate_eq] at hValid
  rcases Fields.comesBack kind.isWellFormed_fields
    kind.isHollow_fields hValid hCanonical hKeys with
    ⟨content, hContent, hSame⟩
  refine ⟨⟨"", "", content⟩, ?_, hSame⟩
  rw [Object.expand, hContent]
  rfl

/- A run with empty blocks that may be absent, and empty
   strings inside of a list and of a map. -/
def sparseRunConfig : ConfigMap :=
  [("spec", .map
    [("workspaces",
        .list [.map [("name", .str "cache"),
          ("empty_dir", .map [])]]),
      ("task_spec", .map
        [("steps",
            .list [.map [("name", .str "build"),
              ("args", .list [.str "", .str "all"])]]),
          ("step_template", .map [])]),
      ("params",
        .list [.map [("name", .str "flags"),
          ("value", .map [("object_val",
              .map [("z", .str ""), ("a", .str "1")]),
            ("type", .str "object")])]])]),
    ("metadata", .map
      [("name", .str "build-1"),
        ("creation_timestamp", .str "2024-02-29T08:00:00Z")])]

theorem flatten_expand_sparse :
    ∃ object,
      Object.expand .taskRun sparseRunConfig = .ok object ∧
        Tree.sameMaps object.flatten sparseRunConfig =
          true := by
  refine flatten_expand .taskRun sparseRunConfig ?_
    (Result.eq_ok_of_toOption (by decide +kernel))
    (by decide +kernel)
  simp [Tree.HasDistinctKeys, Tree.ItemsHaveDistinctKeys,
    Tree.EntriesHaveDistinctKeys, sparseRunConfig]

end Object

end Converge
