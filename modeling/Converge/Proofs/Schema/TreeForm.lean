import Converge.Proofs.Schema.LeafForm

/-
  Records survive their tree form.

  A record with all of its required strings is read back from
  its tree, save for what a tree cannot state, and its tree
  passes every check. A record that lacks one is refused both
  when it is read and when it is checked.

  A block is read by looking its keys up one by one, so the
  statement about a block is about any map that holds the
  tree forms of its fields at their keys.

  Main declarations:
    * `Fields.Mirrors`: a map with the trees of a record
    * `Fields.expand_flatten`: reading a tree form
    * `Fields.check_flatten`: checking a tree form
-/

namespace Converge

------------------------------------------------------------
-- Absent Trees
------------------------------------------------------------

theorem isNull_flattenPart
    {entries : ConfigMap}
    {tree : Tree}
    (h : flattenPart entries = some tree) :
    tree.isNull = false := by
  simp only [flattenPart] at h
  split at h <;> cases h
  rfl

theorem flattenPart_eq_none_iff
    {entries : ConfigMap} :
    flattenPart entries = none ↔ entries = [] := by
  cases entries <;> simp [flattenPart]

/- A tree form is never null. -/
theorem Shape.isNull_of_flatten_eq_some :
    ∀ (shape : Shape) (value : shape.Val) {tree : Tree},
      shape.flatten value = some tree → tree.isNull = false
  | .leaf type, held, _, h => by
      simp only [Shape.flatten] at h
      exact type.isNull_of_flatten_eq_some held h
  | .value need, held, _, h => by
      simp only [Shape.flatten] at h
      cases need with
      | optional =>
          rcases Option.map_eq_some_iff.1 h with ⟨_, _, rfl⟩
          rfl
      | required =>
          cases h
          rfl
      | assumed =>
          cases h
          rfl
  | .block fields, held, _, h => by
      simp only [Shape.flatten] at h
      rcases Option.map_eq_some_iff.1 h with ⟨_, _, rfl⟩
      rfl
  | .blocks fields, (items : List fields.Rec), _, h => by
      simp only [Shape.flatten] at h
      split at h <;> cases h
      rfl
  | .blockMap fields, (map : SortedMap fields.Rec), _, h => by
      simp only [Shape.flatten] at h
      split at h <;> cases h
      rfl
  | .part fields, record, _, h => by
      simp only [Shape.flatten] at h
      exact isNull_flattenPart h
  | .observed fields, held, _, h => by
      simp only [Shape.flatten] at h
      rcases Option.bind_eq_some_iff.1 h with ⟨_, _, h⟩
      exact isNull_flattenPart h

mutual

/- What has no tree is read as a value that was never set. -/
theorem Shape.settle_of_flatten_eq_none :
    ∀ (shape : Shape) (value : shape.Val),
      shape.flatten value = none →
        shape.settle value = shape.zero
  | .leaf type, held, h => by
      simp only [Shape.flatten] at h
      exact type.eq_zero_of_flatten_eq_none held h
  | .value need, held, h => by
      simp only [Shape.flatten] at h
      cases need with
      | optional => exact Option.map_eq_none_iff.1 h
      | required => cases h
      | assumed => cases h
  | .block fields, held, h => by
      simp only [Shape.flatten] at h
      have hNone := Option.map_eq_none_iff.1 h
      rw [hNone]
      rfl
  | .blocks fields, (items : List fields.Rec), h => by
      simp only [Shape.flatten] at h
      split at h
      · have hNil : items = [] :=
          List.isEmpty_iff.1 (by assumption)
        rw [hNil]
        rfl
      · cases h
  | .blockMap fields, (map : SortedMap fields.Rec), h => by
      simp only [Shape.flatten] at h
      split at h
      · have hEmpty : map = SortedMap.empty :=
          Leaf.eq_empty_of_isEmpty (by assumption)
        rw [hEmpty]
        rfl
      · cases h
  | .part fields, record, h => by
      simp only [Shape.flatten] at h
      exact fields.settle_of_flatten_eq_nil record
        (flattenPart_eq_none_iff.1 h)
  | .observed fields, (held : Option fields.Rec), h => by
      cases held with
      | none => rfl
      | some record =>
          simp only [Shape.flatten, Option.bind_some] at h
          have hNil := flattenPart_eq_none_iff.1 h
          simp only [Shape.settle, Option.bind_some, hNil]
          rfl

theorem Fields.settle_of_flatten_eq_nil :
    ∀ (fields : Fields) (record : fields.Rec),
      fields.flatten record = [] →
        fields.settle record = fields.zero
  | .nil, _, _ => rfl
  | .field _ _ shape rest, (first, others), h => by
      simp only [Fields.flatten] at h
      cases hFirst : shape.flatten first with
      | some tree =>
          rw [hFirst] at h
          cases h
      | none =>
          rw [hFirst] at h
          have hShape :=
            shape.settle_of_flatten_eq_none first hFirst
          have hRest := rest.settle_of_flatten_eq_nil others h
          simp only [Fields.settle, Fields.zero]
          rw [hShape, hRest]
  | .wireOnly _ type rest, (_, others), h => by
      simp only [Fields.flatten] at h
      have hRest := rest.settle_of_flatten_eq_nil others h
      simp only [Fields.settle, Fields.zero]
      rw [hRest]

end

mutual

/- A value without a tree misses no required string, unless
   it is one itself. -/
theorem Shape.filled_of_flatten_eq_none :
    ∀ (shape : Shape) (held : shape.Val),
      shape.isWellFormed = true → shape.isLenient = true →
        shape.flatten held = none → shape.Filled held
  | .leaf type, held, _, hLenient, _ => by
      simp only [Shape.Filled]
      cases type <;> trivial
  | .value _, _, _, _, _ => trivial
  | .block fields, held, _, _, h => by
      simp only [Shape.flatten] at h
      have hNone := Option.map_eq_none_iff.1 h
      intro record hRecord
      rw [hNone] at hRecord
      cases hRecord
  | .blocks fields, (items : List fields.Rec), _, _, h => by
      simp only [Shape.flatten] at h
      split at h
      · have hNil : items = [] :=
          List.isEmpty_iff.1 (by assumption)
        intro record hRecord
        rw [hNil] at hRecord
        cases hRecord
      · cases h
  | .blockMap fields, (map : SortedMap fields.Rec), _, _,
      h => by
      simp only [Shape.flatten] at h
      split at h
      · have hEmpty : map = SortedMap.empty :=
          Leaf.eq_empty_of_isEmpty (by assumption)
        intro entry hEntry
        rw [hEmpty] at hEntry
        cases hEntry
      · cases h
  | .part fields, record, hWell, _, h => by
      have hFields := Shape.isWellFormed_part_iff.1 hWell
      simp only [Shape.flatten] at h
      exact fields.filled_of_flatten_eq_nil record hFields.1
        hFields.2 (flattenPart_eq_none_iff.1 h)
  | .observed fields, (held : Option fields.Rec), hWell, _,
      h => by
      have hFields := Shape.isWellFormed_observed_iff.1 hWell
      intro record hRecord
      rw [hRecord] at h
      simp only [Shape.flatten, Option.bind_some] at h
      exact fields.filled_of_flatten_eq_nil record hFields.1
        hFields.2 (flattenPart_eq_none_iff.1 h)

theorem Fields.filled_of_flatten_eq_nil :
    ∀ (fields : Fields) (record : fields.Rec),
      fields.isWellFormed = true → fields.isLenient = true →
        fields.flatten record = [] → fields.Filled record
  | .nil, _, _, _, _ => trivial
  | .field _ _ shape rest, (first, others), hWell, hLenient,
      h => by
      have hParts := Fields.isWellFormed_field_iff.1 hWell
      simp only [Fields.isLenient, Bool.and_eq_true]
        at hLenient
      simp only [Fields.flatten] at h
      cases hFirst : shape.flatten first with
      | some tree =>
          rw [hFirst] at h
          cases h
      | none =>
          rw [hFirst] at h
          exact
            ⟨shape.filled_of_flatten_eq_none first
                hParts.2.2.1 hLenient.1 hFirst,
              rest.filled_of_flatten_eq_nil others
                hParts.2.2.2 hLenient.2 h⟩
  | .wireOnly _ _ rest, (_, others), hWell, hLenient, h => by
      have hParts := Fields.isWellFormed_wireOnly_iff.1 hWell
      simp only [Fields.flatten] at h
      exact rest.filled_of_flatten_eq_nil others hParts.2.2
        hLenient h

end

------------------------------------------------------------
-- Maps with the Trees of a Record
------------------------------------------------------------

namespace Fields

/- A map holds the tree form of each field at its key. What
   it holds elsewhere does not matter. -/
def Mirrors :
    (fields : Fields) → fields.Rec → ConfigMap → Prop
  | .nil, _, _ => True
  | .field key _ shape rest, (first, others), entries =>
      entries.present? key = shape.flatten first ∧
        rest.Mirrors others entries
  | .wireOnly _ _ rest, (_, others), entries =>
      rest.Mirrors others entries

/- An entry of another key does not matter. -/
theorem mirrors_cons
    {key : String}
    (tree : Tree) :
    ∀ (fields : Fields) {record : fields.Rec}
      {entries : ConfigMap},
      fields.Mirrors record entries → key ∉ fields.keys →
        fields.Mirrors record ((key, tree) :: entries)
  | .nil, _, _, _, _ => trivial
  | .field other _ shape rest, (first, others), entries,
      hMirrors, hKey => by
      simp only [keys, List.mem_cons, not_or] at hKey
      refine ⟨?_, rest.mirrors_cons tree hMirrors.2 hKey.2⟩
      rw [ParamValue.present?_cons, if_neg (Ne.symm hKey.1)]
      exact hMirrors.1
  | .wireOnly _ _ rest, (_, others), entries, hMirrors,
      hKey =>
      rest.mirrors_cons tree hMirrors hKey

/- Only declared keys are written. -/
theorem mem_keys_of_mem_flatten :
    ∀ (fields : Fields) (record : fields.Rec)
      {entry : String × Tree},
      entry ∈ fields.flatten record → entry.1 ∈ fields.keys
  | .nil, _, _, h => by
      simp [flatten] at h
  | .field key _ shape rest, (first, others), entry, h => by
      simp only [flatten] at h
      split at h
      · rcases List.mem_cons.1 h with h | h
        · rw [h]
          exact List.mem_cons_self
        · exact List.mem_cons_of_mem _
            (rest.mem_keys_of_mem_flatten others h)
      · exact List.mem_cons_of_mem _
          (rest.mem_keys_of_mem_flatten others h)
  | .wireOnly _ _ rest, (_, others), entry, h => by
      simp only [flatten] at h
      exact rest.mem_keys_of_mem_flatten others h

/- The tree form of a record holds that of its fields. -/
theorem mirrors_flatten :
    ∀ (fields : Fields) (record : fields.Rec),
      fields.isWellFormed = true →
        fields.Mirrors record (fields.flatten record)
  | .nil, _, _ => trivial
  | .field key _ shape rest, (first, others), hWell => by
      have hParts := isWellFormed_field_iff.1 hWell
      have hRest := rest.mirrors_flatten others hParts.2.2.2
      simp only [flatten]
      cases hFirst : shape.flatten first with
      | some tree =>
          have hNull :=
            shape.isNull_of_flatten_eq_some first hFirst
          refine ⟨?_, rest.mirrors_cons tree hRest hParts.1⟩
          simp [ParamValue.present?_cons, hNull, hFirst]
      | none =>
          refine ⟨?_, hRest⟩
          have hAbsent :
              (rest.flatten others).lookup key = none := by
            apply Keyed.lookup_eq_none_of_forall_ne
            intro entry hEntry hEq
            exact hParts.1
              (hEq ▸ rest.mem_keys_of_mem_flatten others hEntry)
          simp [ConfigMap.present?, hAbsent, hFirst]
  | .wireOnly _ _ rest, (_, others), hWell =>
      rest.mirrors_flatten others
        (isWellFormed_wireOnly_iff.1 hWell).2.2

end Fields

------------------------------------------------------------
-- Reading Tree Forms
------------------------------------------------------------

/- A part is read from its block, which may be absent. -/
theorem Fields.outcome_part
    {fields : Fields}
    {record : fields.Rec}
    (hWell : fields.isWellFormed = true)
    (hLenient : fields.isLenient = true)
    {path : FieldPath}
    (hRead :
      Outcome (fields.Filled record) (fields.settle record)
        (fields.expand path (fields.flatten record))) :
    Outcome (fields.Filled record) (fields.settle record)
      (Shape.expand path (.part fields)
        (flattenPart (fields.flatten record))) := by
  by_cases hNil : fields.flatten record = []
  · have hFilled := fields.filled_of_flatten_eq_nil record
      hWell hLenient hNil
    have hSettle := fields.settle_of_flatten_eq_nil record hNil
    rw [flattenPart_eq_none_iff.2 hNil, hSettle]
    exact (Outcome.of_ok rfl).congr (iff_of_true trivial hFilled)
  · have hSome :
        flattenPart (fields.flatten record) =
          some (.map (fields.flatten record)) := by
      simp [flattenPart, hNil]
    rw [hSome]
    exact hRead

mutual

/- A value is read back from its tree, save for what a tree
   cannot state, when no required string is missing. -/
theorem Shape.expand_flatten :
    ∀ (shape : Shape) (held : shape.Val) (path : FieldPath),
      shape.isWellFormed = true →
        Outcome (shape.Filled held) (shape.settle held)
          (shape.expand path (shape.flatten held))
  | .leaf type, held, path, hWell =>
      type.expand_flatten path held hWell
  | .value .optional, (held : Option ParamValue), path, _ => by
      cases held with
      | none => exact .of_ok rfl
      | some content =>
          exact (Outcome.of_ok
            (content.expand_flatten path)).map some
  | .value .required, (held : ParamValue), path, _ =>
      .of_ok (held.expand_flatten path)
  | .value .assumed, (held : ParamValue), path, _ =>
      .of_ok (held.expand_flatten path)
  | .block fields, (held : Option fields.Rec), path,
      hWell => by
      cases held with
      | none =>
          refine (Outcome.of_ok rfl).congr ?_
          exact iff_of_true trivial fun _ h => nomatch h
      | some record =>
          have hRead := fields.expand_mirror record path
            (fields.flatten record) hWell
            (fields.mirrors_flatten record hWell)
          refine (hRead.map some).congr ?_
          constructor
          · intro hFilled found hFound
            cases hFound
            exact hFilled
          · intro hFilled
            exact hFilled record rfl
  | .blocks fields, (items : List fields.Rec), path,
      hWell => by
      cases items with
      | nil =>
          refine (Outcome.of_ok rfl).congr ?_
          exact iff_of_true trivial fun _ h => nomatch h
      | cons item rest =>
          have hRead :
              ∀ (path : FieldPath) (record : fields.Rec),
                Outcome (fields.Filled record)
                  (fields.settle record)
                  (Reading.block fields.expand path
                    (.map (fields.flatten record))) :=
            fun path record =>
              fields.expand_mirror record path
                (fields.flatten record) hWell
                (fields.mirrors_flatten record hWell)
          exact Outcome.eachItem hRead path 0 (item :: rest)
  | .blockMap fields, (map : SortedMap fields.Rec), path,
      hWell => by
      have hRead :
          ∀ (path : FieldPath) (record : fields.Rec),
            Outcome (fields.Filled record)
              (fields.settle record)
              (Reading.block fields.expand path
                (.map (fields.flatten record))) :=
        fun path record =>
          fields.expand_mirror record path
            (fields.flatten record) hWell
            (fields.mirrors_flatten record hWell)
      have hEntries :=
        Outcome.eachEntry hRead path map.entries
      by_cases hEmpty : map.isEmpty
      · rw [Leaf.eq_empty_of_isEmpty hEmpty]
        refine (Outcome.of_ok rfl).congr ?_
        exact iff_of_true trivial fun _ h => nomatch h
      · have hMap := hEntries.map SortedMap.ofList
        have hSettle :
            SortedMap.ofList
                (Keyed.mapValues fields.settle map.entries) =
              map.mapValues fields.settle :=
          Leaf.ofList_entries (map.mapValues fields.settle)
        rw [hSettle] at hMap
        simp only [Shape.flatten, hEmpty]
        exact hMap
  | .part fields, record, path, hWell => by
      have hFields := Shape.isWellFormed_part_iff.1 hWell
      exact Fields.outcome_part hFields.1 hFields.2
        (fields.expand_mirror record path
          (fields.flatten record) hFields.1
          (fields.mirrors_flatten record hFields.1))
  | .observed fields, (held : Option fields.Rec), path,
      hWell => by
      have hFields := Shape.isWellFormed_observed_iff.1 hWell
      cases held with
      | none =>
          refine (Outcome.of_ok rfl).congr ?_
          exact iff_of_true trivial fun _ h => nomatch h
      | some record =>
          have hCondition :
              (∀ found, some record = some found →
                  fields.Filled found) ↔
                fields.Filled record :=
            ⟨fun h => h record rfl,
              fun h found hFound => by
                cases hFound
                exact h⟩
          by_cases hNil : fields.flatten record = []
          · have hFilled := fields.filled_of_flatten_eq_nil
              record hFields.1 hFields.2 hNil
            refine (Outcome.of_ok ?_).congr
              (iff_of_true trivial (hCondition.2 hFilled))
            simp only [Shape.flatten, Shape.settle,
              Option.bind_some, hNil]
            rfl
          · have hRead := fields.expand_mirror record path
              (fields.flatten record) hFields.1
              (fields.mirrors_flatten record hFields.1)
            have hOutcome := (hRead.map some).congr
              hCondition.symm
            simp only [Shape.flatten, Shape.settle,
              Option.bind_some, flattenPart,
              List.isEmpty_eq_false_iff.2 hNil]
            exact hOutcome

/- A record is read back from any map that holds its trees. -/
theorem Fields.expand_mirror :
    ∀ (fields : Fields) (record : fields.Rec)
      (path : FieldPath) (entries : ConfigMap),
      fields.isWellFormed = true →
        fields.Mirrors record entries →
          Outcome (fields.Filled record)
            (fields.settle record)
            (fields.expand path entries)
  | .nil, _, _, _, _, _ => .of_ok rfl
  | .field key _ shape rest, (first, others), path, entries,
      hWell, hMirrors => by
      have hParts := Fields.isWellFormed_field_iff.1 hWell
      have hFirst := shape.expand_flatten first
        (path.entry key) hParts.2.2.1
      have hOthers := rest.expand_mirror others path entries
        hParts.2.2.2 hMirrors.2
      simp only [Fields.expand, hMirrors.1]
      exact hFirst.bind
        (hOthers.map fun tail => (shape.settle first, tail))
  | .wireOnly _ type rest, (_, others), path, entries, hWell,
      hMirrors => by
      have hOthers := rest.expand_mirror others path entries
        (Fields.isWellFormed_wireOnly_iff.1 hWell).2.2 hMirrors
      exact hOthers.map fun tail => (type.zero, tail)

end

/- A record is read back from its tree form. -/
theorem Fields.expand_flatten
    (fields : Fields)
    (record : fields.Rec)
    (path : FieldPath)
    (hWell : fields.isWellFormed = true) :
    Outcome (fields.Filled record) (fields.settle record)
      (fields.expand path (fields.flatten record)) :=
  fields.expand_mirror record path (fields.flatten record)
    hWell (fields.mirrors_flatten record hWell)

------------------------------------------------------------
-- Checking Tree Forms
------------------------------------------------------------

/- The check of a field that may be absent. -/
def Shape.checkFound
    (shape : Shape)
    (path : FieldPath) :
    Option Tree → Except SchemaError Unit
  | some tree => shape.check path tree
  | none =>
      if shape.required then .error (.missingField path)
      else .ok ()

theorem Fields.checkAll_field
    (key wire : String)
    (shape : Shape)
    (rest : Fields)
    (path : FieldPath)
    (entries : ConfigMap) :
    (Fields.field key wire shape rest).checkAll path entries =
      (shape.checkFound (path.entry key)
          (entries.present? key) >>= fun () =>
        rest.checkAll path entries) := by
  simp only [Fields.checkAll, Shape.checkFound]
  cases entries.present? key with
  | some tree => rfl
  | none => cases shape.required <;> rfl

/- The keys of a tree form are declared. -/
theorem Fields.checkKeys_flatten
    (fields : Fields)
    (record : fields.Rec)
    (path : FieldPath) :
    Declaration.checkKeys fields.keys path (fields.flatten record) =
      .ok () := by
  have hKnown :
      (fields.flatten record).find?
        (fun entry => !fields.keys.contains entry.1) =
          none := by
    rw [List.find?_eq_none]
    intro entry hEntry
    have hKey := fields.mem_keys_of_mem_flatten record hEntry
    simp [hKey]
  simp only [Declaration.checkKeys, hKnown]

/- The check of a block comes down to that of its fields. -/
theorem Fields.outcome_guarded
    {fields : Fields}
    {record : fields.Rec}
    (path : FieldPath)
    (hCheck :
      Outcome (fields.Filled record) ()
        (fields.checkAll path (fields.flatten record))) :
    Outcome (fields.Filled record) ()
      (Declaration.guarded fields.keys fields.checkAll path
        (fields.flatten record)) := by
  rw [Declaration.guarded, fields.checkKeys_flatten record path]
  exact hCheck

/- Without a tree a field passes unless it is a required
   string. -/
theorem Shape.outcome_checkFound_none
    (shape : Shape)
    (held : shape.Val)
    (path : FieldPath)
    (hWell : shape.isWellFormed = true)
    (hNone : shape.flatten held = none) :
    Outcome (shape.Filled held) ()
      (shape.checkFound path none) := by
  by_cases hRequired : shape.required = true
  · have hNot : ¬shape.Filled held := by
      cases shape with
      | leaf type =>
          simp only [Shape.flatten] at hNone
          simp only [Shape.Filled]
          exact Leaf.not_filled_of_flatten_eq_none hRequired
            hNone
      | value need =>
          cases need with
          | optional => cases hRequired
          | required => cases hNone
          | assumed => cases hRequired
      | _ => cases hRequired
    have hFault :
        shape.checkFound path none =
          .error (.missingField path) := by
      simp only [Shape.checkFound, hRequired, if_true]
    exact .of_error hFault hNot
  · have hOptional : shape.required = false := by
      simpa using hRequired
    have hLenient : shape.isLenient = true := by
      cases shape with
      | leaf type => cases type <;> first | rfl | cases hOptional
      | _ => rfl
    have hFilled :=
      shape.filled_of_flatten_eq_none held hWell hLenient hNone
    refine (Outcome.of_ok ?_).congr (iff_of_true trivial hFilled)
    simp [Shape.checkFound, hOptional]

mutual

/- The tree of a value passes when no required string is
   missing. -/
theorem Shape.check_flatten :
    ∀ (shape : Shape) (held : shape.Val) (path : FieldPath),
      shape.isWellFormed = true →
        Outcome (shape.Filled held) ()
          (shape.checkFound path (shape.flatten held))
  | .leaf type, held, path, hWell => by
      cases hTree : type.flatten held with
      | none =>
          have hNone :
              (Shape.leaf type).flatten held = none := hTree
          rw [hNone]
          exact Shape.outcome_checkFound_none (.leaf type) held
            path hWell hNone
      | some tree =>
          have hSome :
              (Shape.leaf type).flatten held = some tree :=
            hTree
          have hFilled := Leaf.filled_of_flatten_eq_some hTree
          rw [hSome]
          refine (Outcome.of_ok ?_).congr
            (iff_of_true trivial hFilled)
          exact type.check_of_flatten_eq_some path held hTree
  | .value .optional, (held : Option ParamValue), path, _ => by
      cases held with
      | none => exact .of_ok rfl
      | some content => exact .of_ok (content.check_flatten path)
  | .value .required, (held : ParamValue), path, _ =>
      .of_ok (held.check_flatten path)
  | .value .assumed, (held : ParamValue), path, _ =>
      .of_ok (held.check_flatten path)
  | .block fields, (held : Option fields.Rec), path,
      hWell => by
      cases held with
      | none =>
          exact Shape.outcome_checkFound_none (.block fields)
            none path hWell rfl
      | some record =>
          have hCheck := Fields.outcome_guarded path
            (fields.check_mirror record path
              (fields.flatten record) hWell
              (fields.mirrors_flatten record hWell))
          refine hCheck.congr ?_
          constructor
          · intro hFilled found hFound
            cases hFound
            exact hFilled
          · intro hFilled
            exact hFilled record rfl
  | .blocks fields, (items : List fields.Rec), path,
      hWell => by
      cases items with
      | nil =>
          exact Shape.outcome_checkFound_none (.blocks fields)
            [] path hWell rfl
      | cons item rest =>
          have hCheck :
              ∀ (path : FieldPath) (record : fields.Rec),
                Outcome (fields.Filled record) ()
                  (Reading.block
                    (Declaration.guarded fields.keys
                      fields.checkAll) path
                    (.map (fields.flatten record))) :=
            fun path record => Fields.outcome_guarded path
              (fields.check_mirror record path
                (fields.flatten record) hWell
                (fields.mirrors_flatten record hWell))
          exact Outcome.checkEachItem hCheck path 0
            (item :: rest)
  | .blockMap fields, (map : SortedMap fields.Rec), path,
      hWell => by
      have hCheck :
          ∀ (path : FieldPath) (record : fields.Rec),
            Outcome (fields.Filled record) ()
              (Reading.block
                (Declaration.guarded fields.keys fields.checkAll)
                path (.map (fields.flatten record))) :=
        fun path record => Fields.outcome_guarded path
          (fields.check_mirror record path
            (fields.flatten record) hWell
            (fields.mirrors_flatten record hWell))
      have hEntries :=
        Outcome.checkEachEntry hCheck path map.entries
      cases hTree : (Shape.blockMap fields).flatten map with
      | none =>
          exact Shape.outcome_checkFound_none
            (.blockMap fields) map path hWell hTree
      | some tree =>
          simp only [Shape.flatten] at hTree
          split at hTree <;> cases hTree
          exact hEntries
  | .part fields, record, path, hWell => by
      have hFields := Shape.isWellFormed_part_iff.1 hWell
      cases hTree : (Shape.part fields).flatten record with
      | none =>
          exact Shape.outcome_checkFound_none (.part fields)
            record path hWell hTree
      | some tree =>
          simp only [Shape.flatten, flattenPart] at hTree
          split at hTree <;> cases hTree
          exact Fields.outcome_guarded path
            (fields.check_mirror record path
              (fields.flatten record) hFields.1
              (fields.mirrors_flatten record hFields.1))
  | .observed fields, (held : Option fields.Rec), path,
      hWell => by
      have hFields := Shape.isWellFormed_observed_iff.1 hWell
      cases hTree : (Shape.observed fields).flatten held with
      | none =>
          exact Shape.outcome_checkFound_none
            (.observed fields) held path hWell hTree
      | some tree =>
          simp only [Shape.flatten] at hTree
          rcases Option.bind_eq_some_iff.1 hTree with
            ⟨record, rfl, hPart⟩
          simp only [flattenPart] at hPart
          split at hPart <;> cases hPart
          have hCheck := Fields.outcome_guarded path
            (fields.check_mirror record path
              (fields.flatten record) hFields.1
              (fields.mirrors_flatten record hFields.1))
          refine hCheck.congr ?_
          constructor
          · intro hFilled found hFound
            cases hFound
            exact hFilled
          · intro hFilled
            exact hFilled record rfl

/- A map with the trees of a record passes when no required
   string is missing. -/
theorem Fields.check_mirror :
    ∀ (fields : Fields) (record : fields.Rec)
      (path : FieldPath) (entries : ConfigMap),
      fields.isWellFormed = true →
        fields.Mirrors record entries →
          Outcome (fields.Filled record) ()
            (fields.checkAll path entries)
  | .nil, _, _, _, _, _ => .of_ok rfl
  | .field key _ shape rest, (first, others), path, entries,
      hWell, hMirrors => by
      have hParts := Fields.isWellFormed_field_iff.1 hWell
      have hFirst := shape.check_flatten first
        (path.entry key) hParts.2.2.1
      have hOthers := rest.check_mirror others path entries
        hParts.2.2.2 hMirrors.2
      rw [Fields.checkAll_field, hMirrors.1]
      exact hFirst.bind hOthers
  | .wireOnly _ _ rest, (_, others), path, entries, hWell,
      hMirrors =>
      rest.check_mirror others path entries
        (Fields.isWellFormed_wireOnly_iff.1 hWell).2.2 hMirrors

end

/- The tree form of a record passes every check when no
   required string is missing. -/
theorem Fields.check_flatten
    (fields : Fields)
    (record : fields.Rec)
    (path : FieldPath)
    (hWell : fields.isWellFormed = true) :
    Outcome (fields.Filled record) ()
      (fields.check path (fields.flatten record)) :=
  Fields.outcome_guarded path
    (fields.check_mirror record path (fields.flatten record)
      hWell (fields.mirrors_flatten record hWell))

end Converge
