import Converge.Proofs.Schema.LeafForm
import Converge.Proofs.Schema.Reading

/-
  The shapes that checks ask for, and what reading makes of
  them.

  A check looks at the shape of a leaf alone. Reading asks
  for more in two places: a required string must not be
  empty, and a point in time has to be one. A block that
  holds a parameter value has no such leaf, so it is read
  whenever it passes its check.

  Key definitions:
    * `Leaf.HasShape`: the trees that pass the check of a leaf
    * `Leaf.Lapse`: why such a tree may still not be read
    * `ParamValue.Spare`: leaves that a block holds in vain

  Main declarations:
    * `Leaf.check_eq_ok_iff`, `ParamValue.check_eq_ok_iff`
    * `Leaf.failsBy_expand`, `ParamValue.failsBy_expand`
    * `ParamValue.hasShape_of_expand`
-/

namespace Converge

namespace Leaf

------------------------------------------------------------
-- Shapes
------------------------------------------------------------

/- The trees of the shape of a leaf. A value of a closed set
   may be empty, and a point in time may be any string. -/
def HasShape : Leaf → Tree → Prop
  | .text, tree => ∃ content, tree = .str content
  | .requiredText, tree => ∃ content, tree = .str content
  | .flag, tree => ∃ value, tree = .bool value
  | .integer, tree => ∃ value, tree = .int value
  | .timestamp, tree => ∃ content, tree = .str content
  | .choice choices, tree =>
      ∃ content, tree = .str content ∧
        (content = "" ∨ content ∈ choices.all)
  | .requiredChoice choices, tree =>
      ∃ content, tree = .str content ∧
        (content = "" ∨ content ∈ choices.all)
  | .texts, tree =>
      ∃ contents : List String,
        tree = .list (contents.map .str)
  | .textMap, tree =>
      ∃ contents : List (String × String),
        tree = .map (Keyed.mapValues .str contents)

theorem choiceCheck_eq_ok_iff
    {choices : Choices}
    {path : FieldPath}
    {tree : Tree} :
    Reading.checkChoice choices.all path tree = .ok () ↔
      ∃ content, tree = .str content ∧
        (content = "" ∨ content ∈ choices.all) := by
  cases tree with
  | str content =>
      simp [Reading.checkChoice, Decidable.or_iff_not_imp_left]
  | _ => simp [Reading.checkChoice]

/- Strings in a list, told from the list. -/
theorem exists_map_str_iff
    {items : List Tree} :
    (∃ contents : List String, items = contents.map .str) ↔
      ∀ item, item ∈ items →
        ∃ content, item = .str content := by
  induction items with
  | nil => exact iff_of_true ⟨[], rfl⟩ (by simp)
  | cons first rest ih =>
      rw [List.forall_mem_cons, ← ih]
      constructor
      · rintro ⟨contents, hContents⟩
        cases contents with
        | nil => cases hContents
        | cons content contents =>
            cases hContents
            exact ⟨⟨content, rfl⟩, contents, rfl⟩
      · rintro ⟨⟨content, rfl⟩, contents, rfl⟩
        exact ⟨content :: contents, rfl⟩

/- Strings in a map, told from the map. -/
theorem exists_mapValues_str_iff
    {entries : ConfigMap} :
    (∃ contents : List (String × String),
        entries = Keyed.mapValues .str contents) ↔
      ∀ entry, entry ∈ entries →
        ∃ content, entry.2 = .str content := by
  induction entries with
  | nil => exact iff_of_true ⟨[], rfl⟩ (by simp)
  | cons first rest ih =>
      rw [List.forall_mem_cons, ← ih]
      constructor
      · rintro ⟨contents, hContents⟩
        cases contents with
        | nil => cases hContents
        | cons content contents =>
            cases hContents
            exact ⟨⟨content.2, rfl⟩, contents, rfl⟩
      · rintro ⟨⟨content, hContent⟩, contents, rfl⟩
        refine ⟨(first.1, content) :: contents, ?_⟩
        simp only [Keyed.mapValues, List.map_cons, ← hContent]

/- A leaf passes its check when it has its shape. -/
theorem check_eq_ok_iff
    {leaf : Leaf}
    {path : FieldPath}
    {tree : Tree} :
    leaf.check path tree = .ok () ↔ leaf.HasShape tree := by
  cases leaf with
  | text => exact Reading.checkElement_eq_ok_iff
  | requiredText => exact Reading.checkElement_eq_ok_iff
  | timestamp => exact Reading.checkElement_eq_ok_iff
  | flag =>
      cases tree <;> simp [check, Reading.checkFlag, HasShape]
  | integer =>
      cases tree <;>
        simp [check, Reading.checkInteger, HasShape]
  | choice choices => exact choiceCheck_eq_ok_iff
  | requiredChoice choices => exact choiceCheck_eq_ok_iff
  | texts =>
      simp only [check, HasShape,
        Reading.checkItems_eq_ok_iff,
        Reading.checkEachItem_eq_ok_iff,
        Reading.checkElement_eq_ok_iff]
      constructor
      · rintro ⟨items, rfl, hItems⟩
        have hStrings := exists_map_str_iff.2
          fun item hItem => by
            rcases List.mem_iff_getElem?.1 hItem with
              ⟨offset, hOffset⟩
            exact hItems offset item hOffset
        rcases hStrings with ⟨contents, rfl⟩
        exact ⟨contents, rfl⟩
      · rintro ⟨contents, rfl⟩
        refine ⟨_, rfl, fun offset item hItem => ?_⟩
        exact exists_map_str_iff.1 ⟨contents, rfl⟩ item
          (List.mem_iff_getElem?.2 ⟨offset, hItem⟩)
  | textMap =>
      simp only [check, HasShape,
        Reading.checkEntries_eq_ok_iff,
        Reading.checkEachEntry_eq_ok_iff,
        Reading.checkElement_eq_ok_iff,
        ← exists_mapValues_str_iff]
      constructor
      · rintro ⟨_, rfl, contents, rfl⟩
        exact ⟨contents, rfl⟩
      · rintro ⟨contents, rfl⟩
        exact ⟨_, rfl, contents, rfl⟩

------------------------------------------------------------
-- Reading
------------------------------------------------------------

/- Why a leaf that has its shape may not be read: a required
   string or choice is empty, or a string that is not empty
   is no point in time. -/
inductive Lapse :
    Leaf → FieldPath → Tree → SchemaError → Prop where
  | blankText {path : FieldPath} :
      Lapse .requiredText path (.str "") (.missingField path)
  | blankChoice {choices : Choices} {path : FieldPath} :
      Lapse (.requiredChoice choices) path (.str "")
        (.missingField path)
  | untimely
      {path : FieldPath}
      {content : String}
      (hContent : content ≠ "")
      (hTime : Timestamp.read? content = none) :
      Lapse .timestamp path (.str content)
        (.typeMismatch path "RFC 3339 timestamp")

/- A value of a closed set that may be empty is read. -/
theorem exists_expand?
    {choices : Choices}
    {content : String}
    (hContent : content = "" ∨ content ∈ choices.all)
    (path : FieldPath) :
    ∃ selected,
      Choice.expand? choices path (some (.str content)) =
          .ok selected ∧
        (selected = none → content = "") := by
  by_cases hEmpty : content = ""
  · exact ⟨none, by simp [Choice.expand?, hEmpty],
      fun _ => hEmpty⟩
  · have hMember := hContent.resolve_left hEmpty
    refine ⟨some ⟨content, hMember⟩, ?_, by simp⟩
    simp only [Choice.expand?, hEmpty, if_false,
      Choice.parse?, hMember, dif_pos]

/- A leaf that has its shape is read, unless it lapses. -/
theorem failsBy_expand
    (path : FieldPath)
    {leaf : Leaf}
    {tree : Tree}
    (hShape : leaf.HasShape tree) :
    Result.FailsBy (leaf.Lapse path tree)
      (leaf.expand path (some tree)) := by
  cases leaf with
  | text =>
      rcases hShape with ⟨content, rfl⟩
      exact Result.failsBy_ok _
  | requiredText =>
      rcases hShape with ⟨content, rfl⟩
      by_cases hEmpty : content = ""
      · subst hEmpty
        exact Result.failsBy_error .blankText
      · have hRead :
            expand path .requiredText (some (.str content)) =
              .ok content := by
          change (if content = "" then _ else _) = _
          rw [if_neg hEmpty]
        rw [hRead]
        exact Result.failsBy_ok _
  | flag =>
      rcases hShape with ⟨value, rfl⟩
      exact Result.failsBy_ok _
  | integer =>
      rcases hShape with ⟨value, rfl⟩
      exact Result.failsBy_ok _
  | timestamp =>
      rcases hShape with ⟨content, rfl⟩
      rw [expand_timestamp]
      by_cases hEmpty : content = ""
      · rw [if_pos hEmpty]
        exact Result.failsBy_ok _
      · rw [if_neg hEmpty]
        cases hTime : Timestamp.read? content with
        | some time => exact Result.failsBy_ok _
        | none =>
            exact Result.failsBy_error
              (.untimely hEmpty hTime)
  | choice choices =>
      rcases hShape with ⟨content, rfl, hContent⟩
      rcases exists_expand? hContent path with
        ⟨selected, hRead, _⟩
      simp only [expand, hRead]
      exact Result.failsBy_ok _
  | requiredChoice choices =>
      rcases hShape with ⟨content, rfl, hContent⟩
      rcases exists_expand? hContent path with
        ⟨selected, hRead, hNone⟩
      simp only [expand, hRead]
      cases selected with
      | some member => exact Result.failsBy_ok _
      | none =>
          rw [hNone rfl]
          exact Result.failsBy_error .blankChoice
  | texts =>
      rcases hShape with ⟨contents, rfl⟩
      simp only [expand, Reading.items, eachItem_element]
      exact Result.failsBy_ok _
  | textMap =>
      rcases hShape with ⟨contents, rfl⟩
      simp only [expand, Reading.entries, eachEntry_element]
      exact Result.failsBy_ok _

/- A leaf that is absent is read as its zero value, unless it
   is required. -/
theorem expand_none
    (path : FieldPath)
    {leaf : Leaf}
    (hRequired : leaf.required = false) :
    leaf.expand path none = .ok leaf.zero := by
  cases leaf <;> first | rfl | cases hRequired

theorem exists_of_text
    {path : FieldPath}
    {tree : Tree}
    {content : String}
    (h : Reading.text path (some tree) = .ok content) :
    tree = .str content := by
  cases tree <;> cases h
  rfl

theorem exists_of_element
    {path : FieldPath}
    {tree : Tree}
    {content : String}
    (h : Reading.element path tree = .ok content) :
    tree = .str content := by
  cases tree <;> cases h
  rfl

/- A value of a closed set that was read is in the set. -/
theorem hasShape_of_expand?
    {choices : Choices}
    {path : FieldPath}
    {tree : Tree}
    {selected : Option (Choice choices)}
    (h :
      Choice.expand? choices path (some tree) =
        .ok selected) :
    ∃ content, tree = .str content ∧
      (content = "" ∨ content ∈ choices.all) := by
  cases tree with
  | str content =>
      refine ⟨content, rfl, ?_⟩
      by_cases hEmpty : content = ""
      · exact Or.inl hEmpty
      · by_cases hMember : content ∈ choices.all
        · exact Or.inr hMember
        · simp [Choice.expand?, Choice.parse?, hEmpty,
            hMember] at h
  | _ => cases h

/- A leaf that was read has its shape. -/
theorem hasShape_of_expand
    {leaf : Leaf}
    {path : FieldPath}
    {tree : Tree}
    {value : leaf.Val}
    (h : leaf.expand path (some tree) = .ok value) :
    leaf.HasShape tree := by
  cases leaf with
  | text => exact ⟨value, exists_of_text h⟩
  | requiredText =>
      rcases Result.bind_eq_ok_iff.1 h with ⟨content, hRead, _⟩
      exact ⟨content, exists_of_text hRead⟩
  | flag =>
      cases tree <;> cases h
      exact ⟨_, rfl⟩
  | integer =>
      cases tree <;> cases h
      exact ⟨_, rfl⟩
  | timestamp =>
      rcases Result.bind_eq_ok_iff.1 h with ⟨content, hRead, _⟩
      exact ⟨content, exists_of_text hRead⟩
  | choice choices => exact hasShape_of_expand? h
  | requiredChoice choices =>
      rcases Result.bind_eq_ok_iff.1 h with
        ⟨selected, hRead, _⟩
      exact hasShape_of_expand? hRead
  | texts =>
      cases tree with
      | list items =>
          have hStrings := exists_map_str_iff.2
            fun item hItem => by
              rcases List.mem_iff_getElem?.1 hItem with
                ⟨offset, hOffset⟩
              rcases Reading.exists_of_eachItem h offset item
                hOffset with ⟨content, hRead⟩
              exact ⟨content, exists_of_element hRead⟩
          rcases hStrings with ⟨contents, rfl⟩
          exact ⟨contents, rfl⟩
      | _ => cases h
  | textMap =>
      cases tree with
      | map entries =>
          have hStrings := exists_mapValues_str_iff.2
            fun entry hEntry => by
              rcases Reading.exists_of_entries h entry hEntry
                with ⟨content, hRead⟩
              exact ⟨content, exists_of_element hRead⟩
          rcases hStrings with ⟨contents, rfl⟩
          exact ⟨contents, rfl⟩
      | _ => cases h

end Leaf

------------------------------------------------------------
-- Parameter Values
------------------------------------------------------------

namespace ParamValue

/- The leaves of a block, checked one after the other. -/
theorem checkLeaves_eq_ok_iff
    {path : FieldPath}
    {entries : ConfigMap}
    {declared : List (String × Leaf)} :
    checkLeaves path entries declared = .ok () ↔
      ∀ member, member ∈ declared →
        ∀ tree, entries.present? member.1 = some tree →
          member.2.HasShape tree := by
  constructor
  · induction declared with
    | nil => simp
    | cons member rest ih =>
        intro hChecked
        rw [List.forall_mem_cons]
        simp only [checkLeaves] at hChecked
        cases hFound : entries.present? member.1 with
        | none =>
            rw [hFound] at hChecked
            exact ⟨by simp, ih hChecked⟩
        | some tree =>
            rw [hFound] at hChecked
            rcases Result.bind_eq_ok_iff.1 hChecked with
              ⟨_, hMember, hRest⟩
            refine ⟨?_, ih hRest⟩
            rintro _ ⟨⟩
            exact Leaf.check_eq_ok_iff.1 hMember
  · intro hShapes
    apply checkLeaves_eq_ok
    intro member hMember tree hFound
    exact Leaf.check_eq_ok_iff.2
      (hShapes member hMember tree hFound)

/- A block passes its check when each key is known and each
   leaf has its shape. -/
theorem check_eq_ok_iff
    {path : FieldPath}
    {entries : ConfigMap} :
    check path entries = .ok () ↔
      (∀ entry, entry ∈ entries →
          Keyed.has entry.1 leaves = true) ∧
        ∀ member, member ∈ leaves →
          ∀ tree, entries.present? member.1 = some tree →
            member.2.HasShape tree := by
  simp only [check]
  cases hUnknown :
      entries.find? fun entry =>
        !Keyed.has entry.1 leaves with
  | some entry =>
      have hEntry := List.mem_of_find?_eq_some hUnknown
      have hNot := List.find?_some hUnknown
      refine iff_of_false (by simp) fun hAll => ?_
      simp [hAll.1 entry hEntry] at hNot
  | none =>
      have hKnown := List.find?_eq_none.1 hUnknown
      rw [checkLeaves_eq_ok_iff]
      refine ⟨fun hShapes => ⟨?_, hShapes⟩, And.right⟩
      intro entry hEntry
      simpa using hKnown entry hEntry

/- The leaves of a block never lapse. -/
theorem not_lapse
    {key : String}
    {leaf : Leaf}
    (hLeaf : (key, leaf) ∈ leaves)
    {path : FieldPath}
    {tree : Tree}
    {fault : SchemaError} :
    ¬leaf.Lapse path tree fault := by
  intro hLapse
  cases hLapse <;> simp [leaves] at hLeaf

theorem not_required
    {key : String}
    {leaf : Leaf}
    (hLeaf : (key, leaf) ∈ leaves) :
    leaf.required = false := by
  cases leaf <;> first | rfl | simp [leaves] at hLeaf

/- Reading a leaf of a block does not fail when the leaf is
   absent or has its shape. -/
theorem failsBy_expand_leaf
    {entries : ConfigMap}
    (hShapes :
      ∀ member, member ∈ leaves →
        ∀ tree, entries.present? member.1 = some tree →
          member.2.HasShape tree)
    (path : FieldPath)
    {key : String}
    {leaf : Leaf}
    (hLeaf : (key, leaf) ∈ leaves) :
    Result.FailsBy (fun _ => False)
      (leaf.expand path (entries.present? key)) := by
  cases hFound : entries.present? key with
  | none =>
      rw [Leaf.expand_none path (not_required hLeaf)]
      exact Result.failsBy_ok _
  | some tree =>
      have hShape := hShapes (key, leaf) hLeaf tree hFound
      exact (Leaf.failsBy_expand path hShape).mono
        fun _ => not_lapse hLeaf

/- Reading a block fails as reading one of its leaves does. -/
theorem failsBy_expand
    {lapse : SchemaError → Prop}
    {path : FieldPath}
    {entries : ConfigMap}
    (hLeaf :
      ∀ key leaf, (key, leaf) ∈ leaves →
        Result.FailsBy lapse
          (leaf.expand (path.entry key)
            (entries.present? key))) :
    Result.FailsBy lapse (expand path entries) := by
  have hType :
      Result.FailsBy lapse (expandType path entries) := by
    refine (hLeaf "type" (.choice paramTypes)
      (by simp [leaves])).bind fun declared _ => ?_
    cases declared with
    | some choice => exact Result.failsBy_ok _
    | none =>
        change Result.FailsBy _ (ite _ _ _)
        split
        · exact Result.failsBy_ok _
        · split <;> exact Result.failsBy_ok _
  refine hType.bind fun type _ => ?_
  split
  · exact (hLeaf "array_val" .texts (by simp [leaves])).bind
      fun _ _ => Result.failsBy_ok _
  · split
    · exact (hLeaf "object_val" .textMap
        (by simp [leaves])).bind fun _ _ => Result.failsBy_ok _
    · exact (hLeaf "string_val" .text
        (by simp [leaves])).bind fun _ _ => Result.failsBy_ok _

/- A block that passes its check is read. -/
theorem exists_expand
    {path : FieldPath}
    {entries : ConfigMap}
    (hCheck : check path entries = .ok ()) :
    ∃ value, expand path entries = .ok value := by
  have hFails :
      Result.FailsBy (fun _ => False) (expand path entries) :=
    failsBy_expand fun key _ =>
      failsBy_expand_leaf (check_eq_ok_iff.1 hCheck).2
        (path.entry key)
  exact hFails.exists_ok fun _ h => h

------------------------------------------------------------
-- Leaves Held in Vain
------------------------------------------------------------

/- A block in which nothing was left that reading it passes
   over: no unknown keys, and no leaf of another shape under
   the keys that its type does not select. -/
structure IsTidy
    (path : FieldPath)
    (entries : ConfigMap) : Prop where
  known :
    ∀ entry, entry ∈ entries → Keyed.has entry.1 leaves = true
  spare :
    ∀ type, expandType path entries = .ok type →
      ∀ member, member ∈ leaves →
        member.1 ≠ "type" → member.1 ≠ type ++ "_val" →
          ∀ tree, entries.present? member.1 = some tree →
            member.2.HasShape tree

/- The type of a block was read. -/
theorem hasShape_of_expandType
    {path : FieldPath}
    {entries : ConfigMap}
    {type : String}
    (h : expandType path entries = .ok type) :
    ∀ tree, entries.present? "type" = some tree →
      (Leaf.choice paramTypes).HasShape tree := by
  intro tree hFound
  rcases Result.bind_eq_ok_iff.1 h with ⟨declared, hRead, _⟩
  rw [hFound] at hRead
  exact Leaf.hasShape_of_expand? hRead

theorem mem_of_expandType
    {path : FieldPath}
    {entries : ConfigMap}
    {type : String}
    (h : expandType path entries = .ok type) :
    type ∈ paramTypes.all := by
  rcases Result.bind_eq_ok_iff.1 h with ⟨declared, _, hType⟩
  cases declared with
  | some choice =>
      cases hType
      exact choice.property
  | none =>
      dsimp only at hType
      split at hType
      · cases hType
        simp [paramTypes, Choices.all]
      · split at hType <;> cases hType <;>
          simp [paramTypes, Choices.all]

/- The value of a block was read, under the key that its type
   selects. -/
theorem hasShape_of_expand
    {path : FieldPath}
    {entries : ConfigMap}
    {value : ParamValue}
    (h : expand path entries = .ok value) :
    ∃ type, expandType path entries = .ok type ∧
      ∃ leaf, (type ++ "_val", leaf) ∈ leaves ∧
        ∀ tree, entries.present? (type ++ "_val") = some tree →
          leaf.HasShape tree := by
  rcases Result.bind_eq_ok_iff.1 h with ⟨type, hType, hValue⟩
  have hLeaf :
      ∀ (leaf : Leaf) (key : String) (held : leaf.Val),
        leaf.expand (path.entry key) (entries.present? key) =
            .ok held →
          ∀ tree, entries.present? key = some tree →
            leaf.HasShape tree := by
    intro leaf key held hRead tree hFound
    rw [hFound] at hRead
    exact Leaf.hasShape_of_expand hRead
  have hMember := mem_of_expandType hType
  simp only [paramTypes, Choices.all, List.mem_cons,
    List.not_mem_nil, or_false] at hMember
  refine ⟨type, hType, ?_⟩
  rcases hMember with rfl | rfl | rfl
  · rcases Result.bind_eq_ok_iff.1 hValue with ⟨text, hText, _⟩
    exact ⟨.text, by simp [leaves],
      hLeaf .text "string_val" text hText⟩
  · rcases Result.bind_eq_ok_iff.1 hValue with
      ⟨items, hItems, _⟩
    exact ⟨.texts, by simp [leaves],
      hLeaf .texts "array_val" items hItems⟩
  · rcases Result.bind_eq_ok_iff.1 hValue with ⟨map, hMap, _⟩
    exact ⟨.textMap, by simp [leaves],
      hLeaf .textMap "object_val" map hMap⟩

/- A key names one leaf of a block. -/
theorem leaf_unique
    {key : String}
    {leaf other : Leaf}
    (hLeaf : (key, leaf) ∈ leaves)
    (hOther : (key, other) ∈ leaves) :
    other = leaf := by
  have hKeys : (leaves.map fun member => member.1).Nodup := by
    decide
  have hFound := Keyed.lookup_of_mem hKeys hLeaf
  rw [Keyed.lookup_of_mem hKeys hOther] at hFound
  exact Option.some.inj hFound

/- A tidy block that was read passes its check. -/
theorem check_of_expand
    {path : FieldPath}
    {entries : ConfigMap}
    {value : ParamValue}
    (h : expand path entries = .ok value)
    (hTidy : IsTidy path entries) :
    check path entries = .ok () := by
  rcases hasShape_of_expand h with
    ⟨type, hType, leaf, hLeaf, hSelected⟩
  refine check_eq_ok_iff.2 ⟨hTidy.known, ?_⟩
  rintro ⟨key, other⟩ hMember tree hFound
  by_cases hIsType : key = "type"
  · subst hIsType
    have hChoice : other = .choice paramTypes :=
      leaf_unique (by simp [leaves]) hMember
    subst hChoice
    exact hasShape_of_expandType hType tree hFound
  · by_cases hIsSelected : key = type ++ "_val"
    · subst hIsSelected
      have hSame : other = leaf := leaf_unique hLeaf hMember
      subst hSame
      exact hSelected tree hFound
    · exact hTidy.spare type hType (key, other) hMember
        hIsType hIsSelected tree hFound

end ParamValue

end Converge
