import Converge.Proofs.Schema.LeafShape
import Converge.Proofs.Schema.TreeForm

/-
  Checks and readers of a declaration agree.

  A map that passes its check is read, unless one of its
  leaves lapses. A map that was read passes its check, unless
  something was left in it that reading passes over. Both are
  proved along the declaration, field by field; where in the
  map a field stands is told by a relation of its own.

  Key definitions:
    * `Fields.Holds`: a shape and its tree, at their place
    * `Fields.IsTidy`: nothing was left in a map

  Main declarations:
    * `Fields.failsBy_expand`: how a checked map may fail
    * `Fields.check_eq_ok_iff_isTidy`: a map that was read
-/

namespace Converge

------------------------------------------------------------
-- Places
------------------------------------------------------------

mutual

/- A shape, and the tree that has it, at their place in the
   tree of another shape. -/
inductive Shape.Holds :
    Shape → FieldPath → Tree →
      FieldPath → Shape → Tree → Prop where
  | self
      {shape : Shape}
      {path : FieldPath}
      {tree : Tree} :
      Shape.Holds shape path tree path shape tree
  | block
      {fields : Fields}
      {path place : FieldPath}
      {entries : ConfigMap}
      {inner : Shape}
      {tree : Tree}
      (hHolds : fields.Holds path entries place inner tree) :
      Shape.Holds (.block fields) path (.map entries)
        place inner tree
  | blocks
      {fields : Fields}
      {path place : FieldPath}
      {items : List Tree}
      {position : Nat}
      {entries : ConfigMap}
      {inner : Shape}
      {tree : Tree}
      (hItem : items[position]? = some (.map entries))
      (hHolds :
        fields.Holds (path.item position) entries
          place inner tree) :
      Shape.Holds (.blocks fields) path (.list items)
        place inner tree
  | blockMap
      {fields : Fields}
      {path place : FieldPath}
      {members : ConfigMap}
      {key : String}
      {entries : ConfigMap}
      {inner : Shape}
      {tree : Tree}
      (hMember : (key, .map entries) ∈ members)
      (hHolds :
        fields.Holds (path.entry key) entries
          place inner tree) :
      Shape.Holds (.blockMap fields) path (.map members)
        place inner tree
  | part
      {fields : Fields}
      {path place : FieldPath}
      {entries : ConfigMap}
      {inner : Shape}
      {tree : Tree}
      (hHolds : fields.Holds path entries place inner tree) :
      Shape.Holds (.part fields) path (.map entries)
        place inner tree
  | observed
      {fields : Fields}
      {path place : FieldPath}
      {entries : ConfigMap}
      {inner : Shape}
      {tree : Tree}
      (hHolds : fields.Holds path entries place inner tree) :
      Shape.Holds (.observed fields) path (.map entries)
        place inner tree

/- A shape, and the tree that has it, at their place in a
   map. Null entries hold nothing. -/
inductive Fields.Holds :
    Fields → FieldPath → ConfigMap →
      FieldPath → Shape → Tree → Prop where
  | here
      {key wire : String}
      {shape : Shape}
      {rest : Fields}
      {path place : FieldPath}
      {entries : ConfigMap}
      {value : Tree}
      {inner : Shape}
      {tree : Tree}
      (hFound : entries.present? key = some value)
      (hHolds :
        shape.Holds (path.entry key) value place inner tree) :
      Fields.Holds (.field key wire shape rest) path entries
        place inner tree
  | later
      {key wire : String}
      {shape : Shape}
      {rest : Fields}
      {path place : FieldPath}
      {entries : ConfigMap}
      {inner : Shape}
      {tree : Tree}
      (hHolds : rest.Holds path entries place inner tree) :
      Fields.Holds (.field key wire shape rest) path entries
        place inner tree
  | wireOnly
      {wire : String}
      {type : Leaf}
      {rest : Fields}
      {path place : FieldPath}
      {entries : ConfigMap}
      {inner : Shape}
      {tree : Tree}
      (hHolds : rest.Holds path entries place inner tree) :
      Fields.Holds (.wireOnly wire type rest) path entries
        place inner tree

end

/- A fault of a leaf that has its shape, at the place of the
   leaf in a map. -/
def Fields.Lapses
    (fields : Fields)
    (path : FieldPath)
    (entries : ConfigMap)
    (fault : SchemaError) :
    Prop :=
  ∃ place leaf tree,
    fields.Holds path entries place (.leaf leaf) tree ∧
      leaf.Lapse place tree fault

def Shape.Lapses
    (shape : Shape)
    (path : FieldPath)
    (value : Tree)
    (fault : SchemaError) :
    Prop :=
  ∃ place leaf tree,
    shape.Holds path value place (.leaf leaf) tree ∧
      leaf.Lapse place tree fault

------------------------------------------------------------
-- Checks, Taken Apart
------------------------------------------------------------

/- The keys of a map are declared. -/
def Fields.Declares
    (fields : Fields)
    (entries : ConfigMap) :
    Prop :=
  ∀ entry, entry ∈ entries → entry.1 ∈ fields.keys

theorem Fields.checkKeys_eq_ok_iff
    (path : FieldPath)
    {fields : Fields}
    {entries : ConfigMap} :
    Declaration.checkKeys fields.keys path entries = .ok () ↔
      fields.Declares entries := by
  simp only [Declaration.checkKeys]
  cases hUnknown :
      entries.find? fun entry =>
        !fields.keys.contains entry.1 with
  | some entry =>
      have hEntry := List.mem_of_find?_eq_some hUnknown
      have hNot := List.find?_some hUnknown
      refine iff_of_false (by simp) fun hAll => ?_
      simp [hAll entry hEntry] at hNot
  | none =>
      have hKnown := List.find?_eq_none.1 hUnknown
      refine iff_of_true rfl fun entry hEntry => ?_
      simpa using hKnown entry hEntry

/- A map passes when its keys and its fields do. -/
theorem Fields.guarded_eq_ok_iff
    {fields : Fields}
    {path : FieldPath}
    {entries : ConfigMap} :
    Declaration.guarded fields.keys fields.checkAll path entries =
        .ok () ↔
      fields.Declares entries ∧
        fields.checkAll path entries = .ok () := by
  rw [← Fields.checkKeys_eq_ok_iff path]
  exact Result.bind_eq_ok_iff.trans
    ⟨fun ⟨_, hKeys, hFields⟩ => ⟨hKeys, hFields⟩,
      fun ⟨hKeys, hFields⟩ => ⟨(), hKeys, hFields⟩⟩

theorem Shape.checkFound_none_eq_ok_iff
    {shape : Shape}
    {path : FieldPath} :
    shape.checkFound path none = .ok () ↔
      shape.required = false := by
  simp [Shape.checkFound]

/- The fields of a map pass one after the other. -/
theorem Fields.checkAll_field_eq_ok_iff
    {key wire : String}
    {shape : Shape}
    {rest : Fields}
    {path : FieldPath}
    {entries : ConfigMap} :
    (Fields.field key wire shape rest).checkAll path entries =
        .ok () ↔
      shape.checkFound (path.entry key)
            (entries.present? key) =
          .ok () ∧
        rest.checkAll path entries = .ok () := by
  rw [Fields.checkAll_field]
  exact Result.bind_eq_ok_iff.trans
    ⟨fun ⟨_, hFirst, hRest⟩ => ⟨hFirst, hRest⟩,
      fun ⟨hFirst, hRest⟩ => ⟨(), hFirst, hRest⟩⟩

------------------------------------------------------------
-- Reading What Was Checked
------------------------------------------------------------

/- A field that was not set is read, unless it is required. -/
theorem Shape.failsBy_expand_none
    {lapse : SchemaError → Prop}
    (path : FieldPath)
    {shape : Shape}
    (hOptional : shape.required = false) :
    Result.FailsBy lapse (shape.expand path none) := by
  cases shape with
  | leaf type =>
      change Result.FailsBy _ (type.expand path none)
      rw [type.expand_none path hOptional]
      exact Result.failsBy_ok _
  | value need =>
      cases need with
      | required => cases hOptional
      | _ => exact Result.failsBy_ok _
  | _ => exact Result.failsBy_ok _

/- A checked block with a parameter value is read. -/
theorem ParamValue.failsBy_block
    {lapse : SchemaError → Prop}
    {path : FieldPath}
    {tree : Tree}
    (hCheck :
      Reading.block ParamValue.check path tree = .ok ()) :
    Result.FailsBy lapse
      (Reading.block ParamValue.expand path tree) := by
  rcases Reading.block_eq_ok_iff.1 hCheck with
    ⟨entries, rfl, hEntries⟩
  rcases ParamValue.exists_expand hEntries with
    ⟨value, hValue⟩
  change Result.FailsBy _ (ParamValue.expand path entries)
  rw [hValue]
  exact Result.failsBy_ok _

mutual

/- A tree that passes the check of its shape is read, unless a
   leaf in it lapses. -/
theorem Shape.failsBy_expand :
    ∀ (shape : Shape) (path : FieldPath) (tree : Tree),
      shape.check path tree = .ok () →
        Result.FailsBy (shape.Lapses path tree)
          (shape.expand path (some tree))
  | .leaf type, path, tree, hCheck => by
      have hShape : type.HasShape tree :=
        Leaf.check_eq_ok_iff.1 hCheck
      refine (Leaf.failsBy_expand path hShape).mono ?_
      intro fault hLapse
      exact ⟨path, type, tree, .self, hLapse⟩
  | .value need, path, tree, hCheck => by
      have hBlock :
          Result.FailsBy ((Shape.value need).Lapses path tree)
            (Reading.block ParamValue.expand path tree) :=
        ParamValue.failsBy_block hCheck
      cases need with
      | optional => exact hBlock.map some
      | required => exact hBlock
      | assumed => exact hBlock
  | .block fields, path, tree, hCheck => by
      rcases Reading.block_eq_ok_iff.1 hCheck with
        ⟨entries, rfl, hEntries⟩
      have hFields := fields.failsBy_expand path entries
        (Fields.guarded_eq_ok_iff.1 hEntries).2
      refine (hFields.map some).mono ?_
      rintro fault ⟨place, leaf, inner, hHolds, hLapse⟩
      exact ⟨place, leaf, inner, .block hHolds, hLapse⟩
  | .blocks fields, path, tree, hCheck => by
      rcases Reading.checkItems_eq_ok_iff.1 hCheck with
        ⟨items, rfl, hItems⟩
      refine Reading.failsBy_eachItem fun offset item hItem => ?_
      have hBlock :=
        Reading.checkEachItem_eq_ok_iff.1 hItems offset item
          hItem
      rw [Nat.zero_add] at hBlock ⊢
      rcases Reading.block_eq_ok_iff.1 hBlock with
        ⟨entries, rfl, hEntries⟩
      have hFields := fields.failsBy_expand
        (path.item offset) entries
        (Fields.guarded_eq_ok_iff.1 hEntries).2
      refine hFields.mono ?_
      rintro fault ⟨place, leaf, inner, hHolds, hLapse⟩
      exact ⟨place, leaf, inner, .blocks hItem hHolds, hLapse⟩
  | .blockMap fields, path, tree, hCheck => by
      rcases Reading.checkEntries_eq_ok_iff.1 hCheck with
        ⟨members, rfl, hMembers⟩
      refine (Reading.failsBy_eachEntry ?_).map _
      rintro ⟨key, value⟩ hMember
      have hBlock :=
        Reading.checkEachEntry_eq_ok_iff.1 hMembers (key, value)
          hMember
      rcases Reading.block_eq_ok_iff.1 hBlock with
        ⟨entries, hValue, hEntries⟩
      cases hValue
      have hFields := fields.failsBy_expand
        (path.entry key) entries
        (Fields.guarded_eq_ok_iff.1 hEntries).2
      refine hFields.mono ?_
      rintro fault ⟨place, leaf, inner, hHolds, hLapse⟩
      exact ⟨place, leaf, inner, .blockMap hMember hHolds,
        hLapse⟩
  | .part fields, path, tree, hCheck => by
      rcases Reading.block_eq_ok_iff.1 hCheck with
        ⟨entries, rfl, hEntries⟩
      have hFields := fields.failsBy_expand path entries
        (Fields.guarded_eq_ok_iff.1 hEntries).2
      refine hFields.mono ?_
      rintro fault ⟨place, leaf, inner, hHolds, hLapse⟩
      exact ⟨place, leaf, inner, .part hHolds, hLapse⟩
  | .observed fields, path, tree, hCheck => by
      rcases Reading.block_eq_ok_iff.1 hCheck with
        ⟨entries, rfl, hEntries⟩
      have hFields := fields.failsBy_expand path entries
        (Fields.guarded_eq_ok_iff.1 hEntries).2
      refine (hFields.map some).mono ?_
      rintro fault ⟨place, leaf, inner, hHolds, hLapse⟩
      exact ⟨place, leaf, inner, .observed hHolds, hLapse⟩

/- A map whose fields pass their checks is read, unless a leaf
   in it lapses. -/
theorem Fields.failsBy_expand :
    ∀ (fields : Fields) (path : FieldPath)
        (entries : ConfigMap),
      fields.checkAll path entries = .ok () →
        Result.FailsBy (fields.Lapses path entries)
          (fields.expand path entries)
  | .nil, _, _, _ => Result.failsBy_ok _
  | .field key wire shape rest, path, entries, hCheck => by
      have hBoth := Fields.checkAll_field_eq_ok_iff.1 hCheck
      have hRest := rest.failsBy_expand path entries hBoth.2
      have hFirst :
          Result.FailsBy
            ((Fields.field key wire shape rest).Lapses path
              entries)
            (shape.expand (path.entry key)
              (entries.present? key)) := by
        have hFound := hBoth.1
        cases hValue : entries.present? key with
        | none =>
            rw [hValue] at hFound
            apply Shape.failsBy_expand_none
            exact Shape.checkFound_none_eq_ok_iff.1 hFound
        | some value =>
            rw [hValue] at hFound
            have hShape := shape.failsBy_expand
              (path.entry key) value hFound
            refine hShape.mono ?_
            rintro fault ⟨place, leaf, inner, hHolds, hLapse⟩
            exact ⟨place, leaf, inner, .here hValue hHolds,
              hLapse⟩
      refine hFirst.bind fun first _ => ?_
      refine (hRest.mono ?_).bind fun others _ =>
        Result.failsBy_ok _
      rintro fault ⟨place, leaf, inner, hHolds, hLapse⟩
      exact ⟨place, leaf, inner, .later hHolds, hLapse⟩
  | .wireOnly wire type rest, path, entries, hCheck => by
      have hRest := rest.failsBy_expand path entries hCheck
      refine (hRest.mono ?_).bind fun others _ =>
        Result.failsBy_ok _
      rintro fault ⟨place, leaf, inner, hHolds, hLapse⟩
      exact ⟨place, leaf, inner, .wireOnly hHolds, hLapse⟩

end

------------------------------------------------------------
-- Checking What Was Read
------------------------------------------------------------

/- Nothing was left in the tree of a shape that reading it
   passes over: its blocks hold declared keys only, and a
   parameter value holds nothing in vain. -/
def Shape.IsTidy : Shape → FieldPath → Tree → Prop
  | .leaf _, _, _ => True
  | .value _, path, tree =>
      ∀ entries, tree = .map entries →
        ParamValue.IsTidy path entries
  | .block fields, _, tree =>
      ∀ entries, tree = .map entries → fields.Declares entries
  | .blocks fields, _, tree =>
      ∀ items, tree = .list items →
        ∀ entries, .map entries ∈ items →
          fields.Declares entries
  | .blockMap fields, _, tree =>
      ∀ members, tree = .map members →
        ∀ key entries, (key, .map entries) ∈ members →
          fields.Declares entries
  | .part fields, _, tree =>
      ∀ entries, tree = .map entries → fields.Declares entries
  | .observed fields, _, tree =>
      ∀ entries, tree = .map entries → fields.Declares entries

/- Nothing was left anywhere in the tree of a shape. -/
def Shape.IsTidyWithin
    (shape : Shape)
    (path : FieldPath)
    (value : Tree) :
    Prop :=
  ∀ place inner tree,
    shape.Holds path value place inner tree →
      inner.IsTidy place tree

/- Nothing was left in the fields of a map. -/
def Fields.IsTidyWithin
    (fields : Fields)
    (path : FieldPath)
    (entries : ConfigMap) :
    Prop :=
  ∀ place inner tree,
    fields.Holds path entries place inner tree →
      inner.IsTidy place tree

/- Nothing was left in a map that reading it passes over. -/
def Fields.IsTidy
    (fields : Fields)
    (path : FieldPath)
    (entries : ConfigMap) :
    Prop :=
  fields.Declares entries ∧ fields.IsTidyWithin path entries

/- A field that is read without being set is not required. -/
theorem Shape.required_of_expand_none
    {shape : Shape}
    {path : FieldPath}
    {value : shape.Val}
    (h : shape.expand path none = .ok value) :
    shape.required = false := by
  cases shape with
  | leaf type => cases type <;> first | rfl | cases h
  | value need => cases need <;> first | rfl | cases h
  | _ => rfl

/- The block of an optional field was read itself. -/
theorem Reading.exists_of_map_block
    {α β : Type}
    {read : FieldPath → ConfigMap → Except SchemaError α}
    {f : α → β}
    {path : FieldPath}
    {tree : Tree}
    {value : β}
    (h : (Reading.block read path tree).map f = .ok value) :
    ∃ entries, tree = .map entries ∧
      ∃ record, read path entries = .ok record := by
  cases hBlock : Reading.block read path tree with
  | error fault =>
      rw [hBlock] at h
      cases h
  | ok record =>
      rcases Reading.block_eq_ok_iff.1 hBlock with
        ⟨entries, hTree, hRecord⟩
      exact ⟨entries, hTree, record, hRecord⟩

mutual

/- A tidy tree that was read passes the check of its shape. -/
theorem Shape.check_of_expand :
    ∀ (shape : Shape) (path : FieldPath) (tree : Tree)
        (value : shape.Val),
      shape.expand path (some tree) = .ok value →
        shape.IsTidyWithin path tree →
          shape.check path tree = .ok ()
  | .leaf type, path, tree, value, hRead, _ =>
      Leaf.check_eq_ok_iff.2 (Leaf.hasShape_of_expand hRead)
  | .value need, path, tree, value, hRead, hTidy => by
      have hBlock :
          ∃ entries, tree = .map entries ∧
            ∃ record,
              ParamValue.expand path entries = .ok record := by
        cases need with
        | optional => exact Reading.exists_of_map_block hRead
        | required =>
            rcases Reading.block_eq_ok_iff.1 hRead with
              ⟨entries, hTree, hRecord⟩
            exact ⟨entries, hTree, _, hRecord⟩
        | assumed =>
            rcases Reading.block_eq_ok_iff.1 hRead with
              ⟨entries, hTree, hRecord⟩
            exact ⟨entries, hTree, _, hRecord⟩
      rcases hBlock with ⟨entries, rfl, record, hRecord⟩
      exact ParamValue.check_of_expand hRecord
        (hTidy path _ _ .self entries rfl)
  | .block fields, path, tree, value, hRead, hTidy => by
      rcases Reading.exists_of_map_block hRead with
        ⟨entries, rfl, record, hRecord⟩
      refine Fields.guarded_eq_ok_iff.2
        ⟨hTidy path _ _ .self entries rfl, ?_⟩
      apply fields.checkAll_of_expand path entries record
        hRecord
      intro place inner tree hHolds
      exact hTidy place inner tree (.block hHolds)
  | .blocks fields, path, tree, value, hRead, hTidy => by
      cases tree with
      | list items =>
          refine Reading.checkItems_eq_ok_iff.2
            ⟨items, rfl,
              Reading.checkEachItem_eq_ok_iff.2 ?_⟩
          intro offset item hItem
          rcases Reading.exists_of_eachItem hRead offset item
            hItem with ⟨record, hBlock⟩
          rw [Nat.zero_add] at hBlock ⊢
          rcases Reading.block_eq_ok_iff.1 hBlock with
            ⟨entries, rfl, hRecord⟩
          have hListed : .map entries ∈ items :=
            List.mem_iff_getElem?.2 ⟨offset, hItem⟩
          refine Fields.guarded_eq_ok_iff.2
            ⟨hTidy path _ _ .self items rfl entries hListed,
              ?_⟩
          apply fields.checkAll_of_expand _ entries record
            hRecord
          intro place inner tree hHolds
          exact hTidy place inner tree (.blocks hItem hHolds)
      | _ => cases hRead
  | .blockMap fields, path, tree, value, hRead, hTidy => by
      cases tree with
      | map members =>
          refine Reading.checkEntries_eq_ok_iff.2
            ⟨members, rfl,
              Reading.checkEachEntry_eq_ok_iff.2 ?_⟩
          rintro ⟨key, item⟩ hMember
          rcases Reading.exists_of_entries hRead (key, item)
            hMember with ⟨record, hBlock⟩
          rcases Reading.block_eq_ok_iff.1 hBlock with
            ⟨entries, hItem, hRecord⟩
          cases hItem
          refine Fields.guarded_eq_ok_iff.2
            ⟨hTidy path _ _ .self members rfl key entries
              hMember, ?_⟩
          apply fields.checkAll_of_expand _ entries record
            hRecord
          intro place inner tree hHolds
          exact hTidy place inner tree (.blockMap hMember hHolds)
      | _ => cases hRead
  | .part fields, path, tree, value, hRead, hTidy => by
      rcases Reading.block_eq_ok_iff.1 hRead with
        ⟨entries, rfl, hRecord⟩
      refine Fields.guarded_eq_ok_iff.2
        ⟨hTidy path _ _ .self entries rfl, ?_⟩
      apply fields.checkAll_of_expand path entries value
        hRecord
      intro place inner tree hHolds
      exact hTidy place inner tree (.part hHolds)
  | .observed fields, path, tree, value, hRead, hTidy => by
      rcases Reading.exists_of_map_block hRead with
        ⟨entries, rfl, record, hRecord⟩
      refine Fields.guarded_eq_ok_iff.2
        ⟨hTidy path _ _ .self entries rfl, ?_⟩
      apply fields.checkAll_of_expand path entries record
        hRecord
      intro place inner tree hHolds
      exact hTidy place inner tree (.observed hHolds)

/- The fields of a map that was read pass their checks. -/
theorem Fields.checkAll_of_expand :
    ∀ (fields : Fields) (path : FieldPath)
        (entries : ConfigMap) (record : fields.Rec),
      fields.expand path entries = .ok record →
        fields.IsTidyWithin path entries →
          fields.checkAll path entries = .ok ()
  | .nil, _, _, _, _, _ => rfl
  | .field key wire shape rest, path, entries, record, hRead,
      hTidy => by
      rcases Result.bind_eq_ok_iff.1 hRead with
        ⟨first, hFirst, hLater⟩
      rcases Result.bind_eq_ok_iff.1 hLater with
        ⟨others, hOthers, _⟩
      refine Fields.checkAll_field_eq_ok_iff.2 ⟨?_, ?_⟩
      · cases hValue : entries.present? key with
        | none =>
            rw [hValue] at hFirst
            exact Shape.checkFound_none_eq_ok_iff.2
              (Shape.required_of_expand_none hFirst)
        | some value =>
            rw [hValue] at hFirst
            apply shape.check_of_expand _ value first hFirst
            intro place inner tree hHolds
            exact hTidy place inner tree (.here hValue hHolds)
      · apply rest.checkAll_of_expand path entries others
          hOthers
        intro place inner tree hHolds
        exact hTidy place inner tree (.later hHolds)
  | .wireOnly wire type rest, path, entries, record, hRead,
      hTidy => by
      rcases Result.bind_eq_ok_iff.1 hRead with
        ⟨others, hOthers, _⟩
      apply rest.checkAll_of_expand path entries others hOthers
      intro place inner tree hHolds
      exact hTidy place inner tree (.wireOnly hHolds)

end

/- A tidy map that was read passes its check. -/
theorem Fields.check_of_expand
    {fields : Fields}
    {path : FieldPath}
    {entries : ConfigMap}
    {record : fields.Rec}
    (hRead : fields.expand path entries = .ok record)
    (hTidy : fields.IsTidy path entries) :
    fields.check path entries = .ok () :=
  Fields.guarded_eq_ok_iff.2
    ⟨hTidy.1,
      fields.checkAll_of_expand path entries record hRead
        hTidy.2⟩

------------------------------------------------------------
-- What Passed Is Tidy
------------------------------------------------------------

mutual

/- Where a tree passes its check, what it holds passes. -/
theorem Shape.check_of_holds
    {path place : FieldPath}
    {inner : Shape}
    {tree : Tree} :
    ∀ {shape : Shape} {value : Tree},
      shape.Holds path value place inner tree →
        shape.check path value = .ok () →
          inner.check place tree = .ok ()
  | _, _, .self, hCheck => hCheck
  | .block _, _, .block hHolds, hCheck =>
      Fields.check_of_holds hHolds
        (Fields.guarded_eq_ok_iff.1 hCheck).2
  | .blocks _, _, .blocks hItem hHolds, hCheck => by
      have hItems := Reading.checkEachItem_eq_ok_iff.1 hCheck
      have hBlock := hItems _ _ hItem
      rw [Nat.zero_add] at hBlock
      exact Fields.check_of_holds hHolds
        (Fields.guarded_eq_ok_iff.1 hBlock).2
  | .blockMap _, _, .blockMap hMember hHolds, hCheck => by
      have hMembers := Reading.checkEachEntry_eq_ok_iff.1 hCheck
      exact Fields.check_of_holds hHolds
        (Fields.guarded_eq_ok_iff.1 (hMembers _ hMember)).2
  | .part _, _, .part hHolds, hCheck =>
      Fields.check_of_holds hHolds
        (Fields.guarded_eq_ok_iff.1 hCheck).2
  | .observed _, _, .observed hHolds, hCheck =>
      Fields.check_of_holds hHolds
        (Fields.guarded_eq_ok_iff.1 hCheck).2

theorem Fields.check_of_holds
    {path place : FieldPath}
    {inner : Shape}
    {tree : Tree} :
    ∀ {fields : Fields} {entries : ConfigMap},
      fields.Holds path entries place inner tree →
        fields.checkAll path entries = .ok () →
          inner.check place tree = .ok ()
  | .field _ _ _ _, _, .here hFound hHolds, hCheck => by
      have hFirst :=
        (Fields.checkAll_field_eq_ok_iff.1 hCheck).1
      rw [hFound] at hFirst
      exact Shape.check_of_holds hHolds hFirst
  | .field _ _ _ _, _, .later hHolds, hCheck =>
      Fields.check_of_holds hHolds
        (Fields.checkAll_field_eq_ok_iff.1 hCheck).2
  | .wireOnly _ _ _, _, .wireOnly hHolds, hCheck =>
      Fields.check_of_holds hHolds hCheck

end

/- Nothing was left in a tree that passes its check. -/
theorem Shape.isTidy_of_check
    {shape : Shape}
    {path : FieldPath}
    {tree : Tree}
    (hCheck : shape.check path tree = .ok ()) :
    shape.IsTidy path tree := by
  cases shape with
  | leaf type => trivial
  | value need =>
      rintro entries rfl
      have hBoth := ParamValue.check_eq_ok_iff.1 hCheck
      exact ⟨hBoth.1, fun _ _ member hMember _ _ =>
        hBoth.2 member hMember⟩
  | block fields =>
      rintro entries rfl
      exact (Fields.guarded_eq_ok_iff.1 hCheck).1
  | blocks fields =>
      rintro items rfl entries hEntries
      rcases List.mem_iff_getElem?.1 hEntries with
        ⟨position, hItem⟩
      exact (Fields.guarded_eq_ok_iff.1
        (Reading.checkEachItem_eq_ok_iff.1 hCheck _ _ hItem)).1
  | blockMap fields =>
      rintro members rfl key entries hMember
      exact (Fields.guarded_eq_ok_iff.1
        (Reading.checkEachEntry_eq_ok_iff.1 hCheck _
          hMember)).1
  | part fields =>
      rintro entries rfl
      exact (Fields.guarded_eq_ok_iff.1 hCheck).1
  | observed fields =>
      rintro entries rfl
      exact (Fields.guarded_eq_ok_iff.1 hCheck).1

/- A map that was read passes its check when it is tidy, and
   only then. -/
theorem Fields.check_eq_ok_iff_isTidy
    {fields : Fields}
    {path : FieldPath}
    {entries : ConfigMap}
    {record : fields.Rec}
    (hRead : fields.expand path entries = .ok record) :
    fields.check path entries = .ok () ↔
      fields.IsTidy path entries := by
  refine ⟨fun hCheck => ?_, Fields.check_of_expand hRead⟩
  have hBoth := Fields.guarded_eq_ok_iff.1 hCheck
  refine ⟨hBoth.1, fun place inner tree hHolds => ?_⟩
  exact Shape.isTidy_of_check
    (Fields.check_of_holds hHolds hBoth.2)

end Converge
