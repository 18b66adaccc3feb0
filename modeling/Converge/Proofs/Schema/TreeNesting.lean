import Converge.Proofs.Schema.Agreement
import Converge.Proofs.Schema.Matching
import Converge.Proofs.Schema.Nesting
import Converge.Proofs.Schema.RoundTrip
import Converge.Proofs.Tree.JsonForm

/-
  How deeply configurations nest.

  A declaration bounds the nesting of the maps that pass its
  check, and of the maps that its records are written as. A
  parameter value is a block in a tree, where it is a scalar
  or a list on the wire, so that a tree may nest one level
  deeper than the wire form.

  Main declarations:
    * `Fields.nests_of_check`: maps that pass a check
    * `Fields.nests_flatten`: maps of records
    * `Object.nests_of_validate`, `Object.nests_flatten`
-/

namespace Converge

open Converge.Tree (Nests)

------------------------------------------------------------
-- Leaves
------------------------------------------------------------

theorem Tree.nests_str
    (limit : Nat)
    (text : String) :
    Nests limit (.str text) :=
  ⟨trivial, Nat.zero_le limit⟩

/- A tree of the shape of a leaf nests as deeply as it. -/
theorem Leaf.depth_of_hasShape :
    ∀ (leaf : Leaf) {tree : Tree}, leaf.HasShape tree →
      tree.depth ≤ leaf.levels
  | .text, _, hShape | .requiredText, _, hShape
  | .timestamp, _, hShape => by
      rcases hShape with ⟨content, rfl⟩
      exact Nat.le_refl 0
  | .flag, _, hShape => by
      rcases hShape with ⟨value, rfl⟩
      exact Nat.le_refl 0
  | .integer, _, hShape => by
      rcases hShape with ⟨value, rfl⟩
      exact Nat.le_refl 0
  | .choice _, _, hShape | .requiredChoice _, _, hShape => by
      rcases hShape with ⟨content, rfl, _⟩
      exact Nat.le_refl 0
  | .texts, _, hShape => by
      rcases hShape with ⟨contents, rfl⟩
      rw [Tree.depth, levels, Nat.add_le_add_iff_right,
        Tree.itemsDepth_le_iff]
      intro item hItem
      rcases List.mem_map.1 hItem with ⟨content, _, rfl⟩
      exact Nat.le_refl 0
  | .textMap, _, hShape => by
      rcases hShape with ⟨contents, rfl⟩
      rw [Tree.depth, levels, Nat.add_le_add_iff_right,
        Tree.entriesDepth_le_iff]
      intro entry hEntry
      rcases List.mem_map.1 hEntry with ⟨content, _, rfl⟩
      exact Nat.le_refl 0

theorem Leaf.levels_le_one (leaf : Leaf) :
    leaf.levels ≤ 1 := by
  cases leaf with
  | texts | textMap => exact Nat.le_refl 1
  | text | requiredText | flag | integer | timestamp
  | choice | requiredChoice => exact Nat.zero_le 1

------------------------------------------------------------
-- Checked Maps
------------------------------------------------------------

/- The values of a map whose keys do not repeat nest as its
   values that are present do. -/
theorem ConfigMap.nests_of_present
    {limit : Nat}
    {entries : ConfigMap}
    (hKeys : (Tree.map entries).HasDistinctKeys)
    (hPresent :
      ∀ entry, entry ∈ entries →
        entries.present? entry.1 = some entry.2 →
          entry.2.HasDistinctKeys →
            entry.2.depth ≤ limit) :
    Nests (limit + 1) (.map entries) := by
  apply Tree.nests_map_iff.2
  refine ⟨hKeys.1, ?_⟩
  intro entry hEntry
  have hDistinct :=
    Tree.entriesHaveDistinctKeys_iff.1 hKeys.2 entry hEntry
  refine ⟨hDistinct, ?_⟩
  have hFound := Keyed.lookup_of_mem hKeys.1 hEntry
  cases hNull : entry.2.isNull with
  | true =>
      cases hValue : entry.2 with
      | null => exact Nat.zero_le limit
      | bool | int | str | list | map =>
          rw [hValue] at hNull
          cases hNull
  | false =>
      apply hPresent entry hEntry _ hDistinct
      rw [ConfigMap.present?, hFound, Option.filter_some,
        hNull]
      rfl

/- The block of a parameter value. -/
theorem ParamValue.nests_of_check
    {path : FieldPath}
    {entries : ConfigMap}
    (hCheck : check path entries = .ok ())
    (hKeys : (Tree.map entries).HasDistinctKeys) :
    Nests 2 (.map entries) := by
  rcases check_eq_ok_iff.1 hCheck with ⟨hKnown, hShapes⟩
  apply ConfigMap.nests_of_present hKeys
  intro entry hEntry hPresent _
  have hKey := hKnown entry hEntry
  rw [Keyed.has_eq_isSome] at hKey
  rcases Option.isSome_iff_exists.1 hKey with ⟨leaf, hLeaf⟩
  have hShape :=
    hShapes _ (Keyed.mem_of_lookup hLeaf) _ hPresent
  exact Nat.le_trans (leaf.depth_of_hasShape hShape)
    leaf.levels_le_one

/- A map whose values nest as the fields of a block. -/
theorem Fields.nests_of_guarded
    {fields : Fields}
    (hFields :
      ∀ {path : FieldPath} {entries : ConfigMap},
        fields.checkAll path entries = .ok () →
          ∀ key, key ∈ fields.keys →
            ∀ tree, entries.present? key = some tree →
              tree.HasDistinctKeys →
                tree.depth ≤ fields.levels + 1)
    {path : FieldPath}
    {entries : ConfigMap}
    (hCheck :
      Declaration.guarded fields.keys fields.checkAll path
          entries =
        .ok ())
    (hKeys : (Tree.map entries).HasDistinctKeys) :
    Nests (fields.levels + 2) (.map entries) := by
  rcases Fields.guarded_eq_ok_iff.1 hCheck with
    ⟨hDeclares, hAll⟩
  apply ConfigMap.nests_of_present hKeys
  intro entry hEntry hPresent hDistinct
  exact hFields hAll entry.1 (hDeclares entry hEntry) entry.2
    hPresent hDistinct

mutual

/- A tree that passes the check of a field nests one level
   deeper at most than the field does on the wire. -/
theorem Shape.depth_of_check :
    ∀ (shape : Shape) {path : FieldPath} {tree : Tree},
      shape.check path tree = .ok () →
        tree.HasDistinctKeys →
          tree.depth ≤ shape.levels + 1
  | .leaf type, _, _, hCheck, _ => by
      have hShape := Leaf.check_eq_ok_iff.1 hCheck
      exact Nat.le_succ_of_le (type.depth_of_hasShape hShape)
  | .value _, _, _, hCheck, hKeys => by
      rcases Reading.block_eq_ok_iff.1 hCheck with
        ⟨entries, rfl, hEntries⟩
      exact (ParamValue.nests_of_check hEntries hKeys).2
  | .block fields, _, _, hCheck, hKeys
  | .part fields, _, _, hCheck, hKeys
  | .observed fields, _, _, hCheck, hKeys => by
      rcases Reading.block_eq_ok_iff.1 hCheck with
        ⟨entries, rfl, hEntries⟩
      exact (Fields.nests_of_guarded fields.depth_of_checkAll
        hEntries hKeys).2
  | .blocks fields, _, _, hCheck, hKeys => by
      rcases Reading.checkItems_eq_ok_iff.1 hCheck with
        ⟨items, rfl, hItems⟩
      rw [Tree.depth, Shape.levels, Nat.add_le_add_iff_right,
        Tree.itemsDepth_le_iff]
      intro item hItem
      rcases List.mem_iff_getElem?.1 hItem with
        ⟨position, hAt⟩
      have hBlock :=
        Reading.checkEachItem_eq_ok_iff.1 hItems _ _ hAt
      rcases Reading.block_eq_ok_iff.1 hBlock with
        ⟨entries, rfl, hEntries⟩
      exact (Fields.nests_of_guarded fields.depth_of_checkAll
        hEntries
        (Tree.itemsHaveDistinctKeys_iff.1 hKeys _ hItem)).2
  | .blockMap fields, _, _, hCheck, hKeys => by
      rcases Reading.checkEntries_eq_ok_iff.1 hCheck with
        ⟨members, rfl, hMembers⟩
      rw [Tree.depth, Shape.levels, Nat.add_le_add_iff_right,
        Tree.entriesDepth_le_iff]
      intro member hMember
      have hBlock :=
        Reading.checkEachEntry_eq_ok_iff.1 hMembers _ hMember
      have hValue :=
        Tree.entriesHaveDistinctKeys_iff.1 hKeys.2 _ hMember
      rcases Reading.block_eq_ok_iff.1 hBlock with
        ⟨entries, hTree, hEntries⟩
      rw [hTree] at hValue ⊢
      exact (Fields.nests_of_guarded fields.depth_of_checkAll
        hEntries hValue).2

theorem Fields.depth_of_checkAll :
    ∀ (fields : Fields) {path : FieldPath}
        {entries : ConfigMap},
      fields.checkAll path entries = .ok () →
        ∀ key, key ∈ fields.keys →
          ∀ tree, entries.present? key = some tree →
            tree.HasDistinctKeys →
              tree.depth ≤ fields.levels + 1
  | .nil, _, _, _, _, hKey, _, _, _ => by cases hKey
  | .field name _ shape rest, path, entries, hCheck, key, hKey,
      tree, hPresent, hDistinct => by
      rcases Fields.checkAll_field_eq_ok_iff.1 hCheck with
        ⟨hFirst, hRest⟩
      rw [Fields.levels]
      rcases List.mem_cons.1 hKey with rfl | hLater
      · rw [hPresent] at hFirst
        have hDepth := shape.depth_of_check hFirst hDistinct
        omega
      · have hDepth := rest.depth_of_checkAll hRest key hLater
          tree hPresent hDistinct
        omega
  | .wireOnly _ _ rest, _, _, hCheck, key, hKey, tree,
      hPresent, hDistinct => by
      have hDepth := rest.depth_of_checkAll hCheck key hKey
        tree hPresent hDistinct
      rw [Fields.levels]
      omega

end

/- A map that passes the check of a declaration. -/
theorem Fields.nests_of_check
    {fields : Fields}
    {path : FieldPath}
    {entries : ConfigMap}
    (hCheck : fields.check path entries = .ok ())
    (hKeys : (Tree.map entries).HasDistinctKeys) :
    Nests (fields.levels + 2) (.map entries) :=
  Fields.nests_of_guarded fields.depth_of_checkAll hCheck hKeys

------------------------------------------------------------
-- Flattened Records
------------------------------------------------------------

theorem Keyed.map_fst_mapValues
    {α β : Type}
    (f : α → β)
    (entries : List (String × α)) :
    (mapValues f entries).map (fun entry => entry.1) =
      entries.map fun entry => entry.1 := by
  rw [mapValues, List.map_map]
  rfl

/- The tree of a leaf nests as deeply as the leaf. -/
theorem Leaf.nests_flatten :
    ∀ (leaf : Leaf) (value : leaf.Val) {tree : Tree},
      leaf.flatten value = some tree →
        Nests leaf.levels tree
  | .text, (content : String), _, hTree
  | .requiredText, (content : String), _, hTree => by
      simp only [flatten, flattenText] at hTree
      split at hTree <;> cases hTree
      exact Tree.nests_str _ content
  | .flag, (value : Bool), _, hTree => by
      simp only [flatten] at hTree
      split at hTree <;> cases hTree
      exact ⟨trivial, Nat.le_refl 0⟩
  | .integer, (value : Int64), _, hTree => by
      simp only [flatten] at hTree
      split at hTree <;> cases hTree
      exact ⟨trivial, Nat.le_refl 0⟩
  | .timestamp, (time : Option Timestamp), _, hTree => by
      rcases Option.map_eq_some_iff.1 hTree with ⟨_, _, rfl⟩
      exact Tree.nests_str _ _
  | .choice _, (selected : Option (Choice _)), _, hTree => by
      rcases Option.map_eq_some_iff.1 hTree with ⟨_, _, rfl⟩
      exact Tree.nests_str _ _
  | .requiredChoice _, (selected : Choice _), _, hTree => by
      cases hTree
      exact Tree.nests_str _ _
  | .texts, (items : List String), _, hTree => by
      simp only [flatten] at hTree
      split at hTree <;> cases hTree
      apply Tree.nests_list_iff.2
      intro item hItem
      rcases List.mem_map.1 hItem with ⟨content, _, rfl⟩
      exact Tree.nests_str 0 content
  | .textMap, (map : SortedMap String), _, hTree => by
      simp only [flatten] at hTree
      split at hTree <;> cases hTree
      apply Tree.nests_map_iff.2
      rw [Keyed.map_fst_mapValues]
      refine ⟨map.sorted.nodup, ?_⟩
      intro entry hEntry
      rcases List.mem_map.1 hEntry with ⟨member, _, rfl⟩
      exact Tree.nests_str 0 member.2

/- The entry of a value that may be missing. -/
theorem ParamValue.nests_entryOf
    {limit : Nat}
    {key : String}
    {value : Option Tree}
    (hValue :
      ∀ tree, value = some tree → Nests limit tree)
    {entry : String × Tree}
    (hEntry : entry ∈ entryOf key value) :
    entry.1 = key ∧ Nests limit entry.2 := by
  cases value with
  | none => cases hEntry
  | some tree =>
      cases List.mem_singleton.1 hEntry
      exact ⟨rfl, hValue tree rfl⟩

theorem ParamValue.nests_flatten (value : ParamValue) :
    Nests 2 (.map value.flatten) := by
  have hBlock :
      ∀ (key : String) (leaf : Leaf) (held : leaf.Val),
        key ≠ "type" →
          Nests 2
            (.map
              (("type", .str value.typeName) ::
                entryOf key (leaf.flatten held))) := by
    intro key leaf held hKey
    have hEntry :
        ∀ entry, entry ∈ entryOf key (leaf.flatten held) →
          entry.1 = key ∧ Nests 1 entry.2 := by
      intro entry
      exact nests_entryOf fun tree hTree =>
        (leaf.nests_flatten held hTree).mono
          leaf.levels_le_one
    apply Tree.nests_map_iff.2
    constructor
    · cases hFlat : leaf.flatten held with
      | none => exact List.pairwise_singleton _ _
      | some tree =>
          simp [entryOf, Ne.symm hKey]
    · intro entry hMember
      rcases List.mem_cons.1 hMember with rfl | hHeld
      · exact Tree.nests_str 1 _
      · exact (hEntry entry hHeld).2
  cases value with
  | string text => exact hBlock _ .text text (by decide)
  | array items => exact hBlock _ .texts items (by decide)
  | object map => exact hBlock _ .textMap map (by decide)

theorem Need.nests_flatten :
    ∀ (need : Need) (held : need.Val) {tree : Tree},
      need.flatten held = some tree → Nests 2 tree
  | .optional, (held : Option ParamValue), _, hTree => by
      rcases Option.map_eq_some_iff.1 hTree with
        ⟨value, _, rfl⟩
      exact value.nests_flatten
  | .required, (held : ParamValue), _, hTree
  | .assumed, (held : ParamValue), _, hTree => by
      cases hTree
      exact held.nests_flatten

theorem nests_flattenPart
    {limit : Nat}
    {entries : ConfigMap}
    (hEntries : Nests limit (.map entries))
    {tree : Tree}
    (hTree : flattenPart entries = some tree) :
    Nests limit tree := by
  unfold flattenPart at hTree
  split at hTree <;> cases hTree
  exact hEntries

/- The map of a record, once its values are known. -/
theorem Fields.nests_of_entries
    {fields : Fields}
    {record : fields.Rec}
    (hWell : fields.isWellFormed = true)
    (hEntries :
      ∀ entry, entry ∈ fields.flatten record →
        Nests (fields.levels + 1) entry.2) :
    Nests (fields.levels + 2)
      (.map (fields.flatten record)) :=
  Tree.nests_map_iff.2
    ⟨fields.nodup_flatten record hWell, hEntries⟩

mutual

/- The tree of a field nests one level deeper at most than
   the field does on the wire. -/
theorem Shape.nests_flatten :
    ∀ (shape : Shape) (held : shape.Val) {tree : Tree},
      shape.isWellFormed = true →
        shape.flatten held = some tree →
          Nests (shape.levels + 1) tree
  | .leaf type, held, _, _, hTree =>
      (type.nests_flatten held hTree).mono (Nat.le_succ _)
  | .value need, held, _, _, hTree =>
      need.nests_flatten held hTree
  | .block fields, (held : Option fields.Rec), _, hWell,
      hTree => by
      rcases Option.map_eq_some_iff.1 hTree with
        ⟨record, _, rfl⟩
      exact Fields.nests_of_entries hWell
        (fields.nests_entries record hWell)
  | .blocks fields, (items : List fields.Rec), _, hWell,
      hTree => by
      simp only [Shape.flatten] at hTree
      split at hTree <;> cases hTree
      apply Tree.nests_list_iff.2
      intro item hItem
      rcases List.mem_map.1 hItem with ⟨record, _, rfl⟩
      exact Fields.nests_of_entries hWell
        (fields.nests_entries record hWell)
  | .blockMap fields, (map : SortedMap fields.Rec), _, hWell,
      hTree => by
      simp only [Shape.flatten] at hTree
      split at hTree <;> cases hTree
      apply Tree.nests_map_iff.2
      rw [Keyed.map_fst_mapValues]
      refine ⟨map.sorted.nodup, ?_⟩
      intro entry hEntry
      rcases List.mem_map.1 hEntry with ⟨member, _, rfl⟩
      exact Fields.nests_of_entries hWell
        (fields.nests_entries member.2 hWell)
  | .part fields, record, _, hWell, hTree => by
      have hInner := (Shape.isWellFormed_part_iff.1 hWell).1
      exact nests_flattenPart
        (Fields.nests_of_entries hInner
          (fields.nests_entries record hInner)) hTree
  | .observed fields, (held : Option fields.Rec), _, hWell,
      hTree => by
      have hInner :=
        (Shape.isWellFormed_observed_iff.1 hWell).1
      rcases Option.bind_eq_some_iff.1 hTree with
        ⟨record, _, hPart⟩
      exact nests_flattenPart
        (Fields.nests_of_entries hInner
          (fields.nests_entries record hInner)) hPart

theorem Fields.nests_entries :
    ∀ (fields : Fields) (record : fields.Rec),
      fields.isWellFormed = true →
        ∀ entry, entry ∈ fields.flatten record →
          Nests (fields.levels + 1) entry.2
  | .nil, _, _, _, hEntry => by cases hEntry
  | .field key _ shape rest, (first, others), hWell, entry,
      hEntry => by
      have hParts := Fields.isWellFormed_field_iff.1 hWell
      have hRest :
          entry ∈ rest.flatten others →
            Nests (max shape.levels rest.levels + 1)
              entry.2 := by
        intro hLater
        have hNests := rest.nests_entries others hParts.2.2.2
          entry hLater
        exact hNests.mono (by omega)
      simp only [Fields.flatten] at hEntry
      split at hEntry
      · rename_i value hValue
        rcases List.mem_cons.1 hEntry with rfl | hLater
        · have hNests := shape.nests_flatten first
            hParts.2.2.1 hValue
          exact hNests.mono (by rw [Fields.levels]; omega)
        · exact hRest hLater
      · exact hRest hEntry
  | .wireOnly _ _ rest, (_, others), hWell, entry, hEntry => by
      have hInner := (Fields.isWellFormed_wireOnly_iff.1 hWell).2.2
      have hNests := rest.nests_entries others hInner entry
        hEntry
      exact hNests.mono (by rw [Fields.levels]; omega)

end

------------------------------------------------------------
-- Objects
------------------------------------------------------------

/- Levels of nesting that a configuration may have. -/
theorem Kind.levels_fields (kind : Kind) :
    kind.fields.levels + 2 ≤ Json.maxDepth - 1 := by
  cases kind <;> decide +kernel

namespace Object

/- A configuration that passes the check of a kind. -/
theorem nests_of_validate
    {kind : Kind}
    {config : ConfigMap}
    (hValid : validate kind config = .ok ())
    (hKeys : (Tree.map config).HasDistinctKeys) :
    Nests (Json.maxDepth - 1) (.map config) := by
  rw [validate_eq] at hValid
  exact (Fields.nests_of_check hValid hKeys).mono
    kind.levels_fields

/- The configuration of an object. -/
theorem nests_flatten
    {kind : Kind}
    (object : Object kind) :
    Nests (Json.maxDepth - 1) (.map object.flatten) :=
  (Fields.nests_of_entries kind.isWellFormed_fields
    (kind.fields.nests_entries object.content
      kind.isWellFormed_fields)).mono kind.levels_fields

end Object

end Converge
