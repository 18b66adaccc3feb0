import Converge.Diff
import Converge.Proofs.Schema.Agreement
import Converge.Proofs.Schema.Matching
import Converge.Proofs.Tree.Alike

/-
  The order of keys does not matter.

  Two configurations that differ in nothing but the order in
  which the entries of their maps stand are both accepted or
  both refused, and are read as the same object. Only the
  fault that is reported may differ, as the first one in the
  order of the keys is.

  The readers take maps by their keys, and collect free maps
  in key order; so each of them agrees on trees that are
  alike, and the declaration is followed on both sides at
  once.

  Main declarations:
    * `Reading.agree_items`, `Reading.agree_entries`
    * `Shape.agree_check`, `Shape.agree_expand`
    * `Object.order_irrelevant`: of objects
-/

namespace Converge

open Converge.Tree (Alike AlikeMaps Matching)
open Result (Agree)

------------------------------------------------------------
-- Lists and Maps
------------------------------------------------------------

namespace ConfigMap

/- Maps that are alike have the same keys. -/
theorem forall_mem_iff_of_alike
    {entries others : ConfigMap}
    (hAlike : AlikeMaps entries others)
    (known : String → Prop) :
    (∀ entry, entry ∈ entries → known entry.1) ↔
      ∀ entry, entry ∈ others → known entry.1 := by
  have hKeys :
      ∀ map : ConfigMap,
        (map.map fun entry => entry.1).Nodup →
          ((∀ entry, entry ∈ map → known entry.1) ↔
            ∀ key, (map.lookup key).isSome = true →
              known key) := by
    intro map hNodup
    constructor
    · intro hAll key hSome
      rcases Option.isSome_iff_exists.1 hSome with
        ⟨tree, hFound⟩
      exact hAll _ (Keyed.mem_of_lookup hFound)
    · intro hAll entry hEntry
      apply hAll
      rw [Keyed.lookup_of_mem hNodup hEntry]
      rfl
  rw [hKeys _ hAlike.leftKeys, hKeys _ hAlike.rightKeys]
  refine forall_congr' fun key => ?_
  have hAnswer := hAlike.answers key
  generalize entries.lookup key = found at hAnswer ⊢
  generalize others.lookup key = other at hAnswer ⊢
  cases hAnswer <;> rfl

/- Entries that are present are alike. -/
theorem present?_alike
    {entries others : ConfigMap}
    (hAlike : AlikeMaps entries others)
    (key : String) :
    Option.Rel Alike (entries.present? key)
      (others.present? key) := by
  have hAnswer := hAlike.answers key
  simp only [present?]
  generalize entries.lookup key = found at hAnswer ⊢
  generalize others.lookup key = other at hAnswer ⊢
  cases hAnswer with
  | none => exact .none
  | some hTrees =>
      simp only [Option.filter_some, hTrees.isNull_eq]
      split
      · exact .some hTrees
      · exact .none

end ConfigMap

namespace Reading

variable {path : FieldPath}
variable {left right : Tree}

section Readers

variable {α : Type}
variable {found other : Option Tree}
variable {read : FieldPath → Tree → Except SchemaError α}

/- A list is read alike when its items are. -/
theorem agree_items
    (hRead :
      ∀ place tree other, Alike tree other →
        Agree (read place tree) (read place other))
    (hAlike : Option.Rel Alike found other) :
    Agree (items read path found) (items read path other) := by
  cases hAlike with
  | none => exact .refl _
  | some hTrees =>
      cases hTrees.matching with
      | scalar => exact .refl _
      | map => exact Result.agree_error _ _
      | list hItems =>
          intro values
          simp only [items, eachItem_eq_ok_iff]
          exact forall_congr' fun position =>
            Tree.rel_congr_of_alike (hItems position)
              fun _ _ value hItem => hRead _ _ _ hItem value

/- A map is read alike when its values are. -/
theorem agree_entries
    (hRead :
      ∀ place tree other, Alike tree other →
        Agree (read place tree) (read place other))
    (hAlike : Option.Rel Alike found other) :
    Agree (entries read path found)
      (entries read path other) := by
  cases hAlike with
  | none => exact .refl _
  | some hTrees =>
      cases hTrees.matching with
      | scalar => exact .refl _
      | list => exact Result.agree_error _ _
      | map hMaps =>
          intro map
          rw [entries_eq_ok_iff hMaps.leftKeys,
            entries_eq_ok_iff hMaps.rightKeys]
          exact forall_congr' fun key =>
            Tree.rel_congr_of_alike (hMaps.answers key)
              fun _ _ value hValue => hRead _ _ _ hValue value

end Readers

/- A block is read alike when it is from maps that are. -/
theorem agree_block
    {α : Type}
    {read : FieldPath → ConfigMap → Except SchemaError α}
    (hRead :
      ∀ entries others, AlikeMaps entries others →
        Agree (read path entries) (read path others))
    (hAlike : Alike left right) :
    Agree (block read path left) (block read path right) := by
  cases hAlike.matching with
  | scalar => exact .refl _
  | list => exact Result.agree_error _ _
  | map hMaps => exact hRead _ _ hMaps

section Checks

variable
  {check : FieldPath → Tree → Except SchemaError Unit}

theorem agree_checkItems
    (hCheck :
      ∀ place tree other, Alike tree other →
        Agree (check place tree) (check place other))
    (hAlike : Alike left right) :
    Agree (checkItems check path left)
      (checkItems check path right) := by
  cases hAlike.matching with
  | scalar => exact .refl _
  | map => exact Result.agree_error _ _
  | list hItems =>
      rintro ⟨⟩
      simp only [checkItems, checkEachItem_eq_ok_iff]
      exact forall_congr' fun position =>
        Tree.forall_congr_of_alike (hItems position)
          fun _ _ hItem => hCheck _ _ _ hItem ()

theorem agree_checkEntries
    (hCheck :
      ∀ place tree other, Alike tree other →
        Agree (check place tree) (check place other))
    (hAlike : Alike left right) :
    Agree (checkEntries check path left)
      (checkEntries check path right) := by
  cases hAlike.matching with
  | scalar => exact .refl _
  | list => exact Result.agree_error _ _
  | map hMaps =>
      have hLookup :
          ∀ (map : ConfigMap),
            (map.map fun entry => entry.1).Nodup →
              (checkEachEntry check path map = .ok () ↔
                ∀ key tree, map.lookup key = some tree →
                  check (path.entry key) tree = .ok ()) := by
        intro map hNodup
        rw [checkEachEntry_eq_ok_iff]
        exact
          ⟨fun hAll key tree hFound =>
            hAll _ (Keyed.mem_of_lookup hFound),
          fun hAll entry hEntry =>
            hAll _ _ (Keyed.lookup_of_mem hNodup hEntry)⟩
      rintro ⟨⟩
      simp only [checkEntries, hLookup _ hMaps.leftKeys,
        hLookup _ hMaps.rightKeys]
      exact forall_congr' fun key =>
        Tree.forall_congr_of_alike (hMaps.answers key)
          fun _ _ hValue => hCheck _ _ _ hValue ()

/- Strings that are elements. -/
theorem agree_checkElement
    (hAlike : Alike left right) :
    Agree (checkElement path left)
      (checkElement path right) := by
  cases hAlike.matching with
  | scalar => exact .refl _
  | list => exact Result.agree_error _ _
  | map => exact Result.agree_error _ _

theorem agree_element
    (hAlike : Alike left right) :
    Agree (element path left) (element path right) := by
  cases hAlike.matching with
  | scalar => exact .refl _
  | list => exact Result.agree_error _ _
  | map => exact Result.agree_error _ _

end Checks

end Reading

------------------------------------------------------------
-- Leaves
------------------------------------------------------------

namespace Leaf

theorem agree_check
    (path : FieldPath)
    (leaf : Leaf)
    {left right : Tree}
    (hAlike : Alike left right) :
    Agree (leaf.check path left) (leaf.check path right) := by
  cases leaf with
  | texts =>
      exact Reading.agree_checkItems
        (fun _ _ _ h => Reading.agree_checkElement h) hAlike
  | textMap =>
      exact Reading.agree_checkEntries
        (fun _ _ _ h => Reading.agree_checkElement h) hAlike
  | _ =>
      cases hAlike.matching with
      | scalar => exact .refl _
      | list => exact Result.agree_error _ _
      | map => exact Result.agree_error _ _

theorem agree_expand
    (path : FieldPath)
    (leaf : Leaf)
    {found other : Option Tree}
    (hAlike : Option.Rel Alike found other) :
    Agree (leaf.expand path found)
      (leaf.expand path other) := by
  cases leaf with
  | texts =>
      exact Reading.agree_items
        (fun _ _ _ h => Reading.agree_element h) hAlike
  | textMap =>
      exact Reading.agree_entries
        (fun _ _ _ h => Reading.agree_element h) hAlike
  | _ =>
      cases hAlike with
      | none => exact .refl _
      | some hTrees =>
          cases hTrees.matching with
          | scalar => exact .refl _
          | list => exact Result.agree_error _ _
          | map => exact Result.agree_error _ _

end Leaf

------------------------------------------------------------
-- Parameter Values
------------------------------------------------------------

namespace ParamValue

variable {path : FieldPath}
variable {entries others : ConfigMap}

theorem agree_check
    (hAlike : AlikeMaps entries others) :
    Agree (check path entries) (check path others) := by
  have hLeaf :
      ∀ key (leaf : Leaf) (map : ConfigMap),
        (∀ tree, map.present? key = some tree →
            leaf.HasShape tree) ↔
          ∀ tree, map.present? key = some tree →
            leaf.check (path.entry key) tree = .ok () :=
    fun key leaf map => by simp only [Leaf.check_eq_ok_iff]
  rintro ⟨⟩
  rw [check_eq_ok_iff, check_eq_ok_iff]
  refine and_congr
    (ConfigMap.forall_mem_iff_of_alike hAlike
      fun key => Keyed.has key leaves = true) ?_
  refine forall_congr' fun member =>
    forall_congr' fun _ => ?_
  rw [hLeaf, hLeaf]
  exact Tree.forall_congr_of_alike
    (ConfigMap.present?_alike hAlike member.1)
      fun _ _ hTrees => member.2.agree_check _ hTrees ()

theorem agree_expandType
    (hAlike : AlikeMaps entries others) :
    Agree (expandType path entries)
      (expandType path others) := by
  have hSome :
      ∀ key,
        (entries.present? key).isSome =
          (others.present? key).isSome := by
    intro key
    have hAnswer := ConfigMap.present?_alike hAlike key
    generalize entries.present? key = found at hAnswer ⊢
    generalize others.present? key = other at hAnswer ⊢
    cases hAnswer <;> rfl
  simp only [expandType, hSome]
  exact (Leaf.agree_expand (path.entry "type")
    (.choice paramTypes)
    (ConfigMap.present?_alike hAlike "type")).bind
      fun _ => .refl _

theorem agree_expand
    (hAlike : AlikeMaps entries others) :
    Agree (expand path entries) (expand path others) := by
  have hLeaf :
      ∀ key (leaf : Leaf),
        Agree
          (leaf.expand (path.entry key)
            (entries.present? key))
          (leaf.expand (path.entry key)
            (others.present? key)) :=
    fun key leaf =>
      leaf.agree_expand _ (ConfigMap.present?_alike hAlike key)
  refine (agree_expandType hAlike).bind fun type => ?_
  split
  · exact (hLeaf "array_val" .texts).bind fun _ => .refl _
  · split
    · exact (hLeaf "object_val" .textMap).bind
        fun _ => .refl _
    · exact (hLeaf "string_val" .text).bind fun _ => .refl _

end ParamValue

------------------------------------------------------------
-- Checking
------------------------------------------------------------

theorem Fields.agree_guarded
    {fields : Fields}
    {path : FieldPath}
    {entries others : ConfigMap}
    (hFields :
      Agree (fields.checkAll path entries)
        (fields.checkAll path others))
    (hAlike : AlikeMaps entries others) :
    Agree
      (Declaration.guarded fields.keys fields.checkAll path entries)
      (Declaration.guarded fields.keys fields.checkAll path
        others) := by
  rintro ⟨⟩
  rw [Fields.guarded_eq_ok_iff, Fields.guarded_eq_ok_iff]
  exact and_congr
    (ConfigMap.forall_mem_iff_of_alike hAlike
      fun key => key ∈ fields.keys)
    (hFields ())

mutual

/- Trees that are alike pass the check of a shape together. -/
theorem Shape.agree_check :
    ∀ (shape : Shape) (path : FieldPath) {left right : Tree},
      Alike left right →
        Agree (shape.check path left) (shape.check path right)
  | .leaf type, path, _, _, hAlike =>
      type.agree_check path hAlike
  | .value _, _, _, _, hAlike =>
      Reading.agree_block
        (fun _ _ hMaps => ParamValue.agree_check hMaps) hAlike
  | .block fields, path, _, _, hAlike =>
      Reading.agree_block
        (fun _ _ hMaps =>
          Fields.agree_guarded
            (fields.agree_checkAll path hMaps) hMaps)
        hAlike
  | .blocks fields, _, _, _, hAlike =>
      Reading.agree_checkItems
        (fun place _ _ hItems =>
          Reading.agree_block
            (fun _ _ hMaps =>
              Fields.agree_guarded
                (fields.agree_checkAll place hMaps) hMaps)
            hItems)
        hAlike
  | .blockMap fields, _, _, _, hAlike =>
      Reading.agree_checkEntries
        (fun place _ _ hValues =>
          Reading.agree_block
            (fun _ _ hMaps =>
              Fields.agree_guarded
                (fields.agree_checkAll place hMaps) hMaps)
            hValues)
        hAlike
  | .part fields, path, _, _, hAlike =>
      Reading.agree_block
        (fun _ _ hMaps =>
          Fields.agree_guarded
            (fields.agree_checkAll path hMaps) hMaps)
        hAlike
  | .observed fields, path, _, _, hAlike =>
      Reading.agree_block
        (fun _ _ hMaps =>
          Fields.agree_guarded
            (fields.agree_checkAll path hMaps) hMaps)
        hAlike

theorem Fields.agree_checkAll :
    ∀ (fields : Fields) (path : FieldPath)
        {entries others : ConfigMap},
      AlikeMaps entries others →
        Agree (fields.checkAll path entries)
          (fields.checkAll path others)
  | .nil, _, _, _, _ => .refl _
  | .field key _ shape rest, path, entries, others,
      hAlike => by
      rw [Fields.checkAll_field, Fields.checkAll_field]
      refine Agree.bind ?_ fun _ =>
        rest.agree_checkAll path hAlike
      have hAnswer := ConfigMap.present?_alike hAlike key
      generalize entries.present? key = found at hAnswer ⊢
      generalize others.present? key = other at hAnswer ⊢
      cases hAnswer with
      | none => exact .refl _
      | some hTrees => exact shape.agree_check _ hTrees
  | .wireOnly _ _ rest, path, _, _, hAlike =>
      rest.agree_checkAll path hAlike

end

------------------------------------------------------------
-- Reading
------------------------------------------------------------

theorem Need.agree_expand
    (need : Need)
    (path : FieldPath)
    {found other : Option Tree}
    (hAlike : Option.Rel Alike found other) :
    Agree (need.expand path found)
      (need.expand path other) := by
  cases hAlike with
  | none => exact .refl _
  | some hTrees =>
      have hBlock :
          Agree (Reading.block ParamValue.expand path _)
            (Reading.block ParamValue.expand path _) :=
        Reading.agree_block
          (fun _ _ hMaps => ParamValue.agree_expand hMaps)
          hTrees
      cases need with
      | optional => exact hBlock.map some
      | required => exact hBlock
      | assumed => exact hBlock

mutual

/- Trees that are alike are read as the same value. -/
theorem Shape.agree_expand :
    ∀ (shape : Shape) (path : FieldPath)
        {found other : Option Tree},
      Option.Rel Alike found other →
        Agree (shape.expand path found)
          (shape.expand path other)
  | .leaf type, path, _, _, hAlike =>
      type.agree_expand path hAlike
  | .value need, path, _, _, hAlike =>
      need.agree_expand path hAlike
  | .block _, _, _, _, .none => .refl _
  | .block fields, path, _, _, .some hTrees =>
      (Reading.agree_block
        (fun _ _ hMaps => fields.agree_expand path hMaps)
        hTrees).map some
  | .blocks fields, _, _, _, hAlike =>
      Reading.agree_items
        (fun place _ _ hItems =>
          Reading.agree_block
            (fun _ _ hMaps => fields.agree_expand place hMaps)
            hItems)
        hAlike
  | .blockMap fields, _, _, _, hAlike =>
      Reading.agree_entries
        (fun place _ _ hValues =>
          Reading.agree_block
            (fun _ _ hMaps => fields.agree_expand place hMaps)
            hValues)
        hAlike
  | .part _, _, _, _, .none => .refl _
  | .part fields, path, _, _, .some hTrees =>
      Reading.agree_block
        (fun _ _ hMaps => fields.agree_expand path hMaps)
        hTrees
  | .observed _, _, _, _, .none => .refl _
  | .observed fields, path, _, _, .some hTrees =>
      (Reading.agree_block
        (fun _ _ hMaps => fields.agree_expand path hMaps)
        hTrees).map some

theorem Fields.agree_expand :
    ∀ (fields : Fields) (path : FieldPath)
        {entries others : ConfigMap},
      AlikeMaps entries others →
        Agree (fields.expand path entries)
          (fields.expand path others)
  | .nil, _, _, _, _ => .refl _
  | .field key _ shape rest, path, _, _, hAlike =>
      (shape.agree_expand (path.entry key)
        (ConfigMap.present?_alike hAlike key)).bind fun _ =>
          (rest.agree_expand path hAlike).bind
            fun _ => .refl _
  | .wireOnly _ _ rest, path, _, _, hAlike =>
      (rest.agree_expand path hAlike).bind fun _ => .refl _

end

------------------------------------------------------------
-- Objects
------------------------------------------------------------

namespace Object

/- Configurations that are the same up to the order of keys,
   at every depth, are accepted or refused together, and read
   as the same object or not at all. The objects that were
   read have the same tree form and the same wire form, down
   to the order of keys, and the same differences from and to
   any third configuration. -/
theorem order_irrelevant
    (kind : Kind)
    {left right : ConfigMap}
    (hLeft : (Tree.map left).HasDistinctKeys)
    (hRight : (Tree.map right).HasDistinctKeys)
    (hSame : Tree.sameMaps left right = true) :
    (Object.validate kind left = .ok () ↔
        Object.validate kind right = .ok ()) ∧
      (∀ object,
        Object.expand kind left = .ok object ↔
          Object.expand kind right = .ok object) ∧
      ∀ object other,
        Object.expand kind left = .ok object →
          Object.expand kind right = .ok other →
            other.flatten = object.flatten ∧
              other.encode = object.encode ∧
              ∀ third,
                Object.diffConfigs kind left third =
                    Object.diffConfigs kind right third ∧
                  Object.diffConfigs kind third left =
                    Object.diffConfigs kind third right := by
  have hAlike :=
    Tree.alikeMaps_of_sameMaps hLeft hRight hSame
  have hCheck : Agree (Object.validate kind left)
      (Object.validate kind right) := by
    rw [Object.validate_eq, Object.validate_eq]
    exact Fields.agree_guarded
      (kind.fields.agree_checkAll .root hAlike) hAlike
  have hExpand : Agree (Object.expand kind left)
      (Object.expand kind right) :=
    (kind.fields.agree_expand .root hAlike).map _
  refine ⟨hCheck (), hExpand, ?_⟩
  intro object other hObject hOther
  have hEqual : other = object := by
    rw [(hExpand object).1 hObject] at hOther
    exact (Except.ok.inj hOther).symm
  subst hEqual
  refine ⟨rfl, rfl, fun third => ?_⟩
  simp only [Object.diffConfigs, hObject, hOther]
  exact ⟨trivial, trivial⟩

/- A task, in two orders of its keys. -/
def orderedConfig : ConfigMap :=
  [("metadata", .map
      [("name", .str "build"),
        ("labels", .map
          [("a", .str ""), ("b", .str "1")])]),
    ("spec", .map
      [("steps", .list
        [.map [("name", .str "all"),
          ("image", .str "alpine")]])])]

def reorderedConfig : ConfigMap :=
  [("spec", .map
      [("steps", .list
        [.map [("image", .str "alpine"),
          ("name", .str "all")]])]),
    ("metadata", .map
      [("labels", .map
          [("b", .str "1"), ("a", .str "")]),
        ("name", .str "build")])]

theorem order_irrelevant_task :
    ∃ object,
      Object.expand .task orderedConfig = .ok object ∧
        Object.expand .task reorderedConfig = .ok object := by
  have hLeft : (Tree.map orderedConfig).HasDistinctKeys := by
    simp [Tree.HasDistinctKeys, Tree.ItemsHaveDistinctKeys,
      Tree.EntriesHaveDistinctKeys, orderedConfig]
  have hRight :
      (Tree.map reorderedConfig).HasDistinctKeys := by
    simp [Tree.HasDistinctKeys, Tree.ItemsHaveDistinctKeys,
      Tree.EntriesHaveDistinctKeys, reorderedConfig]
  have hSame :
      Tree.sameMaps orderedConfig reorderedConfig = true := by
    decide +kernel
  have hSome :
      (Object.expand .task
        orderedConfig).toOption.isSome = true := by
    decide +kernel
  rcases Option.isSome_iff_exists.1 hSome with
    ⟨object, hObject⟩
  have hRead := Result.eq_ok_of_toOption hObject
  exact ⟨object, hRead,
    ((order_irrelevant .task hLeft hRight hSame).2.1
      object).1 hRead⟩

end Object

end Converge
