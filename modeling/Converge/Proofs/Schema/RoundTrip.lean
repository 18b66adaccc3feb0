import Converge.Proofs.Schema.Agreement

/-
  Canonical configurations come back.

  A configuration is canonical when everything it sets would
  also be written: no null, no zero value of a leaf, no empty
  list or map of blocks, and each parameter value in the form
  of its type. A canonical map that passes its check is read,
  and the record that was read is written as the same map.

  Blocks that may be absent are kept even when they are
  empty; only the top-level parts of an object are not.

  Key definitions:
    * `Leaf.isCanonical`, `ParamValue.isCanonical`,
      `Fields.isCanonical`: canonical trees
    * `Fields.isHollow`: absent parts are not written
    * `Fields.Restores`: canonical maps are read as they stand

  Main declarations:
    * `Leaf.comesBack`, `ParamValue.comesBack`
    * `Fields.comesBack`
-/

namespace Converge

------------------------------------------------------------
-- Canonical Trees
------------------------------------------------------------

/- The tree of a leaf is none that stands for a zero value; a
   point in time is written the way times are. -/
def Leaf.isCanonical : Leaf → Tree → Bool
  | .text, .str content => content ≠ ""
  | .requiredText, .str content => content ≠ ""
  | .flag, .bool value => value
  | .integer, .int value => value ≠ 0
  | .timestamp, .str content =>
      (Timestamp.read? content).any fun time =>
        time.text = content
  | .choice _, .str content => content ≠ ""
  | .requiredChoice _, .str content => content ≠ ""
  | .texts, .list items => !items.isEmpty
  | .textMap, .map entries => !entries.isEmpty
  | _, _ => false

/- A block names its type, and holds nothing else but the leaf
   that its type selects. -/
def ParamValue.isCanonical (entries : ConfigMap) : Bool :=
  ((entries.lookup "type").bind Tree.asString?).any fun type =>
    entries.all fun (key, tree) =>
      (key = "type" || key = type ++ "_val") &&
        (leaves.lookup key).any fun leaf =>
          leaf.isCanonical tree

/- A tree is a map of a certain sort. -/
def Tree.isMapOf (holds : ConfigMap → Bool) : Tree → Bool
  | .map entries => holds entries
  | _ => false

/- A tree without the field does not come back without it. -/
def Shape.isAssumed : Shape → Bool
  | .value .assumed => true
  | _ => false

mutual

/- The tree of a field would be written the way it is. -/
def Shape.isCanonical : Shape → Tree → Bool
  | .leaf type, tree => type.isCanonical tree
  | .value _, tree => tree.isMapOf ParamValue.isCanonical
  | .block fields, tree => tree.isMapOf fields.isCanonical
  | .blocks fields, .list items =>
      !items.isEmpty &&
        items.all (Tree.isMapOf fields.isCanonical)
  | .blockMap fields, .map members =>
      !members.isEmpty &&
        members.all fun member =>
          Tree.isMapOf fields.isCanonical member.2
  | .part fields, .map entries =>
      !entries.isEmpty && fields.isCanonical entries
  | .observed fields, .map entries =>
      !entries.isEmpty && fields.isCanonical entries
  | _, _ => false

/- Each field that a map sets is canonical, and none is missed
   that is always written. -/
def Fields.isCanonical : Fields → ConfigMap → Bool
  | .nil, _ => true
  | .field key _ shape rest, entries =>
      (match entries.lookup key with
        | some tree => shape.isCanonical tree
        | none => !shape.isAssumed) &&
        rest.isCanonical entries
  | .wireOnly _ _ rest, entries => rest.isCanonical entries

end

------------------------------------------------------------
-- Absent Parts
------------------------------------------------------------

mutual

/- Parts in which nothing is set are not written. -/
def Shape.isHollow : Shape → Bool
  | .leaf _ => true
  | .value _ => true
  | .block fields => fields.isHollow
  | .blocks fields => fields.isHollow
  | .blockMap fields => fields.isHollow
  | .part fields =>
      (fields.flatten fields.zero).isEmpty && fields.isHollow
  | .observed fields => fields.isHollow

def Fields.isHollow : Fields → Bool
  | .nil => true
  | .field _ _ shape rest => shape.isHollow && rest.isHollow
  | .wireOnly _ _ rest => rest.isHollow

end

theorem Kind.isHollow_fields (kind : Kind) :
    kind.fields.isHollow = true := by
  cases kind <;> decide +kernel

------------------------------------------------------------
-- Leaves
------------------------------------------------------------

/- An entry that is not null is present. -/
theorem ConfigMap.present?_eq_lookup
    {entries : ConfigMap}
    {key : String}
    (hNull :
      ∀ tree, entries.lookup key = some tree →
        tree.isNull = false) :
    entries.present? key = entries.lookup key := by
  cases hFound : entries.lookup key with
  | none => simp [ConfigMap.present?, hFound]
  | some tree =>
      simp [ConfigMap.present?, hFound, hNull tree hFound]

theorem SortedMap.isEmpty_eq_of_same
    {α : Type}
    {made : α → Tree}
    {map : SortedMap α}
    {entries : ConfigMap}
    (hSame :
      Tree.sameMaps (Keyed.mapValues made map.entries)
          entries =
        true) :
    map.isEmpty = entries.isEmpty := by
  rw [← Tree.isEmpty_eq_of_sameMaps hSame]
  exact List.isEmpty_map.symm

namespace Leaf

/- What a map has for the leaf is read, and what was read is
   written as the same. -/
def ComesBack
    (leaf : Leaf)
    (path : FieldPath)
    (found : Option Tree) :
    Prop :=
  ∃ value, leaf.expand path found = .ok value ∧
    Tree.SameAnswer (leaf.flatten value) found

/- A leaf that is absent comes back, unless it is required. -/
theorem comesBack_none
    (path : FieldPath)
    {leaf : Leaf}
    (hRequired : leaf.required = false) :
    leaf.ComesBack path none := by
  refine ⟨leaf.zero, expand_none path hRequired, ?_⟩
  cases leaf <;> first | exact .none | cases hRequired

/- A value of a closed set that is not empty is read. -/
theorem expand?_of_mem
    {choices : Choices}
    {content : String}
    (hContent : content ≠ "")
    (hMember : content ∈ choices.all)
    (path : FieldPath) :
    Choice.expand? choices path (some (.str content)) =
      .ok (some ⟨content, hMember⟩) := by
  simp only [Choice.expand?, hContent, if_false,
    Choice.parse?, hMember, dif_pos]

/- No leaf is written as null. -/
theorem isNull_of_isCanonical
    {leaf : Leaf}
    {tree : Tree}
    (h : leaf.isCanonical tree = true) :
    tree.isNull = false := by
  cases tree with
  | null => cases leaf <;> cases h
  | _ => rfl

/- Of the strings that are points in time, the canonical ones
   are those that are written. -/
theorem isCanonical_timestamp_iff
    {content : String} :
    isCanonical .timestamp (.str content) = true ↔
      ∃ time : Timestamp, content = time.text := by
  simp only [isCanonical, Option.any_eq_true,
    decide_eq_true_eq]
  constructor
  · rintro ⟨time, _, hText⟩
    exact ⟨time, hText.symm⟩
  · rintro ⟨time, rfl⟩
    exact ⟨time, time.read?_text, rfl⟩

/- What is written as it was found. -/
theorem sameAnswer_of_eq
    {made : Option Tree}
    {tree : Tree}
    (hMade : made = some tree)
    (hKeys : tree.HasDistinctKeys) :
    Tree.SameAnswer made (some tree) := by
  rw [hMade]
  exact .some (tree.same_refl hKeys)

/- A canonical leaf of the right shape comes back. -/
theorem comesBack_some
    (path : FieldPath)
    {leaf : Leaf}
    {tree : Tree}
    (hShape : leaf.HasShape tree)
    (hCanonical : leaf.isCanonical tree = true)
    (hKeys : tree.HasDistinctKeys) :
    leaf.ComesBack path (some tree) := by
  cases leaf with
  | text =>
      rcases hShape with ⟨content, rfl⟩
      have hContent : content ≠ "" := by
        simpa [isCanonical] using hCanonical
      exact ⟨content, rfl,
        sameAnswer_of_eq (if_neg hContent) hKeys⟩
  | requiredText =>
      rcases hShape with ⟨content, rfl⟩
      have hContent : content ≠ "" := by
        simpa [isCanonical] using hCanonical
      exact ⟨content, if_neg hContent,
        sameAnswer_of_eq (if_neg hContent) hKeys⟩
  | flag =>
      rcases hShape with ⟨value, rfl⟩
      cases value with
      | false => cases hCanonical
      | true => exact ⟨true, rfl, sameAnswer_of_eq rfl hKeys⟩
  | integer =>
      rcases hShape with ⟨value, rfl⟩
      have hValue : value ≠ 0 := by
        simpa [isCanonical] using hCanonical
      exact ⟨value, rfl,
        sameAnswer_of_eq (if_neg hValue) hKeys⟩
  | timestamp =>
      rcases hShape with ⟨content, rfl⟩
      rcases isCanonical_timestamp_iff.1 hCanonical with
        ⟨time, rfl⟩
      refine ⟨some time, ?_, sameAnswer_of_eq rfl hKeys⟩
      simp only [expand_timestamp, time.text_ne_empty, if_false,
        Timestamp.read?_text]
  | choice choices =>
      rcases hShape with ⟨content, rfl, hContent⟩
      have hFilled : content ≠ "" := by
        simpa [isCanonical] using hCanonical
      have hMember := hContent.resolve_left hFilled
      exact ⟨_, expand?_of_mem hFilled hMember path,
        sameAnswer_of_eq rfl hKeys⟩
  | requiredChoice choices =>
      rcases hShape with ⟨content, rfl, hContent⟩
      have hFilled : content ≠ "" := by
        simpa [isCanonical] using hCanonical
      have hMember := hContent.resolve_left hFilled
      refine ⟨⟨content, hMember⟩, ?_,
        sameAnswer_of_eq rfl hKeys⟩
      simp only [expand, expand?_of_mem hFilled hMember path]
      rfl
  | texts =>
      rcases hShape with ⟨contents, rfl⟩
      refine ⟨contents, eachItem_element path contents,
        sameAnswer_of_eq ?_ hKeys⟩
      cases contents with
      | nil => cases hCanonical
      | cons content rest => rfl
  | textMap =>
      rcases hShape with ⟨contents, rfl⟩
      have hRead :
          ∀ entry, entry ∈ Keyed.mapValues .str contents →
            ∃ value,
              Reading.element (path.entry entry.1) entry.2 =
                  .ok value ∧
                Tree.same (.str value) entry.2 = true := by
        intro entry hEntry
        rcases List.mem_map.1 hEntry with ⟨member, _, rfl⟩
        exact ⟨member.2, rfl, Tree.same_refl _ trivial⟩
      rcases Reading.exists_entries hKeys.1 hRead with
        ⟨map, hMap, hSame⟩
      have hEmpty : map.isEmpty = false := by
        rw [SortedMap.isEmpty_eq_of_same hSame]
        simpa [isCanonical] using hCanonical
      refine ⟨map, hMap, ?_⟩
      simp only [flatten, hEmpty, Bool.false_eq_true, if_false]
      exact .some (Tree.same_map hSame)

/- A leaf that is not required comes back from a map in which
   it is absent or canonical. -/
theorem comesBack
    (path : FieldPath)
    {leaf : Leaf}
    {found : Option Tree}
    (hRequired : leaf.required = false)
    (hFound :
      ∀ tree, found = some tree →
        leaf.HasShape tree ∧ leaf.isCanonical tree = true ∧
          tree.HasDistinctKeys) :
    leaf.ComesBack path found := by
  cases found with
  | none => exact comesBack_none path hRequired
  | some tree =>
      rcases hFound tree rfl with ⟨hShape, hCanonical, hKeys⟩
      exact comesBack_some path hShape hCanonical hKeys

end Leaf

------------------------------------------------------------
-- Parameter Values
------------------------------------------------------------

namespace ParamValue

/- A block with a type and one more leaf, made anew. -/
theorem sameMaps_cons_entryOf
    {type key : String}
    {entries : ConfigMap}
    {made : Option Tree}
    (hKeys : (entries.map fun entry => entry.1).Nodup)
    (hType : entries.lookup "type" = some (.str type))
    (hOnly :
      ∀ entry, entry ∈ entries →
        entry.1 = "type" ∨ entry.1 = key)
    (hKey : "type" ≠ key)
    (hMade : Tree.SameAnswer made (entries.lookup key)) :
    Tree.sameMaps (("type", .str type) :: entryOf key made)
        entries =
      true := by
  refine Tree.sameMaps_of_lookup ?_ hKeys fun other => ?_
  · cases made <;> simp [entryOf, hKey]
  · by_cases hIsType : other = "type"
    · subst hIsType
      rw [hType, List.lookup_cons_self]
      exact .some (Tree.same_refl _ trivial)
    · have hIsType' : (other == "type") = false := by
        simpa using hIsType
      rw [List.lookup_cons, hIsType']
      by_cases hIsKey : other = key
      · subst hIsKey
        cases made with
        | none => exact hMade
        | some tree =>
            simp only [entryOf, List.lookup_cons_self]
            exact hMade
      · have hIsKey' : (other == key) = false := by
          simpa using hIsKey
        have hAbsent : entries.lookup other = none := by
          apply Keyed.lookup_eq_none_of_forall_ne
          intro entry hEntry hEq
          rcases hOnly entry hEntry with hOther | hOther
          · exact hIsType (hEq ▸ hOther)
          · exact hIsKey (hEq ▸ hOther)
        rw [hAbsent]
        cases made with
        | none => exact .none
        | some tree =>
            simp only [entryOf, List.lookup_cons, hIsKey',
              List.lookup_nil]
            exact .none

/- What a canonical block holds. -/
theorem isCanonical_iff
    {entries : ConfigMap} :
    isCanonical entries = true ↔
      ∃ type, entries.lookup "type" = some (.str type) ∧
        ∀ entry, entry ∈ entries →
          (entry.1 = "type" ∨ entry.1 = type ++ "_val") ∧
            ∃ leaf, leaves.lookup entry.1 = some leaf ∧
              leaf.isCanonical entry.2 = true := by
  simp only [isCanonical, Option.any_eq_true,
    List.all_eq_true, Bool.and_eq_true, Bool.or_eq_true,
    decide_eq_true_eq]
  constructor
  · rintro ⟨type, hType, hEntries⟩
    rcases Option.bind_eq_some_iff.1 hType with
      ⟨tree, hTree, hText⟩
    cases tree <;> cases hText
    exact ⟨type, hTree, hEntries⟩
  · rintro ⟨type, hType, hEntries⟩
    exact ⟨type, by rw [hType]; rfl, hEntries⟩

theorem expandType_of_mem
    (path : FieldPath)
    {entries : ConfigMap}
    {type : String}
    (hNamed : entries.present? "type" = some (.str type))
    (hFilled : type ≠ "")
    (hKnown : type ∈ paramTypes.all) :
    expandType path entries = .ok type := by
  simp only [expandType, hNamed,
    Leaf.expand?_of_mem hFilled hKnown]
  rfl

/- A canonical block that passes its check comes back. -/
theorem comesBack
    {path : FieldPath}
    {entries : ConfigMap}
    (hCheck : check path entries = .ok ())
    (hCanonical : isCanonical entries = true)
    (hKeys : (Tree.map entries).HasDistinctKeys) :
    ∃ value, expand path entries = .ok value ∧
      Tree.sameMaps value.flatten entries = true := by
  rcases isCanonical_iff.1 hCanonical with
    ⟨type, hType, hEntries⟩
  have hShapes := (check_eq_ok_iff.1 hCheck).2
  -- No entry of a canonical block is null.
  have hPresent :
      ∀ key, entries.present? key = entries.lookup key := by
    intro key
    refine ConfigMap.present?_eq_lookup fun tree hFound => ?_
    rcases (hEntries _ (Keyed.mem_of_lookup hFound)).2 with
      ⟨leaf, _, hTree⟩
    exact leaf.isNull_of_isCanonical hTree
  have hLeaf :
      ∀ key leaf, (key, leaf) ∈ leaves →
        leaf.ComesBack (path.entry key)
          (entries.lookup key) := by
    intro key leaf hLeaf
    refine leaf.comesBack (path.entry key) (not_required hLeaf)
      fun tree hFound => ?_
    have hEntry := Keyed.mem_of_lookup hFound
    rcases hEntries _ hEntry with ⟨_, other, hOther, hTree⟩
    have hSame : other = leaf :=
      leaf_unique hLeaf (Keyed.mem_of_lookup hOther)
    subst hSame
    rw [← hPresent] at hFound
    exact ⟨hShapes (key, other) hLeaf tree hFound, hTree,
      Tree.hasDistinctKeys_of_mem_entries hKeys.2 hEntry⟩
  have hOnly :
      ∀ entry, entry ∈ entries →
        entry.1 = "type" ∨ entry.1 = type ++ "_val" :=
    fun entry hEntry => (hEntries entry hEntry).1
  have hNamed := (hPresent "type").trans hType
  have hFilled : type ≠ "" := by
    rcases (hEntries _ (Keyed.mem_of_lookup hType)).2 with
      ⟨leaf, hChoice, hCanonical⟩
    cases hChoice
    simpa [Leaf.isCanonical] using hCanonical
  have hKnown : type ∈ paramTypes.all := by
    rcases hShapes ("type", .choice paramTypes)
      (by simp [leaves]) _ hNamed with ⟨content, hText, hMember⟩
    cases hText
    exact hMember.resolve_left hFilled
  have hRead := expandType_of_mem path hNamed hFilled hKnown
  simp only [paramTypes, Choices.all, List.mem_cons,
    List.not_mem_nil, or_false] at hKnown
  simp only [expand, hRead, hPresent]
  rcases hKnown with rfl | rfl | rfl
  · rcases hLeaf "string_val" .text (by simp [leaves]) with
      ⟨text, hText, hSame⟩
    refine ⟨.string text, congrArg (Except.map _) hText,
      sameMaps_cons_entryOf hKeys.1 hType hOnly
        (by decide) hSame⟩
  · rcases hLeaf "array_val" .texts (by simp [leaves]) with
      ⟨items, hItems, hSame⟩
    refine ⟨.array items, congrArg (Except.map _) hItems,
      sameMaps_cons_entryOf hKeys.1 hType hOnly
        (by decide) hSame⟩
  · rcases hLeaf "object_val" .textMap (by simp [leaves]) with
      ⟨map, hMap, hSame⟩
    refine ⟨.object map, congrArg (Except.map _) hMap,
      sameMaps_cons_entryOf hKeys.1 hType hOnly
        (by decide) hSame⟩

end ParamValue

------------------------------------------------------------
-- Blocks
------------------------------------------------------------

/- What a map has for the field is read, and what was read is
   written as the same. -/
def Shape.ComesBack
    (shape : Shape)
    (path : FieldPath)
    (found : Option Tree) :
    Prop :=
  ∃ value, shape.expand path found = .ok value ∧
    Tree.SameAnswer (shape.flatten value) found

/- A map is read, and what was read is written as the same
   map. -/
def Fields.ComesBack
    (fields : Fields)
    (path : FieldPath)
    (entries : ConfigMap) :
    Prop :=
  ∃ record, fields.expand path entries = .ok record ∧
    Tree.sameMaps (fields.flatten record) entries = true

namespace Fields

/- A map answers at the key of each field as the tree form of
   the field. -/
def Reflects :
    (fields : Fields) → fields.Rec → ConfigMap → Prop
  | .nil, _, _ => True
  | .field key _ shape rest, (first, others), entries =>
      Tree.SameAnswer (shape.flatten first)
          (entries.lookup key) ∧
        rest.Reflects others entries
  | .wireOnly _ _ rest, (_, others), entries =>
      rest.Reflects others entries

theorem lookup_flatten_eq_none
    {fields : Fields}
    {key : String}
    (hKey : key ∉ fields.keys)
    (record : fields.Rec) :
    (fields.flatten record).lookup key = none := by
  apply Keyed.lookup_eq_none_of_forall_ne
  intro entry hEntry hEq
  exact hKey
    (hEq ▸ fields.mem_keys_of_mem_flatten record hEntry)

/- No key is written twice. -/
theorem nodup_flatten :
    ∀ (fields : Fields) (record : fields.Rec),
      fields.isWellFormed = true →
        ((fields.flatten record).map fun entry =>
          entry.1).Nodup
  | .nil, _, _ => List.nodup_nil
  | .field key _ shape rest, (first, others), hWell => by
      have hParts := isWellFormed_field_iff.1 hWell
      have hRest := rest.nodup_flatten others hParts.2.2.2
      simp only [flatten]
      cases shape.flatten first with
      | none => exact hRest
      | some tree =>
          refine List.nodup_cons.2 ⟨?_, hRest⟩
          intro hMember
          rcases List.mem_map.1 hMember with
            ⟨entry, hEntry, hEq⟩
          have hName : entry.1 = key := hEq
          exact hParts.1
            (hName ▸ rest.mem_keys_of_mem_flatten others hEntry)
  | .wireOnly _ _ rest, (_, others), hWell => by
      simp only [flatten]
      exact rest.nodup_flatten others
        (isWellFormed_wireOnly_iff.1 hWell).2.2

/- The tree form of a record answers as the map it reflects
   at every key that is declared. -/
theorem sameAnswer_flatten :
    ∀ (fields : Fields) (record : fields.Rec)
        (entries : ConfigMap),
      fields.isWellFormed = true →
        fields.Reflects record entries →
          ∀ key, key ∈ fields.keys →
            Tree.SameAnswer ((fields.flatten record).lookup key)
              (entries.lookup key)
  | .nil, _, _, _, _, _, hKey => by
      simp [keys] at hKey
  | .field name _ shape rest, (first, others), entries, hWell,
      hReflects, key, hKey => by
      have hParts := isWellFormed_field_iff.1 hWell
      have hRest := rest.sameAnswer_flatten others entries
        hParts.2.2.2 hReflects.2 key
      have hFirst := hReflects.1
      simp only [flatten]
      by_cases hName : key = name
      · subst hName
        cases hTree : shape.flatten first with
        | none =>
            rw [hTree] at hFirst
            dsimp only
            rw [lookup_flatten_eq_none hParts.1 others]
            exact hFirst
        | some tree =>
            rw [hTree] at hFirst
            simp only [List.lookup_cons_self]
            exact hFirst
      · have hLater := hRest
          ((List.mem_cons.1 hKey).resolve_left hName)
        have hName' : (key == name) = false := by
          simpa using hName
        cases shape.flatten first with
        | none => exact hLater
        | some tree =>
            simp only [List.lookup_cons, hName']
            exact hLater
  | .wireOnly _ _ rest, (_, others), entries, hWell, hReflects,
      key, hKey => by
      simp only [flatten]
      exact rest.sameAnswer_flatten others entries
        (isWellFormed_wireOnly_iff.1 hWell).2.2 hReflects key
        hKey

/- A record is written as a map that it reflects, when the map
   has no keys but the declared ones. -/
theorem sameMaps_flatten
    {fields : Fields}
    {record : fields.Rec}
    {entries : ConfigMap}
    (hWell : fields.isWellFormed = true)
    (hReflects : fields.Reflects record entries)
    (hDeclares : fields.Declares entries)
    (hKeys : (entries.map fun entry => entry.1).Nodup) :
    Tree.sameMaps (fields.flatten record) entries = true := by
  refine Tree.sameMaps_of_lookup
    (fields.nodup_flatten record hWell) hKeys fun key => ?_
  by_cases hKey : key ∈ fields.keys
  · exact fields.sameAnswer_flatten record entries hWell
      hReflects key hKey
  · have hAbsent : entries.lookup key = none := by
      apply Keyed.lookup_eq_none_of_forall_ne
      intro entry hEntry hEq
      exact hKey (hEq ▸ hDeclares entry hEntry)
    rw [hAbsent, lookup_flatten_eq_none hKey]
    exact .none

/- A record is read from every canonical map that passes its
   checks, and reflects that map. -/
def Restores (fields : Fields) : Prop :=
  ∀ path entries,
    fields.checkAll path entries = .ok () →
      fields.isCanonical entries = true →
        Tree.EntriesHaveDistinctKeys entries →
          ∃ record,
            fields.expand path entries = .ok record ∧
              fields.Reflects record entries

section Restores

variable {fields : Fields}
variable {path : FieldPath}

/- Such maps come back. -/
theorem Restores.comesBack
    {entries : ConfigMap}
    (hRestores : fields.Restores)
    (hWell : fields.isWellFormed = true)
    (hCheck : fields.check path entries = .ok ())
    (hCanonical : fields.isCanonical entries = true)
    (hKeys : (Tree.map entries).HasDistinctKeys) :
    fields.ComesBack path entries := by
  rcases guarded_eq_ok_iff.1 hCheck with ⟨hDeclares, hFields⟩
  rcases hRestores path entries hFields hCanonical hKeys.2 with
    ⟨record, hRecord, hReflects⟩
  exact ⟨record, hRecord,
    sameMaps_flatten hWell hReflects hDeclares hKeys.1⟩

/- So do canonical blocks. -/
theorem Restores.block
    {tree : Tree}
    (hRestores : fields.Restores)
    (hWell : fields.isWellFormed = true)
    (hCheck :
      Reading.block
          (Declaration.guarded fields.keys fields.checkAll)
          path tree =
        .ok ())
    (hCanonical : tree.isMapOf fields.isCanonical = true)
    (hKeys : tree.HasDistinctKeys) :
    ∃ record,
      Reading.block fields.expand path tree = .ok record ∧
        Tree.same (.map (fields.flatten record)) tree =
          true := by
  rcases Reading.block_eq_ok_iff.1 hCheck with
    ⟨entries, rfl, hEntries⟩
  rcases hRestores.comesBack hWell hEntries hCanonical hKeys
    with ⟨record, hRecord, hSame⟩
  exact ⟨record, hRecord, Tree.same_map hSame⟩

end Restores

end Fields

/- A field that is absent comes back, unless a map without it
   is refused or does not stay without it. -/
theorem Shape.comesBack_none
    (path : FieldPath)
    {shape : Shape}
    (hRequired : shape.required = false)
    (hAssumed : shape.isAssumed = false)
    (hHollow : shape.isHollow = true) :
    shape.ComesBack path none := by
  cases shape with
  | leaf type => exact type.comesBack_none path hRequired
  | value need =>
      cases need with
      | optional => exact ⟨none, rfl, .none⟩
      | required => cases hRequired
      | assumed => cases hAssumed
  | block fields => exact ⟨none, rfl, .none⟩
  | blocks fields => exact ⟨[], rfl, .none⟩
  | blockMap fields => exact ⟨SortedMap.empty, rfl, .none⟩
  | part fields =>
      have hEmpty : fields.flatten fields.zero = [] := by
        simp only [isHollow, Bool.and_eq_true] at hHollow
        exact List.isEmpty_iff.1 hHollow.1
      refine ⟨fields.zero, rfl, ?_⟩
      simp only [flatten, flattenPart_eq_none_iff.2 hEmpty]
      exact .none
  | observed fields => exact ⟨none, rfl, .none⟩

theorem Shape.isNull_of_isCanonical
    {shape : Shape}
    {tree : Tree}
    (h : shape.isCanonical tree = true) :
    tree.isNull = false := by
  cases tree with
  | null =>
      cases shape with
      | leaf type => exact type.isNull_of_isCanonical h
      | _ => cases h
  | _ => rfl

/- The tree of a part that is not empty. -/
theorem sameAnswer_flattenPart
    {made entries : ConfigMap}
    (hSame : Tree.sameMaps made entries = true)
    (hFilled : entries.isEmpty = false) :
    Tree.SameAnswer (flattenPart made)
      (some (.map entries)) := by
  rw [← Tree.isEmpty_eq_of_sameMaps hSame] at hFilled
  simp only [flattenPart, hFilled, Bool.false_eq_true,
    if_false]
  exact .some (Tree.same_map hSame)

mutual

/- A canonical tree that passes its check comes back. -/
theorem Shape.comesBack_some :
    ∀ (shape : Shape) (path : FieldPath) (tree : Tree),
      shape.isWellFormed = true → shape.isHollow = true →
        shape.check path tree = .ok () →
          shape.isCanonical tree = true →
            tree.HasDistinctKeys →
              shape.ComesBack path (some tree)
  | .leaf type, path, tree, _, _, hCheck, hCanonical, hKeys =>
      Leaf.comesBack_some path (Leaf.check_eq_ok_iff.1 hCheck)
        hCanonical hKeys
  | .value need, path, tree, _, _, hCheck, hCanonical,
      hKeys => by
      rcases Reading.block_eq_ok_iff.1 hCheck with
        ⟨entries, rfl, hEntries⟩
      rcases ParamValue.comesBack hEntries hCanonical hKeys with
        ⟨value, hValue, hSame⟩
      cases need with
      | optional =>
          exact ⟨some value, congrArg (Except.map some) hValue,
            .some (Tree.same_map hSame)⟩
      | required =>
          exact ⟨value, hValue, .some (Tree.same_map hSame)⟩
      | assumed =>
          exact ⟨value, hValue, .some (Tree.same_map hSame)⟩
  | .block fields, path, tree, hWell, hHollow, hCheck,
      hCanonical, hKeys => by
      rcases (fields.restores hWell hHollow).block hWell hCheck
        hCanonical hKeys with ⟨record, hRecord, hSame⟩
      exact ⟨some record, congrArg (Except.map some) hRecord,
        .some hSame⟩
  | .blocks fields, path, tree, hWell, hHollow, hCheck,
      hCanonical, hKeys => by
      rcases Reading.checkItems_eq_ok_iff.1 hCheck with
        ⟨items, rfl, hItems⟩
      simp only [Shape.isCanonical, Bool.and_eq_true,
        List.all_eq_true] at hCanonical
      have hRead :
          ∀ offset item, items[offset]? = some item →
            ∃ record,
              Reading.block fields.expand
                    (path.item (0 + offset)) item =
                  .ok record ∧
                Tree.same (.map (fields.flatten record)) item =
                  true := by
        intro offset item hItem
        have hListed := List.mem_iff_getElem?.2 ⟨offset, hItem⟩
        exact (fields.restores hWell hHollow).block hWell
          (Reading.checkEachItem_eq_ok_iff.1 hItems offset item
            hItem)
          (hCanonical.2 item hListed)
          (Tree.hasDistinctKeys_of_mem hKeys hListed)
      rcases Reading.exists_eachItem hRead with
        ⟨records, hRecords, hSame⟩
      have hFilled : records.isEmpty = false := by
        rw [← List.isEmpty_map,
          Tree.isEmpty_eq_of_sameItems hSame]
        simpa using hCanonical.1
      refine ⟨records, hRecords, ?_⟩
      simp only [Shape.flatten, hFilled, Bool.false_eq_true,
        if_false]
      exact .some (Tree.same_list hSame)
  | .blockMap fields, path, tree, hWell, hHollow, hCheck,
      hCanonical, hKeys => by
      rcases Reading.checkEntries_eq_ok_iff.1 hCheck with
        ⟨members, rfl, hMembers⟩
      simp only [Shape.isCanonical, Bool.and_eq_true,
        List.all_eq_true] at hCanonical
      have hRead :
          ∀ member, member ∈ members →
            ∃ record,
              Reading.block fields.expand (path.entry member.1)
                    member.2 =
                  .ok record ∧
                Tree.same (.map (fields.flatten record))
                    member.2 =
                  true := by
        intro member hMember
        exact (fields.restores hWell hHollow).block hWell
          (Reading.checkEachEntry_eq_ok_iff.1 hMembers _
            hMember)
          (hCanonical.2 member hMember)
          (Tree.hasDistinctKeys_of_mem_entries hKeys.2 hMember)
      rcases Reading.exists_entries hKeys.1 hRead with
        ⟨map, hMap, hSame⟩
      have hFilled : map.isEmpty = false := by
        rw [SortedMap.isEmpty_eq_of_same hSame]
        simpa using hCanonical.1
      refine ⟨map, hMap, ?_⟩
      simp only [Shape.flatten, hFilled, Bool.false_eq_true,
        if_false]
      exact .some (Tree.same_map hSame)
  | .part fields, path, tree, hWell, hHollow, hCheck,
      hCanonical, hKeys => by
      rcases Reading.block_eq_ok_iff.1 hCheck with
        ⟨entries, rfl, hEntries⟩
      simp only [Shape.isCanonical, Bool.and_eq_true]
        at hCanonical
      simp only [Shape.isHollow, Bool.and_eq_true] at hHollow
      have hInner := (Shape.isWellFormed_part_iff.1 hWell).1
      rcases (fields.restores hInner hHollow.2).comesBack
        hInner hEntries hCanonical.2 hKeys with
        ⟨record, hRecord, hSame⟩
      exact ⟨record, hRecord, sameAnswer_flattenPart hSame
        (by simpa using hCanonical.1)⟩
  | .observed fields, path, tree, hWell, hHollow, hCheck,
      hCanonical, hKeys => by
      rcases Reading.block_eq_ok_iff.1 hCheck with
        ⟨entries, rfl, hEntries⟩
      simp only [Shape.isCanonical, Bool.and_eq_true]
        at hCanonical
      have hInner :=
        (Shape.isWellFormed_observed_iff.1 hWell).1
      rcases (fields.restores hInner hHollow).comesBack hInner
        hEntries hCanonical.2 hKeys with
        ⟨record, hRecord, hSame⟩
      exact ⟨some record, congrArg (Except.map some) hRecord,
        sameAnswer_flattenPart hSame
          (by simpa using hCanonical.1)⟩

/- Each field of a canonical map is read as it stands. -/
theorem Fields.restores :
    ∀ fields : Fields,
      fields.isWellFormed = true → fields.isHollow = true →
        fields.Restores
  | .nil, _, _ => fun _ _ _ _ _ => ⟨(), rfl, trivial⟩
  | .field key wire shape rest, hWell, hHollow => by
      intro path entries hCheck hCanonical hKeys
      have hParts := Fields.isWellFormed_field_iff.1 hWell
      have hChecks := Fields.checkAll_field_eq_ok_iff.1 hCheck
      simp only [Fields.isHollow, Bool.and_eq_true] at hHollow
      simp only [Fields.isCanonical, Bool.and_eq_true]
        at hCanonical
      rcases rest.restores hParts.2.2.2 hHollow.2 path entries
        hChecks.2 hCanonical.2 hKeys with
        ⟨others, hOthers, hReflects⟩
      have hPresent :
          entries.present? key = entries.lookup key := by
        refine ConfigMap.present?_eq_lookup fun tree hTree => ?_
        rw [hTree] at hCanonical
        exact Shape.isNull_of_isCanonical hCanonical.1
      have hFirst :
          shape.ComesBack (path.entry key)
            (entries.lookup key) := by
        have hCheckFirst := hChecks.1
        rw [hPresent] at hCheckFirst
        cases hTree : entries.lookup key with
        | none =>
            rw [hTree] at hCheckFirst hCanonical
            exact Shape.comesBack_none _
              (Shape.checkFound_none_eq_ok_iff.1 hCheckFirst)
              (by simpa using hCanonical.1) hHollow.1
        | some tree =>
            rw [hTree] at hCheckFirst hCanonical
            exact shape.comesBack_some _ tree hParts.2.2.1
              hHollow.1 hCheckFirst hCanonical.1
              (Tree.hasDistinctKeys_of_mem_entries hKeys
                (Keyed.mem_of_lookup hTree))
      rcases hFirst with ⟨first, hRead, hSame⟩
      refine ⟨(first, others), ?_, hSame, hReflects⟩
      simp only [Fields.expand, hPresent, hRead, hOthers]
      rfl
  | .wireOnly wire type rest, hWell, hHollow => by
      intro path entries hCheck hCanonical hKeys
      rcases rest.restores
        (Fields.isWellFormed_wireOnly_iff.1 hWell).2.2 hHollow
        path entries hCheck hCanonical hKeys with
        ⟨others, hOthers, hReflects⟩
      refine ⟨(type.zero, others), ?_, hReflects⟩
      simp only [Fields.expand, hOthers]
      rfl

end

/- A canonical map that passes its check comes back. -/
theorem Fields.comesBack
    {fields : Fields}
    {path : FieldPath}
    {entries : ConfigMap}
    (hWell : fields.isWellFormed = true)
    (hHollow : fields.isHollow = true)
    (hCheck : fields.check path entries = .ok ())
    (hCanonical : fields.isCanonical entries = true)
    (hKeys : (Tree.map entries).HasDistinctKeys) :
    fields.ComesBack path entries :=
  (fields.restores hWell hHollow).comesBack hWell hCheck
    hCanonical hKeys

end Converge
