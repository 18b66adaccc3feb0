import Converge.Proofs.Schema.LeafShape
import Converge.Proofs.Schema.Matching
import Converge.Proofs.Schema.Place
import Converge.Proofs.Schema.TreeForm

/-
  Faults point at real defects.

  A fault of a check or of a reader names a place, and the
  tree is at that place what the fault says: a required value
  is missing from its map, a value has another shape than the
  declared one, a string is outside of its closed set, a key
  is not declared.

  Both are proved along the declaration. What is carried is
  that the shape at hand stands at the place at hand, in the
  whole declaration and in the whole tree.

  Key definitions:
    * `SchemaError.IsDefect`: what a fault says is so
    * `Shape.Governs`: a shape that asks for a tree

  Main declarations:
    * `Shape.defect_of_check`, `Shape.defect_of_expand`
    * `Object.fault_isDefect`: of every configuration
-/

namespace Converge

------------------------------------------------------------
-- Defects
------------------------------------------------------------

/- The closed set of a leaf. -/
def Leaf.choices? : Leaf → Option Choices
  | .choice choices => some choices
  | .requiredChoice choices => some choices
  | _ => none

/- What a map has for a required value that is missing. -/
def Tree.IsBlank (found : Option Tree) : Prop :=
  found = none ∨ found = some .null ∨ found = some (.str "")

/- What a fault says of a tree is so, at the place that it
   names: a place of the tree that is declared there. Null
   counts as a value of the wrong shape only where it is an
   element of a larger value, and a key that is not declared
   is a defect only to those who are strict. -/
inductive SchemaError.IsDefect
    (root : Shape)
    (whole : Tree)
    (strict : Bool) : SchemaError → Prop where
  | missing
      {path : FieldPath}
      {key : String}
      {entries : ConfigMap}
      {shape : Shape}
      (hMap : whole.at? path.segments = some (.map entries))
      (hShape :
        root.at? (path.entry key).segments = some shape)
      (hRequired : shape.required = true)
      (hBlank : Tree.IsBlank (entries.lookup key)) :
      IsDefect root whole strict
        (.missingField (path.entry key))
  | mismatch
      {path : FieldPath}
      {shape : Shape}
      {tree : Tree}
      (hStands : root.Stands whole path shape tree)
      (hSet :
        tree.isNull = false ∨ root.IsElement path.segments)
      (hOther : tree.shape ≠ shape.expected) :
      IsDefect root whole strict
        (.typeMismatch path shape.expected)
  | untimely
      {path : FieldPath}
      {content : String}
      (hStands :
        root.Stands whole path (.leaf .timestamp)
          (.str content))
      (hContent : content ≠ "")
      (hTime : Timestamp.read? content = none) :
      IsDefect root whole strict
        (.typeMismatch path "RFC 3339 timestamp")
  | invalid
      {path : FieldPath}
      {type : Leaf}
      {choices : Choices}
      {content : String}
      (hStands :
        root.Stands whole path (.leaf type) (.str content))
      (hChoices : type.choices? = some choices)
      (hContent : content ≠ "")
      (hOther : content ∉ choices.all) :
      IsDefect root whole strict
        (.invalidValue path content choices.all)
  | unknown
      {path : FieldPath}
      {key : String}
      {entries : ConfigMap}
      {shape : Shape}
      {keys : List String}
      {tree : Tree}
      (hStands : root.Stands whole path shape (.map entries))
      (hKeys : shape.keys? = some keys)
      (hFound : entries.lookup key = some tree)
      (hUnknown : key ∉ keys)
      (hStrict : strict = true) :
      IsDefect root whole strict
        (.unknownField (path.entry key))

/- What is blank once nulls are passed over. -/
theorem ConfigMap.isBlank_lookup
    {entries : ConfigMap}
    {key : String}
    (hBlank :
      entries.present? key = none ∨
        entries.present? key = some (.str "")) :
    Tree.IsBlank (entries.lookup key) := by
  rcases hBlank with hNone | hEmpty
  · cases hFound : entries.lookup key with
    | none => exact Or.inl rfl
    | some tree =>
        cases tree with
        | null => exact Or.inr (Or.inl rfl)
        | _ =>
            simp [ConfigMap.present?, hFound, Tree.isNull]
              at hNone
  · exact Or.inr (Or.inr
      (ConfigMap.present?_eq_some_iff.1 hEmpty).1)

section Governed

variable {root shape : Shape}
variable {whole tree : Tree}
variable {path : FieldPath}
variable {strict : Bool}

open SchemaError (IsDefect)

namespace Shape.Governs

/- A tree of another shape than the declared one. -/
theorem mismatch
    (hTree : root.Governs whole path shape tree)
    {expected : String}
    (hExpected : shape.expected = expected)
    (hOther : tree.shape ≠ expected) :
    IsDefect root whole strict
      (.typeMismatch path expected) := by
  subst hExpected
  exact .mismatch hTree.toStands hTree.set hOther

end Shape.Governs

/- A map with a key that is not declared. -/
theorem Shape.Stands.unknown
    {entries : ConfigMap}
    (hMap : root.Stands whole path shape (.map entries))
    (hWhole : whole.HasDistinctKeys)
    {keys : List String}
    (hKeys : shape.keys? = some keys)
    {entry : String × Tree}
    (hEntry : entry ∈ entries)
    (hUnknown : entry.1 ∉ keys) :
    IsDefect root whole true
      (.unknownField (path.entry entry.1)) := by
  have hDistinct :=
    Tree.hasDistinctKeys_of_at? hWhole hMap.found
  exact .unknown hMap hKeys
    (Keyed.lookup_of_mem hDistinct.1 hEntry) hUnknown rfl

------------------------------------------------------------
-- Lists and Maps
------------------------------------------------------------

namespace Reading

/- A string that is an element of a larger value. -/
theorem defect_of_checkElement
    (hTree : root.Governs whole path shape tree)
    (hText : shape.expected = "string") :
    Result.FailsBy (IsDefect root whole strict)
      (checkElement path tree) := by
  cases tree with
  | str content => exact Result.failsBy_ok _
  | _ =>
      exact Result.failsBy_error
        (hTree.mismatch hText (by simp [Tree.shape]))

theorem defect_of_element
    (hTree : root.Governs whole path shape tree)
    (hText : shape.expected = "string") :
    Result.FailsBy (IsDefect root whole strict)
      (element path tree) := by
  cases tree with
  | str content => exact Result.failsBy_ok _
  | _ =>
      exact Result.failsBy_error
        (hTree.mismatch hText (by simp [Tree.shape]))

/- A block has to be a map. -/
theorem defect_of_block
    {α : Type}
    {read : FieldPath → ConfigMap → Except SchemaError α}
    (hTree : root.Governs whole path shape tree)
    (hMap : shape.expected = "map")
    (hRead :
      ∀ entries, tree = .map entries →
        Result.FailsBy (IsDefect root whole strict)
          (read path entries)) :
    Result.FailsBy (IsDefect root whole strict)
      (block read path tree) := by
  cases tree with
  | map entries => exact hRead entries rfl
  | _ =>
      exact Result.failsBy_error
        (hTree.mismatch hMap (by simp [Tree.shape]))

section Elements

variable {inner : Shape}

/- A list is checked item by item. -/
theorem defect_of_checkItems
    {check : FieldPath → Tree → Except SchemaError Unit}
    (hTree : root.Governs whole path shape tree)
    (hList : shape.expected = "list")
    (hCollects : shape.Collects inner)
    (hCheck :
      ∀ place value, root.Governs whole place inner value →
        Result.FailsBy (IsDefect root whole strict)
          (check place value)) :
    Result.FailsBy (IsDefect root whole strict)
      (checkItems check path tree) := by
  cases tree with
  | list items =>
      refine failsBy_checkEachItem fun offset item hItem => ?_
      rw [Nat.zero_add]
      exact hCheck _ _ (hTree.item hCollects hItem)
  | _ =>
      exact Result.failsBy_error
        (hTree.mismatch hList (by simp [Tree.shape]))

/- A free map is checked value by value. -/
theorem defect_of_checkEntries
    {check : FieldPath → Tree → Except SchemaError Unit}
    (hWhole : whole.HasDistinctKeys)
    (hTree : root.Governs whole path shape tree)
    (hMap : shape.expected = "map")
    (hCollects : shape.Collects inner)
    (hCheck :
      ∀ place value, root.Governs whole place inner value →
        Result.FailsBy (IsDefect root whole strict)
          (check place value)) :
    Result.FailsBy (IsDefect root whole strict)
      (checkEntries check path tree) := by
  cases tree with
  | map entries =>
      exact failsBy_checkEachEntry fun entry hEntry =>
        hCheck _ _ (hTree.member hWhole hCollects hEntry)
  | _ =>
      exact Result.failsBy_error
        (hTree.mismatch hMap (by simp [Tree.shape]))

variable {α : Type}
variable {read : FieldPath → Tree → Except SchemaError α}
variable {found : Option Tree}

/- A list is read item by item. -/
theorem defect_of_items
    (hFound :
      ∀ tree, found = some tree →
        root.Governs whole path shape tree)
    (hList : shape.expected = "list")
    (hCollects : shape.Collects inner)
    (hRead :
      ∀ place value, root.Governs whole place inner value →
        Result.FailsBy (IsDefect root whole strict)
          (read place value)) :
    Result.FailsBy (IsDefect root whole strict)
      (items read path found) := by
  cases found with
  | none => exact Result.failsBy_ok _
  | some tree =>
      have hTree := hFound tree rfl
      cases tree with
      | list values =>
          refine failsBy_eachItem fun offset item hItem => ?_
          rw [Nat.zero_add]
          exact hRead _ _ (hTree.item hCollects hItem)
      | _ =>
          exact Result.failsBy_error
            (hTree.mismatch hList (by simp [Tree.shape]))

/- A free map is read value by value. -/
theorem defect_of_entries
    (hWhole : whole.HasDistinctKeys)
    (hFound :
      ∀ tree, found = some tree →
        root.Governs whole path shape tree)
    (hMap : shape.expected = "map")
    (hCollects : shape.Collects inner)
    (hRead :
      ∀ place value, root.Governs whole place inner value →
        Result.FailsBy (IsDefect root whole strict)
          (read place value)) :
    Result.FailsBy (IsDefect root whole strict)
      (entries read path found) := by
  cases found with
  | none => exact Result.failsBy_ok _
  | some tree =>
      have hTree := hFound tree rfl
      cases tree with
      | map values =>
          exact (failsBy_eachEntry fun entry hEntry =>
            hRead _ _
              (hTree.member hWhole hCollects hEntry)).map _
      | _ =>
          exact Result.failsBy_error
            (hTree.mismatch hMap (by simp [Tree.shape]))

end Elements

end Reading

------------------------------------------------------------
-- Leaves
------------------------------------------------------------

/- How reading a field may fail: by a defect of what was
   found, or because what is required was not. -/
def Shape.Faulty
    (root : Shape)
    (whole : Tree)
    (strict : Bool)
    (path : FieldPath)
    (shape : Shape)
    (found : Option Tree)
    (fault : SchemaError) :
    Prop :=
  IsDefect root whole strict fault ∨
    fault = .missingField path ∧ shape.required = true ∧
      (found = none ∨ found = some (.str ""))

namespace Leaf

variable {found : Option Tree}

theorem collects_texts :
    (Shape.leaf .texts).Collects (.leaf .text) :=
  ⟨rfl, fun _ => rfl⟩

theorem collects_textMap :
    (Shape.leaf .textMap).Collects (.leaf .text) :=
  ⟨rfl, fun _ => rfl⟩

/- A value outside of its closed set. -/
theorem defect_of_choiceCheck
    {type : Leaf}
    {choices : Choices}
    (hTree : root.Governs whole path (.leaf type) tree)
    (hText : (Shape.leaf type).expected = "string")
    (hChoices : type.choices? = some choices) :
    Result.FailsBy (IsDefect root whole strict)
      (Reading.checkChoice choices.all path tree) := by
  cases tree with
  | str content =>
      simp only [Reading.checkChoice]
      split
      · exact Result.failsBy_ok _
      · rename_i hOther
        simp only [Bool.or_eq_true, decide_eq_true_eq,
          List.contains_iff_mem, not_or] at hOther
        exact Result.failsBy_error
          (.invalid hTree.toStands hChoices hOther.1 hOther.2)
  | _ =>
      exact Result.failsBy_error
        (hTree.mismatch hText (by simp [Tree.shape]))

/- A leaf that does not pass its check has a defect. -/
theorem defect_of_check
    (hWhole : whole.HasDistinctKeys)
    {type : Leaf}
    (hTree : root.Governs whole path (.leaf type) tree) :
    Result.FailsBy (IsDefect root whole strict)
      (type.check path tree) := by
  cases type with
  | text | requiredText | timestamp =>
      exact Reading.defect_of_checkElement hTree rfl
  | flag =>
      cases tree with
      | bool value => exact Result.failsBy_ok _
      | _ =>
          exact Result.failsBy_error
            (hTree.mismatch rfl (by simp [Tree.shape]))
  | integer =>
      cases tree with
      | int value => exact Result.failsBy_ok _
      | _ =>
          exact Result.failsBy_error
            (hTree.mismatch rfl (by simp [Tree.shape]))
  | choice | requiredChoice =>
      exact defect_of_choiceCheck hTree rfl rfl
  | texts =>
      exact Reading.defect_of_checkItems hTree rfl
        collects_texts fun _ _ hItem =>
          Reading.defect_of_checkElement hItem rfl
  | textMap =>
      exact Reading.defect_of_checkEntries hWhole hTree rfl
        collects_textMap fun _ _ hValue =>
          Reading.defect_of_checkElement hValue rfl

/- A string that cannot be read is none. -/
theorem defect_of_text
    (hFound :
      ∀ tree, found = some tree →
        root.Governs whole path shape tree)
    (hText : shape.expected = "string") :
    Result.FailsBy (IsDefect root whole strict)
      (Reading.text path found) := by
  cases found with
  | none => exact Result.failsBy_ok _
  | some tree =>
      cases tree with
      | str content => exact Result.failsBy_ok _
      | _ =>
          exact Result.failsBy_error
            ((hFound _ rfl).mismatch hText
              (by simp [Tree.shape]))

/- Where an empty string was read there is none else. -/
theorem eq_none_or_of_text
    {content : String}
    (hText : Reading.text path found = .ok content) :
    found = none ∧ content = "" ∨
      found = some (.str content) := by
  cases found with
  | none =>
      cases hText
      exact Or.inl ⟨rfl, rfl⟩
  | some tree =>
      rw [exists_of_text hText]
      exact Or.inr rfl

/- A choice that cannot be read is none of its closed set. -/
theorem defect_of_choice
    {type : Leaf}
    {choices : Choices}
    (hFound :
      ∀ tree, found = some tree →
        root.Governs whole path (.leaf type) tree)
    (hText : (Shape.leaf type).expected = "string")
    (hChoices : type.choices? = some choices) :
    Result.FailsBy (IsDefect root whole strict)
      (Choice.expand? choices path found) := by
  cases found with
  | none => exact Result.failsBy_ok _
  | some tree =>
      have hTree := hFound tree rfl
      cases tree with
      | str content =>
          simp only [Choice.expand?, Choice.parse?]
          by_cases hEmpty : content = ""
          · rw [if_pos hEmpty]
            exact Result.failsBy_ok _
          · by_cases hMember : content ∈ choices.all
            · rw [if_neg hEmpty, dif_pos hMember]
              exact Result.failsBy_ok _
            · rw [if_neg hEmpty, dif_neg hMember]
              exact Result.failsBy_error
                (.invalid hTree.toStands hChoices hEmpty
                  hMember)
      | _ =>
          exact Result.failsBy_error
            (hTree.mismatch hText (by simp [Tree.shape]))

/- No choice is read from what is absent or empty only. -/
theorem eq_none_or_of_choice
    {choices : Choices}
    (hNone : Choice.expand? choices path found = .ok none) :
    found = none ∨ found = some (.str "") := by
  cases found with
  | none => exact Or.inl rfl
  | some tree =>
      rcases hasShape_of_expand? hNone with
        ⟨content, rfl, _⟩
      by_cases hEmpty : content = ""
      · exact Or.inr (by rw [hEmpty])
      · by_cases hMember : content ∈ choices.all <;>
          simp [Choice.expand?, Choice.parse?, hEmpty,
            hMember] at hNone

/- A leaf that cannot be read has a defect, or is missing. -/
theorem defect_of_expand
    (hWhole : whole.HasDistinctKeys)
    {type : Leaf}
    (hFound :
      ∀ tree, found = some tree →
        root.Governs whole path (.leaf type) tree) :
    Result.FailsBy
      (Shape.Faulty root whole strict path (.leaf type) found)
      (type.expand path found) := by
  have hLeft :
      ∀ fault, IsDefect root whole strict fault →
        Shape.Faulty root whole strict path (.leaf type) found
          fault :=
    fun _ => Or.inl
  cases type with
  | text => exact (defect_of_text hFound rfl).mono hLeft
  | requiredText =>
      refine ((defect_of_text hFound rfl).mono hLeft).bind
        fun content hContent => ?_
      split
      · rename_i hEmpty
        subst hEmpty
        refine Result.failsBy_error (Or.inr ⟨rfl, rfl, ?_⟩)
        exact (eq_none_or_of_text hContent).imp And.left id
      · exact Result.failsBy_ok _
  | flag =>
      cases found with
      | none => exact Result.failsBy_ok _
      | some tree =>
          cases tree with
          | bool value => exact Result.failsBy_ok _
          | _ =>
              exact Result.failsBy_error
                (hLeft _ ((hFound _ rfl).mismatch rfl
                  (by simp [Tree.shape])))
  | integer =>
      cases found with
      | none => exact Result.failsBy_ok _
      | some tree =>
          cases tree with
          | int value => exact Result.failsBy_ok _
          | _ =>
              exact Result.failsBy_error
                (hLeft _ ((hFound _ rfl).mismatch rfl
                  (by simp [Tree.shape])))
  | timestamp =>
      refine ((defect_of_text hFound rfl).mono hLeft).bind
        fun content hContent => ?_
      by_cases hEmpty : content = ""
      · rw [if_pos hEmpty]
        exact Result.failsBy_ok _
      · rw [if_neg hEmpty]
        cases hTime : Timestamp.read? content with
        | some time => exact Result.failsBy_ok _
        | none =>
            rcases eq_none_or_of_text hContent with
              ⟨_, hNone⟩ | hSome
            · exact absurd hNone hEmpty
            · exact Result.failsBy_error
                (hLeft _ (.untimely (hFound _ hSome).toStands
                  hEmpty hTime))
  | choice choices =>
      exact (defect_of_choice hFound rfl rfl).mono hLeft
  | requiredChoice choices =>
      refine
        ((defect_of_choice hFound rfl rfl).mono hLeft).bind
          fun selected hSelected => ?_
      cases selected with
      | some value => exact Result.failsBy_ok _
      | none =>
          exact Result.failsBy_error (Or.inr
            ⟨rfl, rfl, eq_none_or_of_choice hSelected⟩)
  | texts =>
      exact (Reading.defect_of_items hFound rfl collects_texts
        fun _ _ hItem =>
          Reading.defect_of_element hItem rfl).mono hLeft
  | textMap =>
      exact (Reading.defect_of_entries hWhole hFound rfl
        collects_textMap fun _ _ hValue =>
          Reading.defect_of_element hValue rfl).mono hLeft

end Leaf

------------------------------------------------------------
-- Parameter Values
------------------------------------------------------------

namespace ParamValue

variable {entries : ConfigMap}
variable {need : Need}

theorem defect_of_checkLeaves
    (hWhole : whole.HasDistinctKeys)
    (hMap :
      root.Stands whole path (.value need) (.map entries))
    {declared : List (String × Leaf)}
    (hDeclared :
      ∀ member, member ∈ declared → member ∈ leaves) :
    Result.FailsBy (IsDefect root whole strict)
      (checkLeaves path entries declared) := by
  induction declared with
  | nil => exact Result.failsBy_ok _
  | cons member rest ih =>
      have hRest := ih fun other hOther =>
        hDeclared other (List.mem_cons_of_mem _ hOther)
      have hMember :
          (Shape.value need).child? member.1 =
            some (.leaf member.2) :=
        child?_of_mem (hDeclared member List.mem_cons_self)
      simp only [checkLeaves]
      cases hFound : entries.present? member.1 with
      | none => exact hRest
      | some tree =>
          exact (Leaf.defect_of_check hWhole
            (.present hMap hMember hFound)).bind
              fun _ _ => hRest

/- A block that does not pass its check has a defect. -/
theorem defect_of_check
    (hWhole : whole.HasDistinctKeys)
    (hMap :
      root.Stands whole path (.value need) (.map entries)) :
    Result.FailsBy (IsDefect root whole true)
      (check path entries) := by
  simp only [check]
  cases hUnknown :
      entries.find? fun entry =>
        !Keyed.has entry.1 leaves with
  | none =>
      exact defect_of_checkLeaves hWhole hMap fun _ h => h
  | some entry =>
      have hEntry := List.mem_of_find?_eq_some hUnknown
      have hNot := List.find?_some hUnknown
      refine Result.failsBy_error
        (hMap.unknown hWhole rfl hEntry fun hMember => ?_)
      rcases List.mem_map.1 hMember with
        ⟨member, hLeaf, hEq⟩
      simp only [Keyed.has, Bool.not_eq_true',
        List.any_eq_false, decide_eq_true_eq] at hNot
      exact hNot member hLeaf hEq

/- A block that cannot be read has a defect. -/
theorem defect_of_expand
    (hWhole : whole.HasDistinctKeys)
    (hMap :
      root.Stands whole path (.value need) (.map entries)) :
    Result.FailsBy (IsDefect root whole strict)
      (expand path entries) := by
  refine failsBy_expand fun key leaf hLeaf => ?_
  have hFails :
      Result.FailsBy
        (Shape.Faulty root whole strict (path.entry key)
          (.leaf leaf) (entries.present? key))
        (leaf.expand (path.entry key)
          (entries.present? key)) :=
    Leaf.defect_of_expand hWhole fun _ hFound =>
      .present hMap (child?_of_mem hLeaf) hFound
  refine hFails.mono ?_
  rintro fault (hDefect | ⟨_, hRequired, _⟩)
  · exact hDefect
  · have hOptional := not_required hLeaf
    rw [Shape.required, hOptional] at hRequired
    cases hRequired

end ParamValue

------------------------------------------------------------
-- Checking
------------------------------------------------------------

/- A key that is not declared. -/
theorem Fields.defect_of_checkKeys
    (hWhole : whole.HasDistinctKeys)
    {fields : Fields}
    {entries : ConfigMap}
    (hMap : root.Stands whole path shape (.map entries))
    (hKeys : shape.keys? = some fields.keys) :
    Result.FailsBy (IsDefect root whole true)
      (Declaration.checkKeys fields.keys path entries) := by
  simp only [Declaration.checkKeys]
  cases hUnknown :
      entries.find? fun entry =>
        !fields.keys.contains entry.1 with
  | none => exact Result.failsBy_ok _
  | some entry =>
      have hEntry := List.mem_of_find?_eq_some hUnknown
      have hNot := List.find?_some hUnknown
      exact Result.failsBy_error
        (hMap.unknown hWhole hKeys hEntry (by simpa using hNot))

/- A map with the fields of a block, if all faults of the
   fields are defects. -/
theorem Fields.defect_of_guarded
    (hWhole : whole.HasDistinctKeys)
    {fields : Fields}
    (hBlock : shape.HasFields fields)
    (hFields :
      ∀ entries,
        root.Stands whole path shape (.map entries) →
          (∀ name inner, fields.shape? name = some inner →
            shape.child? name = some inner) →
            Result.FailsBy (IsDefect root whole true)
              (fields.checkAll path entries))
    (hTree : root.Governs whole path shape tree) :
    Result.FailsBy (IsDefect root whole true)
      (Reading.block
        (Declaration.guarded fields.keys fields.checkAll) path
        tree) := by
  refine Reading.defect_of_block hTree hBlock.expected ?_
  rintro entries rfl
  exact (Fields.defect_of_checkKeys hWhole hTree.toStands
    hBlock.keys).bind fun _ _ =>
      hFields entries hTree.toStands fun name _ hShape =>
        (hBlock.child name).trans hShape

/- What a field lacks is missing from its map. -/
theorem Shape.Faulty.isDefect
    {entries : ConfigMap}
    {key : String}
    {inner : Shape}
    {fault : SchemaError}
    (hFaulty :
      Shape.Faulty root whole strict (path.entry key) inner
        (entries.present? key) fault)
    (hMap : root.Stands whole path shape (.map entries))
    (hShape : shape.child? key = some inner) :
    IsDefect root whole strict fault := by
  rcases hFaulty with hDefect | ⟨rfl, hRequired, hBlank⟩
  · exact hDefect
  · exact .missing hMap.found
      ((Shape.at?_entry hMap.declared key).trans hShape)
      hRequired (ConfigMap.isBlank_lookup hBlank)

mutual

/- A tree that does not pass the check of its shape has a
   defect. -/
theorem Shape.defect_of_check
    {root : Shape}
    {whole : Tree}
    (hWhole : whole.HasDistinctKeys) :
    ∀ (shape : Shape) (path : FieldPath) (tree : Tree),
      shape.isWellFormed = true →
        root.Governs whole path shape tree →
          Result.FailsBy (IsDefect root whole true)
            (shape.check path tree)
  | .leaf type, path, tree, _, hTree =>
      Leaf.defect_of_check hWhole hTree
  | .value need, path, tree, _, hTree => by
      refine Reading.defect_of_block hTree rfl ?_
      rintro entries rfl
      exact ParamValue.defect_of_check hWhole hTree.toStands
  | .block fields, path, tree, hWell, hTree =>
      Fields.defect_of_guarded hWhole
        ⟨rfl, rfl, fun _ => rfl⟩
        (fun entries =>
          fields.defect_of_checkAll hWhole path entries hWell)
        hTree
  | .blocks fields, path, tree, hWell, hTree =>
      Reading.defect_of_checkItems hTree rfl
        ⟨rfl, fun _ => rfl⟩ fun place value hValue =>
          Fields.defect_of_guarded hWhole
            ⟨rfl, rfl, fun _ => rfl⟩
            (fun entries =>
              fields.defect_of_checkAll hWhole place entries
                hWell)
            hValue
  | .blockMap fields, path, tree, hWell, hTree =>
      Reading.defect_of_checkEntries hWhole hTree rfl
        ⟨rfl, fun _ => rfl⟩ fun place value hValue =>
          Fields.defect_of_guarded hWhole
            ⟨rfl, rfl, fun _ => rfl⟩
            (fun entries =>
              fields.defect_of_checkAll hWhole place entries
                hWell)
            hValue
  | .part fields, path, tree, hWell, hTree =>
      Fields.defect_of_guarded hWhole
        ⟨rfl, rfl, fun _ => rfl⟩
        (fun entries =>
          fields.defect_of_checkAll hWhole path entries
            (Shape.isWellFormed_part_iff.1 hWell).1)
        hTree
  | .observed fields, path, tree, hWell, hTree =>
      Fields.defect_of_guarded hWhole
        ⟨rfl, rfl, fun _ => rfl⟩
        (fun entries =>
          fields.defect_of_checkAll hWhole path entries
            (Shape.isWellFormed_observed_iff.1 hWell).1)
        hTree

/- A map of which a field does not pass its check has a
   defect. -/
theorem Fields.defect_of_checkAll
    {root shape : Shape}
    {whole : Tree}
    (hWhole : whole.HasDistinctKeys) :
    ∀ (fields : Fields) (path : FieldPath)
        (entries : ConfigMap),
      fields.isWellFormed = true →
        root.Stands whole path shape (.map entries) →
          (∀ name inner, fields.shape? name = some inner →
            shape.child? name = some inner) →
            Result.FailsBy (IsDefect root whole true)
              (fields.checkAll path entries)
  | .nil, _, _, _, _, _ => Result.failsBy_ok _
  | .field key wire inner rest, path, entries, hWell, hMap,
      hFields => by
      have hParts := Fields.isWellFormed_field_iff.1 hWell
      have hInner : shape.child? key = some inner :=
        hFields key inner (if_pos rfl)
      have hRest := rest.defect_of_checkAll hWhole path entries
        hParts.2.2.2 hMap fun name other hOther =>
          hFields name other
            (Fields.shape?_of_rest hParts.1 hOther)
      rw [Fields.checkAll_field]
      refine Result.FailsBy.bind ?_ fun _ _ => hRest
      cases hFound : entries.present? key with
      | some tree =>
          exact Shape.defect_of_check hWhole inner _ tree
            hParts.2.2.1 (.present hMap hInner hFound)
      | none =>
          simp only [Shape.checkFound]
          split
          · rename_i hRequired
            have hMissing :
                Shape.Faulty root whole true (path.entry key)
                  inner (entries.present? key)
                  (.missingField (path.entry key)) :=
              Or.inr ⟨rfl, hRequired, Or.inl hFound⟩
            exact Result.failsBy_error
              (hMissing.isDefect hMap hInner)
          · exact Result.failsBy_ok _
  | .wireOnly wire type rest, path, entries, hWell, hMap,
      hFields =>
      rest.defect_of_checkAll hWhole path entries
        (Fields.isWellFormed_wireOnly_iff.1 hWell).2.2 hMap
        hFields

end

------------------------------------------------------------
-- Reading
------------------------------------------------------------

/- A parameter value that cannot be read. -/
theorem Need.defect_of_expand
    (hWhole : whole.HasDistinctKeys)
    (need : Need)
    {found : Option Tree}
    (hFound :
      ∀ tree, found = some tree →
        root.Governs whole path (.value need) tree) :
    Result.FailsBy
      (Shape.Faulty root whole strict path (.value need) found)
      (need.expand path found) := by
  cases found with
  | none =>
      cases need with
      | required =>
          exact Result.failsBy_error
            (Or.inr ⟨rfl, rfl, Or.inl rfl⟩)
      | _ => exact Result.failsBy_ok _
  | some tree =>
      have hTree := hFound tree rfl
      have hBlock :
          Result.FailsBy (IsDefect root whole strict)
            (Reading.block ParamValue.expand path tree) := by
        refine Reading.defect_of_block hTree rfl ?_
        rintro entries rfl
        exact ParamValue.defect_of_expand hWhole hTree.toStands
      have hFaulty :=
        hBlock.mono fun fault hDefect =>
          (Or.inl hDefect :
            Shape.Faulty root whole strict path (.value need)
              (some tree) fault)
      cases need with
      | optional => exact hFaulty.map some
      | _ => exact hFaulty

/- The block of a field, if all faults of reading its fields
   are defects. -/
theorem Fields.defect_of_block
    {fields : Fields}
    (hBlock : shape.HasFields fields)
    (hFields :
      ∀ entries,
        root.Stands whole path shape (.map entries) →
          (∀ name inner, fields.shape? name = some inner →
            shape.child? name = some inner) →
            Result.FailsBy (IsDefect root whole strict)
              (fields.expand path entries))
    (hTree : root.Governs whole path shape tree) :
    Result.FailsBy (IsDefect root whole strict)
      (Reading.block fields.expand path tree) := by
  refine Reading.defect_of_block hTree hBlock.expected ?_
  rintro entries rfl
  exact hFields entries hTree.toStands fun name _ hShape =>
    (hBlock.child name).trans hShape

mutual

/- A tree that cannot be read as its shape has a defect, or
   nothing was found where something is required. -/
theorem Shape.defect_of_expand
    {root : Shape}
    {whole : Tree}
    (hWhole : whole.HasDistinctKeys) :
    ∀ (shape : Shape) (path : FieldPath)
        (found : Option Tree),
      shape.isWellFormed = true →
        (∀ tree, found = some tree →
          root.Governs whole path shape tree) →
          Result.FailsBy
            (Shape.Faulty root whole strict path shape found)
            (shape.expand path found)
  | .leaf _, _, _, _, hFound =>
      Leaf.defect_of_expand hWhole hFound
  | .value need, _, _, _, hFound =>
      need.defect_of_expand hWhole hFound
  | .block _, _, none, _, _ => Result.failsBy_ok _
  | .block fields, path, some tree, hWell, hFound =>
      ((Fields.defect_of_block ⟨rfl, rfl, fun _ => rfl⟩
        (fun entries =>
          fields.defect_of_expand hWhole path entries hWell)
        (hFound tree rfl)).map some).mono fun _ => Or.inl
  | .blocks fields, _, _, hWell, hFound =>
      (Reading.defect_of_items hFound rfl
        ⟨rfl, fun _ => rfl⟩ fun place _ hValue =>
          Fields.defect_of_block ⟨rfl, rfl, fun _ => rfl⟩
            (fun entries =>
              fields.defect_of_expand hWhole place entries
                hWell)
            hValue).mono fun _ => Or.inl
  | .blockMap fields, _, _, hWell, hFound =>
      (Reading.defect_of_entries hWhole hFound rfl
        ⟨rfl, fun _ => rfl⟩ fun place _ hValue =>
          Fields.defect_of_block ⟨rfl, rfl, fun _ => rfl⟩
            (fun entries =>
              fields.defect_of_expand hWhole place entries
                hWell)
            hValue).mono fun _ => Or.inl
  | .part _, _, none, _, _ => Result.failsBy_ok _
  | .part fields, path, some tree, hWell, hFound =>
      (Fields.defect_of_block ⟨rfl, rfl, fun _ => rfl⟩
        (fun entries =>
          fields.defect_of_expand hWhole path entries
            (Shape.isWellFormed_part_iff.1 hWell).1)
        (hFound tree rfl)).mono fun _ => Or.inl
  | .observed _, _, none, _, _ => Result.failsBy_ok _
  | .observed fields, path, some tree, hWell, hFound =>
      ((Fields.defect_of_block ⟨rfl, rfl, fun _ => rfl⟩
        (fun entries =>
          fields.defect_of_expand hWhole path entries
            (Shape.isWellFormed_observed_iff.1 hWell).1)
        (hFound tree rfl)).map some).mono fun _ => Or.inl

/- A map of which a field cannot be read has a defect. -/
theorem Fields.defect_of_expand
    {root shape : Shape}
    {whole : Tree}
    (hWhole : whole.HasDistinctKeys) :
    ∀ (fields : Fields) (path : FieldPath)
        (entries : ConfigMap),
      fields.isWellFormed = true →
        root.Stands whole path shape (.map entries) →
          (∀ name inner, fields.shape? name = some inner →
            shape.child? name = some inner) →
            Result.FailsBy (IsDefect root whole strict)
              (fields.expand path entries)
  | .nil, _, _, _, _, _ => Result.failsBy_ok _
  | .field key _ inner rest, path, entries, hWell, hMap,
      hFields => by
      have hParts := Fields.isWellFormed_field_iff.1 hWell
      have hInner : shape.child? key = some inner :=
        hFields key inner (if_pos rfl)
      have hFirst := Shape.defect_of_expand hWhole inner
        (path.entry key) (entries.present? key) hParts.2.2.1
        fun tree hFound => .present hMap hInner hFound
      have hRest := rest.defect_of_expand hWhole path entries
        hParts.2.2.2 hMap fun name other hOther =>
          hFields name other
            (Fields.shape?_of_rest hParts.1 hOther)
      refine Result.FailsBy.bind ?_ fun _ _ =>
        hRest.bind fun _ _ => Result.failsBy_ok _
      exact hFirst.mono fun fault hFaulty =>
        hFaulty.isDefect hMap hInner
  | .wireOnly _ _ rest, path, entries, hWell, hMap,
      hFields => by
      have hRest := rest.defect_of_expand hWhole path entries
        (Fields.isWellFormed_wireOnly_iff.1 hWell).2.2 hMap
        hFields
      exact hRest.bind fun _ _ => Result.failsBy_ok _

end

end Governed

------------------------------------------------------------
-- Objects
------------------------------------------------------------

namespace Object

/- The faults of a check and of a reader are defects of the
   configuration, at the places that they name. A reader is
   not strict: it refuses no key. -/
theorem fault_isDefect
    (kind : Kind)
    (config : ConfigMap)
    (hKeys : (Tree.map config).HasDistinctKeys) :
    (∀ fault, Object.validate kind config = .error fault →
      fault.IsDefect (.block kind.fields) (.map config)
        true) ∧
      ∀ fault, Object.expand kind config = .error fault →
        fault.IsDefect (.block kind.fields) (.map config)
          false := by
  have hWell := kind.isWellFormed_fields
  have hRoot :
      (Shape.block kind.fields).Stands (.map config) .root
        (.block kind.fields) (.map config) :=
    .self _ _
  constructor
  · have hUnknown :
        Result.FailsBy
          (SchemaError.IsDefect (.block kind.fields)
            (.map config) true)
          (Declaration.checkKeys kind.fields.keys .root
            config) :=
      Fields.defect_of_checkKeys hKeys hRoot rfl
    have hFields := kind.fields.defect_of_checkAll hKeys .root
      config hWell hRoot fun _ _ h => h
    rw [Object.validate_eq]
    exact hUnknown.bind fun _ _ => hFields
  · exact (kind.fields.defect_of_expand hKeys .root config
      hWell hRoot fun _ _ h => h).map _

/- A task with a misspelt key, and a null in a list. -/
def faultyConfig : ConfigMap :=
  [("spec", .map
    [("params",
        .list [.map [("name", .str "level"),
          ("default", .map [("strng_val", .str "low")])]]),
      ("steps",
        .list [.map [("name", .str "build"),
          ("env", .list [.null])]])])]

theorem fault_isDefect_misspelt :
    (SchemaError.unknownField
        ⟨["spec", "params", "0", "default",
          "strng_val"]⟩).IsDefect
      (.block Kind.task.fields) (.map faultyConfig) true ∧
      (SchemaError.typeMismatch
          ⟨["spec", "steps", "0", "env", "0"]⟩
          "map").IsDefect
        (.block Kind.task.fields) (.map faultyConfig)
        false := by
  have hKeys : (Tree.map faultyConfig).HasDistinctKeys := by
    simp [Tree.HasDistinctKeys, Tree.ItemsHaveDistinctKeys,
      Tree.EntriesHaveDistinctKeys, faultyConfig]
  have hFaults := fault_isDefect .task faultyConfig hKeys
  exact ⟨hFaults.1 _ rfl,
    hFaults.2 _ rfl⟩

end Object

end Converge
