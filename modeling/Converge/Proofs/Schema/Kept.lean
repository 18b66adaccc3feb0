import Converge.Proofs.Schema.Matching
import Converge.Proofs.Schema.Place
import Converge.Proofs.Schema.RoundTrip

/-
  What becomes of the values of a configuration.

  A configuration that passed its check and was read is
  written again with every value that was set, at the same
  place, but for one case: the block of a parameter value may
  hold several values, of which only the one that its type
  selects is read.

  A tree is followed one segment at a time. What is carried
  from a place to the next is that the tree there passed its
  check and was read, and what was written for it.

  Key definitions:
    * `Shape.Keeps`: a value stands at its place again
    * `Shape.Skips`, `Shape.InVain`: what reading passes over
    * `Shape.Rewrites`: a tree, and what was written for it

  Main declarations:
    * `Shape.Rewrites.step`: from a place to one inside it
    * `Shape.Rewrites.kept_iff`: along a whole path
    * `Object.keeps_iff`: in the configuration of an object
-/

namespace Converge

------------------------------------------------------------
-- What Is Kept
------------------------------------------------------------

/- Values that say something: strings that are not empty,
   flags that are on and integers that are not zero. -/
def Tree.isSet : Tree → Bool
  | .bool value => value
  | .int value => value ≠ 0
  | .str content => content ≠ ""
  | _ => false

namespace Shape

/- One tree restates another one at a place of a shape. Points
   in time are restated in any spelling; of lists and maps
   only the kind is compared, as their parts have places of
   their own. -/
def Restates : Shape → Tree → Tree → Prop
  | .leaf .timestamp, .str content, other =>
      ∃ time spelling, other = .str spelling ∧
        Timestamp.read? content = some time ∧
        Timestamp.read? spelling = some time
  | _, .list _, other => ∃ items, other = .list items
  | _, .map _, other => ∃ entries, other = .map entries
  | _, tree, other => other = tree

/- What a tree has at a declared place is restated at that
   place of another tree. -/
def Keeps
    (root : Shape)
    (whole made : Tree)
    (path : List String) :
    Prop :=
  ∃ inner tree other,
    root.at? path = some inner ∧
      whole.at? path = some tree ∧
      made.at? path = some other ∧ inner.Restates tree other

/- A key in the block of a parameter value that the type of
   the value does not select. (The place of the block only
   matters to faults.) -/
def Skips
    (shape : Shape)
    (tree : Tree)
    (key : String) :
    Prop :=
  ∃ need entries place type,
    shape = .value need ∧ tree = .map entries ∧
      ParamValue.expandType place entries = .ok type ∧
      key ≠ "type" ∧ key ≠ type ++ "_val"

/- A place at or inside a value that reading passes over. -/
def InVain
    (root : Shape)
    (whole : Tree)
    (path : List String) :
    Prop :=
  ∃ front key rest inner tree,
    path = front ++ key :: rest ∧
      root.at? front = some inner ∧
      whole.at? front = some tree ∧ inner.Skips tree key

------------------------------------------------------------
-- Places, Segment by Segment
------------------------------------------------------------

section Segments

variable {root : Shape}
variable {whole : Tree}
variable {segment : String}
variable {rest : List String}

theorem not_inVain_nil : ¬root.InVain whole [] := by
  rintro ⟨front, key, rest, _, _, hPath, _⟩
  cases front <;> cases hPath

/- A place is held in vain when its first segment is skipped,
   or when it is in vain after the first segment. -/
theorem inVain_cons_iff :
    root.InVain whole (segment :: rest) ↔
      root.Skips whole segment ∨
        ∃ inner tree,
          root.child? segment = some inner ∧
            whole.child? segment = some tree ∧
            inner.InVain tree rest := by
  constructor
  · rintro ⟨front, key, back, inner, tree, hPath, hShape,
      hTree, hSkips⟩
    cases front with
    | nil =>
        cases hPath
        cases hShape
        cases hTree
        exact Or.inl hSkips
    | cons first front =>
        cases hPath
        rcases Option.bind_eq_some_iff.1 hShape with
          ⟨child, hChild, hInner⟩
        rcases Option.bind_eq_some_iff.1 hTree with
          ⟨value, hValue, hFound⟩
        exact Or.inr
          ⟨child, value, hChild, hValue, front, key, back,
            inner, tree, rfl, hInner, hFound, hSkips⟩
  · rintro (hSkips | ⟨child, value, hChild, hValue, hVain⟩)
    · exact ⟨[], segment, rest, root, whole, rfl, rfl, rfl,
        hSkips⟩
    · rcases hVain with
        ⟨front, key, back, inner, tree, rfl, hInner, hFound,
          hSkips⟩
      refine ⟨segment :: front, key, back, inner, tree, rfl,
        ?_, ?_, hSkips⟩
      · simp only [at?, hChild, Option.bind_some, hInner]
      · simp only [Tree.at?, hValue, Option.bind_some, hFound]

/- After a segment that is not skipped, a place is in vain
   when it is so from there. -/
theorem inVain_cons_iff_of_not_skips
    {inner : Shape}
    {tree : Tree}
    (hNot : ¬root.Skips whole segment)
    (hShape : root.child? segment = some inner)
    (hTree : whole.child? segment = some tree) :
    root.InVain whole (segment :: rest) ↔
      inner.InVain tree rest := by
  rw [inVain_cons_iff, hShape, hTree]
  constructor
  · rintro (hSkips | ⟨_, _, hEq, hEq', hVain⟩)
    · exact absurd hSkips hNot
    · cases hEq
      cases hEq'
      exact hVain
  · exact fun hVain =>
      Or.inr ⟨inner, tree, rfl, rfl, hVain⟩

theorem not_isElement_nil : ¬root.IsElement [] := by
  rintro ⟨parent, segment, _, hPath, _⟩
  simp at hPath

/- An element of what a segment leads to. -/
theorem isElement_of_cons
    {inner : Shape}
    (hElement : root.IsElement (segment :: rest))
    (hChild : root.child? segment = some inner) :
    (rest = [] ∧ root.isCollection = true) ∨
      inner.IsElement rest := by
  rcases hElement with
    ⟨parent, last, shape, hPath, hShape, hCollection⟩
  cases parent with
  | nil =>
      cases hPath
      cases hShape
      exact Or.inl ⟨rfl, hCollection⟩
  | cons first parent =>
      cases hPath
      simp only [at?, hChild, Option.bind_some] at hShape
      exact Or.inr
        ⟨parent, last, shape, rfl, hShape, hCollection⟩

/- What is kept after a segment is kept. -/
theorem keeps_cons_iff
    {inner : Shape}
    {tree made : Tree}
    (hShape : root.child? segment = some inner)
    (hTree : whole.child? segment = some tree) :
    root.Keeps whole made (segment :: rest) ↔
      ∃ other, made.child? segment = some other ∧
        inner.Keeps tree other rest := by
  simp only [Keeps, at?, Tree.at?, hShape, hTree,
    Option.bind_some, Option.bind_eq_some_iff]
  constructor
  · rintro ⟨shape, value, found, hInner, hValue,
      ⟨other, hOther, hFound⟩, hSame⟩
    exact ⟨other, hOther, shape, value, found, hInner, hValue,
      hFound, hSame⟩
  · rintro ⟨other, hOther, shape, value, found, hInner,
      hValue, hFound, hSame⟩
    exact ⟨shape, value, found, hInner, hValue,
      ⟨other, hOther, hFound⟩, hSame⟩

end Segments

------------------------------------------------------------
-- What Was Written
------------------------------------------------------------

/- A tree at a place, what was written for it, and whether it
   is an element of a larger value. Nulls and empty strings
   that are no elements set nothing; strings that are elements
   are written as they stand. -/
inductive Rewrites :
    Shape → FieldPath → Tree → Option Tree → Bool →
      Prop where
  | unset
      {shape : Shape}
      {place : FieldPath}
      {tree : Tree}
      {made : Option Tree}
      (hUnset : tree = .null ∨ tree = .str "") :
      Rewrites shape place tree made false
  | element
      {place : FieldPath}
      {content : String} :
      Rewrites (.leaf .text) place (.str content)
        (some (.str content)) true
  | field
      {shape : Shape}
      {place : FieldPath}
      {tree : Tree}
      {held : shape.Val}
      (hWell : shape.isWellFormed = true)
      (hKeys : tree.HasDistinctKeys)
      (hCheck : shape.check place tree = .ok ())
      (hRead : shape.expand place (some tree) = .ok held) :
      Rewrites shape place tree (shape.flatten held) false
  | block
      {fields : Fields}
      {place : FieldPath}
      {entries : ConfigMap}
      {record : fields.Rec}
      (hWell : fields.isWellFormed = true)
      (hKeys : (Tree.map entries).HasDistinctKeys)
      (hCheck : fields.check place entries = .ok ())
      (hRead : fields.expand place entries = .ok record) :
      Rewrites (.block fields) place (.map entries)
        (some (.map (fields.flatten record))) true

end Shape

------------------------------------------------------------
-- Leaves
------------------------------------------------------------

namespace Leaf

variable {place : FieldPath}
variable {tree : Tree}

/- A leaf that is set is restated. -/
theorem restates_of_isSet
    {leaf : Leaf}
    {held : leaf.Val}
    (hRead : leaf.expand place (some tree) = .ok held)
    (hSet : tree.isSet = true) :
    ∃ made, leaf.flatten held = some made ∧
      (Shape.leaf leaf).Restates tree made := by
  have hShape := hasShape_of_expand hRead
  cases leaf with
  | text =>
      rcases hShape with ⟨content, rfl⟩
      have hHeld : (content : String) = held :=
        Except.ok.inj hRead
      subst hHeld
      have hContent : content ≠ "" := by
        simpa [Tree.isSet] using hSet
      exact ⟨_, if_neg hContent, rfl⟩
  | requiredText =>
      rcases hShape with ⟨content, rfl⟩
      have hContent : content ≠ "" := by
        simpa [Tree.isSet] using hSet
      have hHeld : (content : String) = held :=
        Except.ok.inj ((if_neg hContent).symm.trans hRead)
      subst hHeld
      exact ⟨_, if_neg hContent, rfl⟩
  | flag =>
      rcases hShape with ⟨value, rfl⟩
      have hHeld : (value : Bool) = held := Except.ok.inj hRead
      subst hHeld
      cases value with
      | false => cases hSet
      | true => exact ⟨_, rfl, rfl⟩
  | integer =>
      rcases hShape with ⟨value, rfl⟩
      have hHeld : (value : Int64) = held := Except.ok.inj hRead
      subst hHeld
      have hValue : value ≠ 0 := by
        simpa [Tree.isSet] using hSet
      exact ⟨_, if_neg hValue, rfl⟩
  | timestamp =>
      rcases hShape with ⟨content, rfl⟩
      have hContent : content ≠ "" := by
        simpa [Tree.isSet] using hSet
      rw [expand_timestamp, if_neg hContent] at hRead
      cases hTime : Timestamp.read? content with
      | none =>
          rw [hTime] at hRead
          cases hRead
      | some time =>
          rw [hTime] at hRead
          cases hRead
          exact ⟨_, rfl, time, time.text, rfl, hTime,
            time.read?_text⟩
  | choice choices =>
      rcases hShape with ⟨content, rfl, hContent⟩
      have hFilled : content ≠ "" := by
        simpa [Tree.isSet] using hSet
      have hMember := hContent.resolve_left hFilled
      have hSelected :=
        expand?_of_mem hFilled hMember place
      cases hSelected.symm.trans hRead
      exact ⟨_, rfl, rfl⟩
  | requiredChoice choices =>
      rcases hShape with ⟨content, rfl, hContent⟩
      have hFilled : content ≠ "" := by
        simpa [Tree.isSet] using hSet
      have hMember := hContent.resolve_left hFilled
      simp only [expand,
        expand?_of_mem hFilled hMember place] at hRead
      cases hRead
      exact ⟨_, rfl, rfl⟩
  | texts =>
      rcases hShape with ⟨contents, rfl⟩
      cases hSet
  | textMap =>
      rcases hShape with ⟨contents, rfl⟩
      cases hSet

/- The elements of a leaf are written as they stand. -/
theorem child?_flatten
    {leaf : Leaf}
    {held : leaf.Val}
    {segment : String}
    {value : Tree}
    (hKeys : tree.HasDistinctKeys)
    (hRead : leaf.expand place (some tree) = .ok held)
    (hValue : tree.child? segment = some value) :
    leaf.isCollection = true ∧
      (∃ content, value = .str content) ∧
      (leaf.flatten held).bind (Tree.child? segment) =
        some value := by
  have hShape := hasShape_of_expand hRead
  cases leaf with
  | texts =>
      rcases hShape with ⟨contents, rfl⟩
      have hHeld : (contents : List String) = held :=
        Except.ok.inj
          ((eachItem_element place contents).symm.trans hRead)
      subst hHeld
      rcases Option.bind_eq_some_iff.1 hValue with
        ⟨position, _, hItem⟩
      have hListed := List.mem_of_getElem? hItem
      rcases List.mem_map.1 hListed with
        ⟨content, hMember, hEq⟩
      have hSome : contents.isEmpty = false :=
        List.isEmpty_eq_false_iff_exists_mem.2
          ⟨content, hMember⟩
      refine ⟨rfl, ⟨content, hEq.symm⟩, ?_⟩
      simp only [flatten, hSome, Bool.false_eq_true, if_false,
        Option.bind_some]
      exact hValue
  | textMap =>
      rcases hShape with ⟨contents, rfl⟩
      have hLookup :
          (Keyed.mapValues Tree.str contents).lookup segment =
            some value :=
        hValue
      have hFound :=
        (Reading.entries_eq_ok_iff hKeys.1).1 hRead segment
      rw [hLookup] at hFound
      cases hHeld : SortedMap.find? held segment with
      | none =>
          rw [hHeld] at hFound
          cases hFound
      | some content =>
          rw [hHeld] at hFound
          cases hFound with
          | some hContent =>
              have hValueEq := exists_of_element hContent
              have hSome :
                  SortedMap.isEmpty held = false :=
                List.isEmpty_eq_false_iff_exists_mem.2
                  ⟨_, Keyed.mem_of_lookup hHeld⟩
              refine ⟨rfl, ⟨content, hValueEq⟩, ?_⟩
              simp only [flatten, hSome, Bool.false_eq_true,
                if_false, Option.bind_some, Tree.child?,
                Keyed.lookup_mapValues]
              simp only [SortedMap.find?] at hHeld
              rw [hHeld, hValueEq]
              rfl
  | text | requiredText | flag | integer | timestamp =>
      rcases hShape with ⟨content, rfl⟩
      cases hValue
  | choice | requiredChoice =>
      rcases hShape with ⟨content, rfl, _⟩
      cases hValue

end Leaf

------------------------------------------------------------
-- Parameter Values
------------------------------------------------------------

namespace ParamValue

variable {place : FieldPath}
variable {entries : ConfigMap}
variable {value : ParamValue}

theorem isWellFormed_of_mem
    {member : String × Leaf}
    (hMember : member ∈ leaves) :
    member.2.isWellFormed = true := by
  have hAll :
      ∀ member ∈ leaves, member.2.isWellFormed = true := by
    decide
  exact hAll member hMember

/- The type of a value does not depend on its place. -/
theorem expandType_unique
    {other : FieldPath}
    {type found : String}
    (hType : expandType place entries = .ok type)
    (hFound : expandType other entries = .ok found) :
    found = type := by
  rcases Result.bind_eq_ok_iff.1 hType with
    ⟨declared, hDeclared, hSelected⟩
  rcases Result.bind_eq_ok_iff.1 hFound with
    ⟨stated, hStated, hChosen⟩
  have hSame : stated = declared := by
    cases hEntry : entries.present? "type" with
    | none =>
        rw [hEntry] at hDeclared hStated
        cases hDeclared
        cases hStated
        rfl
    | some tree =>
        rw [hEntry] at hDeclared hStated
        rcases Leaf.hasShape_of_expand? hDeclared with
          ⟨content, rfl, hContent⟩
        by_cases hEmpty : content = ""
        · simp only [Choice.expand?, hEmpty, if_true]
            at hDeclared hStated
          cases hDeclared
          cases hStated
          rfl
        · have hMember := hContent.resolve_left hEmpty
          have hRead := Leaf.expand?_of_mem hEmpty hMember
          cases (hRead _).symm.trans hDeclared
          cases (hRead _).symm.trans hStated
          rfl
  subst hSame
  exact Except.ok.inj (hChosen.symm.trans hSelected)

/- A block with a type and one more leaf. -/
theorem lookup_cons_entryOf
    {type key : String}
    (hKey : key ≠ "type")
    (made : Option Tree) :
    ∀ query,
      (("type", Tree.str type) :: entryOf key made).lookup
          query =
        if query = "type" then some (.str type)
        else if query = key then made else none := by
  intro query
  by_cases hType : query = "type"
  · simp [hType]
  · have hType' : (query == "type") = false := by
      simpa using hType
    rw [List.lookup_cons, hType', if_neg hType]
    by_cases hQuery : query = key
    · subst hQuery
      rw [if_pos rfl]
      cases made <;> simp [entryOf]
    · have hQuery' : (query == key) = false := by
        simpa using hQuery
      rw [if_neg hQuery]
      cases made <;> simp [entryOf, List.lookup_cons, hQuery']

/- The block of a value that was read: its type, the leaf that
   the type selects, and nothing else. -/
theorem exists_lookup_flatten
    (hRead : expand place entries = .ok value) :
    ∃ (type : String) (leaf : Leaf) (held : leaf.Val),
      expandType place entries = .ok type ∧
        (type ++ "_val", leaf) ∈ leaves ∧
        leaf.expand (place.entry (type ++ "_val"))
            (entries.present? (type ++ "_val")) =
          .ok held ∧
        ∀ query,
          value.flatten.lookup query =
            if query = "type" then some (.str type)
            else if query = type ++ "_val" then
              leaf.flatten held
            else none := by
  rcases Result.bind_eq_ok_iff.1 hRead with
    ⟨type, hType, hValue⟩
  have hMember := mem_of_expandType hType
  simp only [paramTypes, Choices.all, List.mem_cons,
    List.not_mem_nil, or_false] at hMember
  rcases hMember with rfl | rfl | rfl
  · rcases Result.bind_eq_ok_iff.1 hValue with
      ⟨text, hText, hMade⟩
    cases hMade
    exact ⟨"string", .text, text, hType, by simp [leaves],
      hText, lookup_cons_entryOf (by decide) _⟩
  · rcases Result.bind_eq_ok_iff.1 hValue with
      ⟨items, hItems, hMade⟩
    cases hMade
    exact ⟨"array", .texts, items, hType, by simp [leaves],
      hItems, lookup_cons_entryOf (by decide) _⟩
  · rcases Result.bind_eq_ok_iff.1 hValue with
      ⟨map, hMap, hMade⟩
    cases hMade
    exact ⟨"object", .textMap, map, hType, by simp [leaves],
      hMap, lookup_cons_entryOf (by decide) _⟩

end ParamValue

/- A value that was read, whatever the need for it, is written
   as its block. -/
theorem Need.exists_content
    {need : Need}
    {place : FieldPath}
    {entries : ConfigMap}
    {held : need.Val}
    (hRead :
      need.expand place (some (.map entries)) = .ok held) :
    ∃ content,
      ParamValue.expand place entries = .ok content ∧
        need.flatten held = some (.map content.flatten) := by
  cases need with
  | optional =>
      rcases Result.map_eq_ok_iff.1 hRead with
        ⟨content, hContent, rfl⟩
      exact ⟨content, hContent, rfl⟩
  | required => exact ⟨held, hRead, rfl⟩
  | assumed => exact ⟨held, hRead, rfl⟩

namespace Shape

/- An entry that was checked and read, unless it is null. -/
theorem Rewrites.entry
    {shape : Shape}
    {place : FieldPath}
    {entries : ConfigMap}
    {key : String}
    {tree : Tree}
    {held : shape.Val}
    (hWell : shape.isWellFormed = true)
    (hKeys : (Tree.map entries).HasDistinctKeys)
    (hFound : entries.lookup key = some tree)
    (hCheck :
      ∀ tree, entries.present? key = some tree →
        shape.check (place.entry key) tree = .ok ())
    (hRead :
      shape.expand (place.entry key) (entries.present? key) =
        .ok held) :
    shape.Rewrites (place.entry key) tree (shape.flatten held)
      false := by
  cases hNull : tree.isNull with
  | true =>
      cases tree with
      | null => exact .unset (Or.inl rfl)
      | _ => cases hNull
  | false =>
      have hPresent : entries.present? key = some tree :=
        ConfigMap.present?_eq_some_iff.2 ⟨hFound, hNull⟩
      rw [hPresent] at hRead
      exact .field hWell
        (Tree.hasDistinctKeys_of_mem_entries hKeys.2
          (Keyed.mem_of_lookup hFound))
        (hCheck tree hPresent) hRead

/- The type of a value is written again, unless it is left to
   what is populated. -/
theorem rewrites_type
    {place : FieldPath}
    {entries : ConfigMap}
    {type : String}
    {tree : Tree}
    (hCheck : ParamValue.check place entries = .ok ())
    (hType : ParamValue.expandType place entries = .ok type)
    (hFound : entries.lookup "type" = some tree) :
    (Shape.leaf (.choice paramTypes)).Rewrites
      (place.entry "type") tree (some (.str type)) false := by
  have hShapes := (ParamValue.check_eq_ok_iff.1 hCheck).2
  -- An empty type reads as none, yet one is written.
  by_cases hUnset : tree = .null ∨ tree = .str ""
  · exact .unset hUnset
  · have hNull : tree.isNull = false := by
      cases tree with
      | null => exact absurd (Or.inl rfl) hUnset
      | _ => rfl
    have hPresent :=
      ConfigMap.present?_eq_some_iff.2 ⟨hFound, hNull⟩
    have hShape := hShapes ("type", .choice paramTypes)
      (by simp [ParamValue.leaves]) tree hPresent
    rcases hShape with ⟨content, rfl, hContent⟩
    have hFilled : content ≠ "" := fun hEmpty =>
      hUnset (Or.inr (by rw [hEmpty]))
    have hMember := hContent.resolve_left hFilled
    have hSame : content = type :=
      ParamValue.expandType_unique hType
        (ParamValue.expandType_of_mem place hPresent hFilled
          hMember)
    subst hSame
    have hLeafShape :
        (Leaf.choice paramTypes).HasShape (.str content) :=
      ⟨content, rfl, hContent⟩
    have hPassed :
        (Shape.leaf (.choice paramTypes)).check
            (place.entry "type") (.str content) =
          .ok () :=
      Leaf.check_eq_ok_iff.2 hLeafShape
    have hDistinct : (Tree.str content).HasDistinctKeys :=
      trivial
    have hStated :
        (Shape.leaf (.choice paramTypes)).expand
            (place.entry "type") (some (.str content)) =
          .ok (some ⟨content, hMember⟩ :
            Option (Choice paramTypes)) :=
      Leaf.expand?_of_mem hFilled hMember _
    exact .field (by decide) hDistinct hPassed hStated

/- The leaves of a parameter value are written again where
   its type selects them, and skipped elsewhere. -/
theorem step_value
    {need : Need}
    {place : FieldPath}
    {entries : ConfigMap}
    {value : ParamValue}
    {key : String}
    {tree : Tree}
    (hKeys : (Tree.map entries).HasDistinctKeys)
    (hCheck : ParamValue.check place entries = .ok ())
    (hRead : ParamValue.expand place entries = .ok value)
    (hFound : entries.lookup key = some tree) :
    ((Shape.value need).Skips (.map entries) key ∧
        value.flatten.lookup key = none) ∨
      (¬(Shape.value need).Skips (.map entries) key ∧
        ∃ inner,
          (Shape.value need).child? key = some inner ∧
            inner.Rewrites (place.entry key) tree
              (value.flatten.lookup key) false) := by
  rcases ParamValue.exists_lookup_flatten hRead with
    ⟨type, leaf, held, hType, hLeaf, hHeld, hLookup⟩
  have hShapes := (ParamValue.check_eq_ok_iff.1 hCheck).2
  have hNotSkipped :
      key = "type" ∨ key = type ++ "_val" →
        ¬(Shape.value need).Skips (.map entries) key := by
    rintro hKey ⟨_, _, _, other, _, hEntries, hOther, hNe⟩
    cases hEntries
    have hSame :=
      ParamValue.expandType_unique hType hOther
    subst hSame
    exact hKey.elim hNe.1 hNe.2
  rw [hLookup]
  by_cases hIsType : key = "type"
  · refine Or.inr ⟨hNotSkipped (Or.inl hIsType), ?_⟩
    subst hIsType
    rw [if_pos rfl]
    exact ⟨.leaf (.choice paramTypes), rfl,
      rewrites_type hCheck hType hFound⟩
  · rw [if_neg hIsType]
    by_cases hSelected : key = type ++ "_val"
    · refine Or.inr ⟨hNotSkipped (Or.inr hSelected), ?_⟩
      subst hSelected
      rw [if_pos rfl]
      refine
        ⟨.leaf leaf, ParamValue.child?_of_mem hLeaf, ?_⟩
      exact Rewrites.entry
        (ParamValue.isWellFormed_of_mem hLeaf) hKeys hFound
        (fun other hOther =>
          Leaf.check_eq_ok_iff.2
            (hShapes _ hLeaf other hOther))
        hHeld
    · rw [if_neg hSelected]
      exact Or.inl
        ⟨⟨need, entries, place, type, rfl, rfl, hType,
          hIsType, hSelected⟩, rfl⟩

end Shape

------------------------------------------------------------
-- Blocks
------------------------------------------------------------

namespace Fields

/- A field of a map that was checked and read. -/
theorem field_of_expand :
    ∀ (fields : Fields) (record : fields.Rec)
        (place : FieldPath) (entries : ConfigMap),
      fields.isWellFormed = true →
        fields.checkAll place entries = .ok () →
          fields.expand place entries = .ok record →
            ∀ key inner, fields.shape? key = some inner →
              inner.isWellFormed = true ∧
                inner.checkFound (place.entry key)
                      (entries.present? key) =
                    .ok () ∧
                ∃ held : inner.Val,
                  inner.expand (place.entry key)
                        (entries.present? key) =
                      .ok held ∧
                    (fields.flatten record).lookup key =
                      inner.flatten held
  | .nil, _, _, _, _, _, _, _, _, hShape => by
      simp [shape?] at hShape
  | .field name _ shape rest, (first, others), place, entries,
      hWell, hCheck, hRead, key, inner, hShape => by
      have hParts := isWellFormed_field_iff.1 hWell
      have hBoth := checkAll_field_eq_ok_iff.1 hCheck
      rcases Result.bind_eq_ok_iff.1 hRead with
        ⟨held, hHeld, hLater⟩
      rcases Result.bind_eq_ok_iff.1 hLater with
        ⟨remaining, hRest, hMade⟩
      cases hMade
      simp only [flatten]
      by_cases hName : key = name
      · subst hName
        rw [shape?, if_pos rfl] at hShape
        cases hShape
        refine ⟨hParts.2.2.1, hBoth.1, first, hHeld, ?_⟩
        cases shape.flatten first with
        | some tree => exact List.lookup_cons_self
        | none => exact lookup_flatten_eq_none hParts.1 others
      · rw [shape?, if_neg hName] at hShape
        rcases rest.field_of_expand others place entries
            hParts.2.2.2 hBoth.2 hRest key inner hShape with
          ⟨hInner, hFound, found, hFoundRead, hLookup⟩
        refine ⟨hInner, hFound, found, hFoundRead, ?_⟩
        have hName' : (key == name) = false := by
          simpa using hName
        cases shape.flatten first with
        | some tree =>
            simp only [List.lookup_cons, hName']
            exact hLookup
        | none => exact hLookup
  | .wireOnly _ _ rest, (_, others), place, entries, hWell,
      hCheck, hRead, key, inner, hShape => by
      have hParts := isWellFormed_wireOnly_iff.1 hWell
      rcases Result.bind_eq_ok_iff.1 hRead with
        ⟨remaining, hRest, hMade⟩
      cases hMade
      simp only [flatten]
      exact rest.field_of_expand others place entries
        hParts.2.2 hCheck hRest key inner hShape

/- An entry of a map that was checked and read is written
   again as its field. -/
theorem rewrites_entry
    {fields : Fields}
    {record : fields.Rec}
    {place : FieldPath}
    {entries : ConfigMap}
    {key : String}
    {tree : Tree}
    (hWell : fields.isWellFormed = true)
    (hKeys : (Tree.map entries).HasDistinctKeys)
    (hCheck : fields.check place entries = .ok ())
    (hRead : fields.expand place entries = .ok record)
    (hFound : entries.lookup key = some tree) :
    ∃ inner, fields.shape? key = some inner ∧
      inner.Rewrites (place.entry key) tree
        ((fields.flatten record).lookup key) false := by
  rcases guarded_eq_ok_iff.1 hCheck with
    ⟨hDeclares, hFields⟩
  have hKey : key ∈ fields.keys :=
    hDeclares _ (Keyed.mem_of_lookup hFound)
  rcases exists_shape? hKey with ⟨inner, hShape⟩
  rcases fields.field_of_expand record place entries hWell
      hFields hRead key inner hShape with
    ⟨hInner, hPassed, held, hHeld, hLookup⟩
  refine ⟨inner, hShape, ?_⟩
  rw [hLookup]
  refine Shape.Rewrites.entry hInner hKeys hFound ?_ hHeld
  intro other hOther
  rw [hOther] at hPassed
  exact hPassed

end Fields

------------------------------------------------------------
-- One Segment
------------------------------------------------------------

namespace Shape

/- Nothing is skipped outside of parameter values. -/
theorem not_skips
    {shape : Shape}
    {tree : Tree}
    {key : String}
    (hOther : ∀ need, shape ≠ .value need) :
    ¬shape.Skips tree key := by
  rintro ⟨need, _, _, _, hShape, _⟩
  exact hOther need hShape

/- What is inside of a part is what its record has there. -/
theorem bind_flattenPart
    (segment : String)
    (entries : ConfigMap) :
    (flattenPart entries).bind (Tree.child? segment) =
      entries.lookup segment := by
  cases entries with
  | nil => rfl
  | cons entry rest => rfl

/- The blocks of a list are written again in their order. -/
theorem step_blocks
    {fields : Fields}
    {place : FieldPath}
    {tree value : Tree}
    {held : List fields.Rec}
    {segment : String}
    (hWell : fields.isWellFormed = true)
    (hKeys : tree.HasDistinctKeys)
    (hCheck : (Shape.blocks fields).check place tree = .ok ())
    (hRead :
      (Shape.blocks fields).expand place (some tree) =
        .ok held)
    (hValue : tree.child? segment = some value) :
    ∃ inside,
      (Shape.block fields).Rewrites inside value
        (((Shape.blocks fields).flatten held).bind
          (Tree.child? segment))
        true := by
  have hDistinct := Tree.hasDistinctKeys_of_child? hKeys hValue
  rcases Reading.checkItems_eq_ok_iff.1 hCheck with
    ⟨items, rfl, hItems⟩
  rcases Option.bind_eq_some_iff.1 hValue with
    ⟨position, hPosition, hItem⟩
  have hPassed :=
    Reading.checkEachItem_eq_ok_iff.1 hItems position value
      hItem
  rcases Reading.block_eq_ok_iff.1 hPassed with
    ⟨entries, rfl, hEntries⟩
  have hRecords := Reading.eachItem_eq_ok_iff.1 hRead position
  rw [hItem] at hRecords
  cases hRecord : held[position]? with
  | none =>
      rw [hRecord] at hRecords
      cases hRecords
  | some record =>
      rw [hRecord] at hRecords
      cases hRecords with
      | some hBlock =>
          have hSome : held.isEmpty = false :=
            List.isEmpty_eq_false_iff_exists_mem.2
              ⟨record, List.mem_of_getElem? hRecord⟩
          have hMade :
              ((Shape.blocks fields).flatten held).bind
                  (Tree.child? segment) =
                some (.map (fields.flatten record)) := by
            simp only [flatten, hSome, Bool.false_eq_true,
              if_false, Option.bind_some, Tree.child?,
              hPosition, List.getElem?_map, hRecord,
              Option.map_some]
          rw [hMade]
          exact ⟨_, .block hWell hDistinct hEntries hBlock⟩

/- The blocks of a map are written again under their keys. -/
theorem step_blockMap
    {fields : Fields}
    {place : FieldPath}
    {tree value : Tree}
    {held : SortedMap fields.Rec}
    {segment : String}
    (hWell : fields.isWellFormed = true)
    (hKeys : tree.HasDistinctKeys)
    (hCheck :
      (Shape.blockMap fields).check place tree = .ok ())
    (hRead :
      (Shape.blockMap fields).expand place (some tree) =
        .ok held)
    (hValue : tree.child? segment = some value) :
    ∃ inside,
      (Shape.block fields).Rewrites inside value
        (((Shape.blockMap fields).flatten held).bind
          (Tree.child? segment))
        true := by
  have hDistinct := Tree.hasDistinctKeys_of_child? hKeys hValue
  rcases Reading.checkEntries_eq_ok_iff.1 hCheck with
    ⟨members, rfl, hMembers⟩
  have hPassed :=
    Reading.checkEachEntry_eq_ok_iff.1 hMembers _
      (Keyed.mem_of_lookup hValue)
  rcases Reading.block_eq_ok_iff.1 hPassed with
    ⟨entries, hEntriesEq, hEntries⟩
  cases hEntriesEq
  have hRecords :=
    (Reading.entries_eq_ok_iff hKeys.1).1 hRead segment
  rw [show members.lookup segment = _ from hValue] at hRecords
  cases hRecord : held.find? segment with
  | none =>
      rw [hRecord] at hRecords
      cases hRecords
  | some record =>
      rw [hRecord] at hRecords
      cases hRecords with
      | some hBlock =>
          have hSome : held.isEmpty = false :=
            List.isEmpty_eq_false_iff_exists_mem.2
              ⟨_, Keyed.mem_of_lookup hRecord⟩
          have hMade :
              ((Shape.blockMap fields).flatten held).bind
                  (Tree.child? segment) =
                some (.map (fields.flatten record)) := by
            simp only [flatten, hSome, Bool.false_eq_true,
              if_false, Option.bind_some, Tree.child?,
              Keyed.lookup_mapValues]
            rw [show held.entries.lookup segment = _ from
              hRecord]
            rfl
          rw [hMade]
          exact ⟨_, .block hWell hDistinct hEntries hBlock⟩

/- What is inside of a tree is skipped, or was written for the
   tree at the same place. -/
theorem Rewrites.step
    {shape : Shape}
    {place : FieldPath}
    {tree value : Tree}
    {made : Option Tree}
    {element : Bool}
    {segment : String}
    (hRewrites : shape.Rewrites place tree made element)
    (hValue : tree.child? segment = some value) :
    (shape.Skips tree segment ∧
        made.bind (Tree.child? segment) = none) ∨
      (¬shape.Skips tree segment ∧
        ∃ inner inside,
          shape.child? segment = some inner ∧
            inner.Rewrites inside value
              (made.bind (Tree.child? segment))
              shape.isCollection) := by
  cases hRewrites with
  | unset hUnset =>
      rcases hUnset with rfl | rfl <;> cases hValue
  | element => cases hValue
  | block hWell hKeys hCheck hRead =>
      refine Or.inr ⟨not_skips (by simp), ?_⟩
      rcases Fields.rewrites_entry hWell hKeys hCheck hRead
        hValue with ⟨inner, hShape, hInner⟩
      exact ⟨inner, _, hShape, hInner⟩
  | @field _ _ _ held hWell hKeys hCheck hRead =>
      cases shape with
      | leaf type =>
          refine Or.inr ⟨not_skips (by simp), ?_⟩
          rcases Leaf.child?_flatten hKeys hRead hValue with
            ⟨hCollection, ⟨content, rfl⟩, hMade⟩
          refine ⟨.leaf .text, place.entry segment, ?_, ?_⟩
          · rw [child?, hCollection]
            rfl
          · change Rewrites _ _ _
              ((type.flatten held).bind (Tree.child? segment))
              type.isCollection
            rw [hMade, hCollection]
            exact .element
      | value need =>
          rcases Reading.block_eq_ok_iff.1 hCheck with
            ⟨entries, rfl, hEntries⟩
          rcases Need.exists_content hRead with
            ⟨content, hContent, hMade⟩
          have hMade' :
              ((Shape.value need).flatten held).bind
                  (Tree.child? segment) =
                content.flatten.lookup segment := by
            change (need.flatten held).bind _ = _
            rw [hMade]
            rfl
          rw [hMade']
          refine (step_value hKeys hEntries hContent
            hValue).imp_right ?_
          rintro ⟨hNot, inner, hShape, hInner⟩
          exact ⟨hNot, inner, _, hShape, hInner⟩
      | block fields =>
          refine Or.inr ⟨not_skips (by simp), ?_⟩
          rcases Reading.block_eq_ok_iff.1 hCheck with
            ⟨entries, rfl, hEntries⟩
          rcases Result.map_eq_ok_iff.1 hRead with
            ⟨record, hRecord, rfl⟩
          rcases Fields.rewrites_entry hWell hKeys hEntries
            hRecord hValue with ⟨inner, hShape, hInner⟩
          exact ⟨inner, _, hShape, hInner⟩
      | part fields =>
          refine Or.inr ⟨not_skips (by simp), ?_⟩
          rcases Reading.block_eq_ok_iff.1 hCheck with
            ⟨entries, rfl, hEntries⟩
          have hFields := (isWellFormed_part_iff.1 hWell).1
          rcases Fields.rewrites_entry hFields hKeys hEntries
            hRead hValue with ⟨inner, hShape, hInner⟩
          refine ⟨inner, place.entry segment, hShape, ?_⟩
          simp only [flatten, bind_flattenPart]
          exact hInner
      | observed fields =>
          refine Or.inr ⟨not_skips (by simp), ?_⟩
          rcases Reading.block_eq_ok_iff.1 hCheck with
            ⟨entries, rfl, hEntries⟩
          have hFields := (isWellFormed_observed_iff.1 hWell).1
          rcases Result.map_eq_ok_iff.1 hRead with
            ⟨record, hRecord, rfl⟩
          rcases Fields.rewrites_entry hFields hKeys hEntries
            hRecord hValue with ⟨inner, hShape, hInner⟩
          refine ⟨inner, place.entry segment, hShape, ?_⟩
          simp only [flatten, Option.bind_some,
            bind_flattenPart]
          exact hInner
      | blocks fields =>
          rcases step_blocks hWell hKeys hCheck hRead hValue
            with ⟨inside, hInner⟩
          exact Or.inr ⟨not_skips (by simp), .block fields,
            inside, rfl, hInner⟩
      | blockMap fields =>
          rcases step_blockMap hWell hKeys hCheck hRead hValue
            with ⟨inside, hInner⟩
          exact Or.inr ⟨not_skips (by simp), .block fields,
            inside, rfl, hInner⟩

------------------------------------------------------------
-- Whole Paths
------------------------------------------------------------

/- A tree that is set, or an element, is restated. -/
theorem Rewrites.restates
    {shape : Shape}
    {place : FieldPath}
    {tree : Tree}
    {made : Option Tree}
    {element : Bool}
    (hRewrites : shape.Rewrites place tree made element)
    (hSet : tree.isSet = true ∨ element = true) :
    ∃ other, made = some other ∧
      shape.Restates tree other := by
  cases hRewrites with
  | unset hUnset =>
      rcases hUnset with rfl | rfl <;> simp [Tree.isSet] at hSet
  | element => exact ⟨_, rfl, rfl⟩
  | block => exact ⟨_, rfl, _, rfl⟩
  | field hWell hKeys hCheck hRead =>
      have hSet := hSet.resolve_right (by simp)
      cases shape with
      | leaf type => exact Leaf.restates_of_isSet hRead hSet
      | blocks fields =>
          rcases Reading.checkItems_eq_ok_iff.1 hCheck with
            ⟨items, rfl, _⟩
          cases hSet
      | blockMap fields =>
          rcases Reading.checkEntries_eq_ok_iff.1 hCheck with
            ⟨entries, rfl, _⟩
          cases hSet
      | value | block | part | observed =>
          rcases Reading.block_eq_ok_iff.1 hCheck with
            ⟨entries, rfl, _⟩
          cases hSet

/- A value that is set, or an element, is kept exactly when it
   is not held in vain. -/
theorem Rewrites.kept_iff
    {path : List String}
    {shape : Shape}
    {place : FieldPath}
    {tree value : Tree}
    {made : Option Tree}
    {element : Bool}
    (hRewrites : shape.Rewrites place tree made element)
    (hValue : tree.at? path = some value)
    (hSet :
      value.isSet = true ∨ path = [] ∧ element = true ∨
        shape.IsElement path) :
    (∃ whole, made = some whole ∧
        shape.Keeps tree whole path) ↔
      ¬shape.InVain tree path := by
  induction path generalizing shape place tree made element with
  | nil =>
      cases hValue
      have hSet : value.isSet = true ∨ element = true := by
        rcases hSet with hSet | ⟨_, hElement⟩ | hElement
        · exact Or.inl hSet
        · exact Or.inr hElement
        · exact absurd hElement not_isElement_nil
      refine iff_of_true ?_ not_inVain_nil
      rcases hRewrites.restates hSet with
        ⟨other, hMade, hSame⟩
      exact ⟨other, hMade, shape, value, other, rfl, rfl, rfl,
        hSame⟩
  | cons segment rest ih =>
      rcases Option.bind_eq_some_iff.1 hValue with
        ⟨child, hChild, hRest⟩
      rcases hRewrites.step hChild with
        ⟨hSkips, hNone⟩ |
          ⟨hNot, inner, inside, hShape, hInner⟩
      · refine iff_of_false ?_ fun hNot =>
          hNot (inVain_cons_iff.2 (Or.inl hSkips))
        rintro ⟨whole, rfl, _, _, other, _, _, hOther, _⟩
        rcases Option.bind_eq_some_iff.1 hOther with
          ⟨found, hFound, _⟩
        rw [Option.bind_some, hFound] at hNone
        cases hNone
      · have hLater := ih hInner hRest (by
          rcases hSet with hSet | ⟨hPath, _⟩ | hElement
          · exact Or.inl hSet
          · cases hPath
          · exact Or.inr (isElement_of_cons hElement hShape))
        rw [inVain_cons_iff_of_not_skips hNot hShape hChild,
          ← hLater]
        simp only [keeps_cons_iff hShape hChild,
          Option.bind_eq_some_iff]
        constructor
        · rintro ⟨whole, rfl, other, hOther, hKeeps⟩
          exact ⟨other, ⟨whole, rfl, hOther⟩, hKeeps⟩
        · rintro ⟨other, ⟨whole, rfl, hOther⟩, hKeeps⟩
          exact ⟨whole, rfl, other, hOther, hKeeps⟩

end Shape

------------------------------------------------------------
-- Objects
------------------------------------------------------------

namespace Object

/- A configuration that passed its check and was read is
   written again with every value that was set, and with every
   element of a list or a free map, at the same place, save for
   those in the block of a parameter value that its type does
   not select. -/
theorem keeps_iff
    {kind : Kind}
    {config : ConfigMap}
    {object : Object kind}
    (hKeys : (Tree.map config).HasDistinctKeys)
    (hValid : Object.validate kind config = .ok ())
    (hRead : Object.expand kind config = .ok object)
    {path : List String}
    {value : Tree}
    (hValue : (Tree.map config).at? path = some value)
    (hSet :
      value.isSet = true ∨
        (Shape.block kind.fields).IsElement path) :
    (Shape.block kind.fields).Keeps (.map config)
        (.map object.flatten) path ↔
      ¬(Shape.block kind.fields).InVain (.map config)
        path := by
  rw [Object.validate_eq] at hValid
  rcases Result.map_eq_ok_iff.1 hRead with
    ⟨content, hContent, rfl⟩
  have hRewrites :
      (Shape.block kind.fields).Rewrites .root (.map config)
        (some (.map (kind.fields.flatten content))) true :=
    .block kind.isWellFormed_fields hKeys hValid hContent
  have hKept := hRewrites.kept_iff hValue
    (hSet.imp_right Or.inr)
  rw [← hKept]
  constructor
  · exact fun hKeeps => ⟨_, rfl, hKeeps⟩
  · rintro ⟨whole, hWhole, hKeeps⟩
    cases hWhole
    exact hKeeps

/- A parameter whose default has no type, an array without
   items and an object that is populated. -/
def populatedConfig : ConfigMap :=
  [("spec", .map
    [("params",
      .list [.map [("name", .str "flags"),
        ("default", .map
          [("array_val", .list []),
            ("object_val",
              .map [("arch", .str "amd64")])])]])])]

theorem keeps_iff_populated :
    ∃ object,
      Object.validate .task populatedConfig = .ok () ∧
        Object.expand .task populatedConfig = .ok object ∧
        ¬(Shape.block Kind.task.fields).Keeps
          (.map populatedConfig) (.map object.flatten)
          ["spec", "params", "0", "default", "object_val",
            "arch"] := by
  have hKeys : (Tree.map populatedConfig).HasDistinctKeys := by
    simp [Tree.HasDistinctKeys, Tree.ItemsHaveDistinctKeys,
      Tree.EntriesHaveDistinctKeys, populatedConfig]
  have hValid :
      Object.validate .task populatedConfig = .ok () :=
    rfl
  have hSome :
      (Object.expand .task
        populatedConfig).toOption.isSome = true := by
    decide +kernel
  rcases Option.isSome_iff_exists.1 hSome with
    ⟨object, hObject⟩
  have hRead := Result.eq_ok_of_toOption hObject
  have hVain :
      (Shape.block Kind.task.fields).InVain
        (.map populatedConfig)
        ["spec", "params", "0", "default", "object_val",
          "arch"] :=
    ⟨["spec", "params", "0", "default"], "object_val",
      ["arch"], _, _, rfl, rfl, rfl, .optional, _, .root,
      "array", rfl, rfl, rfl, by decide, by decide⟩
  refine ⟨object, hValid, hRead, fun hKeeps => ?_⟩
  exact (keeps_iff hKeys hValid hRead rfl (Or.inl rfl)).1
    hKeeps hVain

end Object

end Converge
