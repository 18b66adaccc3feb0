import Converge.Proofs.Schema.Check
import Converge.Proofs.Schema.Declared
import Converge.Proofs.Schema.Outcome
import Converge.Proofs.Time.Timestamp

/-
  Leaves and parameter values survive their tree form.

  A leaf is read back from its tree, unless it is a required
  string that is empty; then it has no tree, and is missed.
  The tree of a leaf has the shape that is asked of it.

  Main declarations:
    * `Leaf.expand_flatten`, `Leaf.check_of_flatten_eq_some`
    * `ParamValue.expand_flatten`, `ParamValue.check_flatten`
-/

namespace Converge

------------------------------------------------------------
-- Leaves
------------------------------------------------------------

namespace Leaf

/- A string survives its tree form. -/
@[simp] theorem text_flattenText
    (path : FieldPath)
    (content : String) :
    Reading.text path (flattenText content) =
      .ok content := by
  by_cases h : content = ""
  · simp [flattenText, h, Reading.text]
  · simp [flattenText, h, Reading.text]

theorem parse?_val
    {choices : Choices}
    (choice : Choice choices) :
    Choice.parse? choices choice.val = some choice := by
  simp only [Choice.parse?, choice.property, dif_pos]
  rfl

theorem val_ne_empty
    {choices : Choices}
    (hWell : "" ∉ choices.all)
    (choice : Choice choices) :
    choice.val ≠ "" := by
  intro hEmpty
  exact hWell (hEmpty ▸ choice.property)

/- A member of a closed set survives its tree form. -/
theorem expand?_val
    {choices : Choices}
    (hWell : "" ∉ choices.all)
    (path : FieldPath)
    (choice : Choice choices) :
    Choice.expand? choices path (some (.str choice.val)) =
      .ok (some choice) := by
  simp [Choice.expand?, val_ne_empty hWell choice,
    parse?_val]

theorem outcome_element
    (path : FieldPath)
    (content : String) :
    Outcome True (id content)
      (Reading.element path (.str content)) :=
  .of_ok rfl

/- Strings of a list survive their tree form. -/
theorem eachItem_element
    (path : FieldPath)
    (contents : List String) :
    Reading.eachItem Reading.element path 0
        (contents.map .str) =
      .ok contents := by
  have h := Outcome.eachItem outcome_element path 0 contents
  rw [h.ok fun _ _ => trivial, List.map_id]

/- Strings of a map survive their tree form. -/
theorem eachEntry_element
    (path : FieldPath)
    (contents : List (String × String)) :
    Reading.eachEntry Reading.element path
        (Keyed.mapValues .str contents) =
      .ok contents := by
  have h := Outcome.eachEntry outcome_element path contents
  rw [h.ok fun _ _ => trivial, Keyed.mapValues_id]

theorem ofList_entries
    {α : Type}
    (map : SortedMap α) :
    SortedMap.ofList map.entries = map :=
  SortedMap.ext map.sorted.sort_eq

theorem eq_empty_of_isEmpty
    {α : Type}
    {map : SortedMap α}
    (h : map.isEmpty = true) :
    map = SortedMap.empty :=
  SortedMap.ext (List.isEmpty_iff.1 h)

/- A required string is read unless it is empty. -/
theorem expand_requiredText
    (path : FieldPath)
    (content : String) :
    expand path .requiredText (flattenText content) =
      if content = "" then .error (.missingField path)
      else .ok content := by
  simp only [expand, text_flattenText]
  rfl

theorem expand_flatten_integer
    (path : FieldPath)
    (value : Int64) :
    expand path .integer (flatten .integer value) =
      .ok value := by
  by_cases h : value = 0
  · simp only [flatten, h, if_true]
    rfl
  · simp only [flatten, h, if_false]
    rfl

theorem expand_timestamp
    (path : FieldPath)
    (content : String) :
    expand path .timestamp (some (.str content)) =
      if content = "" then .ok none
      else
        match Timestamp.read? content with
        | some time => .ok (some time)
        | none =>
            .error (.typeMismatch path "RFC 3339 timestamp") :=
  rfl

theorem expand_flatten_timestamp
    (path : FieldPath)
    (time : Option Timestamp) :
    expand path .timestamp (flatten .timestamp time) =
      .ok time := by
  cases time with
  | none => rfl
  | some time =>
      simp only [flatten, Option.map_some, expand_timestamp,
        time.text_ne_empty, if_false, Timestamp.read?_text]

theorem expand_flatten_textMap
    (path : FieldPath)
    (map : SortedMap String) :
    expand path .textMap (flatten .textMap map) =
      .ok map := by
  by_cases h : map.isEmpty
  · rw [eq_empty_of_isEmpty h]
    rfl
  · simp only [expand, flatten, h, Bool.false_eq_true,
      if_false, Reading.entries, eachEntry_element, Except.map,
      ofList_entries]
    rfl

/- A leaf is read back from its tree, unless it is a required
   string that is empty. -/
theorem expand_flatten
    (path : FieldPath) :
    ∀ (leaf : Leaf) (value : leaf.Val),
      leaf.isWellFormed = true →
        Outcome (leaf.Filled value) value
          (leaf.expand path (leaf.flatten value))
  | .text, (content : String), _ =>
      .of_ok (text_flattenText path content)
  | .requiredText, (content : String), _ => by
      have hRead := expand_requiredText path content
      by_cases h : content = ""
      · rw [if_pos h] at hRead
        exact .of_error hRead fun hFilled => hFilled h
      · rw [if_neg h] at hRead
        exact (Outcome.of_ok hRead).congr
          (iff_of_true trivial h)
  | .flag, (value : Bool), _ => by
      apply Outcome.of_ok
      cases value <;> rfl
  | .integer, value, _ =>
      .of_ok (expand_flatten_integer path value)
  | .timestamp, time, _ =>
      .of_ok (expand_flatten_timestamp path time)
  | .choice choices, (selected : Option (Choice choices)),
      hWell => by
      apply Outcome.of_ok
      cases selected with
      | none => rfl
      | some member =>
          exact expand?_val
            (by simpa [isWellFormed] using hWell) path member
  | .requiredChoice choices, (member : Choice choices),
      hWell => by
      have hRead := expand?_val
        (by simpa [isWellFormed] using hWell) path member
      apply Outcome.of_ok
      simp only [expand, flatten, hRead]
      rfl
  | .texts, (contents : List String), _ => by
      apply Outcome.of_ok
      cases contents with
      | nil => rfl
      | cons content rest =>
          exact eachItem_element path (content :: rest)
  | .textMap, map, _ =>
      .of_ok (expand_flatten_textMap path map)

/- The tree of a leaf has the shape that is asked of it. -/
theorem check_of_flatten_eq_some
    (path : FieldPath) :
    ∀ (leaf : Leaf) (value : leaf.Val) {tree : Tree},
      leaf.flatten value = some tree →
        leaf.check path tree = .ok ()
  | .text, (content : String), _, h => by
      simp only [flatten, flattenText] at h
      split at h <;> cases h
      rfl
  | .requiredText, (content : String), _, h => by
      simp only [flatten, flattenText] at h
      split at h <;> cases h
      rfl
  | .flag, (value : Bool), _, h => by
      cases value <;> cases h
      rfl
  | .integer, (value : Int64), _, h => by
      simp only [flatten] at h
      split at h <;> cases h
      rfl
  | .timestamp, (time : Option Timestamp), _, h => by
      cases time <;> cases h
      rfl
  | .choice choices, (selected : Option (Choice choices)),
      _, h => by
      cases selected <;> cases h
      rename_i member
      simp [check, Reading.checkChoice, member.property]
  | .requiredChoice choices, (member : Choice choices),
      _, h => by
      cases h
      simp [check, Reading.checkChoice, member.property]
  | .texts, (contents : List String), _, h => by
      simp only [flatten] at h
      split at h <;> cases h
      exact (Outcome.checkEachItem (fun _ _ => .of_ok rfl)
        path 0 contents).ok fun _ _ => trivial
  | .textMap, (map : SortedMap String), _, h => by
      simp only [flatten] at h
      split at h <;> cases h
      exact (Outcome.checkEachEntry (fun _ _ => .of_ok rfl)
        path map.entries).ok fun _ _ => trivial

/- Only zero values have no tree. -/
theorem eq_zero_of_flatten_eq_none :
    ∀ (leaf : Leaf) (value : leaf.Val),
      leaf.flatten value = none → value = leaf.zero
  | .text, (content : String), h => by
      simp only [flatten, flattenText] at h
      split at h
      · assumption
      · cases h
  | .requiredText, (content : String), h => by
      simp only [flatten, flattenText] at h
      split at h
      · assumption
      · cases h
  | .flag, (value : Bool), h => by
      cases value
      · rfl
      · cases h
  | .integer, (value : Int64), h => by
      simp only [flatten] at h
      split at h
      · assumption
      · cases h
  | .timestamp, (time : Option Timestamp), h =>
      Option.map_eq_none_iff.1 h
  | .choice choices, (selected : Option (Choice choices)), h =>
      Option.map_eq_none_iff.1 h
  | .requiredChoice _, _, h => by cases h
  | .texts, (contents : List String), h => by
      simp only [flatten] at h
      split at h
      · exact List.isEmpty_iff.1 (by assumption)
      · cases h
  | .textMap, (map : SortedMap String), h => by
      simp only [flatten] at h
      split at h
      · exact eq_empty_of_isEmpty (by assumption)
      · cases h

theorem isNull_of_flatten_eq_some :
    ∀ (leaf : Leaf) (value : leaf.Val) {tree : Tree},
      leaf.flatten value = some tree → tree.isNull = false
  | leaf, value, tree, h => by
      have hCheck :=
        check_of_flatten_eq_some .root leaf value h
      -- No leaf accepts null.
      cases tree with
      | null => cases leaf <;> cases hCheck
      | _ => rfl

/- A leaf with a tree misses nothing. -/
theorem filled_of_flatten_eq_some
    {leaf : Leaf}
    {value : leaf.Val}
    {tree : Tree}
    (h : leaf.flatten value = some tree) :
    leaf.Filled value := by
  cases leaf with
  | requiredText =>
      intro hEmpty
      simp [flatten, flattenText, hEmpty] at h
  | _ => trivial

/- A required leaf without a tree is an empty string. -/
theorem not_filled_of_flatten_eq_none
    {leaf : Leaf}
    (hRequired : leaf.required = true)
    {value : leaf.Val}
    (hNone : leaf.flatten value = none) :
    ¬leaf.Filled value := by
  have hZero := leaf.eq_zero_of_flatten_eq_none value hNone
  subst hZero
  cases leaf <;> cases hRequired
  · exact fun h => h rfl
  · cases hNone

end Leaf

------------------------------------------------------------
-- Parameter Values
------------------------------------------------------------

namespace ParamValue

theorem present?_cons
    (key other : String)
    (tree : Tree)
    (entries : ConfigMap) :
    ConfigMap.present? ((key, tree) :: entries) other =
      if other = key then
        (some tree).filter fun value => !value.isNull
      else entries.present? other := by
  by_cases h : other = key
  · simp [ConfigMap.present?, h]
  · have h' : (other == key) = false := by simpa using h
    simp [ConfigMap.present?, List.lookup_cons, h, h']

/- The leaf of a block is found at its key. -/
theorem present?_entryOf
    (key : String)
    (leaf : Leaf)
    (value : leaf.Val) :
    ConfigMap.present? (entryOf key (leaf.flatten value)) key =
      leaf.flatten value := by
  cases h : leaf.flatten value with
  | none => rfl
  | some tree =>
      have hNull := leaf.isNull_of_flatten_eq_some value h
      simp [entryOf, present?_cons, hNull]

theorem expandType_flatten
    (path : FieldPath)
    (value : ParamValue) :
    expandType path value.flatten = .ok value.typeName := by
  cases value <;> rfl

/- A parameter value is read back from its block. -/
theorem expand_flatten
    (path : FieldPath)
    (value : ParamValue) :
    expand path value.flatten = .ok value := by
  simp only [expand, expandType_flatten]
  cases value with
  | string text =>
      have hFound :=
        present?_entryOf "string_val" .text text
      have hRead := (Leaf.expand_flatten
        (path.entry "string_val") .text text rfl).ok trivial
      simp only [flatten, present?_cons, hFound,
        String.reduceEq, if_false, typeName]
      change Except.map ParamValue.string _ = _
      rw [hRead]
      rfl
  | array items =>
      have hFound :=
        present?_entryOf "array_val" .texts items
      have hRead := (Leaf.expand_flatten
        (path.entry "array_val") .texts items rfl).ok trivial
      simp only [flatten, present?_cons, hFound,
        String.reduceEq, if_false]
      change Except.map ParamValue.array _ = _
      rw [hRead]
      rfl
  | object map =>
      have hFound :=
        present?_entryOf "object_val" .textMap map
      have hRead := (Leaf.expand_flatten
        (path.entry "object_val") .textMap map rfl).ok trivial
      simp only [flatten, present?_cons, hFound,
        String.reduceEq, if_false]
      change Except.map ParamValue.object _ = _
      rw [hRead]
      rfl

/- Leaves that are absent or have their shape pass. -/
theorem checkLeaves_eq_ok
    (path : FieldPath)
    (entries : ConfigMap)
    (declared : List (String × Leaf))
    (hLeaves :
      ∀ member, member ∈ declared →
        ∀ tree, entries.present? member.1 = some tree →
          member.2.check (path.entry member.1) tree =
            .ok ()) :
    checkLeaves path entries declared = .ok () := by
  induction declared with
  | nil => rfl
  | cons member rest ih =>
      have hRest := ih fun other hOther =>
        hLeaves other (List.mem_cons_of_mem _ hOther)
      simp only [checkLeaves]
      cases hFound : entries.present? member.1 with
      | none => exact hRest
      | some tree =>
          have hMember :=
            hLeaves member List.mem_cons_self tree hFound
          simp only [hMember]
          exact hRest

theorem present?_entryOf_of_ne
    {key other : String}
    (hNe : other ≠ key)
    (tree : Option Tree) :
    ConfigMap.present? (entryOf key tree) other = none := by
  cases tree with
  | none => rfl
  | some tree =>
      simp only [entryOf, present?_cons, hNe, if_false]
      rfl

/- A block that holds its type and one leaf passes. -/
theorem check_cons_entryOf
    (path : FieldPath)
    {type key : String}
    (leaf : Leaf)
    (value : leaf.Val)
    (hType : type ∈ paramTypes.all)
    (hLeaf :
      ∀ member, member ∈ leaves → member.1 = key →
        member.2 = leaf)
    (hKey : Keyed.has key leaves = true) :
    check path
        (("type", .str type) ::
          entryOf key (leaf.flatten value)) =
      .ok () := by
  have hKnown :
      (("type", .str type) ::
          entryOf key (leaf.flatten value)).find?
        (fun entry => !Keyed.has entry.1 leaves) = none := by
    have hTypeKey : Keyed.has "type" leaves = true := rfl
    cases leaf.flatten value <;>
      simp [entryOf, hTypeKey, hKey]
  simp only [check, hKnown]
  apply checkLeaves_eq_ok
  intro member hMember tree hFound
  rw [present?_cons] at hFound
  by_cases hIsType : member.1 = "type"
  · -- The type comes first among the leaves of a block.
    rw [if_pos hIsType] at hFound
    have hTree : Tree.str type = tree :=
      (Option.filter_eq_some_iff.1 hFound).1 |> Option.some.inj
    have hChoice : member.2 = .choice paramTypes := by
      simp only [leaves, List.mem_cons, List.not_mem_nil,
        or_false] at hMember
      rcases hMember with rfl | rfl | rfl | rfl
      · rfl
      · simp at hIsType
      · simp at hIsType
      · simp at hIsType
    rw [hChoice, ← hTree]
    simp [Leaf.check, Reading.checkChoice, hType]
  · rw [if_neg hIsType] at hFound
    by_cases hIsKey : member.1 = key
    · rw [hIsKey, present?_entryOf] at hFound
      rw [hLeaf member hMember hIsKey]
      exact leaf.check_of_flatten_eq_some _ value hFound
    · rw [present?_entryOf_of_ne hIsKey] at hFound
      cases hFound

theorem typeName_mem (value : ParamValue) :
    value.typeName ∈ paramTypes.all := by
  cases value <;> simp [typeName, paramTypes, Choices.all]

/- The block of a parameter value passes every check. -/
theorem check_flatten
    (path : FieldPath)
    (value : ParamValue) :
    check path value.flatten = .ok () := by
  have hType := value.typeName_mem
  cases value with
  | string text =>
      exact check_cons_entryOf path .text text hType
        (by decide) rfl
  | array items =>
      exact check_cons_entryOf path .texts items hType
        (by decide) rfl
  | object map =>
      exact check_cons_entryOf path .textMap map hType
        (by decide) rfl

end ParamValue

end Converge
