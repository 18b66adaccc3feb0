import Converge.Proofs.Tree.Same
import Mathlib.Data.List.Perm.Subperm

/-
  Trees that differ in nothing but the order of entries.

  Two such trees are taken apart together: scalars are equal,
  lists are alike at each position, maps are alike at each
  key. Where the entries of a map stand is not told apart.

  Key definitions:
    * `Tree.Alike`: trees without repeated keys that are the
      same up to the order of entries
    * `Tree.AlikeMaps`: maps that answer alike at every key
    * `Tree.Matching`: the cases of trees that are alike

  Main declarations:
    * `Tree.sameItems_iff`, `Tree.lookup_of_sameMaps`
    * `Tree.Alike.matching`
-/

namespace Converge

namespace Tree

/- Trees that are the same up to the order of entries. -/
structure Alike (left right : Tree) : Prop where
  isSame : Tree.same left right = true
  leftKeys : left.HasDistinctKeys
  rightKeys : right.HasDistinctKeys

/- Maps without repeated keys that have the same keys, and
   trees that are alike under each of them. -/
structure AlikeMaps (left right : ConfigMap) : Prop where
  leftKeys : (left.map fun entry => entry.1).Nodup
  rightKeys : (right.map fun entry => entry.1).Nodup
  answers :
    ∀ key,
      Option.Rel Alike (left.lookup key) (right.lookup key)

/- The cases of trees that are alike. -/
inductive Matching : Tree → Tree → Prop where
  | scalar {tree : Tree} : Matching tree tree
  | list
      {left right : List Tree}
      (hItems :
        ∀ position : Nat,
          Option.Rel Alike left[position]? right[position]?) :
      Matching (.list left) (.list right)
  | map
      {left right : ConfigMap}
      (hEntries : AlikeMaps left right) :
      Matching (.map left) (.map right)

------------------------------------------------------------
-- Lists
------------------------------------------------------------

/- Lists are the same when they are at each position. -/
theorem sameItems_iff
    {left right : List Tree} :
    sameItems left right = true ↔
      ∀ position : Nat,
        SameAnswer left[position]? right[position]? := by
  induction left generalizing right with
  | nil =>
      cases right with
      | nil => exact iff_of_true rfl fun _ => .none
      | cons other others =>
          refine iff_of_false (by simp [sameItems]) ?_
          intro hAll
          cases hAll 0
  | cons item items ih =>
      cases right with
      | nil =>
          refine iff_of_false (by simp [sameItems]) ?_
          intro hAll
          cases hAll 0
      | cons other others =>
          simp only [sameItems, Bool.and_eq_true, ih]
          constructor
          · rintro ⟨hFirst, hRest⟩ position
            cases position with
            | zero => exact .some hFirst
            | succ position => exact hRest position
          · intro hAll
            have hFirst := hAll 0
            cases hFirst with
            | some hFirst =>
                exact ⟨hFirst, fun position =>
                  hAll (position + 1)⟩

------------------------------------------------------------
-- Maps
------------------------------------------------------------

theorem lookup_of_entriesIn
    {left right : ConfigMap}
    (hEntries : entriesIn left right = true)
    {key : String}
    {tree : Tree}
    (hFound : left.lookup key = some tree) :
    ∃ other, right.lookup key = some other ∧
      same tree other = true := by
  induction left with
  | nil => cases hFound
  | cons entry rest ih =>
      obtain ⟨name, value⟩ := entry
      simp only [entriesIn, Bool.and_eq_true] at hEntries
      by_cases hKey : key = name
      · subst hKey
        rw [List.lookup_cons_self] at hFound
        cases hFound
        cases hOther : right.lookup key with
        | none =>
            rw [hOther] at hEntries
            cases hEntries.1
        | some other =>
            rw [hOther] at hEntries
            exact ⟨other, rfl, hEntries.1⟩
      · have hKey' : (key == name) = false := by
          simpa using hKey
        rw [List.lookup_cons, hKey'] at hFound
        exact ih hEntries.2 hFound

/- Maps that are the same answer alike at every key: as many
   keys on both sides leave none that only one side has. -/
theorem lookup_of_sameMaps
    {left right : ConfigMap}
    (hLeft : (left.map fun entry => entry.1).Nodup)
    (hSame : sameMaps left right = true)
    (key : String) :
    SameAnswer (left.lookup key) (right.lookup key) := by
  simp only [sameMaps, Bool.and_eq_true, decide_eq_true_eq]
    at hSame
  cases hFound : left.lookup key with
  | some tree =>
      rcases lookup_of_entriesIn hSame.2 hFound with
        ⟨other, hOther, hTrees⟩
      rw [hOther]
      exact .some hTrees
  | none =>
      cases hOther : right.lookup key with
      | none => exact .none
      | some other =>
          exfalso
          have hSub :
              (left.map fun entry => entry.1) ⊆
                (right.map fun entry => entry.1) := by
            intro name hName
            rcases List.mem_map.1 hName with
              ⟨entry, hEntry, rfl⟩
            rcases lookup_of_entriesIn hSame.2
                (Keyed.lookup_of_mem hLeft hEntry) with
              ⟨tree, hTree, _⟩
            exact List.mem_map.2
              ⟨_, Keyed.mem_of_lookup hTree, rfl⟩
          have hSubperm := List.subperm_of_subset hLeft hSub
          have hPerm :=
            hSubperm.perm_of_length_le (by simp [hSame.1])
          have hKey :
              key ∈ (left.map fun entry => entry.1) :=
            hPerm.mem_iff.2
              (List.mem_map.2
                ⟨_, Keyed.mem_of_lookup hOther, rfl⟩)
          rcases List.mem_map.1 hKey with
            ⟨entry, hEntry, rfl⟩
          rw [Keyed.lookup_of_mem hLeft hEntry] at hFound
          cases hFound

/- Maps that are the same answer with trees that are alike. -/
theorem alikeMaps_of_sameMaps
    {left right : ConfigMap}
    (hLeft : (Tree.map left).HasDistinctKeys)
    (hRight : (Tree.map right).HasDistinctKeys)
    (hSame : sameMaps left right = true) :
    AlikeMaps left right := by
  refine ⟨hLeft.1, hRight.1, fun key => ?_⟩
  have hAnswer := lookup_of_sameMaps hLeft.1 hSame key
  cases hFound : left.lookup key with
  | none =>
      rw [hFound] at hAnswer
      generalize right.lookup key = other at hAnswer
      cases hAnswer
      exact .none
  | some tree =>
      cases hOther : right.lookup key with
      | none =>
          rw [hFound, hOther] at hAnswer
          cases hAnswer
      | some other =>
          rw [hFound, hOther] at hAnswer
          cases hAnswer with
          | some hTrees =>
              exact .some
                ⟨hTrees,
                  hasDistinctKeys_of_mem_entries hLeft.2
                    (Keyed.mem_of_lookup hFound),
                  hasDistinctKeys_of_mem_entries hRight.2
                    (Keyed.mem_of_lookup hOther)⟩

------------------------------------------------------------
-- Trees
------------------------------------------------------------

/- Trees that are alike are equal scalars, lists or maps. -/
theorem Alike.matching
    {left right : Tree}
    (hAlike : Alike left right) :
    Matching left right := by
  obtain ⟨hSame, hLeft, hRight⟩ := hAlike
  cases left <;> cases right <;>
    simp only [same, Bool.false_eq_true, decide_eq_true_eq]
      at hSame
  case null.null => exact .scalar
  case bool.bool =>
    subst hSame
    exact .scalar
  case int.int =>
    subst hSame
    exact .scalar
  case str.str =>
    subst hSame
    exact .scalar
  case list.list items others =>
    refine .list fun position => ?_
    have hAnswer := sameItems_iff.1 hSame position
    cases hItem : items[position]? with
    | none =>
        rw [hItem] at hAnswer
        generalize others[position]? = other at hAnswer
        cases hAnswer
        exact .none
    | some item =>
        cases hOther : others[position]? with
        | none =>
            rw [hItem, hOther] at hAnswer
            cases hAnswer
        | some other =>
            rw [hItem, hOther] at hAnswer
            cases hAnswer with
            | some hItems =>
                exact .some
                  ⟨hItems,
                    hasDistinctKeys_of_mem hLeft
                      (List.mem_of_getElem? hItem),
                    hasDistinctKeys_of_mem hRight
                      (List.mem_of_getElem? hOther)⟩
  case map.map entries others =>
    exact .map (alikeMaps_of_sameMaps hLeft hRight
      (by simpa only [sameMaps] using hSame))

theorem Alike.isNull_eq
    {left right : Tree}
    (hAlike : Alike left right) :
    left.isNull = right.isNull := by
  cases hAlike.matching <;> rfl

/- What holds of one of two trees that are alike when it holds
   of the other one, holds of one answer when it does of the
   other. -/
theorem rel_congr_of_alike
    {β : Type}
    {holds : Tree → β → Prop}
    {left right : Option Tree}
    {found : Option β}
    (hAlike : Option.Rel Alike left right)
    (hHolds :
      ∀ tree other value, Alike tree other →
        (holds tree value ↔ holds other value)) :
    Option.Rel holds left found ↔
      Option.Rel holds right found := by
  cases hAlike with
  | none => exact Iff.rfl
  | some hTrees =>
      cases found with
      | none => exact iff_of_false (nomatch ·) (nomatch ·)
      | some value =>
          constructor
          · rintro ⟨h⟩
            exact .some ((hHolds _ _ _ hTrees).1 h)
          · rintro ⟨h⟩
            exact .some ((hHolds _ _ _ hTrees).2 h)

/- The same for what is asked of an answer, if there is
   one. -/
theorem forall_congr_of_alike
    {holds : Tree → Prop}
    {left right : Option Tree}
    (hAlike : Option.Rel Alike left right)
    (hHolds :
      ∀ tree other, Alike tree other →
        (holds tree ↔ holds other)) :
    (∀ tree, left = some tree → holds tree) ↔
      ∀ tree, right = some tree → holds tree := by
  cases hAlike with
  | none => exact Iff.rfl
  | some hTrees => simpa using hHolds _ _ hTrees

end Tree

end Converge
