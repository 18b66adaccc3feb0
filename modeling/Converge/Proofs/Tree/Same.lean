import Converge.Proofs.Keyed
import Converge.Tree.Basic

/-
  Equality of trees up to the order of entries.

  Where no key repeats, two maps are the same exactly when
  they answer alike at every key, and the order in which
  their entries stand does not show.

  Key definitions:
    * `Tree.SameAnswer`: what two maps answer at a key

  Main declarations:
    * `Tree.same_refl`
    * `Tree.sameMaps_of_lookup`
-/

namespace Converge

namespace Tree

------------------------------------------------------------
-- Distinct Keys
------------------------------------------------------------

theorem hasDistinctKeys_of_mem
    {items : List Tree}
    (hItems : ItemsHaveDistinctKeys items)
    {item : Tree}
    (hItem : item ∈ items) :
    item.HasDistinctKeys := by
  induction items with
  | nil => cases hItem
  | cons first rest ih =>
      rcases List.mem_cons.1 hItem with rfl | hRest
      · exact hItems.1
      · exact ih hItems.2 hRest

theorem hasDistinctKeys_of_mem_entries
    {entries : ConfigMap}
    (hEntries : EntriesHaveDistinctKeys entries)
    {entry : String × Tree}
    (hEntry : entry ∈ entries) :
    entry.2.HasDistinctKeys := by
  induction entries with
  | nil => cases hEntry
  | cons first rest ih =>
      rcases List.mem_cons.1 hEntry with rfl | hRest
      · exact hEntries.1
      · exact ih hEntries.2 hRest

------------------------------------------------------------
-- Lists and Maps
------------------------------------------------------------

/- The entries of a map stand in another one when each is
   found there. -/
theorem entriesIn_of_lookup
    {left right : ConfigMap}
    (hFound :
      ∀ entry, entry ∈ left →
        ∃ other, right.lookup entry.1 = some other ∧
          same entry.2 other = true) :
    entriesIn left right = true := by
  induction left with
  | nil => rfl
  | cons entry rest ih =>
      obtain ⟨key, value⟩ := entry
      have hRest := ih fun other hOther =>
        hFound other (List.mem_cons_of_mem _ hOther)
      rcases hFound (key, value) List.mem_cons_self with
        ⟨other, hOther, hSame⟩
      simp only [entriesIn, hOther, hSame, hRest,
        Bool.and_self]

/- The keys of maps that answer alike are the same. -/
theorem length_eq_of_lookup
    {left right : ConfigMap}
    (hLeft : (left.map fun entry => entry.1).Nodup)
    (hRight : (right.map fun entry => entry.1).Nodup)
    (hSame :
      ∀ key,
        (left.lookup key).isSome = (right.lookup key).isSome) :
    left.length = right.length := by
  have hMem :
      ∀ (entries : ConfigMap) (key : String),
        key ∈ (entries.map fun entry => entry.1) ↔
          (entries.lookup key).isSome = true := by
    intro entries key
    rw [← Keyed.has_eq_isSome, Keyed.has, List.any_eq_true,
      List.mem_map]
    simp only [decide_eq_true_eq]
  have hPerm :=
    (List.perm_ext_iff_of_nodup hLeft hRight).2 fun key => by
      rw [hMem, hMem, hSame]
  simpa using hPerm.length_eq

/- Two maps answer alike at a key: neither has it, or both
   have the same tree. -/
abbrev SameAnswer (value other : Option Tree) : Prop :=
  Option.Rel (fun left right => same left right = true)
    value other

/- Maps that answer alike at every key are the same. -/
theorem sameMaps_of_lookup
    {left right : ConfigMap}
    (hLeft : (left.map fun entry => entry.1).Nodup)
    (hRight : (right.map fun entry => entry.1).Nodup)
    (hSame :
      ∀ key,
        SameAnswer (left.lookup key) (right.lookup key)) :
    sameMaps left right = true := by
  have hLength : left.length = right.length := by
    apply length_eq_of_lookup hLeft hRight
    intro key
    have hKey := hSame key
    generalize left.lookup key = value at hKey ⊢
    generalize right.lookup key = other at hKey ⊢
    cases hKey <;> rfl
  have hEntries : entriesIn left right = true := by
    apply entriesIn_of_lookup
    intro entry hEntry
    have hFound := hSame entry.1
    rw [Keyed.lookup_of_mem hLeft hEntry] at hFound
    cases hOther : right.lookup entry.1 with
    | none =>
        rw [hOther] at hFound
        cases hFound
    | some other =>
        rw [hOther] at hFound
        cases hFound with
        | some hSameValue => exact ⟨other, rfl, hSameValue⟩
  simp only [sameMaps, hLength, hEntries, decide_true,
    Bool.and_self]

theorem same_map
    {left right : ConfigMap}
    (h : sameMaps left right = true) :
    same (.map left) (.map right) = true := by
  simpa only [same, sameMaps] using h

theorem same_list
    {left right : List Tree}
    (h : sameItems left right = true) :
    same (.list left) (.list right) = true := by
  simpa only [same] using h

/- A map that is the same as one with entries has some. -/
theorem isEmpty_eq_of_sameMaps
    {left right : ConfigMap}
    (h : sameMaps left right = true) :
    left.isEmpty = right.isEmpty := by
  simp only [sameMaps, Bool.and_eq_true, decide_eq_true_eq]
    at h
  cases left <;> cases right <;> simp_all

theorem isEmpty_eq_of_sameItems
    {left right : List Tree}
    (h : sameItems left right = true) :
    left.isEmpty = right.isEmpty := by
  cases left <;> cases right <;> simp_all [sameItems]

------------------------------------------------------------
-- Reflexivity
------------------------------------------------------------

mutual

/- A tree is the same as itself. -/
theorem same_refl :
    ∀ tree : Tree,
      tree.HasDistinctKeys → same tree tree = true
  | .null, _ => by simp only [same]
  | .bool _, _ => by simp only [same, decide_true]
  | .int _, _ => by simp only [same, decide_true]
  | .str _, _ => by simp only [same, decide_true]
  | .list items, hDistinct => by
      simp only [same]
      exact sameItems_refl items hDistinct
  | .map entries, hDistinct => by
      have hEntries : entriesIn entries entries = true :=
        entriesIn_self entries entries hDistinct.2
          fun entry hEntry =>
            Keyed.lookup_of_mem hDistinct.1 hEntry
      simp only [same, hEntries, decide_true, Bool.and_self]

theorem sameItems_refl :
    ∀ items : List Tree,
      ItemsHaveDistinctKeys items →
        sameItems items items = true
  | [], _ => by simp only [sameItems]
  | item :: items, hDistinct => by
      have hFirst := same_refl item hDistinct.1
      have hRest := sameItems_refl items hDistinct.2
      simp only [sameItems, hFirst, hRest, Bool.and_self]

theorem entriesIn_self :
    ∀ entries others : ConfigMap,
      EntriesHaveDistinctKeys entries →
        (∀ entry, entry ∈ entries →
          others.lookup entry.1 = some entry.2) →
          entriesIn entries others = true
  | [], _, _, _ => by simp only [entriesIn]
  | (key, value) :: entries, others, hDistinct, hFound => by
      have hFirst := same_refl value hDistinct.1
      have hHead := hFound (key, value) List.mem_cons_self
      have hRest := entriesIn_self entries others hDistinct.2
        fun entry hEntry =>
          hFound entry (List.mem_cons_of_mem _ hEntry)
      simp only [entriesIn, hHead, hFirst, hRest,
        Bool.and_self]

end

end Tree

end Converge
